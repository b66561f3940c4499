import Storageprims.S3.Objects
import Storageprims.Text.Percent

/-!
# The source header of a native copy

A copy inside one bucket is done by the service, which reads the source from a header.  The
header holds the bucket and the key, each percent-encoded, with a separator between them.
The encoder is a parameter; what is asked of it is that it escapes every byte but letters
and digits.
-/

namespace Storageprims

section

variable (utf8PercentEncode : String → (UInt8 → Bool) → String)

def encodeCopySource (bucket key : String) : String :=
  utf8PercentEncode bucket Percent.nonAlphanumeric ++ "/" ++
    utf8PercentEncode key Percent.nonAlphanumeric

/-- The header a request carries: only a native copy has one. -/
def ServiceCall.copySource : ServiceCall → Option String
  | .copyObject source _ =>
      some (encodeCopySource utf8PercentEncode source.location.bucket source.location.key)
  | _ => none

end

/-- The object a header names: both halves decoded. -/
def decodeCopySource (header : String) : Option S3Location := do
  let (bucket, key) ← Str.splitOnce "/" header
  return ⟨← Percent.decode bucket, ← Percent.decode key⟩

variable {utf8PercentEncode : String → (UInt8 → Bool) → String}

/-- No separator is left in an encoded text. -/
theorem not_mem_encode (text : String) :
    '/' ∉ (Percent.encode Percent.nonAlphanumeric text).toList := by
  intro hmem
  rcases Percent.mem_encode hmem with h | h
  · cases h
  · cases h

/-- Reading a header back gives the bucket and the key it was made of. -/
theorem decodeCopySource_encodeCopySource
    (hencode : ∀ text, utf8PercentEncode text Percent.nonAlphanumeric =
      Percent.encode Percent.nonAlphanumeric text) (bucket key : String) :
    decodeCopySource (encodeCopySource utf8PercentEncode bucket key) = some ⟨bucket, key⟩ := by
  rw [encodeCopySource, hencode, hencode, decodeCopySource,
    Str.splitOnce_of_not_mem rfl (not_mem_encode bucket)]
  simp only [Option.bind_eq_bind, Option.bind_some,
    Percent.decode_encode Percent.nonAlphanumeric_percent]
  rfl

/-- The service reads the object that the copy was asked to read. -/
theorem copySource_names_source {provider : S3Provider} {reported : Option Int}
    {request : CopyRequest} {calls : List ServiceCall} {call : ServiceCall} {header : String}
    (hencode : ∀ text, utf8PercentEncode text Percent.nonAlphanumeric =
      Percent.encode Percent.nonAlphanumeric text)
    (hcalls : provider.copyCalls reported request = .ok calls) (hcall : call ∈ calls)
    (hheader : call.copySource utf8PercentEncode = some header) :
    ∃ location, provider.resolveCopyLocation request.source "source" = .ok location ∧
      decodeCopySource header = some location := by
  obtain ⟨source, hsource, hcalls⟩ := except_bind_ok hcalls
  obtain ⟨destination, -, hcalls⟩ := except_bind_ok hcalls
  obtain ⟨location, hlocation, hsource⟩ := except_bind_ok hsource
  cases hsource
  by_cases hbucket : location.bucket = destination.location.bucket
  · rw [if_pos hbucket] at hcalls
    cases hcalls
    obtain rfl := List.mem_singleton.mp hcall
    cases hheader
    exact ⟨location, hlocation, decodeCopySource_encodeCopySource hencode _ _⟩
  · -- the calls of a relayed copy carry no header
    rw [if_neg hbucket] at hcalls
    cases hcalls
    rcases List.mem_pair.mp hcall with rfl | rfl
    · cases hheader
    · cases hheader

/-- A header is printable, has one separator, and gives back its bucket and key when it is
split there and decoded.  So no two objects share a header. -/
theorem copySource_identifies (utf8PercentEncode : String → (UInt8 → Bool) → String)
    (hencode : ∀ text, utf8PercentEncode text Percent.nonAlphanumeric =
      Percent.encode Percent.nonAlphanumeric text) :
    (∀ bucket key, let header := encodeCopySource utf8PercentEncode bucket key
      (∀ c ∈ header.toList, 0x21 ≤ c.toNat ∧ c.toNat ≤ 0x7E) ∧
      header.toList.count '/' = 1 ∧
      ∃ front back, Str.splitOnce "/" header = some (front, back) ∧
        Percent.decode front = some bucket ∧ Percent.decode back = some key) ∧
    ∀ bucket key bucket' key', encodeCopySource utf8PercentEncode bucket key =
      encodeCopySource utf8PercentEncode bucket' key' → bucket = bucket' ∧ key = key' := by
  refine ⟨fun bucket key => ?_, fun bucket key bucket' key' h => ?_⟩
  · have hheader : encodeCopySource utf8PercentEncode bucket key =
        Percent.encode Percent.nonAlphanumeric bucket ++ "/" ++
          Percent.encode Percent.nonAlphanumeric key := by
      rw [encodeCopySource, hencode, hencode]
    refine ⟨fun c hc => ?_, ?_, _, _, ?_,
      Percent.decode_encode Percent.nonAlphanumeric_percent bucket,
      Percent.decode_encode Percent.nonAlphanumeric_percent key⟩
    · rw [hheader, String.toList_append, String.toList_append, List.mem_append,
        List.mem_append] at hc
      have hsingle : "/".toList = ['/'] := rfl
      rw [hsingle, List.mem_singleton] at hc
      have hplain : ∀ {text : String}, c ∈ (Percent.encode Percent.nonAlphanumeric text).toList →
          0x21 ≤ c.toNat ∧ c.toNat ≤ 0x7E := by
        intro text hmem
        rcases Percent.mem_encode hmem with rfl | halphanumeric
        · decide
        · have := Percent.isAlphanum_iff.mp halphanumeric
          omega
      rcases hc with (hfront | rfl) | hback
      · exact hplain hfront
      · decide
      · exact hplain hback
    · rw [hheader, String.toList_append, String.toList_append, List.count_append,
        List.count_append, List.count_eq_zero.mpr (not_mem_encode bucket),
        List.count_eq_zero.mpr (not_mem_encode key)]
      rfl
    · rw [hheader]
      exact Str.splitOnce_of_not_mem rfl (not_mem_encode bucket) _
  · have hread := decodeCopySource_encodeCopySource hencode bucket key
    rw [h, decodeCopySource_encodeCopySource hencode] at hread
    cases hread
    exact ⟨rfl, rfl⟩

/-- The documented encoder, on a key with a separator and an escape of its own. -/
theorem copySource_identifies_escaped :
    ∃ front back,
      Str.splitOnce "/" (encodeCopySource (fun text escapes => Percent.encode escapes text)
        "b" "a/%2F") = some (front, back) ∧
      Percent.decode front = some "b" ∧ Percent.decode back = some "a/%2F" :=
  ((copySource_identifies (fun text escapes => Percent.encode escapes text) fun _ => rfl).1
    "b" "a/%2F").2.2

/-- The header of the source's own test. -/
example : encodeCopySource (fun text escapes => Percent.encode escapes text) "bucket-a"
    "path with spaces/a+b#c.txt" = "bucket%2Da/path%20with%20spaces%2Fa%2Bb%23c%2Etxt" := by
  decide +kernel

end Storageprims

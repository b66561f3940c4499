import Storageprims.Core.Types

/-!
# Pointers and texts of the caller

What every call of the interface does with its arguments: texts come in as C strings and go
out as the JSON text of a result, behind a pointer that is checked twice.
-/

namespace Storageprims

/-- A C string from the caller: null, or bytes that are text or are not. -/
abbrev CStr := Option (Except String String)

/-- A `*mut *mut c_char` from the caller: null, or what it points to, which may in
turn be null. -/
abbrev OutPointer := Option (Option String)

def parseCstr (value : CStr) (field : String) : Except StorageError String :=
  match value with
  | none => .error (.invalidArgument none field "value must not be null")
  | some (.error error) =>
      .error (.invalidArgument none field ("value must be valid UTF-8: " ++ error))
  | some (.ok text) => .ok text

theorem parseCstr_ok {value : CStr} {field text : String} (h : parseCstr value field = .ok text) :
    value = some (.ok text) := by
  cases value with
  | none => cases h
  | some bytes =>
      cases bytes with
      | error error => cases h
      | ok other =>
          cases h
          rfl

def parseJson {α : Type} (fromStr : String → Except String α) (value : CStr) (field : String) :
    Except StorageError α := do
  let text ← parseCstr value field
  (fromStr text).mapError fun error =>
    .invalidArgument none field ("invalid JSON payload: " ++ error)

def initializeOutJson (outIsNull : Bool) (field : String) (operation : StorageOperation) :
    Except StorageError Unit :=
  if outIsNull then
    .error (.invalidArgument (some operation) field "output pointer must not be null")
  else .ok ()

/-- `CString::new`: a C string has no NUL inside. -/
def cStringNew (text : String) : Except String String :=
  match (asBytes text).findIdx? (· == 0) with
  | none => .ok text
  | some position => .error ("nul byte found in provided data at position: " ++ toString position)

/-- A text as it is handed to the caller. -/
def withoutNul (text : String) : String := text.map fun c => if c = '\x00' then '?' else c

/-- The pointer after `write_json`, given what the serializer made of the value. -/
def writeJson (json : Except String String) (out : OutPointer) :
    Except StorageError OutPointer := do
  if out.isNone then
    .error (.invalidArgument none "out_json" "output pointer must not be null")
  else do
    let json ← json.mapError fun error =>
      .other none none ("failed to serialize JSON result: " ++ error)
    let cJson ← (cStringNew (withoutNul json)).mapError fun error =>
      .other none none ("failed to encode JSON result: " ++ error)
    return some (some cJson)

/-! ## C strings -/

/-- Only the NUL character is written with a zero byte. -/
theorem zero_notMem_utf8EncodeChar {c : Char} (hc : c ≠ '\x00') :
    (0 : UInt8) ∉ String.utf8EncodeChar c := by
  have hval : 0 < c.val.toNat := by
    rw [Nat.pos_iff_ne_zero]
    exact fun hzero => hc (Char.ext (UInt32.toNat_inj.mp hzero))
  have hbyte : ∀ n : Nat, 0 < n → n < 256 → (0 : UInt8) ≠ UInt8.ofNat n := by
    intro n hpos hlt heq
    have hzero := congrArg UInt8.toNat heq
    rw [UInt8.toNat_ofNat', Nat.mod_eq_of_lt hlt] at hzero
    exact absurd hzero.symm (Nat.ne_of_gt hpos)
  have hfree : ∀ bytes : List Nat, (∀ n ∈ bytes, 0 < n ∧ n < 256) →
      (0 : UInt8) ∉ bytes.map UInt8.ofNat := by
    intro bytes hbytes hmem
    obtain ⟨n, hn, heq⟩ := List.mem_map.mp hmem
    exact hbyte n (hbytes n hn).1 (hbytes n hn).2 heq.symm
  unfold String.utf8EncodeChar
  dsimp only
  split
  · refine hfree [_] fun n hn => ?_
    rw [List.mem_singleton.mp hn]
    omega
  · split
    · exact hfree [_, _] (by simp; omega)
    · split
      · exact hfree [_, _, _] (by simp; omega)
      · exact hfree [_, _, _, _] (by simp; omega)

theorem asBytes_eq (text : String) : asBytes text = text.toList.flatMap String.utf8EncodeChar := by
  unfold asBytes
  rw [← String.utf8Encode_toList]
  simp [List.utf8Encode]

/-- A text without NUL is a C string. -/
theorem cStringNew_withoutNul (text : String) :
    cStringNew (withoutNul text) = .ok (withoutNul text) := by
  have hfree : (0 : UInt8) ∉ asBytes (withoutNul text) := by
    rw [asBytes_eq, List.mem_flatMap]
    rintro ⟨c, hc, hzero⟩
    rw [withoutNul, String.toList_map] at hc
    obtain ⟨d, -, rfl⟩ := List.mem_map.mp hc
    refine zero_notMem_utf8EncodeChar ?_ hzero
    by_cases hd : d = '\x00'
    · rw [if_pos hd]
      decide
    · rwa [if_neg hd]
  have hnone : (asBytes (withoutNul text)).findIdx? (· == 0) = none := by
    rw [List.findIdx?_eq_none_iff]
    intro byte hbyte
    exact beq_eq_false_iff_ne.mpr fun hzero => hfree (hzero ▸ hbyte)
  unfold cStringNew
  rw [hnone]

/-- The JSON text is what the caller gets: only the serializer can refuse it. -/
theorem writeJson_text (text : String) (cell : Option String) :
    writeJson (.ok text) (some cell) = .ok (some (some (withoutNul text))) := by
  show ((cStringNew (withoutNul text)).mapError _ >>= fun cJson =>
    (pure (some (some cJson)) : Except StorageError OutPointer)) = _
  rw [cStringNew_withoutNul]
  rfl

theorem writeJson_ok {json : Except String String} {out out' : OutPointer}
    (h : writeJson json out = .ok out') :
    ∃ text, json = .ok text ∧ out' = some (some (withoutNul text)) := by
  cases out with
  | none => cases h
  | some cell =>
      cases json with
      | error error => cases h
      | ok text =>
          rw [writeJson_text] at h
          cases h
          exact ⟨text, rfl, rfl⟩

theorem writeJson_emptyObject :
    writeJson (.ok "\x7b\x7d") (some none) = .ok (some (some "\x7b\x7d")) := by
  rw [writeJson_text]
  decide +kernel

end Storageprims

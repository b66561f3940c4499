import Storageprims.S3.Objects

/-!
# Copy locations

A copy names its source and its destination by an address or by a key of the provider,
and reports both as addresses.  An address may name no object at all: only the bucket is
checked, and the key behind it may be empty.
-/

namespace Storageprims

/-- The address that `relay_copy` reports for a location. -/
def S3Location.uri (location : S3Location) : String :=
  "s3://" ++ location.bucket ++ "/" ++ location.key

/-- The location of a copy value has a bucket and a key, its address resolves to it
again, and a value that is no address resolves to the key of the other operations. -/
structure WellFormedLocation (provider : S3Provider) (value : String) : Prop where
  stable : ∀ field location, provider.resolveCopyLocation value field = .ok location →
    location.bucket ≠ "" ∧ location.key ≠ "" ∧
      ∀ field', provider.resolveCopyLocation location.uri field' = .ok location
  relative : ¬ Str.startsWith "s3://" value → ∀ field,
    (provider.resolveCopyLocation value field).map (·.key) = provider.resolveKey value

/-- An address without a key, or a key of which nothing is left; or a key for a provider
whose bucket has no name. -/
def NamesNothing (provider : S3Provider) (value : String) : Prop :=
  (∃ bucket, bucket ≠ "" ∧ '/' ∉ bucket.toList ∧
    (value = "s3://" ++ bucket ∨ value = "s3://" ++ bucket ++ "/")) ∨
  (¬ Str.startsWith "s3://" value ∧ value ≠ "" ∧
    (provider.bucket = "" ∨ provider.rootPrefix = none ∧ ¬ NamesObject value))

section

variable {provider : S3Provider} {value bucket key : String}

/-- An address with a separator resolves to its bucket and the path behind it. -/
theorem resolveCopyLocation_address (hbucket : bucket ≠ "") (hslash : '/' ∉ bucket.toList)
    (key field : String) :
    provider.resolveCopyLocation ("s3://" ++ bucket ++ "/" ++ key) field =
      .ok ⟨bucket, key⟩ := by
  have hrest : "s3://" ++ bucket ++ "/" ++ key = "s3://" ++ (bucket ++ "/" ++ key) := by
    simp only [String.append_assoc]
  rw [provider.resolveCopyLocation_absolute hrest, StorageUri.parseContainerPath,
    Str.splitOnce_of_not_mem rfl hslash key, Option.getD_some]
  dsimp only
  rw [if_neg hbucket]
  rfl

theorem resolveCopyLocation_bucket (hbucket : bucket ≠ "") (hslash : '/' ∉ bucket.toList)
    (field : String) :
    provider.resolveCopyLocation ("s3://" ++ bucket) field = .ok ⟨bucket, ""⟩ := by
  rw [provider.resolveCopyLocation_absolute rfl, StorageUri.parseContainerPath,
    (Str.splitOnce_eq_none_iff rfl).mpr hslash, Option.getD_none]
  dsimp only
  rw [if_neg hbucket]
  rfl

/-- Every address that resolves is one of the two. -/
theorem resolveCopyLocation_cases {location : S3Location} {field : String}
    (hvalue : Str.startsWith "s3://" value)
    (h : provider.resolveCopyLocation value field = .ok location) :
    location.bucket ≠ "" ∧ '/' ∉ location.bucket.toList ∧
      (value = location.uri ∨ value = "s3://" ++ location.bucket ∧ location.key = "") := by
  obtain ⟨rest, hrest⟩ := Str.startsWith_iff.mp hvalue
  rw [provider.resolveCopyLocation_absolute hrest, StorageUri.parseContainerPath] at h
  -- without a separator the whole rest is the bucket
  cases hsplit : Str.splitOnce "/" rest with
  | none =>
      rw [hsplit, Option.getD_none] at h
      dsimp only at h
      split at h
      · cases h
      · next hbucket =>
          cases h
          exact ⟨hbucket, (Str.splitOnce_eq_none_iff rfl).mp hsplit, .inr ⟨hrest, rfl⟩⟩
  | some parts =>
      obtain ⟨bucket, key⟩ := parts
      rw [hsplit, Option.getD_some] at h
      dsimp only at h
      split at h
      · cases h
      · next hbucket =>
          cases h
          refine ⟨hbucket, Str.not_mem_of_splitOnce rfl hsplit, .inl ?_⟩
          rw [hrest, Str.append_of_splitOnce hsplit, S3Location.uri]
          simp only [Option.getD_some, String.append_assoc]

theorem joinKey_eq_empty_iff {rootPrefix : Option String} (hroot : IsNormalRoot rootPrefix) :
    joinKey rootPrefix key = "" ↔ rootPrefix = none ∧ ¬ NamesObject key := by
  rw [namesObject_iff, not_not]
  cases rootPrefix with
  | none =>
      rw [joinKey_none]
      simp
  | some root =>
      rw [joinKey_some hroot.ne_empty]
      -- beneath a root even the bare root is left
      refine iff_of_false ?_ (by simp)
      by_cases hkey : Str.trimStart '/' key = ""
      · rw [if_pos hkey]
        exact hroot.ne_empty
      · rw [if_neg hkey]
        simp [hroot.ne_empty]

/-- A key resolves to the bucket of the provider and the joined key. -/
theorem resolveCopyLocation_key_iff {location : S3Location} {field : String}
    (hvalue : ¬ Str.startsWith "s3://" value) :
    provider.resolveCopyLocation value field = .ok location ↔
      value ≠ "" ∧ location = ⟨provider.bucket, joinKey provider.rootPrefix value⟩ := by
  rw [provider.resolveCopyLocation_relative hvalue, S3Provider.resolveKey]
  by_cases hempty : value = ""
  · rw [if_pos hempty]
    exact iff_of_false (by simp [Except.map]) fun h => h.1 hempty
  · rw [if_neg hempty]
    simp [Except.map, hempty, eq_comm]

/-- What names nothing resolves to a location without a bucket or without a key. -/
theorem NamesNothing.not_wellFormed (h : NamesNothing provider value) :
    ¬ WellFormedLocation provider value := by
  intro hwell
  rcases h with ⟨bucket, hbucket, hslash, rfl | rfl⟩ | ⟨hkey, hvalue, hnothing⟩
  · exact (hwell.stable "" _ (resolveCopyLocation_bucket hbucket hslash "")).2.1 rfl
  · refine (hwell.stable "" ⟨bucket, ""⟩ ?_).2.1 rfl
    rw [← String.append_empty (s := "s3://" ++ bucket ++ "/")]
    exact resolveCopyLocation_address hbucket hslash "" ""
  · obtain ⟨hbucket, hjoined, -⟩ :=
      hwell.stable "" _ ((resolveCopyLocation_key_iff hkey).mpr ⟨hvalue, rfl⟩)
    rcases hnothing with hnone | hnone
    · exact hbucket hnone
    · exact hjoined ((joinKey_eq_empty_iff provider.rootPrefix_normal).mpr hnone)

/-- Any other value that resolves names a bucket and a key. -/
theorem resolveCopyLocation_names {location : S3Location} {field : String}
    (hbucket : '/' ∉ provider.bucket.toList) (hnames : ¬ NamesNothing provider value)
    (h : provider.resolveCopyLocation value field = .ok location) :
    location.bucket ≠ "" ∧ '/' ∉ location.bucket.toList ∧ location.key ≠ "" := by
  by_cases haddress : Str.startsWith "s3://" value
  · obtain ⟨hne, hslash, hvalue⟩ := resolveCopyLocation_cases haddress h
    refine ⟨hne, hslash, fun hkey => hnames (.inl ⟨location.bucket, hne, hslash, ?_⟩)⟩
    rcases hvalue with hvalue | ⟨hvalue, -⟩
    · right
      rw [hvalue, S3Location.uri, hkey, String.append_empty]
    · exact .inl hvalue
  · obtain ⟨hvalue, rfl⟩ := (resolveCopyLocation_key_iff haddress).mp h
    refine ⟨fun hnone => hnames (.inr ⟨haddress, hvalue, .inl hnone⟩), hbucket, fun hkey => ?_⟩
    exact hnames (.inr ⟨haddress, hvalue,
      .inr ((joinKey_eq_empty_iff provider.rootPrefix_normal).mp hkey)⟩)

end

/-- Copy locations are well formed and stable, except where the value names no object:
the check for an empty key is missing for addresses. -/
theorem copyLocation_wellFormed_iff (provider : S3Provider) (value : String)
    (hbucket : '/' ∉ provider.bucket.toList) :
    WellFormedLocation provider value ↔ ¬ NamesNothing provider value := by
  constructor
  · exact fun hwell hnothing => hnothing.not_wellFormed hwell
  · intro hnames
    refine ⟨fun field location h => ?_, fun haddress field => ?_⟩
    · obtain ⟨hne, hslash, hkey⟩ := resolveCopyLocation_names hbucket hnames h
      exact ⟨hne, hkey, resolveCopyLocation_address hne hslash location.key⟩
    · rw [provider.resolveCopyLocation_relative haddress]
      cases provider.resolveKey value with
      | error error => rfl
      | ok key => rfl

theorem copyLocation_wellFormed_iff_rooted :
    '/' ∉ "bucket".toList ∧
      (WellFormedLocation ⟨"bucket", some "root", none, by decide⟩ "s3://bucket" ↔
        ¬ NamesNothing ⟨"bucket", some "root", none, by decide⟩ "s3://bucket") :=
  ⟨by decide, copyLocation_wellFormed_iff ⟨"bucket", some "root", none, by decide⟩
    "s3://bucket" (by decide)⟩

/-- An address without a key resolves to the empty key. -/
theorem copyLocation_without_key :
    ¬ ∀ (provider : S3Provider) (value : String), '/' ∉ provider.bucket.toList →
      WellFormedLocation provider value := by
  intro h
  have hlocation := h ⟨"bucket", none, none, by decide⟩ "s3://other" (by decide)
  exact (hlocation.stable "source" ⟨"other", ""⟩ (by decide +kernel)).2.1 rfl

end Storageprims

import Storageprims.Core.Error
import Storageprims.Text.Str

/-!
# Keys and prefixes beneath a root

A configured root prefix confines a provider to the keys behind `root/`.
Requests join the root and the caller's key; listings strip the root again.
The two directions are written independently in the source, and this module
says what each of them does to every string.
-/

namespace Storageprims

def normalizePrefix (value : Option String) : Option String :=
  (value.map (Str.trimMatches '/')).filter (· ≠ "")

/-- Filtering keeps a non-empty text. -/
theorem filter_ne_empty {text : String} (htext : text ≠ "") :
    (some text).filter (· ≠ "") = some text := by
  simp [Option.filter, htext]

def listRootBoundary (rootPrefix : Option String) : Option String :=
  (rootPrefix.filter (· ≠ "")).map (· ++ "/")

/-- A scheme is a letter followed by letters, digits and `+`, `-`, `.`, in front
of the first `://`. -/
def startsWithUriScheme (value : String) : Bool :=
  match Str.splitOnce "://" value with
  | none => false
  | some (scheme, _) =>
      match scheme.toList with
      | [] => false
      | first :: chars =>
          first.isAlpha && chars.all fun c => c.isAlphanum || c == '+' || c == '-' || c == '.'

def resolveListPrefix (rootPrefix callerPrefix : Option String) :
    Except StorageError (Option String) :=
  if ∃ value ∈ callerPrefix, Str.startsWith "/" value ∨ startsWithUriScheme value then
    .error (.invalidArgument (some .list) "prefix" "list prefix must be provider-relative")
  else
    match listRootBoundary rootPrefix, callerPrefix.filter (· ≠ "") with
    | some boundary, some value => .ok (some (boundary ++ value))
    | some boundary, none => .ok (some boundary)
    | none, some value => .ok (some value)
    | none, none => .ok none

def stripRootPrefix (rootPrefix : Option String) (key : String) : Except StorageError String :=
  match listRootBoundary rootPrefix with
  | none => .ok key
  | some boundary =>
      match Str.stripFront boundary key with
      | some rest => .ok rest
      | none => .error (.other (some .s3) (some .list)
          "S3 returned an object outside the configured list boundary")

def joinKey (rootPrefix : Option String) (key : String) : String :=
  let key := Str.trimStart '/' key
  match rootPrefix with
  | some root =>
      if root ≠ "" ∧ key ≠ "" then root ++ "/" ++ key
      else if root ≠ "" then root
      else key
  | none => key

def resolveRootPrefix (uriPath : String) (configuredRoot : Option String) :
    Except StorageError (Option String) :=
  match normalizePrefix (some uriPath), normalizePrefix configuredRoot with
  | some _, some _ => .error (.invalidArgument (some .configureProvider) "target.root_prefix"
      "URI path and configured root prefix cannot both be set")
  | uriRoot, configuredRoot => .ok (configuredRoot.or uriRoot)

/-! ## Normalised roots -/

/-- A root prefix as `normalizePrefix` leaves it. -/
def IsNormalRoot (rootPrefix : Option String) : Prop :=
  normalizePrefix rootPrefix = rootPrefix

instance (rootPrefix : Option String) : Decidable (IsNormalRoot rootPrefix) :=
  inferInstanceAs (Decidable (_ = _))

theorem isNormalRoot_normalizePrefix (value : Option String) :
    IsNormalRoot (normalizePrefix value) := by
  unfold IsNormalRoot normalizePrefix
  cases value with
  | none => rfl
  | some text =>
      rw [Option.map_some]
      by_cases htext : Str.trimMatches '/' text = ""
      · rw [htext]
        rfl
      · rw [filter_ne_empty htext, Option.map_some, Str.trimMatches_idem, filter_ne_empty htext]

theorem isNormalRoot_resolveRootPrefix {uriPath : String} {configuredRoot root : Option String}
    (h : resolveRootPrefix uriPath configuredRoot = .ok root) : IsNormalRoot root := by
  have huri := isNormalRoot_normalizePrefix (some uriPath)
  have hconfigured := isNormalRoot_normalizePrefix configuredRoot
  unfold resolveRootPrefix at h
  split at h
  · cases h
  · cases h
    cases hroot : normalizePrefix configuredRoot with
    | none =>
        rw [Option.none_or]
        exact huri
    | some value =>
        rw [Option.some_or, ← hroot]
        exact hconfigured

/-- A normalised root is absent or a non-empty text. -/
theorem IsNormalRoot.ne_empty {root : String} (hroot : IsNormalRoot (some root)) : root ≠ "" := by
  rintro rfl
  exact absurd hroot (by decide)

theorem listRootBoundary_some {root : String} (hroot : root ≠ "") :
    listRootBoundary (some root) = some (root ++ "/") := by
  rw [listRootBoundary, filter_ne_empty hroot, Option.map_some]

/-! ## The keys strictly beneath a root -/

/-- `full` is a key that a listing of the root projects to a non-empty path. -/
def Beneath (rootPrefix : Option String) (full : String) : Prop :=
  ∃ rest, rest ≠ "" ∧ stripRootPrefix rootPrefix full = .ok rest

/-- The key of a request is more than separators. -/
def NamesObject (key : String) : Prop := ∃ c ∈ key.toList, c ≠ '/'

instance (key : String) : Decidable (NamesObject key) :=
  inferInstanceAs (Decidable (∃ c ∈ key.toList, c ≠ '/'))

theorem namesObject_iff {key : String} : NamesObject key ↔ Str.trimStart '/' key ≠ "" := by
  unfold NamesObject
  rw [Ne, Str.trimStart_eq_empty_iff]
  simp

theorem stripRootPrefix_none (key : String) : stripRootPrefix none key = .ok key := rfl

theorem stripRootPrefix_some_iff {root full rest : String} (hroot : root ≠ "") :
    stripRootPrefix (some root) full = .ok rest ↔ full = root ++ "/" ++ rest := by
  unfold stripRootPrefix
  rw [listRootBoundary_some hroot]
  simp only
  cases hstrip : Str.stripFront (root ++ "/") full with
  | none =>
      refine iff_of_false (by simp) fun hfull => ?_
      rw [Str.stripFront_eq_some_iff.mpr hfull] at hstrip
      cases hstrip
  | some back =>
      rw [Str.stripFront_eq_some_iff] at hstrip
      constructor
      · intro hback
        rw [hstrip, Except.ok.inj hback]
      · intro hfull
        rw [hstrip] at hfull
        rw [(String.append_right_inj _).mp hfull]

/-- Beneath a root are exactly the keys `root/rest` with a non-empty `rest`. -/
theorem beneath_some_iff {root full : String} (hroot : root ≠ "") :
    Beneath (some root) full ↔ ∃ rest, rest ≠ "" ∧ full = root ++ "/" ++ rest := by
  unfold Beneath
  simp only [stripRootPrefix_some_iff hroot]

theorem beneath_none_iff {full : String} : Beneath none full ↔ full ≠ "" := by
  unfold Beneath
  simp only [stripRootPrefix_none, Except.ok.injEq]
  constructor
  · rintro ⟨rest, hrest, rfl⟩
    exact hrest
  · intro hfull
    exact ⟨full, hfull, rfl⟩

/-! ## Joining and stripping -/

theorem joinKey_none (key : String) : joinKey none key = Str.trimStart '/' key := rfl

theorem joinKey_some {root key : String} (hroot : root ≠ "") :
    joinKey (some root) key
      = if Str.trimStart '/' key = "" then root else root ++ "/" ++ Str.trimStart '/' key := by
  unfold joinKey
  by_cases hkey : Str.trimStart '/' key = ""
  · simp [hroot, hkey]
  · simp [hroot, hkey]

/-- No key behind the boundary is the root itself. -/
theorem root_ne_append (root rest : String) : root ≠ root ++ "/" ++ rest := by
  intro heq
  have hlength := congrArg String.length heq
  rw [String.length_append, String.length_append] at hlength
  have hslash : "/".length = 1 := rfl
  omega

/-- A joined key lies beneath the root exactly when the caller's key is more than
separators. -/
theorem beneath_joinKey_iff {rootPrefix : Option String} (hroot : IsNormalRoot rootPrefix)
    (key : String) : Beneath rootPrefix (joinKey rootPrefix key) ↔ NamesObject key := by
  rw [namesObject_iff]
  cases rootPrefix with
  | none => rw [joinKey_none, beneath_none_iff]
  | some root =>
      rw [beneath_some_iff hroot.ne_empty, joinKey_some hroot.ne_empty]
      by_cases hkey : Str.trimStart '/' key = ""
      · -- nothing is left of the key, and the join returns the bare root
        rw [if_pos hkey]
        refine iff_of_false ?_ (not_not_intro hkey)
        rintro ⟨rest, -, hrest⟩
        exact root_ne_append root rest hrest
      · rw [if_neg hkey]
        exact iff_of_true ⟨_, hkey, rfl⟩ hkey

/-- Joining a stripped path gives the key back exactly when the path is non-empty
and has no leading separator: nothing else survives the trimming. -/
theorem joinKey_stripRootPrefix_iff {rootPrefix : Option String} (hroot : IsNormalRoot rootPrefix)
    {full path : String} (hstrip : stripRootPrefix rootPrefix full = .ok path)
    (hpath : path ≠ "") :
    joinKey rootPrefix path = full ↔ Str.startsWith "/" path = false := by
  have htrim : Str.startsWith "/" path = false ↔ Str.trimStart '/' path = path := by
    rw [Str.trimStart_eq_self_iff, ← Bool.not_eq_true,
      Str.startsWith_char_iff (show "/".toList = ['/'] from rfl)]
  rw [htrim]
  cases rootPrefix with
  | none =>
      cases hstrip
      rw [joinKey_none]
  | some root =>
      rw [stripRootPrefix_some_iff hroot.ne_empty] at hstrip
      rw [hstrip, joinKey_some hroot.ne_empty]
      by_cases hkey : Str.trimStart '/' path = ""
      · rw [if_pos hkey, hkey]
        exact iff_of_false (root_ne_append root path) (Ne.symm hpath)
      · rw [if_neg hkey]
        exact String.append_right_inj _

theorem stripRootPrefix_length_le {rootPrefix : Option String} (hroot : IsNormalRoot rootPrefix)
    {full path : String} (hstrip : stripRootPrefix rootPrefix full = .ok path) :
    path.length ≤ full.length := by
  cases rootPrefix with
  | none =>
      cases hstrip
      exact Nat.le_refl _
  | some root =>
      rw [stripRootPrefix_some_iff hroot.ne_empty] at hstrip
      rw [hstrip, String.length_append]
      exact Nat.le_add_left _ _

/-! ## List prefixes -/

/-- A prefix that a listing request refuses: one that starts with a separator or
reads like an address. -/
def IsAbsolutePrefix (value : String) : Prop :=
  Str.startsWith "/" value ∨ startsWithUriScheme value

instance (value : String) : Decidable (IsAbsolutePrefix value) :=
  inferInstanceAs (Decidable (_ ∨ _))

/-- A stripped common prefix is accepted back and resolves to the full prefix it
was stripped from exactly when it is not refused as absolute. -/
theorem resolveListPrefix_stripRootPrefix_iff {rootPrefix : Option String}
    (hroot : IsNormalRoot rootPrefix) {full value : String}
    (hstrip : stripRootPrefix rootPrefix full = .ok value) (hvalue : value ≠ "") :
    resolveListPrefix rootPrefix (some value) = .ok (some full) ↔ ¬ IsAbsolutePrefix value := by
  unfold resolveListPrefix
  by_cases habsolute : IsAbsolutePrefix value
  · rw [if_pos ⟨value, rfl, habsolute⟩]
    exact iff_of_false (by simp) (not_not_intro habsolute)
  · have hrelative :
        ¬ ∃ given ∈ some value, Str.startsWith "/" given ∨ startsWithUriScheme given := by
      rintro ⟨given, hgiven, hrefused⟩
      cases hgiven
      exact habsolute hrefused
    rw [if_neg hrelative, filter_ne_empty hvalue]
    refine iff_of_true ?_ habsolute
    cases rootPrefix with
    | none =>
        cases hstrip
        rfl
    | some root =>
        rw [stripRootPrefix_some_iff hroot.ne_empty] at hstrip
        rw [listRootBoundary_some hroot.ne_empty, hstrip]

end Storageprims

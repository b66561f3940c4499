import Storageprims.Core.Error
import Mathlib.Algebra.GroupWithZero.Nat

/-!
# Receipts and guarded selections

The shared request and result types of the guarded read contract.  A selection
is built only by `GuardedReadSelection.bind`, so it carries that its selector is
well formed and its key is not empty; windows and receipts carry that their
numbers are 64-bit.
-/

namespace Storageprims

/-- One more than the largest 64-bit number. -/
abbrev u64Bound : Nat := 2 ^ 64

/-- `u64::checked_add`. -/
def checkedAdd (a b : Nat) : Option Nat :=
  if a + b < u64Bound then some (a + b) else none

/-- `u64::checked_sub`. -/
def checkedSub (a b : Nat) : Option Nat :=
  if b ≤ a then some (a - b) else none

/-- `u64::saturating_add`. -/
def saturatingAdd (a b : Nat) : Nat := min (a + b) (u64Bound - 1)

/-- Unchecked 64-bit addition, which must not overflow. -/
def addU64 (a b : Nat) : Except Failure Nat :=
  if a + b < u64Bound then .ok (a + b) else .error .panic

/-- Unchecked 64-bit subtraction, which must not underflow. -/
def subU64 (a b : Nat) : Except Failure Nat :=
  if b ≤ a then .ok (a - b) else .error .panic

/-- `usize::try_from` on a 64-bit target. -/
def tryUsize (n : Nat) : Option Nat :=
  if n < u64Bound then some n else none

theorem tryUsize_eq_some_iff {n m : Nat} : tryUsize n = some m ↔ n < u64Bound ∧ n = m := by
  rw [tryUsize]
  split
  · simp [*]
  · simp [*]

theorem addU64_of_lt {a b : Nat} (h : a + b < u64Bound) : addU64 a b = .ok (a + b) :=
  if_pos h

theorem addU64_ok {a b c : Nat} (h : addU64 a b = .ok c) : c = a + b := by
  rw [addU64] at h
  split at h
  · exact (Except.ok.inj h).symm
  · cases h

theorem subU64_of_le {a b : Nat} (h : b ≤ a) : subU64 a b = .ok (a - b) :=
  if_pos h

theorem subU64_ok {a b c : Nat} (h : subU64 a b = .ok c) : b ≤ a ∧ c = a - b := by
  rw [subU64] at h
  split at h
  · exact ⟨‹_›, (Except.ok.inj h).symm⟩
  · cases h

theorem checkedAdd_eq_some_iff {a b c : Nat} :
    checkedAdd a b = some c ↔ a + b < u64Bound ∧ a + b = c := by
  rw [checkedAdd]
  split
  · simp [*]
  · simp [*]

/-- The UTF-8 bytes of a string. -/
def asBytes (text : String) : List UInt8 := text.toByteArray.data.toList

/-- Inclusive byte window returned from a guarded range read; `last` is the
source's `end`. -/
structure ByteWindow where
  start : Nat
  last : Nat
  start_lt : start < u64Bound := by omega
  last_lt : last < u64Bound := by omega
  deriving DecidableEq

def ByteWindow.checkedLen (window : ByteWindow) : Option Nat := do
  let width ← checkedSub window.last window.start
  checkedAdd width 1

/-- A total that is not stated needs no bound. -/
theorem noTotal_lt : ∀ total ∈ (none : Option Nat), total < u64Bound := by simp

/-- Source evidence returned from the same response that supplied metadata or
bytes. -/
structure SourceReceipt where
  path : String
  nativeVersion : Option String
  validator : Option String
  totalSize : Option Nat
  requestedWindow : Option ByteWindow
  returnedWindow : Option ByteWindow
  totalSize_lt : ∀ total ∈ totalSize, total < u64Bound := by simp
  deriving DecidableEq

/-- Unconditional source observation. -/
structure SourceObservation where
  receipt : SourceReceipt
  contentType : Option String
  lastModified : Option String
  metadata : List (String × String)
  deriving DecidableEq

/-- A source selector that a provider must enforce while reading. -/
inductive SourceSelector where
  | nativeVersion (token : String)
  | validatorMatch (token : String)
  deriving DecidableEq

def invalidSelector (argument reason : String) : StorageError :=
  .invalidArgument none argument reason

/-- `str::eq_ignore_ascii_case` against a lower-case ASCII text. -/
def eqIgnoreAsciiCase (text lower : String) : Bool :=
  text.toList.map Char.toLower == lower.toList

def validateNativeVersion (token : String) : Except StorageError Unit :=
  let bytes := asBytes token
  if ¬ (1 ≤ bytes.length ∧ bytes.length ≤ 1024)
      ∨ ¬ bytes.all (fun byte => 0x21 ≤ byte && byte ≤ 0x7e)
      ∨ bytes.any (fun byte => byte == 0x22 || byte == 0x2c || byte == 0x5c)
      ∨ eqIgnoreAsciiCase token "null"
      ∨ eqIgnoreAsciiCase token "\"null\"" then
    .error (invalidSelector "selector.native_version"
      "native version selector has an invalid format")
  else .ok ()

def validateStrongEtag (token : String) : Except StorageError Unit :=
  let bytes := asBytes token
  let valid := (3 ≤ bytes.length ∧ bytes.length ≤ 128)
    ∧ bytes.head? = some 0x22
    ∧ bytes.getLast? = some 0x22
    ∧ (bytes.drop 1).dropLast.all
        (fun byte => byte == 0x21 || (0x23 ≤ byte && byte ≤ 0x7e))
  if ¬ valid then
    .error (invalidSelector "selector.validator"
      "validator selector must be one strong quoted entity tag")
  else .ok ()

namespace SourceSelector

def validate : SourceSelector → Except StorageError Unit
  | .nativeVersion token => validateNativeVersion token
  | .validatorMatch token => validateStrongEtag token

def token : SourceSelector → String
  | .nativeVersion token => token
  | .validatorMatch token => token

end SourceSelector

/-- A source selector bound by a provider to one configured target and key. -/
structure GuardedReadSelection where
  targetIdentity : String
  key : String
  selector : SourceSelector
  selector_valid : selector.validate = .ok ()
  key_nonempty : key ≠ ""
  deriving DecidableEq

def GuardedReadSelection.bind (targetIdentity key : String) (selector : SourceSelector) :
    Except StorageError GuardedReadSelection :=
  match hvalid : selector.validate with
  | .error error => .error error
  | .ok () =>
      if hkey : key = "" then
        .error (.invalidArgument none "key" "object key must not be empty")
      else .ok ⟨targetIdentity, key, selector, hvalid, hkey⟩

def GuardedReadSelection.validateFor (selection : GuardedReadSelection)
    (targetIdentity key : String) (operation : StorageOperation) : Except StorageError Unit :=
  if selection.targetIdentity ≠ targetIdentity ∨ selection.key ≠ key then
    .error (.invalidArgument (some operation) "selection"
      "selection is bound to a different configured target or key")
  else selection.selector.validate

/-- Binding keeps target, key and selector. -/
theorem GuardedReadSelection.bind_ok {targetIdentity key : String} {selector : SourceSelector}
    {selection : GuardedReadSelection} (h : bind targetIdentity key selector = .ok selection) :
    selection.targetIdentity = targetIdentity ∧ selection.key = key ∧
      selection.selector = selector := by
  unfold GuardedReadSelection.bind at h
  split at h
  · cases h
  · split at h
    · cases h
    · cases h
      exact ⟨rfl, rfl, rfl⟩

/-- A well-formed selector binds to every non-empty key. -/
theorem GuardedReadSelection.exists_bind (targetIdentity : String) {key : String}
    {selector : SourceSelector} (hvalid : selector.validate = .ok ()) (hkey : key ≠ "") :
    ∃ selection, bind targetIdentity key selector = .ok selection := by
  unfold GuardedReadSelection.bind
  split
  · rename_i error herror
    rw [hvalid] at herror
    cases herror
  · exact ⟨_, dif_neg hkey⟩

/-- An offset-and-length request over a previously bound selection. -/
structure GuardedRangeRequest where
  selection : GuardedReadSelection
  offset : Nat
  length : Nat
  deriving DecidableEq

/-- Names the body stream of one response. -/
abbrev ReaderId := Nat

/-- A guarded byte response whose receipt describes the same provider response. -/
structure GuardedReadResponse where
  receipt : SourceReceipt
  reader : ReaderId
  deriving DecidableEq

/-- An unguarded byte range request. -/
structure GetRangeRequest where
  key : String
  offset : Nat
  length : Nat
  deriving DecidableEq

/-- What an unguarded head reports. -/
structure ObjectMetadata where
  path : String
  size : Nat
  etag : Option String
  contentType : Option String
  lastModified : Option String
  metadata : List (String × String)
  deriving DecidableEq

/-- What an upload reports. -/
structure PutResult where
  path : String
  etag : Option String
  size : Option Nat
  deriving DecidableEq

end Storageprims

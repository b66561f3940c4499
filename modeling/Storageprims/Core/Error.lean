import Mathlib.Logic.Basic
import Mathlib.Data.List.Forall2

/-!
# The canonical error and provider types

The taxonomy every provider and every operation reports through.  An error
keeps all the data of the source, because callers branch on its fields.
-/

namespace Storageprims

/-- Canonical cloud storage provider identifier. -/
inductive ProviderKind where
  | s3
  | gcs
  | azureBlob
  | local
  deriving DecidableEq, Repr

/-- Canonical storage operation identifiers. -/
inductive StorageOperation where
  | list
  | head
  | headLines
  | tailLines
  | midLines
  | countLines
  | probe
  | get
  | getRange
  | previewBytes
  | observeSource
  | guardedHead
  | guardedGet
  | guardedGetRange
  | put
  | delete
  | copy
  | configureProvider
  | parseUri
  deriving DecidableEq, Repr

/-- Optional extensions of a provider. -/
inductive Capability where
  | delimiterListing
  | multipartUpload
  | credentialProbe
  | conditionalPut
  | guardedRead
  deriving DecidableEq, Repr

/-- Stable error codes for FFI and bindings. -/
inductive StorageErrorCode where
  | invalidUri
  | invalidArgument
  | notFound
  | containerNotFound
  | accessDenied
  | invalidCredentials
  | throttled
  | providerUnavailable
  | unsupportedCapability
  | conflict
  | io
  | other
  deriving DecidableEq, Repr

/-- Stable reason for a conditional-write conflict. -/
inductive ConflictKind where
  | alreadyExists
  | tokenMismatch
  | other
  deriving DecidableEq, Repr

/-- Machine-readable category for bounded inspection failures. -/
inductive InspectionKind where
  | limitExceeded
  | encodingRejected
  deriving DecidableEq, Repr

/-- Resource dimension responsible for a bounded inspection failure. -/
inductive InspectionLimitDimension where
  | payloadBytes
  | requests
  | outputBytes
  | pendingLineBytes
  | lineCount
  | chunkSize
  | probeSize
  | deadline
  deriving DecidableEq, Repr

/-- A span of time, in nanoseconds. -/
structure Duration where
  nanos : Nat
  deriving DecidableEq, Repr

namespace Duration

def fromSecs (secs : Nat) : Duration := ⟨secs * 1000000000⟩

def fromMillis (millis : Nat) : Duration := ⟨millis * 1000000⟩

def isZero (duration : Duration) : Bool := duration.nanos == 0

/-- Whole milliseconds, as a 128-bit number. -/
def asMillis (duration : Duration) : Nat := duration.nanos / 1000000

end Duration

/-- The kinds of I/O error the operations tell apart. -/
inductive IoErrorKind where
  | unexpectedEof
  | invalidData
  | invalidInput
  | brokenPipe
  | other
  deriving DecidableEq, Repr

/-- An I/O error with its detail text. -/
structure IoError where
  kind : IoErrorKind
  detail : String
  deriving DecidableEq, Repr

/-- Canonical error type for all operations. -/
inductive StorageError where
  | invalidUri (uri reason : String)
  | invalidArgument (operation : Option StorageOperation) (argument reason : String)
  | notFound (provider : ProviderKind) (operation : StorageOperation) (path : String)
  | containerNotFound (provider : ProviderKind) (operation : StorageOperation)
      (container : String)
  | accessDenied (provider : ProviderKind) (operation : StorageOperation)
      (target : Option String) (detail : String)
  | invalidCredentials (provider : ProviderKind) (detail : String)
  | throttled (provider : ProviderKind) (operation : StorageOperation)
      (retryAfter : Option Duration)
  | providerUnavailable (provider : ProviderKind) (operation : StorageOperation)
      (detail : String)
  | unsupportedCapability (provider : ProviderKind) (operation : StorageOperation)
      (capability : Capability)
  | conflict (provider : ProviderKind) (operation : StorageOperation)
      (target : Option String) (kind : ConflictKind) (detail : String)
  | inspection (provider : Option ProviderKind) (operation : StorageOperation)
      (kind : InspectionKind) (limitDimension : Option InspectionLimitDimension)
      (configuredLimit consumed : Nat)
  | io (operation : Option StorageOperation) (source : IoError)
  | other (provider : Option ProviderKind) (operation : Option StorageOperation)
      (detail : String)
  deriving DecidableEq, Repr

/-- The stable code of an error.  An inspection failure keeps the established
code of `other`. -/
def StorageError.code : StorageError → StorageErrorCode
  | .invalidUri .. => .invalidUri
  | .invalidArgument .. => .invalidArgument
  | .notFound .. => .notFound
  | .containerNotFound .. => .containerNotFound
  | .accessDenied .. => .accessDenied
  | .invalidCredentials .. => .invalidCredentials
  | .throttled .. => .throttled
  | .providerUnavailable .. => .providerUnavailable
  | .unsupportedCapability .. => .unsupportedCapability
  | .conflict .. => .conflict
  | .inspection .. => .other
  | .io .. => .io
  | .other .. => .other

/-- How a function of the source can fail: with an error it returns, or with a
panic (arithmetic that overflows, a slice index out of range, an `expect`). -/
inductive Failure where
  | error (error : StorageError)
  | panic
  deriving DecidableEq, Repr

/-! ## Sequences of fallible steps -/

/-- A sequence that succeeds went through a value of its first step. -/
theorem except_bind_ok {ε γ δ : Type} {first : Except ε γ} {next : γ → Except ε δ} {value : δ}
    (h : (first >>= next) = .ok value) : ∃ a, first = .ok a ∧ next a = .ok value := by
  cases first with
  | error error => cases h
  | ok a => exact ⟨a, rfl, h⟩

/-- A sequence that fails does so at its first step, or goes on to a step that fails. -/
theorem except_bind_error {ε γ δ : Type} {first : Except ε γ} {next : γ → Except ε δ} {error : ε}
    (h : (first >>= next) = .error error) :
    first = .error error ∨ ∃ a, first = .ok a ∧ next a = .error error := by
  cases first with
  | error other =>
      cases h
      exact .inl rfl
  | ok a => exact .inr ⟨a, rfl, h⟩

/-- A sequence of checks passes when the first one and the rest do. -/
theorem check_bind_ok_iff {ε β : Type} {check : Except ε Unit} {next : Unit → Except ε β}
    {value : β} : (check >>= next) = .ok value ↔ check = .ok () ∧ next () = .ok value := by
  cases check with
  | error error => exact ⟨nofun, nofun⟩
  | ok done => exact ⟨fun h => ⟨rfl, h⟩, fun h => h.2⟩

/-- Steps over a list that all succeed give one value for each element, in order. -/
theorem mapM_ok {ε γ δ : Type} {step : γ → Except ε δ} {elements : List γ} {values : List δ}
    (h : elements.mapM step = .ok values) :
    List.Forall₂ (fun element value => step element = .ok value) elements values := by
  induction elements generalizing values with
  | nil =>
      cases h
      exact .nil
  | cons element elements ih =>
      rw [List.mapM_cons] at h
      obtain ⟨value, hvalue, h⟩ := except_bind_ok h
      obtain ⟨rest, hrest, h⟩ := except_bind_ok h
      cases h
      exact .cons hvalue (ih hrest)

/-- Steps that each succeed on their element succeed over the list. -/
theorem exists_mapM {ε γ δ : Type} {step : γ → Except ε δ} {elements : List γ}
    (h : ∀ element ∈ elements, ∃ value, step element = .ok value) :
    ∃ values, elements.mapM step = .ok values := by
  induction elements with
  | nil => exact ⟨[], rfl⟩
  | cons element elements ih =>
      obtain ⟨value, hvalue⟩ := h element (by simp)
      obtain ⟨values, hvalues⟩ := ih fun other hother => h other (by simp [hother])
      refine ⟨value :: values, ?_⟩
      rw [List.mapM_cons, hvalue]
      simp only [bind, Except.bind, hvalues]
      rfl

end Storageprims

import Storageprims.Ffi.Control
import Storageprims.Interaction.Threads

/-!
# The last error of a thread

A call that fails returns a code and leaves its details in a slot of the calling thread, where
the caller finds them with the next call.  Other threads may fail in between.
-/

namespace Storageprims

open Interaction

/-! ## The slot -/

/-- What a panic is raised with. -/
inductive PanicPayload where
  | string (message : String)
  | str (message : String)
  | other

def panicMessage : PanicPayload → String
  | .string message => message
  | .str message => message
  | .other => "panic payload was not a string"

/-- How the body of an exported function ends. -/
inductive BodyEnd (α : Type) where
  | returned (result : Except StorageError α)
  | panicked (payload : PanicPayload)

def BodyEnd.outcome {α : Type} : BodyEnd α → Except Failure α
  | .returned result => result.mapError .error
  | .panicked _ => .error .panic

structure ErrorPayload where
  code : String
  message : String
  kind : Option ConflictKind
  inspectionVersion : Option UInt8
  inspectionKind : Option InspectionKind
  limitDimension : Option InspectionLimitDimension
  configuredLimit : Option Nat
  consumed : Option Nat

structure ErrorState where
  code : StorageprimsErrorCode
  detailJson : Option String

def ErrorState.default : ErrorState := ⟨.ok, none⟩

/-- `Debug` of the stable codes. -/
def StorageErrorCode.debug : StorageErrorCode → String
  | .invalidUri => "InvalidUri"
  | .invalidArgument => "InvalidArgument"
  | .notFound => "NotFound"
  | .containerNotFound => "ContainerNotFound"
  | .accessDenied => "AccessDenied"
  | .invalidCredentials => "InvalidCredentials"
  | .throttled => "Throttled"
  | .providerUnavailable => "ProviderUnavailable"
  | .unsupportedCapability => "UnsupportedCapability"
  | .conflict => "Conflict"
  | .io => "Io"
  | .other => "Other"

/-- The texts that are written elsewhere: `Display` of an error, which its derive macro writes,
and the JSON of a payload. -/
structure ErrorTexts where
  display : StorageError → String
  toJson : ErrorPayload → Except String String

namespace ErrorTexts

variable (texts : ErrorTexts)

def errorPayload (error : StorageError) : ErrorPayload where
  code := error.code.debug.map Char.toLower
  message := texts.display error
  kind := match error with
    | .conflict _ _ _ kind _ => some kind
    | _ => none
  inspectionVersion := match error with
    | .inspection .. => some 1
    | _ => none
  inspectionKind := match error with
    | .inspection _ _ kind _ _ _ => some kind
    | _ => none
  limitDimension := match error with
    | .inspection _ _ _ limitDimension _ _ => limitDimension
    | _ => none
  configuredLimit := match error with
    | .inspection _ _ _ _ configuredLimit _ => some configuredLimit
    | _ => none
  consumed := match error with
    | .inspection _ _ _ _ _ consumed => some consumed
    | _ => none

def otherPayload (message : String) : ErrorPayload :=
  ⟨"other", message, none, none, none, none, none, none⟩

def detailJson (payload : ErrorPayload) : String :=
  match texts.toJson payload with
  | .ok json => json
  | .error _ => "\x7b\"code\":\"other\",\"message\":\"failed to serialize error\"\x7d"

def setError (error : StorageError) : StorageprimsErrorCode × ErrorState :=
  let code := .ofCode error.code
  (code, ⟨code, some (texts.detailJson (texts.errorPayload error))⟩)

def setOtherError (message : String) : StorageprimsErrorCode × ErrorState :=
  (.other, ⟨.other, some (texts.detailJson (otherPayload message))⟩)

/-- `with_error_boundary`: the slot is cleared before the body runs. -/
def errorBoundary {α : Type} : BodyEnd α → Except StorageprimsErrorCode α × ErrorState
  | .returned (.ok value) => (.ok value, .default)
  | .returned (.error error) =>
      let (code, state) := texts.setError error
      (.error code, state)
  | .panicked payload =>
      let (code, state) := texts.setOtherError
        ("panic caught at storageprims FFI boundary: " ++ panicMessage payload)
      (.error code, state)

def withInitBoundary (body : BodyEnd UInt64) : UInt64 × ErrorState :=
  let (result, state) := texts.errorBoundary body
  (result.toOption.getD 0, state)

end ErrorTexts

def storageprimsLastError (state : ErrorState) : Option String :=
  (cStringNew (withoutNul (state.detailJson.getD "\x7b\x7d"))).toOption

/-! ## Threads -/

/-- What a thread asks of the interface, as far as its slot is concerned. -/
inductive SlotRequest where
  | call (body : BodyEnd Unit)
  | init (body : BodyEnd UInt64)
  | lastErrorCode
  | lastError
  | clearError

def SlotResponse : SlotRequest → Type
  | .call _ => StorageprimsErrorCode
  | .init _ => UInt64
  | .lastErrorCode => StorageprimsErrorCode
  | .lastError => Option String
  | .clearError => Unit

/-- The answer, and the slot behind it. -/
def ErrorState.serve (texts : ErrorTexts) (state : ErrorState) :
    (request : SlotRequest) → SlotResponse request × ErrorState
  | .call body =>
      let (result, state') := texts.errorBoundary body
      ((match result with
        | .ok _ => .ok
        | .error code => code : StorageprimsErrorCode), state')
  | .init body => texts.withInitBoundary body
  | .lastErrorCode => (state.code, state)
  | .lastError => (storageprimsLastError state, state)
  | .clearError => ((), .default)

section Slots

variable {texts : ErrorTexts} {body : BodyEnd Unit} {state state' : ErrorState}
variable {code : StorageprimsErrorCode}

variable {Thread Shared : Type} [DecidableEq Thread]

end Slots

end Storageprims

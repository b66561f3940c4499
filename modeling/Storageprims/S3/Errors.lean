import Mathlib.Tactic.FinCases
import Storageprims.S3.GuardedReads
import Storageprims.Text.Decimal

/-!
# Errors of the service

Three functions turn a failure of the service client into a canonical error: one for plain
operations, one for puts and one for guarded reads.  Each decides on its own, and the last
looks at the status before it looks at the code.
-/

namespace Storageprims

/-- An error response: its status and headers, and the code of its body if there is one. -/
structure ServiceErrorContext where
  status : UInt16
  headers : List (String × String)
  code : Option String
  deriving DecidableEq

/-- The failures of the service client.  A construction failure carries its debug text. -/
inductive SdkError where
  | constructionFailure (debug : String)
  | timeoutError
  | dispatchFailure
  | responseError
  | serviceError (context : ServiceErrorContext)
  | other
  deriving DecidableEq

inductive PutPreconditionKind where
  | none
  | mustNotExist
  | match
  deriving DecidableEq

/-- The first header of a name, which is given in lower case. -/
def ServiceErrorContext.header (context : ServiceErrorContext) (name : String) : Option String :=
  (context.headers.find? fun entry => eqIgnoreAsciiCase entry.1 name).map (·.2)

/-- The first non-empty part between characters that are no digits, as seconds. -/
def parseRetryAfterValue (value : String) : Option Duration :=
  ((Str.firstDigits value).bind fun seconds => Str.parseBelow u64Bound (String.ofList seconds)).map
    fun seconds => Duration.fromSecs seconds.val

namespace ServiceErrorContext

variable (context : ServiceErrorContext)

def retryAfter : Option Duration := (context.header "retry-after").bind parseRetryAfterValue

def errorCode : String := context.code.getD ""

def deleteMarker : Bool :=
  (context.header "x-amz-delete-marker").any (eqIgnoreAsciiCase · "true")

end ServiceErrorContext

/-- The error of a plain operation. -/
def mapSdkError (provider : ProviderKind) (operation : StorageOperation)
    (target container : Option String) : SdkError → StorageError
  | .serviceError context =>
      match context.errorCode with
      | "NoSuchKey" | "NotFound" => .notFound provider operation (target.getD "")
      | "NoSuchBucket" => .containerNotFound provider operation (container.getD "")
      | "AccessDenied" => .accessDenied provider operation target "access denied"
      | "InvalidAccessKeyId" | "SignatureDoesNotMatch" | "ExpiredToken" =>
          .invalidCredentials provider context.errorCode
      | "SlowDown" | "Throttling" | "TooManyRequestsException" =>
          .throttled provider operation context.retryAfter
      | "PreconditionFailed" | "ConditionalRequestConflict" =>
          .conflict provider operation target .other context.errorCode
      | "InvalidRequest" | "InvalidWriteOffset" =>
          .invalidArgument (some operation) (target.getD "") context.errorCode
      | _ => .other (some provider) (some operation) "S3 request failed"
  | .timeoutError | .dispatchFailure =>
      .providerUnavailable provider operation "S3 request transport failed"
  | .responseError => .providerUnavailable provider operation "S3 response transport failed"
  | .constructionFailure debug => .invalidArgument (some operation) (target.getD "") debug
  | .other => .other (some provider) (some operation) "S3 request failed"

def PutPreconditionKind.conflict : PutPreconditionKind → ConflictKind
  | .mustNotExist => .alreadyExists
  | .match => .tokenMismatch
  | .none => .other

/-- The error of a put.  Without a response it says nothing about the object. -/
def mapPutError (target container : Option String) (precondition : PutPreconditionKind) :
    SdkError → StorageError
  | .serviceError context =>
      match context.errorCode with
      | "PreconditionFailed" =>
          .conflict .s3 .put target precondition.conflict "precondition failed"
      | "ConditionalRequestConflict" =>
          .conflict .s3 .put target .other "conditional request conflict"
      | "NoSuchKey" | "NotFound" => .notFound .s3 .put (target.getD "")
      | "NoSuchBucket" => .containerNotFound .s3 .put (container.getD "")
      | "AccessDenied" => .accessDenied .s3 .put target "access denied"
      | "InvalidAccessKeyId" | "SignatureDoesNotMatch" | "ExpiredToken" =>
          .invalidCredentials .s3 context.errorCode
      | "SlowDown" | "Throttling" | "TooManyRequestsException" =>
          .throttled .s3 .put context.retryAfter
      | "InvalidRequest" | "InvalidWriteOffset" =>
          .invalidArgument (some .put) (target.getD "") context.errorCode
      | _ => .other (some .s3) (some .put)
          (if context.errorCode = "" then "S3 put failed" else context.errorCode)
  | .timeoutError | .dispatchFailure | .responseError =>
      .providerUnavailable .s3 .put "S3 put request outcome is unknown"
  | .constructionFailure _ =>
      .invalidArgument (some .put) (target.getD "") "failed to construct S3 put request"
  | .other => .other (some .s3) (some .put) "S3 put failed"

def SourceSelector.isValidatorMatch : SourceSelector → Bool
  | .validatorMatch _ => true
  | .nativeVersion _ => false

/-- The error of a guarded read.  The status decides before the code does, and a failure
that neither decides is one of a plain operation. -/
def mapGuardedSdkError (operation : StorageOperation) (selector : SourceSelector)
    (target container : Option String) (error : SdkError) : StorageError :=
  let plain := mapSdkError .s3 operation target container error
  let mismatch : StorageError :=
    .conflict .s3 operation target .tokenMismatch "source validator did not match"
  let outside : StorageError :=
    .invalidArgument (some operation) "offset" "requested range is outside the object"
  match error with
  | .serviceError context =>
      if context.status = 304 then
        invalidResponse operation "guarded read received an unexpected not-modified response"
      else if context.status = 405 ∧ context.deleteMarker then
        selectedNotFound operation (target.getD "")
      else if context.status = 412 ∧ selector.isValidatorMatch then mismatch
      else if context.status = 416 then outside
      else if context.status = 403 then .accessDenied .s3 operation target "access denied"
      else
        match context.errorCode with
        | "PreconditionFailed" => if selector.isValidatorMatch then mismatch else plain
        | "NoSuchVersion" => selectedNotFound operation (target.getD "")
        | "InvalidRange" | "RequestedRangeNotSatisfiable" => outside
        | _ => plain
  | _ => plain

/-- The codes of a refused continuation token. -/
def SdkError.rejectsToken : SdkError → Bool
  | .serviceError context =>
      context.code.any (· ∈ ["InvalidArgument", "InvalidRequest", "InvalidToken"])
  | _ => false

/-- The error of a delimiter listing. -/
def mapDelimiterListError (error : SdkError) (hasContinuation : Bool) : StorageError :=
  if hasContinuation ∧ error.rejectsToken then
    .invalidArgument (some .list) "continuation_token" "provider rejected the continuation token"
  else mapSdkError .s3 .list none none error

/-! ## The shared taxonomy -/

/-- The codes that plain operations classify, with their classes. -/
def taxonomy : List (String × StorageErrorCode) :=
  [("NoSuchKey", .notFound), ("NotFound", .notFound), ("NoSuchBucket", .containerNotFound),
    ("AccessDenied", .accessDenied), ("InvalidAccessKeyId", .invalidCredentials),
    ("SignatureDoesNotMatch", .invalidCredentials), ("ExpiredToken", .invalidCredentials),
    ("SlowDown", .throttled), ("Throttling", .throttled),
    ("TooManyRequestsException", .throttled), ("InvalidRequest", .invalidArgument),
    ("InvalidWriteOffset", .invalidArgument)]

/-- The delay that an error carries. -/
def StorageError.retryAfter : StorageError → Option Duration
  | .throttled _ _ retryAfter => retryAfter
  | _ => none

/-- The statuses that mean something to guarded reads alone. -/
def ServiceErrorContext.GuardedOnly (context : ServiceErrorContext) (selector : SourceSelector) :
    Prop :=
  context.status = 304 ∨ (context.status = 405 ∧ context.deleteMarker) ∨
    (context.status = 412 ∧ selector.isValidatorMatch) ∨ context.status = 416

section

variable {context : ServiceErrorContext} {row : String × StorageErrorCode}

/-- A plain operation reports the class of the code, and a delay where it is throttled. -/
theorem mapSdkError_classified (hrow : row ∈ taxonomy) (hcode : context.errorCode = row.1)
    (provider : ProviderKind) (operation : StorageOperation) (target container : Option String) :
    let error := mapSdkError provider operation target container (.serviceError context)
    error.code = row.2 ∧
      error.retryAfter = if row.2 = .throttled then context.retryAfter else none := by
  unfold taxonomy at hrow
  fin_cases hrow <;>
    simp [mapSdkError, hcode, StorageError.code, StorageError.retryAfter]

/-- A put reports what a plain operation would. -/
theorem mapPutError_classified (hrow : row ∈ taxonomy) (hcode : context.errorCode = row.1)
    (target container : Option String) (precondition : PutPreconditionKind) :
    mapPutError target container precondition (.serviceError context) =
      mapSdkError .s3 .put target container (.serviceError context) := by
  unfold taxonomy at hrow
  fin_cases hrow <;> simp only [mapSdkError, mapPutError, hcode]

/-- The codes that guarded reads tell apart are not among the classified ones. -/
theorem mapGuardedSdkError_classified (hrow : row ∈ taxonomy) (hcode : context.errorCode = row.1)
    {selector : SourceSelector} (hguarded : ¬ context.GuardedOnly selector)
    (hstatus : context.status ≠ 403) (operation : StorageOperation)
    (target container : Option String) :
    mapGuardedSdkError operation selector target container (.serviceError context) =
      mapSdkError .s3 operation target container (.serviceError context) := by
  simp only [ServiceErrorContext.GuardedOnly, not_or] at hguarded
  obtain ⟨hnotModified, hdeleted, hmismatch, houtside⟩ := hguarded
  -- no branch before the code is taken
  unfold mapGuardedSdkError
  simp only [if_neg hnotModified, if_neg hdeleted, if_neg hmismatch, if_neg houtside,
    if_neg hstatus]
  unfold taxonomy at hrow
  fin_cases hrow <;> rw [hcode] <;> rfl

/-- A refused request is denied, whatever its code says. -/
theorem mapGuardedSdkError_forbidden (hstatus : context.status = 403)
    (operation : StorageOperation) (selector : SourceSelector)
    (target container : Option String) :
    mapGuardedSdkError operation selector target container (.serviceError context) =
      .accessDenied .s3 operation target "access denied" := by
  unfold mapGuardedSdkError
  simp [hstatus]

theorem not_guardedOnly_of_forbidden (hstatus : context.status = 403)
    (selector : SourceSelector) : ¬ context.GuardedOnly selector := by
  simp [ServiceErrorContext.GuardedOnly, hstatus]

end

/-- Every mapper gives a classified code its class, and a put gives the delay that a plain
operation gives. -/
def MappersAgree (context : ServiceErrorContext) (selector : SourceSelector) : Prop :=
  ∀ row ∈ taxonomy, context.errorCode = row.1 →
    ∀ operation target container,
      let plain := mapSdkError .s3 operation target container (.serviceError context)
      plain.code = row.2 ∧
      (∀ precondition,
        let put := mapPutError target container precondition (.serviceError context)
        put.code = plain.code ∧ put.retryAfter = plain.retryAfter) ∧
      (¬ context.GuardedOnly selector →
        (mapGuardedSdkError operation selector target container (.serviceError context)).code =
          plain.code)

/-- The mappers agree on the shared taxonomy exactly where the status 403 does not hide a
class other than `accessDenied` from guarded reads. -/
theorem mappersAgree_iff (context : ServiceErrorContext) (selector : SourceSelector) :
    MappersAgree context selector ↔
      ¬ (context.status = 403 ∧
        ∃ row ∈ taxonomy, context.errorCode = row.1 ∧ row.2 ≠ .accessDenied) := by
  constructor
  · rintro hagree ⟨hstatus, row, hrow, hcode, hclass⟩
    obtain ⟨hplain, -, hguarded⟩ := hagree row hrow hcode .guardedHead none none
    have hdenied := hguarded (not_guardedOnly_of_forbidden hstatus selector)
    rw [mapGuardedSdkError_forbidden hstatus, hplain] at hdenied
    exact hclass hdenied.symm
  · intro hhidden row hrow hcode operation target container
    obtain ⟨hplain, hdelay⟩ := mapSdkError_classified hrow hcode .s3 operation target container
    refine ⟨hplain, fun precondition => ?_, fun hguarded => ?_⟩
    · obtain ⟨hput, hputDelay⟩ := mapSdkError_classified hrow hcode .s3 .put target container
      dsimp only
      rw [mapPutError_classified hrow hcode]
      exact ⟨hput.trans hplain.symm, hputDelay.trans hdelay.symm⟩
    · by_cases hstatus : context.status = 403
      · -- the only class left under this status is the one the status stands for
        have hclass : row.2 = .accessDenied := by
          by_contra hclass
          exact hhidden ⟨hstatus, row, hrow, hcode, hclass⟩
        rw [mapGuardedSdkError_forbidden hstatus, hplain, hclass]
        rfl
      · rw [mapGuardedSdkError_classified hrow hcode hguarded hstatus]

/-- Credentials that the service refuses look like a missing permission. -/
theorem mappers_disagree_forbidden :
    ¬ ∀ context selector, MappersAgree context selector := by
  intro hagree
  obtain ⟨-, -, hguarded⟩ := hagree ⟨403, [], some "InvalidAccessKeyId"⟩
    (.validatorMatch "\"etag\"") ("InvalidAccessKeyId", .invalidCredentials) (by decide) rfl
    .guardedHead none none
  exact absurd (hguarded (not_guardedOnly_of_forbidden rfl _)) (by decide)

end Storageprims

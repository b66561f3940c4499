import Storageprims.Core.Types
import Storageprims.S3.Provider

/-!
# Object operations and the objects they address

Every object operation checks its arguments, resolves the keys it was given and
only then sends a request.  `S3Provider.calls` gives the requests a call sends,
each with the object it addresses and the name the caller used for it, so that
containment beneath the root is one statement about all of them.
-/

namespace Storageprims

/-- Provider-neutral atomic put condition. -/
inductive PutPrecondition where
  | none
  | mustNotExist
  | match (token : String)
  deriving DecidableEq

structure PutOptions where
  contentLength : Option Nat
  contentType : Option String
  metadata : List (String × String)
  precondition : PutPrecondition
  deriving DecidableEq

structure CopyRequest where
  source : String
  destination : String
  deriving DecidableEq

/-- The operations of a provider that name objects. -/
inductive ObjectRequest where
  | head (key : String)
  | get (key : String)
  | getRange (request : GetRangeRequest)
  | put (key : String) (options : PutOptions)
  | delete (key : String)
  | copy (request : CopyRequest)
  | observeSource (key : String)
  | guardedHead (selection : GuardedReadSelection)
  | guardedGet (selection : GuardedReadSelection)
  | guardedGetRange (request : GuardedRangeRequest)
  deriving DecidableEq

/-- How a caller names an object: by a key of the provider or, in a copy only, by
an address of its own. -/
inductive ObjectName where
  | key (key : String)
  | uri (uri : String)
  deriving DecidableEq

/-- An object a request addresses, beside the name it was resolved from. -/
structure Target where
  name : ObjectName
  location : S3Location
  deriving DecidableEq

/-- A request to the service.  A selector travels as the version identifier or as
the match condition of the request. -/
inductive ServiceCall where
  | headObject (target : Target) (selector : Option SourceSelector)
  | getObject (target : Target) (range : Option String) (selector : Option SourceSelector)
  | putObject (target : Target) (contentLength : Option Int) (contentType : Option String)
      (metadata : Option (List (String × String))) (ifMatch ifNoneMatch : Option String)
  | deleteObject (target : Target)
  | copyObject (source destination : Target)
  deriving DecidableEq

def ServiceCall.targets : ServiceCall → List Target
  | .headObject target _ => [target]
  | .getObject target _ _ => [target]
  | .putObject target _ _ _ _ _ => [target]
  | .deleteObject target => [target]
  | .copyObject source destination => [source, destination]

/-- One entity tag, weak or strong. -/
def validateMatchToken (token : String) : Except StorageError Unit :=
  let entityTag := asBytes ((Str.stripFront "W/" token).getD token)
  let valid := 2 ≤ entityTag.length
    ∧ entityTag.head? = some 0x22
    ∧ entityTag.getLast? = some 0x22
    ∧ (entityTag.drop 1).dropLast.all
        (fun byte => byte == 0x21 || (0x23 ≤ byte && byte ≤ 0x7e))
  if valid then .ok ()
  else .error (.invalidArgument (some .put) "precondition.match"
    "match token is not a valid S3 entity tag")

/-- The inclusive range header of `length` bytes at `offset`. -/
def rangeHeader (operation : StorageOperation) (offset length : Nat) :
    Except StorageError String :=
  match checkedAdd offset (length - 1) with
  | some last => .ok ("bytes=" ++ toString offset ++ "-" ++ toString last)
  | none => .error (.invalidArgument (some operation) "length" "requested range overflows u64")

/-- A range must hold at least one byte. -/
def checkLength (operation : StorageOperation) (length : Nat) : Except StorageError Unit :=
  if length = 0 then
    .error (.invalidArgument (some operation) "length" "range length must be greater than zero")
  else .ok ()

/-- A streamed upload must say its length, as a signed 64-bit number. -/
def uploadLength (contentLength : Option Nat) : Except StorageError Nat :=
  match contentLength with
  | some length => .ok length
  | none => .error (.invalidArgument (some .put) "content_length"
      "S3 uploads require a known content length for streamed request bodies")

def checkUploadLength (contentLength : Nat) : Except StorageError Unit :=
  if contentLength < 2 ^ 63 then .ok ()
  else .error (.invalidArgument (some .put) "content_length"
    "content length exceeds S3 request limits")

/-- The `If-Match` and `If-None-Match` conditions of a put. -/
def PutPrecondition.conditions :
    PutPrecondition → Except StorageError (Option String × Option String)
  | .none => .ok (Option.none, Option.none)
  | .mustNotExist => .ok (Option.none, some "*")
  | .match token => do
      validateMatchToken token
      return (some token, Option.none)

namespace S3Provider

variable (provider : S3Provider)

/-- The object of a key, as every operation but a copy resolves it. -/
def keyTarget (key : String) : Except StorageError Target := do
  let resolvedKey ← provider.resolveKey key
  return ⟨.key key, ⟨provider.bucket, resolvedKey⟩⟩

def copyTarget (value field : String) : Except StorageError Target := do
  let location ← provider.resolveCopyLocation value field
  return ⟨if Str.startsWith "s3://" value then .uri value else .key value, location⟩

def headCalls (key : String) : Except StorageError (List ServiceCall) := do
  let target ← provider.keyTarget key
  return [.headObject target none]

def getCalls (key : String) : Except StorageError (List ServiceCall) := do
  let target ← provider.keyTarget key
  return [.getObject target none none]

def getRangeCalls (request : GetRangeRequest) : Except StorageError (List ServiceCall) := do
  checkLength .getRange request.length
  let target ← provider.keyTarget request.key
  let range ← rangeHeader .getRange request.offset request.length
  return [.getObject target (some range) none]

def putCalls (key : String) (options : PutOptions) : Except StorageError (List ServiceCall) := do
  let target ← provider.keyTarget key
  let contentLength ← uploadLength options.contentLength
  let (ifMatch, ifNoneMatch) ← options.precondition.conditions
  checkUploadLength contentLength
  return [.putObject target (some contentLength) options.contentType (some options.metadata)
    ifMatch ifNoneMatch]

def deleteCalls (key : String) : Except StorageError (List ServiceCall) := do
  let target ← provider.keyTarget key
  return [.deleteObject target]

/-- A copy inside one bucket is native; any other is relayed through a read of
the source, whose content length the service reports. -/
def copyCalls (reported : Option Int) (request : CopyRequest) :
    Except StorageError (List ServiceCall) := do
  let source ← provider.copyTarget request.source "source"
  let destination ← provider.copyTarget request.destination "destination"
  if source.location.bucket = destination.location.bucket then
    return [.copyObject source destination]
  else
    return [.getObject source none none,
      .putObject destination (reported.filter (0 ≤ ·)) none none none none]

def observeSourceCalls (key : String) : Except StorageError (List ServiceCall) := do
  let target ← provider.keyTarget key
  return [.headObject target none]

/-- The object of a selection, once it is known to be bound to this target. -/
def selectedTarget (selection : GuardedReadSelection) (operation : StorageOperation) :
    Except StorageError Target := do
  selection.validateFor provider.guardedTargetIdentity selection.key operation
  provider.keyTarget selection.key

def guardedHeadCalls (selection : GuardedReadSelection) :
    Except StorageError (List ServiceCall) := do
  let target ← provider.selectedTarget selection .guardedHead
  return [.headObject target (some selection.selector)]

def guardedGetCalls (selection : GuardedReadSelection) :
    Except StorageError (List ServiceCall) := do
  let target ← provider.selectedTarget selection .guardedGet
  return [.getObject target none (some selection.selector)]

def guardedGetRangeCalls (request : GuardedRangeRequest) :
    Except StorageError (List ServiceCall) := do
  checkLength .guardedGetRange request.length
  let range ← rangeHeader .guardedGetRange request.offset request.length
  let target ← provider.selectedTarget request.selection .guardedGetRange
  return [.getObject target (some range) (some request.selection.selector)]

/-- The requests an operation sends, in order, if its own checks pass and the
service answers; `reported` is the content length of a relayed source. -/
def calls (reported : Option Int) : ObjectRequest → Except StorageError (List ServiceCall)
  | .head key => provider.headCalls key
  | .get key => provider.getCalls key
  | .getRange request => provider.getRangeCalls request
  | .put key options => provider.putCalls key options
  | .delete key => provider.deleteCalls key
  | .copy request => provider.copyCalls reported request
  | .observeSource key => provider.observeSourceCalls key
  | .guardedHead selection => provider.guardedHeadCalls selection
  | .guardedGet selection => provider.guardedGetCalls selection
  | .guardedGetRange request => provider.guardedGetRangeCalls request

/-! ## Containment beneath the root -/

/-- The location of a target is what its name resolves to. -/
def Resolves (target : Target) : Prop :=
  match target.name with
  | .key key =>
      target.location.bucket = provider.bucket ∧ provider.resolveKey key = .ok target.location.key
  | .uri uri => ∃ field, provider.resolveCopyLocation uri field = .ok target.location

theorem keyTarget_resolves {key : String} {target : Target}
    (h : provider.keyTarget key = .ok target) : provider.Resolves target := by
  obtain ⟨full, hfull, h⟩ := except_bind_ok h
  cases h
  exact ⟨rfl, hfull⟩

theorem copyTarget_resolves {value field : String} {target : Target}
    (h : provider.copyTarget value field = .ok target) : provider.Resolves target := by
  obtain ⟨location, hlocation, h⟩ := except_bind_ok h
  cases h
  by_cases hvalue : Str.startsWith "s3://" value
  · rw [if_pos hvalue]
    exact ⟨field, hlocation⟩
  · rw [if_neg hvalue]
    rw [provider.resolveCopyLocation_relative hvalue] at hlocation
    cases hkey : provider.resolveKey value with
    | error error =>
        rw [hkey] at hlocation
        cases hlocation
    | ok full =>
        rw [hkey] at hlocation
        cases hlocation
        exact ⟨rfl, hkey⟩

theorem selectedTarget_resolves {selection : GuardedReadSelection} {operation : StorageOperation}
    {target : Target} (h : provider.selectedTarget selection operation = .ok target) :
    provider.Resolves target := by
  obtain ⟨-, -, h⟩ := except_bind_ok h
  exact provider.keyTarget_resolves h

theorem resolves_single {call : ServiceCall} {target : Target} (htargets : call.targets = [target])
    (h : provider.Resolves target) :
    ∀ sent ∈ [call], ∀ addressed ∈ sent.targets, provider.Resolves addressed := by
  intro sent hsent addressed haddressed
  rw [List.mem_singleton.mp hsent, htargets, List.mem_singleton] at haddressed
  rwa [haddressed]

/-- Every target of every request is resolved from the name it was given by. -/
theorem calls_resolve {reported : Option Int} {request : ObjectRequest} {calls : List ServiceCall}
    (h : provider.calls reported request = .ok calls) :
    ∀ call ∈ calls, ∀ target ∈ call.targets, provider.Resolves target := by
  -- one case per operation: its checks are passed over, its targets are kept
  cases request with
  | head key =>
      obtain ⟨target, htarget, h⟩ := except_bind_ok h
      cases h
      exact provider.resolves_single rfl (provider.keyTarget_resolves htarget)
  | get key =>
      obtain ⟨target, htarget, h⟩ := except_bind_ok h
      cases h
      exact provider.resolves_single rfl (provider.keyTarget_resolves htarget)
  | getRange request =>
      obtain ⟨-, -, h⟩ := except_bind_ok h
      obtain ⟨target, htarget, h⟩ := except_bind_ok h
      obtain ⟨range, -, h⟩ := except_bind_ok h
      cases h
      exact provider.resolves_single rfl (provider.keyTarget_resolves htarget)
  | put key options =>
      obtain ⟨target, htarget, h⟩ := except_bind_ok h
      obtain ⟨contentLength, -, h⟩ := except_bind_ok h
      obtain ⟨⟨ifMatch, ifNoneMatch⟩, -, h⟩ := except_bind_ok h
      obtain ⟨-, -, h⟩ := except_bind_ok h
      cases h
      exact provider.resolves_single rfl (provider.keyTarget_resolves htarget)
  | delete key =>
      obtain ⟨target, htarget, h⟩ := except_bind_ok h
      cases h
      exact provider.resolves_single rfl (provider.keyTarget_resolves htarget)
  | copy request =>
      obtain ⟨source, hsource, h⟩ := except_bind_ok h
      obtain ⟨destination, hdestination, h⟩ := except_bind_ok h
      have hboth := And.intro (provider.copyTarget_resolves hsource)
        (provider.copyTarget_resolves hdestination)
      by_cases hbucket : source.location.bucket = destination.location.bucket
      · rw [if_pos hbucket] at h
        cases h
        simpa [ServiceCall.targets] using hboth
      · rw [if_neg hbucket] at h
        cases h
        simpa [ServiceCall.targets] using hboth
  | observeSource key =>
      obtain ⟨target, htarget, h⟩ := except_bind_ok h
      cases h
      exact provider.resolves_single rfl (provider.keyTarget_resolves htarget)
  | guardedHead selection =>
      obtain ⟨target, htarget, h⟩ := except_bind_ok h
      cases h
      exact provider.resolves_single rfl (provider.selectedTarget_resolves htarget)
  | guardedGet selection =>
      obtain ⟨target, htarget, h⟩ := except_bind_ok h
      cases h
      exact provider.resolves_single rfl (provider.selectedTarget_resolves htarget)
  | guardedGetRange request =>
      obtain ⟨-, -, h⟩ := except_bind_ok h
      obtain ⟨range, -, h⟩ := except_bind_ok h
      obtain ⟨target, htarget, h⟩ := except_bind_ok h
      cases h
      exact provider.resolves_single rfl (provider.selectedTarget_resolves htarget)

/-- Every object that `key` stands for in a request lies in the bucket of the
provider and strictly beneath its root. -/
def Contains (key : String) : Prop :=
  (∀ full, provider.resolveKey key = .ok full → Beneath provider.rootPrefix full) ∧
    ∀ reported request calls, provider.calls reported request = .ok calls →
      ∀ call ∈ calls, ∀ target ∈ call.targets, target.name = .key key →
        target.location.bucket = provider.bucket ∧
          Beneath provider.rootPrefix target.location.key

/-- A key is contained exactly when it is empty, and so refused, or more than
separators. -/
theorem contains_iff (key : String) :
    provider.Contains key ↔ (key = "" ∨ NamesObject key) := by
  rw [← provider.resolveKey_beneath_iff]
  constructor
  · intro hcontains
    exact hcontains.1
  · intro hbeneath
    refine ⟨hbeneath, fun reported request calls hcalls call hcall target htarget hname => ?_⟩
    have hresolves := provider.calls_resolve hcalls call hcall target htarget
    rw [Resolves, hname] at hresolves
    exact ⟨hresolves.1, hbeneath _ hresolves.2⟩

/-- A key of separators passes the emptiness check and, trimmed, joins to the bare
root: deleting `/` deletes the object `r` beside the root `r/`. -/
theorem delete_separator_leaves_root :
    let provider : S3Provider := ⟨"bucket", some "r", none, by decide⟩
    provider.calls none (.delete "/") = .ok [.deleteObject ⟨.key "/", ⟨"bucket", "r"⟩⟩] ∧
      stripRootPrefix provider.rootPrefix "r" = .error (.other (some .s3) (some .list)
        "S3 returned an object outside the configured list boundary") ∧
      ¬ provider.Contains "/" := by
  refine ⟨by decide +kernel, by decide +kernel, fun hcontains => ?_⟩
  obtain ⟨rest, -, hrest⟩ := hcontains.1 "r" (by decide +kernel)
  exact absurd hrest (by simp [show stripRootPrefix (some "r") "r" = .error (.other (some .s3)
    (some .list) "S3 returned an object outside the configured list boundary") by decide +kernel])

end S3Provider

end Storageprims

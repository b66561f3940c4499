import Storageprims.Ffi.Open
import Storageprims.Ops.Calls
import Storageprims.S3.Diagnostics
import Storageprims.S3.Listing
import Storageprims.S3.Operations

/-!
# The control plane

The calls that answer with a JSON text.  Each checks its output pointer, looks up the runtime
and the provider, reads its arguments, asks the provider for one thing, and writes what comes
back; and the two calls that add a provider to the registry and take it out again.
-/

namespace Storageprims

open Interaction

/-- What a call answers with. -/
inductive ControlOutput where
  | capabilities (capabilities : List Capability)
  | listed (result : ListResult)
  | metadata (metadata : ObjectMetadata)
  | deleted
  | copied (result : CopyResult)
  | probed (result : ProbeResult)
  | inspected (answer : Answer)

/-- What a call can ask for: a step on the registries, a new provider, or something of a
provider.  The line operations run on the provider they are given. -/
inductive ControlRequest where
  | registry (request : FfiRequest)
  | fromConfig (config : ProviderConfig)
  | capabilities (provider : StorageProvider)
  | list (provider : StorageProvider) (options : ListOptions)
  | head (provider : StorageProvider) (key : String)
  | delete (provider : StorageProvider) (key : String)
  | copy (provider : StorageProvider) (request : CopyRequest)
  | probe (provider : StorageProvider)
  | inspect (call : Call)

def ControlResponse : ControlRequest → Type
  | .registry request => FfiResponse request
  | .fromConfig _ => Except Failure StorageProvider
  | .capabilities _ => List Capability
  | .list _ _ => Except Failure ListResult
  | .head _ _ => Except Failure ObjectMetadata
  | .delete _ _ => Except Failure Unit
  | .copy _ _ => Except Failure CopyResult
  | .probe _ => Except Failure ProbeResult
  | .inspect _ => Except Failure Answer

abbrev ControlEvent := Event ControlRequest ControlResponse

abbrev ControlScript (S α : Type) := Script ControlRequest ControlResponse S Failure α

namespace ControlScript

variable {S α : Type}

abbrev ask (request : ControlRequest) : ControlScript S (ControlResponse request) :=
  Script.ask request

/-- Ask, and stop with the error that comes back. -/
def await (request : ControlRequest) (result : ControlResponse request → Except Failure α) :
    ControlScript S α := do
  let response ← ask request
  Script.ofExcept (result response)

end ControlScript

open Script (orReturn)
open ControlScript

/-- The parsers and the serializer of the JSON library in use. -/
structure ControlJson where
  config : String → Except String ProviderConfig
  listOptions : String → Except String ListOptions
  copyRequest : String → Except String CopyRequest
  lineOptions : String → Except String LineOptions
  output : ControlOutput → Except String String

/-- Operations that only Rust can call are not shown. -/
def ffiCapabilities (capabilities : List Capability) : List Capability :=
  capabilities.filter fun capability =>
    !(capability == .guardedRead || capability == .delimiterListing)

def ffiProbeResult (result : ProbeResult) : ProbeResult :=
  { result with capabilities := ffiCapabilities result.capabilities }

section Calls

variable (json : ControlJson)

def writeOutput (value : ControlOutput) : ControlScript OutPointer Unit := do
  let out ← Script.read
  let out ← orReturn .error (writeJson (json.output value) out)
  Script.write out

/-- What the calls on a provider have in common. -/
def controlCall (field : String) (operation : StorageOperation) (handle providerId : UInt64)
    (body : StorageProvider → ControlScript OutPointer ControlOutput) :
    ControlScript OutPointer Unit := do
  let out ← Script.read
  orReturn .error (initializeOutJson out.isNone field operation)
  Script.write (some none)
  await (.registry (.getRuntime handle)) fun runtime => runtime.mapError .error
  let provider ← await (.registry (.provider providerId)) fun provider => provider.mapError .error
  let value ← body provider
  writeOutput json value

def storageprimsProviderCapabilities (handle providerId : UInt64) :
    ControlScript OutPointer Unit :=
  controlCall json "out_capabilities_json" .configureProvider handle providerId fun provider => do
    let capabilities ← ask (.capabilities provider)
    return .capabilities (ffiCapabilities capabilities)

def storageprimsList (handle providerId : UInt64) (requestJson : CStr) :
    ControlScript OutPointer Unit :=
  controlCall json "out_result_json" .list handle providerId fun provider => do
    let request ← orReturn .error (parseJson json.listOptions requestJson "request_json")
    let result ← await (.list provider request) id
    return .listed result

def storageprimsHead (handle providerId : UInt64) (key : CStr) : ControlScript OutPointer Unit :=
  controlCall json "out_metadata_json" .head handle providerId fun provider => do
    let key ← orReturn .error (parseCstr key "key")
    let metadata ← await (.head provider key) id
    return .metadata metadata

def storageprimsDelete (handle providerId : UInt64) (key : CStr) :
    ControlScript OutPointer Unit :=
  controlCall json "out_result_json" .delete handle providerId fun provider => do
    let key ← orReturn .error (parseCstr key "key")
    await (.delete provider key) id
    return .deleted

def storageprimsCopy (handle providerId : UInt64) (requestJson : CStr) :
    ControlScript OutPointer Unit :=
  controlCall json "out_result_json" .copy handle providerId fun provider => do
    let request ← orReturn .error (parseJson json.copyRequest requestJson "request_json")
    let result ← await (.copy provider request) id
    return .copied result

def storageprimsProbe (handle providerId : UInt64) : ControlScript OutPointer Unit :=
  controlCall json "out_result_json" .probe handle providerId fun provider => do
    let result ← await (.probe provider) id
    return .probed (ffiProbeResult result)

/-- The options of a line operation, from the caller's text. -/
def lineOptions (optsJson : CStr) : Except StorageError LineOptions :=
  if optsJson.isNone then .ok LineOptions.default
  else parseJson json.lineOptions optsJson "opts_json"

/-- What the calls that return lines have in common. -/
def linesCall (operation : StorageOperation)
    (call : StorageProvider → String → Nat → LineOptions → Call) (handle providerId : UInt64)
    (key : CStr) (n : UInt64) (optsJson : CStr) : ControlScript OutPointer Unit :=
  controlCall json "out_result_json" operation handle providerId fun provider => do
    let key ← orReturn .error (parseCstr key "key")
    let options ← orReturn .error (lineOptions json optsJson)
    let n ← orReturn .error (match tryUsize n.toNat with
      | some n => .ok n
      | none => .error (.invalidArgument (some operation) "n"
          "line count exceeds supported size"))
    let answer ← await (.inspect (call provider key n options)) id
    return .inspected answer

def storageprimsHeadLines := linesCall json .headLines .headLines

def storageprimsTailLines := linesCall json .tailLines .tailLines

def storageprimsMidLines := linesCall json .midLines .midLines

def storageprimsCountLines (handle providerId : UInt64) (key : CStr) :
    ControlScript OutPointer Unit :=
  controlCall json "out_result_json" .countLines handle providerId fun provider => do
    let key ← orReturn .error (parseCstr key "key")
    let answer ← await (.inspect (.countLines provider key)) id
    return .inspected answer

def ProviderKind.display : ProviderKind → String
  | .s3 => "s3"
  | .gcs => "gcs"
  | .azureBlob => "azure_blob"
  | .local => "local"

/-- A `*mut u64` from the caller: null, or what it points to. -/
abbrev OutId := Option UInt64

/-- `build_provider`; the other kinds are not yet exposed. -/
def buildProvider (config : ProviderConfig) :
    ControlScript OutId StorageProvider :=
  match config.provider with
  | .s3 => await (.fromConfig config) id
  | other => orReturn .error (.error (.invalidArgument (some .configureProvider) "provider"
      ("provider " ++ other.display ++ " is not yet exposed through storageprims-ffi")))

def storageprimsProviderCreate (handle : UInt64)
    (configJson : CStr) : ControlScript OutId Unit := do
  let out ← Script.read
  orReturn .error (initializeOutJson out.isNone "out_provider_id" .configureProvider)
  Script.write (some 0)
  await (.registry (.getRuntime handle)) fun runtime => runtime.mapError .error
  let config ← orReturn .error (parseJson json.config configJson "config_json")
  let provider ← buildProvider config
  let providerId ← ask (.registry .reserveProvider)
  ask (.registry (.storeProvider providerId provider))
  Script.write (some providerId)

def storageprimsProviderDestroy (handle providerId : UInt64) : ControlScript Unit Unit := do
  await (.registry (.getRuntime handle)) fun runtime => runtime.mapError .error
  let removed : Bool ← ask (.registry (.removeProvider providerId))
  orReturn .error (if removed then .ok () else .error (.invalidArgument (some .configureProvider)
    "provider_id" ("unknown provider id " ++ toString providerId)))

/-- A call gives back its code and leaves what its pointer points to. -/
def returning {S : Type} (script : ControlScript S Unit) (state : S) :
    Program ControlRequest ControlResponse (StorageprimsErrorCode × S) :=
  (script state).bind fun
    | (result, state') => .ret (.ofResult result, state')

/-- The calls on a provider, with their arguments. -/
inductive ControlCall where
  | providerCapabilities
  | list (requestJson : CStr)
  | head (key : CStr)
  | delete (key : CStr)
  | copy (requestJson : CStr)
  | probe
  | headLines (key : CStr) (n : UInt64) (optsJson : CStr)
  | tailLines (key : CStr) (n : UInt64) (optsJson : CStr)
  | midLines (key : CStr) (n : UInt64) (optsJson : CStr)
  | countLines (key : CStr)

def ControlCall.script (handle providerId : UInt64) : ControlCall → ControlScript OutPointer Unit
  | .providerCapabilities => storageprimsProviderCapabilities json handle providerId
  | .list requestJson => storageprimsList json handle providerId requestJson
  | .head key => storageprimsHead json handle providerId key
  | .delete key => storageprimsDelete json handle providerId key
  | .copy requestJson => storageprimsCopy json handle providerId requestJson
  | .probe => storageprimsProbe json handle providerId
  | .headLines key n optsJson => storageprimsHeadLines json handle providerId key n optsJson
  | .tailLines key n optsJson => storageprimsTailLines json handle providerId key n optsJson
  | .midLines key n optsJson => storageprimsMidLines json handle providerId key n optsJson
  | .countLines key => storageprimsCountLines json handle providerId key

def ControlCall.run (call : ControlCall) (handle providerId : UInt64) (out : OutPointer) :
    Program ControlRequest ControlResponse (StorageprimsErrorCode × OutPointer) :=
  returning (call.script json handle providerId) out

end Calls

/-! ## What a call asks for, and what it answers -/

/-- The call of a line operation, with the caller's arguments. -/
def AsksLines (json : ControlJson)
    (call : StorageProvider → String → Nat → LineOptions → Call) (key : CStr) (n : UInt64)
    (optsJson : CStr) (provider : StorageProvider) (request : ControlRequest) : Prop :=
  ∃ text options, key = some (.ok text) ∧ lineOptions json optsJson = .ok options ∧
    request = .inspect (call provider text n.toNat options)

/-- The one thing that a call asks of its provider, with the caller's arguments. -/
def ControlCall.Asks (json : ControlJson) (provider : StorageProvider) (request : ControlRequest) :
    ControlCall → Prop
  | .providerCapabilities => request = .capabilities provider
  | .list requestJson => ∃ options,
      parseJson json.listOptions requestJson "request_json" = .ok options ∧
      request = .list provider options
  | .head key => ∃ text, key = some (.ok text) ∧ request = .head provider text
  | .delete key => ∃ text, key = some (.ok text) ∧ request = .delete provider text
  | .copy requestJson => ∃ copy,
      parseJson json.copyRequest requestJson "request_json" = .ok copy ∧
      request = .copy provider copy
  | .probe => request = .probe provider
  | .headLines key n optsJson => AsksLines json .headLines key n optsJson provider request
  | .tailLines key n optsJson => AsksLines json .tailLines key n optsJson provider request
  | .midLines key n optsJson => AsksLines json .midLines key n optsJson provider request
  | .countLines key => ∃ text, key = some (.ok text) ∧
      request = .inspect (.countLines provider text)

/-- What a call shows of the provider's answer. -/
def ControlEvent.output : ControlEvent → Option ControlOutput
  | ⟨.registry _, _⟩ => none
  | ⟨.fromConfig _, _⟩ => none
  | ⟨.capabilities _, capabilities⟩ => some (.capabilities (ffiCapabilities capabilities))
  | ⟨.list _ _, answer⟩ => (Except.toOption answer).map .listed
  | ⟨.head _ _, answer⟩ => (Except.toOption answer).map .metadata
  | ⟨.delete _ _, answer⟩ => (Except.toOption answer).map fun _ => .deleted
  | ⟨.copy _ _, answer⟩ => (Except.toOption answer).map .copied
  | ⟨.probe _, answer⟩ => (Except.toOption answer).map fun result => .probed (ffiProbeResult result)
  | ⟨.inspect _, answer⟩ => (Except.toOption answer).map .inspected

/-- The capabilities that an output names. -/
def ControlOutput.named : ControlOutput → List Capability
  | .capabilities shown => shown
  | .probed result => result.capabilities
  | _ => []

/-- How far a call has come: it asks its provider last, for one thing, and only when both
lookups have found something. -/
inductive Staged (json : ControlJson) (call : ControlCall) (handle providerId : UInt64) :
    List ControlEvent → Prop
  | start : Staged json call handle providerId []
  | runtime (answer : Except StorageError Unit) :
      Staged json call handle providerId [⟨.registry (.getRuntime handle), answer⟩]
  | lookup (answer : Except StorageError StorageProvider) :
      Staged json call handle providerId
        [⟨.registry (.getRuntime handle), .ok ()⟩, ⟨.registry (.provider providerId), answer⟩]
  | asked (provider : StorageProvider) (event : ControlEvent)
      (hasks : call.Asks json provider event.request) :
      Staged json call handle providerId
        [⟨.registry (.getRuntime handle), .ok ()⟩, ⟨.registry (.provider providerId), .ok provider⟩,
          event]

/-- A call has answered: the output is the JSON text of what its provider answered, and
names nothing that only Rust can call. -/
def Answered (json : ControlJson) (call : ControlCall) (handle providerId : UInt64)
    (events : List ControlEvent) (out : OutPointer) : Prop :=
  ∃ provider event value text,
    events = [⟨.registry (.getRuntime handle), .ok ()⟩,
      ⟨.registry (.provider providerId), .ok provider⟩, event] ∧
    call.Asks json provider event.request ∧ event.output = some value ∧
    json.output value = .ok text ∧ out = some (some (withoutNul text)) ∧
    ∀ capability ∈ value.named, capability ≠ .guardedRead ∧ capability ≠ .delimiterListing

theorem named_ffiCapabilities {capabilities : List Capability} :
    ∀ capability ∈ ffiCapabilities capabilities,
      capability ≠ .guardedRead ∧ capability ≠ .delimiterListing := by
  intro capability hmem
  have hkept := (List.mem_filter.mp hmem).2
  cases capability <;> simp_all

/-- What only Rust can call is not named by any answer. -/
theorem ControlEvent.named_output {event : ControlEvent} {value : ControlOutput}
    (h : event.output = some value) :
    ∀ capability ∈ value.named, capability ≠ .guardedRead ∧ capability ≠ .delimiterListing := by
  obtain ⟨request, answer⟩ := event
  cases request with
  | registry request => cases h
  | fromConfig config => cases h
  | capabilities provider =>
      cases h
      exact named_ffiCapabilities
  | probe provider =>
      obtain ⟨result, -, rfl⟩ := Option.map_eq_some_iff.mp h
      exact named_ffiCapabilities
  | list provider options =>
      obtain ⟨result, -, rfl⟩ := Option.map_eq_some_iff.mp h
      exact fun _ hmem => absurd hmem List.not_mem_nil
  | head provider key =>
      obtain ⟨result, -, rfl⟩ := Option.map_eq_some_iff.mp h
      exact fun _ hmem => absurd hmem List.not_mem_nil
  | delete provider key =>
      obtain ⟨result, -, rfl⟩ := Option.map_eq_some_iff.mp h
      exact fun _ hmem => absurd hmem List.not_mem_nil
  | copy provider request =>
      obtain ⟨result, -, rfl⟩ := Option.map_eq_some_iff.mp h
      exact fun _ hmem => absurd hmem List.not_mem_nil
  | inspect call =>
      obtain ⟨result, -, rfl⟩ := Option.map_eq_some_iff.mp h
      exact fun _ hmem => absurd hmem List.not_mem_nil

/-! ## Rules -/

section Rules

variable {json : ControlJson} {call : ControlCall} {handle providerId : UInt64} {α β : Type}

/-- The two lookups, when both have found something. -/
def lookups (handle providerId : UInt64) (provider : StorageProvider) : List ControlEvent :=
  [⟨.registry (.getRuntime handle), .ok ()⟩, ⟨.registry (.provider providerId), .ok provider⟩]

/-- The part of a call that is its own: it leaves the output pointer alone, asks its provider
for one thing, and shows what came back. -/
def Carries (json : ControlJson) (call : ControlCall) (handle providerId : UInt64)
    (body : StorageProvider → ControlScript OutPointer ControlOutput) : Prop :=
  ∀ provider out, Script.Ensures history (Staged json call handle providerId) (body provider)
    (fun value out' past => out' = out ∧ ∃ event,
      past = lookups handle providerId provider ++ [event] ∧
      call.Asks json provider event.request ∧ event.output = some value)
    (fun _ out' _ => out' = out) out (lookups handle providerId provider)

variable {provider : StorageProvider} {out : OutPointer}
variable {ok : β → OutPointer → List ControlEvent → Prop}

theorem staged_lookups :
    Staged json call handle providerId (lookups handle providerId provider) :=
  .lookup (.ok provider)

/-- An argument that is refused ends the call. -/
theorem carries_orReturn {result : Except StorageError α}
    {next : α → ControlScript OutPointer β}
    (hnext : ∀ value, result = .ok value →
      Script.Ensures history (Staged json call handle providerId) (next value) ok
        (fun _ out' _ => out' = out) out (lookups handle providerId provider)) :
    Script.Ensures history (Staged json call handle providerId) (orReturn .error result >>= next) ok
      (fun _ out' _ => out' = out) out (lookups handle providerId provider) := by
  exact Script.ensures_bind_orReturn (fun _ _ => ⟨staged_lookups, rfl⟩) hnext

/-- The one thing that the provider is asked for. -/
theorem carries_await {request : ControlRequest}
    {result : ControlResponse request → Except Failure α} {shown : α → ControlOutput}
    (hasks : call.Asks json provider request)
    (hshown : ∀ response value, result response = .ok value →
      ControlEvent.output ⟨request, response⟩ = some (shown value)) :
    Script.Ensures history (Staged json call handle providerId)
      (await request result >>= fun value => (pure (shown value) : ControlScript OutPointer _))
      (fun value out' past => out' = out ∧ ∃ event,
        past = lookups handle providerId provider ++ [event] ∧
        call.Asks json provider event.request ∧ event.output = some value)
      (fun _ out' _ => out' = out) out (lookups handle providerId provider) := by
  refine ⟨staged_lookups, fun response past hpast => ?_⟩
  have hstaged : Staged json call handle providerId past := by
    rw [show past = lookups handle providerId provider ++ [⟨request, response⟩] from hpast]
    exact .asked provider ⟨request, response⟩ hasks
  change Script.Ensures history (Staged json call handle providerId)
    (Script.ofExcept (result response) >>=
      fun value => (pure (shown value) : ControlScript OutPointer _)) _ _ out past
  refine Script.ensures_bind_ofExcept (fun _ _ => ⟨hstaged, rfl⟩) fun value hvalue => ?_
  exact ⟨hstaged, rfl, _, hpast, hasks, hshown response value hvalue⟩

variable {body : StorageProvider → ControlScript OutPointer ControlOutput}

theorem controlCall_ensures {field : String} {operation : StorageOperation}
    (hbody : Carries json call handle providerId body) :
    Script.Ensures history (Staged json call handle providerId)
      (controlCall json field operation handle providerId body)
      (fun _ out' past => Answered json call handle providerId past out')
      (fun _ out' _ => out' = out.map fun _ => none) out [] := by
  cases out with
  | none => exact ⟨.start, rfl⟩
  | some cell =>
      refine ⟨.start, fun runtime past₁ hpast₁ => ?_⟩
      subst hpast₁
      cases runtime with
      | error error => exact ⟨.runtime (.error error), rfl⟩
      | ok done =>
          refine ⟨.runtime (.ok ()), fun answer past₂ hpast₂ => ?_⟩
          subst hpast₂
          cases answer with
          | error error => exact ⟨.lookup (.error error), rfl⟩
          | ok provider =>
              refine Script.Ensures.bind (hbody provider (some none)) ?_
              rintro value out' past hstaged ⟨rfl, event, rfl, hasks, houtput⟩
              -- the answer is known, and only has to be written
              refine Script.ensures_bind_ofExcept (fun _ _ => ⟨hstaged, rfl⟩)
                fun written hwritten => ⟨hstaged, ?_⟩
              cases hjson : writeJson (json.output value) (some none) with
              | error error =>
                  rw [hjson] at hwritten
                  cases hwritten
              | ok other =>
                  rw [hjson] at hwritten
                  cases hwritten
                  obtain ⟨text, htext, rfl⟩ := writeJson_ok hjson
                  exact ⟨provider, event, value, text, rfl, hasks, houtput, htext, rfl,
                    ControlEvent.named_output houtput⟩

theorem linesCall_ensures {operation : StorageOperation}
    {lines : StorageProvider → String → Nat → LineOptions → Call} {key optsJson : CStr}
    {n : UInt64}
    (hasks : ∀ provider request, AsksLines json lines key n optsJson provider request →
      call.Asks json provider request) :
    Script.Ensures history (Staged json call handle providerId)
      (linesCall json operation lines handle providerId key n optsJson)
      (fun _ out' past => Answered json call handle providerId past out')
      (fun _ out' _ => out' = out.map fun _ => none) out [] := by
  refine controlCall_ensures fun provider out => carries_orReturn fun text htext => ?_
  refine carries_orReturn fun options hoptions => carries_orReturn fun count hcount => ?_
  have hfits : tryUsize n.toNat = some n.toNat := if_pos n.toNat_lt
  rw [hfits] at hcount
  cases hcount
  have hlines : call.Asks json provider (.inspect (lines provider text n.toNat options)) :=
    hasks provider _ ⟨text, options, parseCstr_ok htext, hoptions, rfl⟩
  exact carries_await hlines fun response value hvalue => by subst hvalue; rfl

theorem ControlCall.script_ensures (call : ControlCall) :
    Script.Ensures history (Staged json call handle providerId)
      (call.script json handle providerId)
      (fun _ out' past => Answered json call handle providerId past out')
      (fun _ out' _ => out' = out.map fun _ => none) out [] := by
  cases call with
  | providerCapabilities =>
      refine controlCall_ensures fun provider out => ⟨staged_lookups, fun shown past hpast => ?_⟩
      subst hpast
      exact ⟨.asked provider _ rfl, rfl, _, rfl, rfl, rfl⟩
  | list requestJson =>
      refine controlCall_ensures fun provider out => carries_orReturn fun options hoptions => ?_
      exact carries_await ⟨options, hoptions, rfl⟩ fun _ _ hvalue => by subst hvalue; rfl
  | head key =>
      refine controlCall_ensures fun provider out => carries_orReturn fun text htext => ?_
      exact carries_await ⟨text, parseCstr_ok htext, rfl⟩ fun _ _ hvalue => by subst hvalue; rfl
  | delete key =>
      refine controlCall_ensures fun provider out => carries_orReturn fun text htext => ?_
      exact carries_await ⟨text, parseCstr_ok htext, rfl⟩ fun _ _ hvalue => by subst hvalue; rfl
  | copy requestJson =>
      refine controlCall_ensures fun provider out => carries_orReturn fun copy hcopy => ?_
      exact carries_await ⟨copy, hcopy, rfl⟩ fun _ _ hvalue => by subst hvalue; rfl
  | probe =>
      refine controlCall_ensures fun provider out => ?_
      exact carries_await rfl fun _ _ hvalue => by subst hvalue; rfl
  | headLines key n optsJson => exact linesCall_ensures fun _ _ hlines => hlines
  | tailLines key n optsJson => exact linesCall_ensures fun _ _ hlines => hlines
  | midLines key n optsJson => exact linesCall_ensures fun _ _ hlines => hlines
  | countLines key =>
      refine controlCall_ensures fun provider out => carries_orReturn fun text htext => ?_
      exact carries_await ⟨text, parseCstr_ok htext, rfl⟩ fun _ _ hvalue => by subst hvalue; rfl

/-- No failure is reported as `Ok`. -/
theorem ofResult_error_ne (failure : Failure) :
    StorageprimsErrorCode.ofResult (.error failure) ≠ .ok := by
  cases failure with
  | panic => decide
  | error error =>
      show StorageprimsErrorCode.ofCode error.code ≠ .ok
      cases error.code <;> decide

theorem returning_ensures {S : Type} {script : ControlScript S Unit} {state : S}
    {inv : List ControlEvent → Prop} {ok : S → List ControlEvent → Prop}
    {refused : S → List ControlEvent → Prop}
    (h : Script.Ensures history inv script (fun _ => ok) (fun _ => refused) state []) :
    (returning script state).Ensures history inv (fun reply past =>
      (reply.1 = .ok → ok reply.2 past) ∧ (reply.1 ≠ .ok → refused reply.2 past)) [] := by
  refine Program.Ensures.bind h ?_
  rintro ⟨result, state'⟩ past hinv hexit
  refine ⟨hinv, ?_⟩
  cases result with
  | ok done => exact ⟨fun _ => hexit, fun hcode => absurd rfl hcode⟩
  | error failure => exact ⟨fun hcode => absurd hcode (ofResult_error_ne failure), fun _ => hexit⟩

theorem ControlCall.run_ensures (json : ControlJson) (call : ControlCall)
    (handle providerId : UInt64) (out : OutPointer) :
    (call.run json handle providerId out).Ensures history (Staged json call handle providerId)
      (fun reply past =>
        (reply.1 = .ok → Answered json call handle providerId past reply.2) ∧
        (reply.1 ≠ .ok → reply.2 = out.map fun _ => none)) [] :=
  returning_ensures call.script_ensures

/-- A call on a provider asks it for one thing at most, with the caller's own arguments, and
only when runtime and provider have been found.  It returns `Ok` when its output is the JSON
text of what came back, which names nothing that only Rust can call; and when it returns
anything else its output is null. -/
theorem control_call_answers {rest : Program ControlRequest ControlResponse
    (StorageprimsErrorCode × OutPointer)} {events : List ControlEvent}
    (htrace : Trace (call.run json handle providerId out) events rest) :
    Staged json call handle providerId events ∧
      ∀ code out', rest = .ret (code, out') →
        (code = .ok → Answered json call handle providerId events out') ∧
        (code ≠ .ok → out' = out.map fun _ => none) := by
  obtain ⟨hstaged, hrest⟩ := (call.run_ensures json handle providerId out).of_trace htrace
    (accepts_history [] events)
  refine ⟨hstaged, fun code out' hret => ?_⟩
  subst hret
  exact hrest.2

end Rules

theorem trace_writeOutput {json : ControlJson} {value : ControlOutput} {out out' : OutPointer}
    (hwritten : writeJson (json.output value) out = .ok out') :
    Trace (writeOutput json value out) [] (.ret (.ok (), out')) := by
  show Trace ((orReturn .error (writeJson (json.output value) out) >>= fun out =>
    (Script.write out : ControlScript OutPointer Unit)) out) [] _
  rw [hwritten]
  exact .refl _

/-- A JSON library that reads and writes the empty object. -/
def emptyJson : ControlJson :=
  ⟨fun _ => .error "", fun _ => .ok ⟨none, none, none⟩, fun _ => .error "", fun _ => .error "",
    fun _ => .ok "{}"⟩

/-- A provider without guarded reads. -/
def plainProvider : StorageProvider := ⟨.s3, none⟩

/-- A page without rows is listed. -/
theorem control_call_answers_empty :
    Answered emptyJson (.list (some (.ok "{}"))) 1 1
      [⟨.registry (.getRuntime 1), .ok ()⟩, ⟨.registry (.provider 1), .ok plainProvider⟩,
        ⟨.list plainProvider ⟨none, none, none⟩, .ok ⟨[], none, false⟩⟩]
      (some (some "{}")) := by
  have htrace : Trace ((ControlCall.list (some (.ok "{}"))).run emptyJson 1 1 (some none))
      [⟨.registry (.getRuntime 1), .ok ()⟩, ⟨.registry (.provider 1), .ok plainProvider⟩,
        ⟨.list plainProvider ⟨none, none, none⟩, .ok ⟨[], none, false⟩⟩]
      (.ret (.ok, some (some "{}"))) := by
    refine .step _ _ _ _ _ (.step _ _ _ _ _ (.step _ _ _ _ _ ?_))
    exact Trace.bind (@trace_writeOutput emptyJson (.listed ⟨[], none, false⟩) _ _
      writeJson_emptyObject)
      (.refl _)
  exact ((control_call_answers htrace).2 _ _ rfl).1 rfl

end Storageprims

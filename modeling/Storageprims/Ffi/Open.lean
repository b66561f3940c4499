import Storageprims.Core.Provider
import Storageprims.Ffi.Finalize
import Storageprims.Ops.Guarded
import Storageprims.S3.Objects

/-!
# Opening streams

The three calls that open a stream: a read, a ranged read and an upload.  Each
checks its arguments, asks the provider for what it needs, inserts the stream
and only then writes the descriptor; when that fails, it takes the stream back.

A call is a script over `FfiRequest`, everything it can ask of its runtime, of
the provider and of the system.  Its state is the caller's output pointer.
-/

namespace Storageprims

open Interaction

/-- The descriptors of the two ends of a pipe. -/
structure Pipe where
  reader : Int32
  writer : Int32

structure StreamDescriptor where
  streamId : Option UInt64
  fd : Int32
  mode : String

/-- What a thread can ask of a runtime, and what the calls ask of everything else.
The first eight are the steps on the registries. -/
inductive FfiRequest where
  | reserveProvider
  | storeProvider (providerId : UInt64) (provider : StorageProvider)
  | provider (providerId : UInt64)
  | removeProvider (providerId : UInt64)
  | reserveStream
  | storeStream (streamId : UInt64) (stream : StreamState)
  | takeStream (streamId : UInt64)
  | removeStream (streamId : UInt64)
  | getRuntime (handle : UInt64)
  | pipe
  | get (provider : StorageProvider) (key : String)
  | observeSource (provider : GuardedReadProvider) (key : String)
  | guardedGetRange (provider : GuardedReadProvider) (request : GuardedRangeRequest)
  | readChannel
  | putChannel
  | spawnRead (providerStream : ReaderId) (writer : Int32) (operation : StorageOperation)
      (expectedBytes : Option Nat)
  | spawnPut (provider : StorageProvider) (key : String) (reader : Int32) (options : PutOptions)

/-- What comes back.  A provider is foreign code and may panic; a channel's answer
is its receiver. -/
def FfiResponse : FfiRequest → Type
  | .reserveProvider => UInt64
  | .storeProvider _ _ => Unit
  | .provider _ => Except StorageError StorageProvider
  | .removeProvider _ => Bool
  | .reserveStream => UInt64
  | .storeStream _ _ => Unit
  | .takeStream _ => Except StorageError StreamState
  | .removeStream _ => Bool
  | .getRuntime _ => Except StorageError Unit
  | .pipe => Except IoError Pipe
  | .get _ _ => Except Failure ReaderId
  | .observeSource _ _ => Except Failure SourceObservation
  | .guardedGetRange _ _ => Except Failure GuardedReadResponse
  | .readChannel => Receiver Unit
  | .putChannel => Receiver PutResult
  | .spawnRead _ _ _ _ => Unit
  | .spawnPut _ _ _ _ => Unit

/-- An answered request of a call. -/
abbrev FfiEvent := Event FfiRequest FfiResponse

abbrev FfiScript := Script FfiRequest FfiResponse OutPointer Failure

abbrev FfiScript.ask (request : FfiRequest) : FfiScript (FfiResponse request) :=
  Script.ask request

open Script (orReturn)
open FfiScript

def PutOptions.default : PutOptions := ⟨none, none, [], .none⟩

section Calls

-- the serializer and the parser of the JSON library in use
variable (toJson : StreamDescriptor → Except String String)
variable (fromJson : String → Except String PutOptions)

/-- `initialize_out_json` on the pointer itself. -/
def initializeOut (field : String) (operation : StorageOperation) : FfiScript Unit := do
  let out ← Script.read
  orReturn .error (initializeOutJson out.isNone field operation)
  Script.write (some none)

/-- `insert_stream` as its two steps. -/
def insertStream (stream : StreamState) : FfiScript UInt64 := do
  let streamId ← ask .reserveStream
  ask (.storeStream streamId stream)
  return streamId

/-- Insert a stream and hand its descriptor to the caller, or take it back. -/
def describeStream (stream : StreamState) (fd : Int32) (mode : String) : FfiScript Unit := do
  let streamId ← insertStream stream
  let out ← Script.read
  match writeJson (toJson ⟨some streamId, fd, mode⟩) out with
  | .error error => do
      let _ ← ask (.removeStream streamId)
      Script.fail (.error error)
  | .ok out => Script.write out

def storageprimsGet (handle providerId : UInt64) (key : CStr) : FfiScript Unit := do
  initializeOut "out_stream_json" .get
  let runtime ← ask (.getRuntime handle)
  orReturn .error runtime
  let provider ← ask (.provider providerId)
  let provider ← orReturn .error provider
  let key ← orReturn .error (parseCstr key "key")
  let pipe ← ask .pipe
  let pipe ← orReturn .error (pipe.mapError (.io (some .get)))
  let response ← ask (.get provider key)
  let providerStream ← Script.ofExcept response
  let receiver ← ask .readChannel
  describeStream toJson (.pendingRead receiver .get) pipe.reader "read"
  ask (.spawnRead providerStream pipe.writer .get none)

/-- The length a validated window promises. -/
def promisedLength (receipt : SourceReceipt) : Except StorageError Nat :=
  match receipt.returnedWindow.bind (·.checkedLen) with
  | some length => .ok length
  | none => .error (.io (some .getRange) ⟨.invalidData,
      "guarded range response is missing a valid returned window"⟩)

def storageprimsGetRange (handle providerId : UInt64) (key : CStr) (offset length : UInt64) :
    FfiScript Unit := do
  initializeOut "out_stream_json" .getRange
  let runtime ← ask (.getRuntime handle)
  orReturn .error runtime
  let provider ← ask (.provider providerId)
  let provider ← orReturn .error provider
  let key ← orReturn .error (parseCstr key "key")
  orReturn .error (if length = 0 ∨ checkedAdd offset.toNat (length.toNat - 1) = none then
    .error (.invalidArgument (some .getRange) "offset/length"
      "range must be non-empty and must not overflow") else .ok ())
  let pipe ← ask .pipe
  let pipe ← orReturn .error (pipe.mapError (.io (some .getRange)))
  let guarded ← orReturn .error (requireGuardedReads provider .getRange)
  let response ← ask (.observeSource guarded key)
  let observation ← Script.ofExcept response
  let selector ← orReturn .error (match observedSelector observation.receipt with
    | some selector => .ok selector
    | none => .error (.unsupportedCapability provider.providerKind .getRange .guardedRead))
  let selection ← orReturn .error (guarded.bindGuardedRead key selector)
  let response ← ask (.guardedGetRange guarded ⟨selection, offset.toNat, length.toNat⟩)
  let response ← Script.ofExcept response
  let expectedBytes ← orReturn .error (promisedLength response.receipt)
  let receiver ← ask .readChannel
  describeStream toJson (.pendingRead receiver .getRange) pipe.reader "read"
  ask (.spawnRead response.reader pipe.writer .getRange (some expectedBytes))

def storageprimsPutBegin (handle providerId : UInt64) (key metadataJson : CStr) :
    FfiScript Unit := do
  initializeOut "out_stream_json" .put
  let runtime ← ask (.getRuntime handle)
  orReturn .error runtime
  let provider ← ask (.provider providerId)
  let provider ← orReturn .error provider
  let key ← orReturn .error (parseCstr key "key")
  let options ← orReturn .error (if metadataJson.isNone then .ok PutOptions.default
    else parseJson fromJson metadataJson "metadata_json")
  let pipe ← ask .pipe
  let pipe ← orReturn .error (pipe.mapError (.io (some .put)))
  let receiver ← ask .putChannel
  describeStream toJson (.pendingPut receiver) pipe.writer "write"
  ask (.spawnPut provider key pipe.reader options)

/-- The calls that open a stream, with their arguments. -/
inductive OpenCall where
  | get (handle providerId : UInt64) (key : CStr)
  | getRange (handle providerId : UInt64) (key : CStr) (offset length : UInt64)
  | putBegin (handle providerId : UInt64) (key metadataJson : CStr)

def OpenCall.script : OpenCall → FfiScript Unit
  | .get handle providerId key => storageprimsGet toJson handle providerId key
  | .getRange handle providerId key offset length =>
      storageprimsGetRange toJson handle providerId key offset length
  | .putBegin handle providerId key metadataJson =>
      storageprimsPutBegin toJson fromJson handle providerId key metadataJson

/-- The code at the error boundary, where a panic is caught. -/
def StorageprimsErrorCode.ofResult : Except Failure Unit → StorageprimsErrorCode
  | .ok () => .ok
  | .error (.error error) => .ofCode error.code
  | .error .panic => .other

/-- A call gives back its code and leaves the output pointer. -/
def OpenCall.run (call : OpenCall) (out : OutPointer) :
    Program FfiRequest FfiResponse (StorageprimsErrorCode × OutPointer) :=
  (call.script toJson fromJson out).bind fun
    | (result, out') => .ret (.ofResult result, out')

end Calls

/-! ## What a refused call leaves -/

/-- A request that is no step of an insertion. -/
def FfiRequest.Outside : FfiRequest → Prop
  | .reserveProvider => False
  | .storeProvider _ _ => False
  | .reserveStream => False
  | .storeStream _ _ => False
  | _ => True

/-- The id of the stream a call has reserved and not yet stored.  A call takes the
two steps of an insertion in a row, and inserts no provider. -/
def insertion : Environment FfiRequest FfiResponse (Option UInt64)
  | held, .reserveStream, id, held' => held = none ∧ held' = some id
  | held, .storeStream id _, _, held' => held = some id ∧ held' = none
  | held, request, _, held' => request.Outside ∧ held' = held

/-- The requests of a call are an insertion in order, as far as the call has come. -/
def InOrder (past : List FfiEvent) : Prop := ∃ held, Accepts insertion none past held

/-- Every stream that was stored has been removed since. -/
def Retracted (past : List FfiEvent) : Prop :=
  ∀ id stream, ⟨.storeStream id stream, ()⟩ ∈ past →
    ∃ before present after, past = before ++ ⟨.removeStream id, present⟩ :: after ∧
      ⟨.storeStream id stream, ()⟩ ∈ before

/-- Nothing has been inserted, and nothing is about to be. -/
def Uninserted (past : List FfiEvent) : Prop := ∀ event ∈ past, event.request.Outside

/-- The error exit: the pointer is null and no entry remains. -/
def Refused (out : OutPointer) (_ : Failure) (out' : OutPointer) (past : List FfiEvent) : Prop :=
  out' = out.map (fun _ => none) ∧ Retracted past

theorem insertion_outside {request : FfiRequest} (h : request.Outside) (held : Option UInt64)
    (response : FfiResponse request) : insertion held request response held := by
  cases request with
  | reserveProvider => exact h.elim
  | storeProvider providerId provider => exact h.elim
  | reserveStream => exact h.elim
  | storeStream streamId stream => exact h.elim
  | _ => exact ⟨h, rfl⟩

theorem Uninserted.append {past : List FfiEvent} (h : Uninserted past) {event : FfiEvent}
    (hevent : event.request.Outside) : Uninserted (past ++ [event]) := by
  intro other hother
  rcases List.mem_append.mp hother with hold | hnew
  · exact h other hold
  · rw [List.mem_singleton.mp hnew]
    exact hevent

theorem Uninserted.accepts {past : List FfiEvent} (h : Uninserted past) :
    Accepts insertion none past none := by
  induction past with
  | nil => exact .nil none
  | cons event past ih =>
      refine accepts_cons_iff.mpr ⟨none, ?_, ih fun other hother => h other (by simp [hother])⟩
      exact insertion_outside (h event List.mem_cons_self) none event.response

theorem Uninserted.inOrder {past : List FfiEvent} (h : Uninserted past) : InOrder past :=
  ⟨none, h.accepts⟩

theorem Uninserted.retracted {past : List FfiEvent} (h : Uninserted past) : Retracted past := by
  intro id stream hmem
  exact (h _ hmem).elim

/-- A call in order inserts no provider. -/
theorem InOrder.no_provider {past : List FfiEvent} (h : InOrder past) {id : UInt64}
    {provider : StorageProvider} : ⟨.storeProvider id provider, ()⟩ ∉ past := by
  intro hmem
  obtain ⟨held, haccepts⟩ := h
  obtain ⟨before, after, hstep⟩ := haccepts.step_of_mem hmem
  exact hstep.1

section Refusals

variable {out start : OutPointer} {past : List FfiEvent} {α β : Type}
variable {ok : β → OutPointer → List FfiEvent → Prop}

/-- A question outside the insertion, before it: the call goes on with whatever is
answered. -/
theorem ensures_ask {request : FfiRequest} {next : FfiResponse request → FfiScript β}
    (hquiet : Uninserted past) (hrequest : request.Outside)
    (hnext : ∀ response past', Uninserted past' →
      Script.Ensures history InOrder (next response) ok (Refused start) out past') :
    Script.Ensures history InOrder (ask request >>= next) ok (Refused start) out past := by
  refine Script.ensures_bind_ask hquiet.inOrder fun response past' hpast => ?_
  subst hpast
  exact hnext response _ (hquiet.append hrequest)

/-- A fallible step before the insertion: it refuses the call or hands on its value. -/
theorem ensures_settle {result : Except Failure α} {next : α → FfiScript β}
    (hquiet : Uninserted past)
    (hnext : ∀ value,
      Script.Ensures history InOrder (next value) ok (Refused start) (some none) past)
    (hstart : start.isSome) :
    Script.Ensures history InOrder (Script.ofExcept result >>= next) ok (Refused start)
      (some none) past := by
  refine Script.ensures_bind_ofExcept ?_ fun value _ => hnext value
  intro failure _
  obtain ⟨cell, rfl⟩ := Option.isSome_iff_exists.mp hstart
  exact ⟨hquiet.inOrder, rfl, hquiet.retracted⟩

/-- The insertion itself: refused after it, a call has taken its stream back. -/
theorem describeStream_ensures {toJson : StreamDescriptor → Except String String}
    {stream : StreamState} {fd : Int32} {mode : String} (hquiet : Uninserted past)
    (hstart : start.isSome) :
    Script.Ensures history InOrder (describeStream toJson stream fd mode)
      (fun _ _ past' => Accepts insertion none past' none) (Refused start) (some none) past := by
  obtain ⟨cell, rfl⟩ := Option.isSome_iff_exists.mp hstart
  refine ⟨hquiet.inOrder, fun id past₁ hpast₁ => ?_⟩
  subst hpast₁
  have hreserved : Accepts insertion none (past ++ [⟨.reserveStream, id⟩]) (some id) :=
    hquiet.accepts.snoc ⟨rfl, rfl⟩
  refine ⟨⟨_, hreserved⟩, fun done past₂ hpast₂ => ?_⟩
  subst hpast₂
  have hstored : Accepts insertion none
      (past ++ [⟨.reserveStream, id⟩] ++ [⟨.storeStream id stream, done⟩]) none :=
    hreserved.snoc ⟨rfl, rfl⟩
  show Script.Ensures history InOrder
    (match writeJson (toJson ⟨some id, fd, mode⟩) (some none) with
      | .error error => do
          let _ ← ask (.removeStream id)
          Script.fail (.error error)
      | .ok out => Script.write out) _ _ (some none) _
  cases writeJson (toJson ⟨some id, fd, mode⟩) (some none) with
  | ok out => exact ⟨⟨_, hstored⟩, hstored⟩
  | error error =>
      refine ⟨⟨_, hstored⟩, fun present past₃ hpast₃ => ?_⟩
      subst hpast₃
      refine ⟨⟨none, hstored.snoc ⟨trivial, rfl⟩⟩, rfl, ?_⟩
      -- the only stored stream is the one just removed
      intro other found hmem
      have hother : other = id := by
        simp only [List.mem_append, List.mem_singleton] at hmem
        rcases hmem with ((hpast | hreserve) | hstore) | hremove
        · exact (hquiet _ hpast).elim
        · cases hreserve
        · cases hstore
          rfl
        · cases hremove
      subst hother
      refine ⟨_, present, [], rfl, ?_⟩
      rcases List.mem_append.mp hmem with hbefore | hremove
      · exact hbefore
      · cases List.mem_singleton.mp hremove

/-- The insertion at the end of a call, and its worker. -/
theorem ensures_open {toJson : StreamDescriptor → Except String String} {stream : StreamState}
    {fd : Int32} {mode : String} {spawn : FfiScript β} (hquiet : Uninserted past)
    (hstart : start.isSome)
    (hspawn : ∀ out past, Accepts insertion none past none →
      Script.Ensures history InOrder spawn ok (Refused start) out past) :
    Script.Ensures history InOrder (describeStream toJson stream fd mode >>= fun _ => spawn) ok
      (Refused start) (some none) past := by
  refine Script.Ensures.bind (describeStream_ensures hquiet hstart) ?_
  intro _ out past' _ hpast'
  exact hspawn out past' hpast'

/-- The worker comes last, when the caller has been told everything. -/
theorem ensures_spawn {request : FfiRequest} (hrequest : request.Outside)
    (hpast : Accepts insertion none past none) :
    Script.Ensures history InOrder (ask request) (fun _ _ _ => True) (Refused start) out past := by
  refine ⟨⟨none, hpast⟩, fun response past' hpast' => ?_⟩
  subst hpast'
  exact ⟨⟨none, hpast.snoc (insertion_outside hrequest none response)⟩, trivial⟩

end Refusals

section Calls

variable {toJson : StreamDescriptor → Except String String}
variable {fromJson : String → Except String PutOptions}

theorem initializeOut_ensures {β : Type} {next : Unit → FfiScript β}
    {ok : β → OutPointer → List FfiEvent → Prop} (field : String) (operation : StorageOperation)
    (out : OutPointer)
    (hnext : out.isSome → ∀ past, Uninserted past →
      Script.Ensures history InOrder (next ()) ok (Refused out) (some none) past) :
    Script.Ensures history InOrder (initializeOut field operation >>= next) ok (Refused out)
      out [] := by
  have hempty : Uninserted [] := fun event hevent => (List.not_mem_nil hevent).elim
  cases out with
  | none => exact ⟨hempty.inOrder, rfl, hempty.retracted⟩
  | some cell => exact hnext rfl [] hempty

theorem storageprimsGet_ensures (handle providerId : UInt64) (key : CStr) (out : OutPointer) :
    Script.Ensures history InOrder (storageprimsGet toJson handle providerId key)
      (fun _ _ _ => True) (Refused out) out [] := by
  refine initializeOut_ensures _ _ out fun hstart past hpast => ?_
  refine ensures_ask hpast trivial fun runtime past hpast => ?_
  refine ensures_settle hpast (fun _ => ?_) hstart
  refine ensures_ask hpast trivial fun answer past hpast => ?_
  refine ensures_settle hpast (fun provider => ?_) hstart
  refine ensures_settle hpast (fun key => ?_) hstart
  refine ensures_ask hpast trivial fun answer past hpast => ?_
  refine ensures_settle hpast (fun pipe => ?_) hstart
  refine ensures_ask hpast trivial fun answer past hpast => ?_
  refine ensures_settle hpast (fun providerStream => ?_) hstart
  refine ensures_ask hpast trivial fun receiver past hpast => ?_
  exact ensures_open hpast hstart fun out past hpast => ensures_spawn trivial hpast

theorem storageprimsGetRange_ensures (handle providerId : UInt64) (key : CStr)
    (offset length : UInt64) (out : OutPointer) :
    Script.Ensures history InOrder (storageprimsGetRange toJson handle providerId key offset length)
      (fun _ _ _ => True) (Refused out) out [] := by
  refine initializeOut_ensures _ _ out fun hstart past hpast => ?_
  refine ensures_ask hpast trivial fun runtime past hpast => ?_
  refine ensures_settle hpast (fun _ => ?_) hstart
  refine ensures_ask hpast trivial fun answer past hpast => ?_
  refine ensures_settle hpast (fun provider => ?_) hstart
  refine ensures_settle hpast (fun key => ?_) hstart
  refine ensures_settle hpast (fun _ => ?_) hstart
  refine ensures_ask hpast trivial fun answer past hpast => ?_
  refine ensures_settle hpast (fun pipe => ?_) hstart
  refine ensures_settle hpast (fun guarded => ?_) hstart
  refine ensures_ask hpast trivial fun answer past hpast => ?_
  refine ensures_settle hpast (fun observation => ?_) hstart
  refine ensures_settle hpast (fun selector => ?_) hstart
  refine ensures_settle hpast (fun selection => ?_) hstart
  refine ensures_ask hpast trivial fun answer past hpast => ?_
  refine ensures_settle hpast (fun response => ?_) hstart
  refine ensures_settle hpast (fun expectedBytes => ?_) hstart
  refine ensures_ask hpast trivial fun receiver past hpast => ?_
  exact ensures_open hpast hstart fun out past hpast => ensures_spawn trivial hpast

theorem storageprimsPutBegin_ensures (handle providerId : UInt64) (key metadataJson : CStr)
    (out : OutPointer) :
    Script.Ensures history InOrder
      (storageprimsPutBegin toJson fromJson handle providerId key metadataJson)
      (fun _ _ _ => True) (Refused out) out [] := by
  refine initializeOut_ensures _ _ out fun hstart past hpast => ?_
  refine ensures_ask hpast trivial fun runtime past hpast => ?_
  refine ensures_settle hpast (fun _ => ?_) hstart
  refine ensures_ask hpast trivial fun answer past hpast => ?_
  refine ensures_settle hpast (fun provider => ?_) hstart
  refine ensures_settle hpast (fun key => ?_) hstart
  refine ensures_settle hpast (fun options => ?_) hstart
  refine ensures_ask hpast trivial fun answer past hpast => ?_
  refine ensures_settle hpast (fun pipe => ?_) hstart
  refine ensures_ask hpast trivial fun receiver past hpast => ?_
  exact ensures_open hpast hstart fun out past hpast => ensures_spawn trivial hpast

namespace OpenCall

theorem script_ensures (call : OpenCall) (out : OutPointer) :
    Script.Ensures history InOrder (call.script toJson fromJson) (fun _ _ _ => True) (Refused out)
      out [] := by
  cases call with
  | get handle providerId key => exact storageprimsGet_ensures handle providerId key out
  | getRange handle providerId key offset length =>
      exact storageprimsGetRange_ensures handle providerId key offset length out
  | putBegin handle providerId key metadataJson =>
      exact storageprimsPutBegin_ensures handle providerId key metadataJson out

/-- At every point of a call, and at its end. -/
theorem run_ensures (call : OpenCall) (out : OutPointer) :
    (call.run toJson fromJson out).Ensures history InOrder
      (fun reply past => reply.1 ≠ .ok →
        reply.2 = out.map (fun _ => none) ∧ Retracted past) [] := by
  refine Program.Ensures.bind (call.script_ensures out) ?_
  intro finished past hpast hexit
  refine ⟨hpast, fun hcode => ?_⟩
  obtain ⟨result, out'⟩ := finished
  cases result with
  | ok done => exact absurd rfl hcode
  | error failure => exact hexit

variable {call : OpenCall} {out : OutPointer} {events : List FfiEvent}

/-- A call never asks for half an insertion, or for two at a time. -/
theorem inOrder {rest : Program FfiRequest FfiResponse (StorageprimsErrorCode × OutPointer)}
    (h : Trace (call.run toJson fromJson out) events rest) : InOrder events :=
  ((call.run_ensures out).of_trace h (accepts_history [] events)).1

/-- A call that returns an error leaves a null pointer and none of its streams. -/
theorem refused {code : StorageprimsErrorCode} {out' : OutPointer}
    (h : Trace (call.run toJson fromJson out) events (.ret (code, out'))) (hcode : code ≠ .ok) :
    out' = out.map (fun _ => none) ∧ Retracted events :=
  (call.run_ensures out).of_finished h (accepts_history [] events) hcode

end OpenCall

end Calls

end Storageprims

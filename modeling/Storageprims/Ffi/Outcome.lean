import Storageprims.Ffi.Finalize

/-!
# What a mistaken finalize costs

A caller that finalizes a stream with the wrong call is told so.  The question
is what the refusal leaves behind: whether the stream, and with it the result of
its worker, can still be had by the proper call after any further use of the
interface.
-/

namespace Storageprims

variable {Provider : Type}

-- the serializer of the JSON library in use
variable (toJson : PutResult → Except String String)

/-- A use of the interface, by what it does to the registries.  An opened stream
whose descriptor cannot be written is taken back at once. -/
inductive FfiStep (Provider : Type) where
  | init (built : Except StorageError Unit)
  | shutdown (handle : UInt64)
  | createProvider (handle : UInt64) (provider : Provider)
  | destroyProvider (handle providerId : UInt64)
  | openStream (handle : UInt64) (stream : StreamState) (described : Bool)
  | finalize (call : FinalizeCall) (handle streamId : UInt64)

/-- Change the runtime behind a handle, if there is one. -/
def Runtimes.withRuntime (process : Runtimes Provider) (handle : UInt64)
    (change : FfiRuntime Provider → FfiRuntime Provider) : Runtimes Provider :=
  match process.runtimes handle with
  | none => process
  | some runtime => process.store handle (change runtime)

def FfiRuntime.openStream (runtime : FfiRuntime Provider) (stream : StreamState)
    (described : Bool) : FfiRuntime Provider :=
  let (streamId, runtime) := runtime.insertStream stream
  if described then runtime else (runtime.removeStream streamId).2

def FfiStep.run (step : FfiStep Provider) (process : Runtimes Provider) : Runtimes Provider :=
  match step with
  | .init built => (process.initRuntime built).2
  | .shutdown handle => (process.shutdownRuntime handle).2
  | .createProvider handle provider =>
      process.withRuntime handle fun runtime => (runtime.insertProvider provider).2
  | .destroyProvider handle providerId =>
      process.withRuntime handle fun runtime => (runtime.removeProvider providerId).2
  | .openStream handle stream described =>
      process.withRuntime handle fun runtime => runtime.openStream stream described
  | .finalize call handle streamId => (call.run toJson process handle streamId).2

/-- The process after a sequence of uses, in whatever order their callers took. -/
def runSteps (steps : List (FfiStep Provider)) (process : Runtimes Provider) :
    Runtimes Provider :=
  steps.foldl (fun process step => step.run toJson process) process

/-- The id that the next stream of a runtime gets. -/
def Runtimes.nextStreamId (process : Runtimes Provider) (handle : UInt64) : Option UInt64 :=
  (process.runtimes handle).map (·.nextStreamId)

/-- A use that leaves the stream to its caller: it does not end the runtime, does
not give handle or id away again once the counters have come round, and does not
finalize the stream unless it is refused for its null pointer. -/
def FfiStep.Spares (handle streamId : UInt64) (process : Runtimes Provider) :
    FfiStep Provider → Prop
  | .init _ => process.nextHandleId ≠ handle
  | .shutdown other => other ≠ handle
  | .createProvider _ _ => True
  | .destroyProvider _ _ => True
  | .openStream other _ _ => other = handle → process.nextStreamId handle ≠ some streamId
  | .finalize call other otherId => other = handle → otherId = streamId → call = .put none

/-- Every use of the sequence leaves the stream to its caller. -/
def Spares (handle streamId : UInt64) : List (FfiStep Provider) → Runtimes Provider → Prop
  | [], _ => True
  | step :: steps, process =>
      step.Spares handle streamId process ∧ Spares handle streamId steps (step.run toJson process)

/-! ## Uses that spare a stream -/

variable {toJson}

theorem stream_withRuntime (process : Runtimes Provider) (changed handle streamId : UInt64)
    (change : FfiRuntime Provider → FfiRuntime Provider)
    (hchange : ∀ runtime, process.runtimes changed = some runtime → changed = handle →
      (change runtime).streams streamId = runtime.streams streamId) :
    (process.withRuntime changed change).stream handle streamId
      = process.stream handle streamId := by
  unfold Runtimes.withRuntime
  cases hruntime : process.runtimes changed with
  | none => rfl
  | some runtime =>
      show (process.store changed (change runtime)).stream handle streamId = _
      rw [process.stream_store]
      by_cases hsame : handle = changed
      · rw [if_pos hsame, hchange runtime hruntime hsame.symm, hsame, Runtimes.stream, hruntime]
        rfl
      · rw [if_neg hsame]

theorem stream_update_of_ne (process : Runtimes Provider) {changed handle : UInt64}
    (hne : changed ≠ handle) (streamId : UInt64) (entry : Option (FfiRuntime Provider))
    (nextHandleId : UInt64) :
    Runtimes.stream ⟨Function.update process.runtimes changed entry, nextHandleId⟩ handle streamId
      = process.stream handle streamId := by
  have hentry : Function.update process.runtimes changed entry handle = process.runtimes handle :=
    Function.update_of_ne hne.symm _ _
  exact congrArg (Option.bind · (·.streams streamId)) hentry

/-- An opened stream gets the next id and touches no other. -/
theorem openStream_streams (runtime : FfiRuntime Provider) (stream : StreamState)
    (described : Bool) {streamId : UInt64} (hfresh : runtime.nextStreamId ≠ streamId) :
    (runtime.openStream stream described).streams streamId = runtime.streams streamId := by
  have hinsert : (runtime.insertStream stream).2.streams streamId = runtime.streams streamId :=
    Function.update_of_ne hfresh.symm _ _
  cases described with
  | true => exact hinsert
  | false =>
      show Function.update (runtime.insertStream stream).2.streams runtime.nextStreamId none
        streamId = _
      rw [Function.update_of_ne hfresh.symm, hinsert]

/-- One use that spares a stream leaves it as it is. -/
theorem FfiStep.run_stream {step : FfiStep Provider} {process : Runtimes Provider}
    {handle streamId : UInt64} (hspares : step.Spares handle streamId process) :
    (step.run toJson process).stream handle streamId = process.stream handle streamId := by
  cases step with
  | init built =>
      cases built with
      | error error => rfl
      | ok done => exact stream_update_of_ne process hspares streamId _ _
  | shutdown other => exact stream_update_of_ne process hspares streamId _ _
  | createProvider other provider =>
      exact stream_withRuntime process other handle streamId _ fun _ _ _ => rfl
  | destroyProvider other providerId =>
      exact stream_withRuntime process other handle streamId _ fun _ _ _ => rfl
  | openStream other stream described =>
      refine stream_withRuntime process other handle streamId _ fun runtime hruntime hsame => ?_
      apply openStream_streams
      intro hnext
      apply hspares hsame
      rw [Runtimes.nextStreamId, ← hsame, hruntime, Option.map_some, hnext]
  | finalize call other otherId =>
      show (call.run toJson process other otherId).2.stream handle streamId = _
      rw [FinalizeCall.run_stream, if_neg]
      rintro ⟨⟨hhandle, hid⟩, hcall⟩
      exact hcall (hspares hhandle.symm hid.symm)

/-- A sequence of uses that spares a stream leaves it as it is. -/
theorem runSteps_stream {steps : List (FfiStep Provider)} {process : Runtimes Provider}
    {handle streamId : UInt64} (hspares : Spares toJson handle streamId steps process) :
    (runSteps toJson steps process).stream handle streamId = process.stream handle streamId := by
  induction steps generalizing process with
  | nil => rfl
  | cons step steps ih =>
      show (runSteps toJson steps (step.run toJson process)).stream handle streamId = _
      rw [ih hspares.2, FfiStep.run_stream hspares.1]

/-! ## The cost of a mistake -/

/-- A finalize call that takes a stream takes its result out of reach: until the
id is given away again, every later finalize call is refused. -/
theorem finalize_forgets {process : Runtimes Provider} {handle streamId : UInt64}
    {call later : FinalizeCall} (hcall : call ≠ .put none) {steps : List (FfiStep Provider)}
    (hspares : Spares toJson handle streamId steps (call.run toJson process handle streamId).2) :
    (later.run toJson (runSteps toJson steps (call.run toJson process handle streamId).2) handle
      streamId).1.code = .invalidArgument := by
  apply FinalizeCall.absent_code
  rw [runSteps_stream hspares, FinalizeCall.run_stream]
  exact if_pos ⟨⟨rfl, rfl⟩, hcall⟩

variable (toJson) in
/-- What a finalize call of the wrong kind should cost: it is refused, no stream
of any runtime changes, and after every further use of the interface the proper
call still reports the worker's result. -/
def KeepsOutcome (process : Runtimes Provider) (handle streamId : UInt64) (stream : StreamState)
    (call : FinalizeCall) : Prop :=
  (call.run toJson process handle streamId).1.code = .invalidArgument ∧
    (∀ other otherId, (call.run toJson process handle streamId).2.stream other otherId
      = process.stream other otherId) ∧
    ∀ steps, Spares toJson handle streamId steps (call.run toJson process handle streamId).2 →
      ((FinalizeCall.proper stream.kind).run toJson
          (runSteps toJson steps (call.run toJson process handle streamId).2) handle streamId).1
        = stream.outcome toJson

/-- A mistaken finalize costs nothing exactly when its output pointer is null: it
is then refused before the stream is taken.  A mistaken call with a pointer, and
every mistaken call for a read, takes the stream and drops it. -/
theorem mistaken_finalize_iff {process : Runtimes Provider} {handle streamId : UInt64}
    {stream : StreamState} {call : FinalizeCall}
    (hstream : process.stream handle streamId = some stream) (hkind : call.kind ≠ stream.kind) :
    KeepsOutcome toJson process handle streamId stream call ↔ call = .put none := by
  constructor
  · intro hkeeps
    by_contra hcall
    -- any other call has already taken the stream when it looks at its kind
    have hsame := hkeeps.2.1 handle streamId
    rw [FinalizeCall.run_stream, if_pos ⟨⟨rfl, rfl⟩, hcall⟩, hstream] at hsame
    cases hsame
  · rintro rfl
    refine ⟨FinalizeCall.mistaken_code hstream hkind, fun other otherId => rfl,
      fun steps hspares => ?_⟩
    apply FinalizeCall.proper_run
    rw [runSteps_stream hspares]
    exact hstream

/-- A finished read, finalized as an upload through a null output pointer. -/
theorem mistaken_finalize_null :
    let runtime : FfiRuntime Unit := { FfiRuntime.new with
      streams := Function.update (fun _ => none) 1 (some (.pendingRead (some (.ok ())) .get))
      nextStreamId := 2 }
    let process : Runtimes Unit := ⟨Function.update (fun _ => none) 1 (some runtime), 2⟩
    KeepsOutcome (fun _ => .ok "\x7b\x7d") process 1 1 (.pendingRead (some (.ok ())) .get)
      (.put none) :=
  (mistaken_finalize_iff rfl (by decide)).mpr rfl

/-- A read whose worker failed late, finalized as an upload: the refusal takes the
stream with it, and the proper call no longer finds the failure to report. -/
theorem mistaken_finalize_loses_failure :
    let failure : StorageError := .io (some .get) ⟨.other, "forced read failure"⟩
    let runtime : FfiRuntime Unit := { FfiRuntime.new with
      streams :=
        Function.update (fun _ => none) 1 (some (.pendingRead (some (.error failure)) .get))
      nextStreamId := 2 }
    let process : Runtimes Unit := ⟨Function.update (fun _ => none) 1 (some runtime), 2⟩
    let (reply, after) := storageprimsPutFinalize (fun _ => .ok "\x7b\x7d") process 1 1 (some none)
    (storageprimsGetFinalize process 1 1).1 = ⟨.io, some failure, none⟩ ∧
      reply.error = some (.invalidArgument (some .get) "stream_id"
        "stream id 1 belongs to a read stream") ∧
      (storageprimsGetFinalize after 1 1).1.error = some (.invalidArgument (some .put) "stream_id"
        "unknown stream id 1") := by
  decide +kernel

end Storageprims

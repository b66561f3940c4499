import Storageprims.Ffi.Runtime
import Storageprims.Ffi.Support

/-!
# Finalizing streams

A stream ends with a finalize call, which waits for the stream's worker and
reports its result.  There is one finalizer for uploads and one for reads, and
both take the stream out of the registry before they look at its kind.
-/

namespace Storageprims

inductive StorageprimsErrorCode where
  | ok
  | invalidUri
  | invalidArgument
  | notFound
  | containerNotFound
  | accessDenied
  | invalidCredentials
  | throttled
  | providerUnavailable
  | unsupportedCapability
  | conflict
  | io
  | other
  deriving DecidableEq, Repr

def StorageprimsErrorCode.ofCode : StorageErrorCode → StorageprimsErrorCode
  | .invalidUri => .invalidUri
  | .invalidArgument => .invalidArgument
  | .notFound => .notFound
  | .containerNotFound => .containerNotFound
  | .accessDenied => .accessDenied
  | .invalidCredentials => .invalidCredentials
  | .throttled => .throttled
  | .providerUnavailable => .providerUnavailable
  | .unsupportedCapability => .unsupportedCapability
  | .conflict => .conflict
  | .io => .io
  | .other => .other

/-- What a finalize call gives back: its code, the error it records, and the
caller's output pointer. -/
structure FfiReply where
  code : StorageprimsErrorCode
  error : Option StorageError
  out : OutPointer
  deriving DecidableEq

/-- The boundary of a call whose output pointer has been initialized. -/
def withErrorBoundary (out : OutPointer) : Except StorageError OutPointer → FfiReply
  | .ok out => ⟨.ok, none, out⟩
  | .error error => ⟨.ofCode error.code, some error, out⟩

/-- Wait for the worker; a dropped worker is an error of its own. -/
def awaitWorker {α : Type} (operation : StorageOperation) (dropped : String) :
    Receiver α → Except StorageError α
  | some result => result
  | none => .error (.other none (some operation) dropped)

variable {Provider : Type}

-- the serializer of the JSON library in use
variable (toJson : PutResult → Except String String)

/-- Take a stream out of the registry and use it. -/
def finalizeWith (process : Runtimes Provider) (handle streamId : UInt64)
    (use : StreamState → Except StorageError OutPointer) :
    Except StorageError OutPointer × Runtimes Provider :=
  match process.getRuntime handle with
  | .error error => (.error error, process)
  | .ok runtime =>
      let (taken, runtime) := runtime.takeStream streamId
      (taken.bind use, process.store handle runtime)

def storageprimsPutFinalize (process : Runtimes Provider) (handle streamId : UInt64)
    (out : OutPointer) : FfiReply × Runtimes Provider :=
  match initializeOutJson out.isNone "out_result_json" .put with
  | .error error => (withErrorBoundary out (.error error), process)
  | .ok () =>
      let (result, process) := finalizeWith process handle streamId fun
        | .pendingRead _ operation => .error (.invalidArgument (some operation) "stream_id"
            ("stream id " ++ toString streamId ++ " belongs to a read stream"))
        | .pendingPut receiver => do
            let result ← awaitWorker .put "put worker dropped before finalization" receiver
            writeJson (toJson result) (some none)
      (withErrorBoundary (some none) result, process)

def storageprimsGetFinalize (process : Runtimes Provider) (handle streamId : UInt64) :
    FfiReply × Runtimes Provider :=
  let (result, process) := finalizeWith process handle streamId fun
    | .pendingRead receiver operation => do
        awaitWorker operation "read worker dropped before finalization" receiver
        return none
    | .pendingPut _ => .error (.invalidArgument (some .put) "stream_id"
        ("stream id " ++ toString streamId ++ " belongs to a write stream"))
  (withErrorBoundary none result, process)

/-! ## Kinds of streams and of finalizers -/

inductive StreamKind where
  | read
  | put
  deriving DecidableEq

def StreamState.kind : StreamState → StreamKind
  | .pendingRead _ _ => .read
  | .pendingPut _ => .put

/-- The worker's result, as the finalizer of the right kind reports it. -/
def StreamState.outcome : StreamState → FfiReply
  | .pendingRead receiver operation => withErrorBoundary none
      ((awaitWorker operation "read worker dropped before finalization" receiver).map fun _ => none)
  | .pendingPut receiver => withErrorBoundary (some none)
      ((awaitWorker .put "put worker dropped before finalization" receiver).bind fun result =>
        writeJson (toJson result) (some none))

/-- A finalize call; an upload's has an output pointer, which may be null. -/
inductive FinalizeCall where
  | put (out : OutPointer)
  | get
  deriving DecidableEq

namespace FinalizeCall

def kind : FinalizeCall → StreamKind
  | .put _ => .put
  | .get => .read

def run (call : FinalizeCall) (process : Runtimes Provider) (handle streamId : UInt64) :
    FfiReply × Runtimes Provider :=
  match call with
  | .put out => storageprimsPutFinalize toJson process handle streamId out
  | .get => storageprimsGetFinalize process handle streamId

/-- The proper finalize call for a kind of stream. -/
def proper : StreamKind → FinalizeCall
  | .read => .get
  | .put => .put (some none)

end FinalizeCall

/-! ## One finalize call -/

theorem finalizeWith_result {process : Runtimes Provider} {handle streamId : UInt64}
    {stream : StreamState} (use : StreamState → Except StorageError OutPointer)
    (hstream : process.stream handle streamId = some stream) :
    (finalizeWith process handle streamId use).1 = use stream := by
  obtain ⟨runtime, hruntime, hentry⟩ := Option.bind_eq_some_iff.mp hstream
  unfold finalizeWith FfiRuntime.takeStream
  simp only [process.getRuntime_ok_iff.mpr hruntime, hentry]
  rfl

/-- An id without a stream is an invalid argument, with or without a runtime. -/
theorem finalizeWith_absent {process : Runtimes Provider} {handle streamId : UInt64}
    (use : StreamState → Except StorageError OutPointer)
    (hstream : process.stream handle streamId = none) (out : OutPointer) :
    (withErrorBoundary out (finalizeWith process handle streamId use).1).code
      = .invalidArgument := by
  unfold finalizeWith Runtimes.getRuntime
  cases hruntime : process.runtimes handle with
  | none => rfl
  | some runtime =>
      have hentry : runtime.streams streamId = none := by
        rw [Runtimes.stream, hruntime] at hstream
        exact hstream
      unfold FfiRuntime.takeStream
      simp only [hentry]
      rfl

/-- Whatever its use, the stream is gone and every other one is as it was. -/
theorem finalizeWith_stream (process : Runtimes Provider) (handle streamId : UInt64)
    (use : StreamState → Except StorageError OutPointer) (other otherId : UInt64) :
    (finalizeWith process handle streamId use).2.stream other otherId =
      if other = handle ∧ otherId = streamId then none else process.stream other otherId := by
  unfold finalizeWith Runtimes.getRuntime
  cases hruntime : process.runtimes handle with
  | none =>
      show process.stream other otherId = _
      split
      · rename_i hsame
        rw [hsame.1, Runtimes.stream, hruntime]
        rfl
      · rfl
  | some runtime =>
      show (process.store handle (runtime.takeStream streamId).2).stream other otherId = _
      rw [process.stream_store]
      by_cases hhandle : other = handle
      · have hold : process.stream other otherId = runtime.streams otherId := by
          rw [Runtimes.stream, hhandle, hruntime]
          rfl
        rw [if_pos hhandle, hold]
        by_cases hid : otherId = streamId
        · rw [if_pos ⟨hhandle, hid⟩, hid]
          exact Function.update_self _ _ _
        · rw [if_neg fun hboth => hid hboth.2]
          exact Function.update_of_ne hid _ _
      · rw [if_neg hhandle, if_neg fun hboth => hhandle hboth.1]

namespace FinalizeCall

variable {toJson : PutResult → Except String String}
variable {process : Runtimes Provider} {handle streamId : UInt64} {stream : StreamState}

/-- The proper call reports the worker's result. -/
theorem proper_run (hstream : process.stream handle streamId = some stream) :
    ((proper stream.kind).run toJson process handle streamId).1 = stream.outcome toJson := by
  cases stream with
  | pendingRead receiver operation =>
      refine congrArg (withErrorBoundary none) ((finalizeWith_result _ hstream).trans ?_)
      cases receiver with
      | none => rfl
      | some result => cases result <;> rfl
  | pendingPut receiver =>
      exact congrArg (withErrorBoundary (some none)) (finalizeWith_result _ hstream)

/-- A call of the wrong kind is refused as an invalid argument. -/
theorem mistaken_code {call : FinalizeCall}
    (hstream : process.stream handle streamId = some stream) (hkind : call.kind ≠ stream.kind) :
    (call.run toJson process handle streamId).1.code = .invalidArgument := by
  cases call with
  | put out =>
      cases stream with
      | pendingRead receiver operation =>
          cases out with
          | none => rfl
          | some cell =>
              exact congrArg (fun result => (withErrorBoundary (some none) result).code)
                (finalizeWith_result _ hstream)
      | pendingPut receiver => exact absurd rfl hkind
  | get =>
      cases stream with
      | pendingRead receiver operation => exact absurd rfl hkind
      | pendingPut receiver =>
          exact congrArg (fun result => (withErrorBoundary none result).code)
            (finalizeWith_result _ hstream)

theorem absent_code (call : FinalizeCall) (hstream : process.stream handle streamId = none) :
    (call.run toJson process handle streamId).1.code = .invalidArgument := by
  cases call with
  | put out =>
      cases out with
      | none => rfl
      | some cell => exact finalizeWith_absent _ hstream _
  | get => exact finalizeWith_absent _ hstream _

/-- A null output pointer is refused before the registry is touched; every other
call takes its stream out, whatever its kind. -/
theorem run_stream (call : FinalizeCall) (process : Runtimes Provider)
    (handle streamId other otherId : UInt64) :
    (call.run toJson process handle streamId).2.stream other otherId =
      if (other = handle ∧ otherId = streamId) ∧ call ≠ .put none then none
      else process.stream other otherId := by
  cases call with
  | put out =>
      cases out with
      | none =>
          rw [if_neg fun hboth => hboth.2 rfl]
          rfl
      | some cell =>
          have hcall : FinalizeCall.put (some cell) ≠ .put none := by simp
          simp only [hcall, ne_eq, not_false_eq_true, and_true]
          exact finalizeWith_stream process handle streamId _ other otherId
  | get =>
      have hcall : FinalizeCall.get ≠ .put none := by simp
      simp only [hcall, ne_eq, not_false_eq_true, and_true]
      exact finalizeWith_stream process handle streamId _ other otherId

end FinalizeCall

end Storageprims

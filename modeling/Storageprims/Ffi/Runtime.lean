import Storageprims.Core.Types
import Mathlib.Logic.Function.Basic

/-!
# The runtimes behind the C interface

A caller on the foreign side holds numbers: a handle names a runtime, and ids
name the providers and the open streams of that runtime.  Every registry
operation is one step under the registry's lock.
-/

namespace Storageprims

/-- The receiving end of a worker's one-shot channel, as what awaiting it yields:
the result the worker sends, or nothing when the worker is dropped first. -/
abbrev Receiver (α : Type) := Option (Except StorageError α)

inductive StreamState where
  | pendingRead (receiver : Receiver Unit) (operation : StorageOperation)
  | pendingPut (receiver : Receiver PutResult)

/-- The registries of one runtime and the counters their ids come from. -/
structure FfiRuntime (Provider : Type) where
  providers : UInt64 → Option Provider
  streams : UInt64 → Option StreamState
  nextProviderId : UInt64
  nextStreamId : UInt64

variable {Provider : Type}

namespace FfiRuntime

def new : FfiRuntime Provider := ⟨fun _ => none, fun _ => none, 1, 1⟩

variable (runtime : FfiRuntime Provider)

/-- The first step of an insertion: the counter's next id. -/
def reserveProvider : UInt64 × FfiRuntime Provider :=
  (runtime.nextProviderId, { runtime with nextProviderId := runtime.nextProviderId + 1 })

/-- The second step of an insertion, under the registry's lock. -/
def storeProvider (providerId : UInt64) (provider : Provider) : FfiRuntime Provider :=
  { runtime with providers := Function.update runtime.providers providerId (some provider) }

def insertProvider (provider : Provider) : UInt64 × FfiRuntime Provider :=
  let providerId := runtime.nextProviderId
  (providerId, { runtime with
    providers := Function.update runtime.providers providerId (some provider)
    nextProviderId := providerId + 1 })

def removeProvider (providerId : UInt64) : Bool × FfiRuntime Provider :=
  ((runtime.providers providerId).isSome,
    { runtime with providers := Function.update runtime.providers providerId none })

def provider (providerId : UInt64) : Except StorageError Provider :=
  match runtime.providers providerId with
  | some provider => .ok provider
  | none => .error (.invalidArgument none "provider_id"
      ("unknown provider id " ++ toString providerId))

def reserveStream : UInt64 × FfiRuntime Provider :=
  (runtime.nextStreamId, { runtime with nextStreamId := runtime.nextStreamId + 1 })

def storeStream (streamId : UInt64) (stream : StreamState) : FfiRuntime Provider :=
  { runtime with streams := Function.update runtime.streams streamId (some stream) }

def insertStream (stream : StreamState) : UInt64 × FfiRuntime Provider :=
  let streamId := runtime.nextStreamId
  (streamId, { runtime with
    streams := Function.update runtime.streams streamId (some stream)
    nextStreamId := streamId + 1 })

/-- Looks up and removes in one step. -/
def takeStream (streamId : UInt64) : Except StorageError StreamState × FfiRuntime Provider :=
  let taken := match runtime.streams streamId with
    | some stream => .ok stream
    | none => .error (.invalidArgument (some .put) "stream_id"
        ("unknown stream id " ++ toString streamId))
  (taken, { runtime with streams := Function.update runtime.streams streamId none })

def removeStream (streamId : UInt64) : Bool × FfiRuntime Provider :=
  ((runtime.streams streamId).isSome,
    { runtime with streams := Function.update runtime.streams streamId none })

/-- An insertion that nothing comes between is its two steps in a row. -/
theorem insertProvider_eq (provider : Provider) :
    runtime.insertProvider provider = (runtime.reserveProvider.1,
      runtime.reserveProvider.2.storeProvider runtime.reserveProvider.1 provider) := rfl

theorem insertStream_eq (stream : StreamState) :
    runtime.insertStream stream = (runtime.reserveStream.1,
      runtime.reserveStream.2.storeStream runtime.reserveStream.1 stream) := rfl

end FfiRuntime

/-- The runtimes of the process by handle. -/
structure Runtimes (Provider : Type) where
  runtimes : UInt64 → Option (FfiRuntime Provider)
  nextHandleId : UInt64

namespace Runtimes

variable (process : Runtimes Provider)

def unknownHandle (handle : UInt64) : StorageError :=
  .invalidArgument none "handle" ("unknown handle " ++ toString handle)

/-- `built` is the outcome of starting the runtime's executor; the handle is spent
either way. -/
def initRuntime (built : Except StorageError Unit) :
    Except StorageError UInt64 × Runtimes Provider :=
  let handle := process.nextHandleId
  let process := { process with nextHandleId := handle + 1 }
  match built with
  | .error error => (.error error, process)
  | .ok () => (.ok handle,
      { process with runtimes := Function.update process.runtimes handle (some .new) })

def shutdownRuntime (handle : UInt64) : Except StorageError Unit × Runtimes Provider :=
  let removed := process.runtimes handle
  (if removed.isSome then .ok () else .error (unknownHandle handle),
    { process with runtimes := Function.update process.runtimes handle none })

def getRuntime (handle : UInt64) : Except StorageError (FfiRuntime Provider) :=
  match process.runtimes handle with
  | some runtime => .ok runtime
  | none => .error (unknownHandle handle)

/-- The runtime behind `handle` after one of its registries changed. -/
def store (handle : UInt64) (runtime : FfiRuntime Provider) : Runtimes Provider :=
  { process with runtimes := Function.update process.runtimes handle (some runtime) }

/-- The stream `streamId` of the runtime behind `handle`. -/
def stream (handle streamId : UInt64) : Option StreamState :=
  (process.runtimes handle).bind (·.streams streamId)

@[simp] theorem store_self (handle : UInt64) (runtime : FfiRuntime Provider) :
    (process.store handle runtime).runtimes handle = some runtime :=
  Function.update_self _ _ _

theorem store_of_ne {handle other : UInt64} (hne : other ≠ handle)
    (runtime : FfiRuntime Provider) :
    (process.store handle runtime).runtimes other = process.runtimes other :=
  Function.update_of_ne hne _ _

theorem getRuntime_ok_iff {handle : UInt64} {runtime : FfiRuntime Provider} :
    process.getRuntime handle = .ok runtime ↔ process.runtimes handle = some runtime := by
  unfold getRuntime
  cases process.runtimes handle with
  | none => simp
  | some other => simp

/-- Storing a runtime changes a stream only where that runtime differs. -/
theorem stream_store (handle other streamId : UInt64) (runtime : FfiRuntime Provider) :
    (process.store handle runtime).stream other streamId =
      if other = handle then runtime.streams streamId else process.stream other streamId := by
  unfold stream
  by_cases hsame : other = handle
  · rw [if_pos hsame, hsame, store_self]
    rfl
  · rw [if_neg hsame, process.store_of_ne hsame]

end Runtimes

end Storageprims

import Storageprims.Ffi.Copy
import Storageprims.Interaction.Channel
import Storageprims.S3.Attempts

/-!
# Reading an object through the interface

A read that was opened is carried on by three parties, in any order: a worker that copies the
object into a file, the background that writes the file's buffer into a pipe, and the caller
who takes the bytes out of it.  The worker lets go of the file when it returns, the pipe is
closed when the buffer has been written as well, and whoever finalizes the stream gets the
worker's result.  An empty read of the pipe does not tell the caller whether the worker had
finished; the result does.
-/

namespace Storageprims

open Interaction

/-! ## The worker and the caller -/

/-- What the worker asks for, its end, the background behind it, and what the caller does with
the other end of the pipe. -/
inductive TransferRequest where
  | work (request : WorkerRequest)
  | release (receiver : Receiver Unit)
  | drain
  | close
  | take (room : Nat)
  | hangUp

def TransferAnswer : TransferRequest → Type
  | .work request => WorkerAnswer request
  | .take room => Chunk room
  | _ => Unit

abbrev TransferEvent := Event TransferRequest TransferAnswer

/-- What is left of the object's stream, what the worker has made of it, what the caller has
taken, and which ends have been let go: the worker's of the file, the writing and the reading
end of the pipe. -/
structure Transfer where
  content : List UInt8
  piped : Piped
  taken : List UInt8
  released : Bool
  closed : Bool
  hungUp : Bool

namespace Transfer

def start (content : List UInt8) : Transfer := ⟨content, .start, [], false, false, false⟩

/-- The pipe, as its two ends see it. -/
def channel (state : Transfer) : Channel UInt8 :=
  ⟨state.piped.pipe, state.taken, state.closed⟩

/-- The worker is dropped when it returns, or with the runtime, and its hold on the file with
it; a buffer that the file still has is written all the same.  The pipe refuses a write only
when the caller has closed its end. -/
def serve : Environment TransferRequest TransferAnswer Transfer
  | state, .work request, answer, state' => state.released = false ∧
      streaming state.content request answer state'.content ∧
      Piped.Answers state.piped request answer state'.piped ∧
      state' = { state with content := state'.content, piped := state'.piped }
  | state, .release _, _, state' => state' = { state with released := true }
  | state, .drain, _, state' => state.closed = false ∧ state.piped.Drains state'.piped ∧
      (state'.piped.broken = true → state.piped.broken = true ∨ state.hungUp = true) ∧
      state' = { state with piped := state'.piped }
  | state, .close, _, state' => state.released = true ∧ state.piped.queued = [] ∧
      state' = { state with closed := true }
  | state, .take room, chunk, state' => state.hungUp = false ∧
      state.channel.Step (some (room, chunk.val)) state'.channel ∧
      state' = { state with taken := state'.taken, closed := state'.closed }
  | state, .hangUp, _, state' => state' = { state with hungUp := true }

end Transfer

namespace TransferEvent

/-- What an event is to the worker. -/
def work : TransferEvent → Option (Event WorkerRequest WorkerAnswer)
  | ⟨.work request, answer⟩ => some ⟨request, answer⟩
  | _ => none

/-- What an event is to the caller. -/
def reception : TransferEvent → Option (Reception UInt8)
  | ⟨.take room, chunk⟩ => some (room, chunk.val)
  | _ => none

end TransferEvent

def receptions (history : List TransferEvent) : List (Reception UInt8) :=
  history.filterMap TransferEvent.reception

namespace Transfer

variable {state final : Transfer} {history : List TransferEvent} {content : List UInt8}

/-- A call of the worker leaves the pipe to the background. -/
theorem answers_pipe {piped piped' : Piped} {request : WorkerRequest}
    {answer : WorkerAnswer request} (h : Piped.Answers piped request answer piped') :
    piped'.pipe = piped.pipe ∧ piped'.broken = piped.broken := by
  cases request with
  | read stream capacity =>
      cases answer with
      | ok chunk =>
          obtain rfl : piped' = _ := h
          exact ⟨rfl, rfl⟩
      | error error =>
          obtain rfl : piped' = _ := h
          exact ⟨rfl, rfl⟩
  | writeAll bytes =>
      cases answer with
      | ok done =>
          obtain ⟨-, -, rfl⟩ := h
          exact ⟨rfl, rfl⟩
      | error error =>
          obtain ⟨-, rfl⟩ := h
          exact ⟨rfl, rfl⟩

/-- A buffer is lost only when the caller has closed its end, and the pipe is closed only when
there is nobody left to write to it. -/
def Sound (state : Transfer) : Prop :=
  (state.piped.broken = true → state.hungUp = true) ∧
    (state.closed = true → state.released = true ∧ state.piped.queued = [])

theorem Sound.step {request : TransferRequest} {answer : TransferAnswer request}
    (h : state.Sound) (hstep : serve state request answer final) : final.Sound := by
  obtain ⟨hbroken, hclosed⟩ := h
  cases request with
  | work request =>
      obtain ⟨hworking, -, hanswer, hsame⟩ := hstep
      rw [hsame]
      refine ⟨fun hlost => hbroken ((answers_pipe hanswer).2 ▸ hlost), fun hover => ?_⟩
      rw [(hclosed hover).1] at hworking
      cases hworking
  | release receiver =>
      obtain rfl : final = _ := hstep
      exact ⟨hbroken, fun hover => ⟨rfl, (hclosed hover).2⟩⟩
  | drain =>
      obtain ⟨hopen, -, hlost, hsame⟩ := hstep
      rw [hsame]
      refine ⟨fun hnow => (hlost hnow).elim hbroken id, fun hover => ?_⟩
      exact absurd (hopen.symm.trans hover) Bool.false_ne_true
  | close =>
      obtain ⟨hreleased, hnone, rfl⟩ := hstep
      exact ⟨hbroken, fun _ => ⟨hreleased, hnone⟩⟩
  | take room =>
      obtain ⟨-, hreceive, hsame⟩ := hstep
      have hend : final.closed = state.closed := hreceive.receive_closed.1
      rw [hsame, hend]
      exact ⟨hbroken, hclosed⟩
  | hangUp =>
      obtain rfl : final = _ := hstep
      exact ⟨fun _ => rfl, hclosed⟩

end Transfer

section Delivery

variable {stream : ReaderId} {operation : StorageOperation} {expectedBytes : Option Nat}
variable {history : List TransferEvent} {content : List UInt8} {final : Transfer}

end Delivery

/-! ## Opening the read -/

theorem Cloud.Later.trans {others : Objects → Objects → Prop} {first second third : Cloud}
    (h : first.Later others second) (hnext : second.Later others third) :
    first.Later others third :=
  ⟨h.1.trans hnext.1, hnext.2.trans h.2⟩

section Opened

variable {behind : StorageProvider → S3Provider} {others : Objects → Objects → Prop}
variable {start cloud : Cloud} {handle providerId : UInt64} {key : CStr}
variable {events : List FfiEvent}

open S3Provider (oneObject)

theorem trace_describeStream {toJson : StreamDescriptor → Except String String}
    {stream : StreamState} {fd : Int32} {mode : String} {streamId : UInt64} {out out' : OutPointer}
    (hwrite : writeJson (toJson ⟨some streamId, fd, mode⟩) out = .ok out') :
    Trace (describeStream toJson stream fd mode out)
      [⟨.reserveStream, streamId⟩, ⟨.storeStream streamId stream, ()⟩] (.ret (.ok (), out')) := by
  have hinsert : Trace (insertStream stream out)
      [⟨.reserveStream, streamId⟩, ⟨.storeStream streamId stream, ()⟩] (.ret (.ok streamId, out)) :=
    .step _ _ _ _ _ (.step _ _ _ _ _ (.refl _))
  refine Trace.bind hinsert ?_
  simp only [Script.read_bind_apply, hwrite]
  exact .refl _

end Opened

end Storageprims

import Storageprims.Interaction.Polling
import Storageprims.Core.Provider

/-!
# Polled readers

The bodies that the provider hands out and uploads wrap a reader, which they poll with
a buffer of their choice.  The reader may be pending, fill the buffer in part or in
full, report its end by filling nothing, or fail; nothing else is known of it.
-/

namespace Storageprims

open Interaction

/-- `AsyncRead::poll_read` of the inner reader, into a buffer of this capacity. -/
structure InnerRead where
  reader : ReaderId
  capacity : Nat

abbrev InnerAnswer (request : InnerRead) : Type :=
  Poll (Except IoError (Chunk request.capacity))

/-- A polled method of an object with state `S`.  Its only error is a panic. -/
abbrev PollMethod (S : Type) := Script InnerRead InnerAnswer S Failure

abbrev PollCall (A Out : Type) := Invocation InnerRead InnerAnswer A Failure (Poll Out)

def pollInner {S : Type} (reader : ReaderId) (capacity : Nat) :
    PollMethod S (Poll (Except IoError (Chunk capacity))) :=
  fun state => .call ⟨reader, capacity⟩ fun answer => .ret (.ok answer, state)

theorem pollInner_bind_apply {S Out : Type} {reader : ReaderId} {capacity : Nat} {state : S}
    {next : Poll (Except IoError (Chunk capacity)) → PollMethod S Out} :
    (pollInner reader capacity >>= next) state =
      .call ⟨reader, capacity⟩ fun answer => next answer state := rfl

/-- `ReadBuf::put_slice`, which panics when the bytes do not fit. -/
def putSlice (capacity : Nat) (bytes : List UInt8) : Except Failure (List UInt8) :=
  if bytes.length ≤ capacity then .ok bytes else .error .panic

theorem putSlice_of_le {capacity : Nat} {bytes : List UInt8} (h : bytes.length ≤ capacity) :
    putSlice capacity bytes = .ok bytes := if_pos h

/-- The reader's end, which leaves the buffer empty. -/
def nothingRead {capacity : Nat} : Chunk capacity := ⟨[], Nat.zero_le capacity⟩

/-! ## What the inner reader did -/

section Inner

variable {A Out : Type}

/-- The bytes of a read that returned. -/
def filled {request : InnerRead} : InnerAnswer request → Option (List UInt8)
  | .ready (.ok chunk) => some chunk.val
  | _ => none

def bytesRead (event : Event InnerRead InnerAnswer) : List UInt8 :=
  (filled event.response).getD []

/-- A buffer with room for a byte was left empty. -/
def ReportsEnd (event : Event InnerRead InnerAnswer) : Prop :=
  0 < event.request.capacity ∧ filled event.response = some []

/-- What the inner reader supplied during these calls. -/
def received (calls : List (PollCall A Out)) : List UInt8 :=
  calls.flatMap fun call => call.events.flatMap bytesRead

/-- The inner reader reported its end during these calls. -/
def SawEnd (calls : List (PollCall A Out)) : Prop :=
  ∃ call ∈ calls, ∃ event ∈ call.events, ReportsEnd event

/-- The inner reader failed with this error during these calls. -/
def SawError (calls : List (PollCall A Out)) (error : IoError) : Prop :=
  ∃ call ∈ calls, ∃ event ∈ call.events, event.response = .ready (.error error)

variable {past : List (PollCall A Out)} {call : PollCall A Out} {error : IoError}

@[simp] theorem received_snoc :
    received (past ++ [call]) = received past ++ call.events.flatMap bytesRead := by
  simp [received]

theorem sawEnd_snoc_iff :
    SawEnd (past ++ [call]) ↔ SawEnd past ∨ ∃ event ∈ call.events, ReportsEnd event := by
  simp only [SawEnd, List.mem_append, List.mem_singleton, or_and_right, exists_or,
    exists_eq_left]

theorem sawError_snoc_iff :
    SawError (past ++ [call]) error ↔
      SawError past error ∨ ∃ event ∈ call.events, event.response = .ready (.error error) := by
  simp only [SawError, List.mem_append, List.mem_singleton, or_and_right, exists_or,
    exists_eq_left]

theorem noPanic_snoc (h : ∀ call ∈ past, ∃ out, call.result = .ok out)
    (hcall : ∃ out, call.result = .ok out) :
    ∀ other ∈ past ++ [call], ∃ out, other.result = .ok out := by
  intro other hother
  rcases List.mem_append.mp hother with hpast | hlast
  · exact h other hpast
  · rwa [List.mem_singleton.mp hlast]

end Inner

section Polled

variable {S Out : Type} {events : List (Event InnerRead InnerAnswer)} {out : Poll Out}
variable {state final : S} {result : Except Failure (Poll Out)}

/-- A poll that returns without asking the reader does what it does there. -/
theorem does_of_ret {Does : List (Event InnerRead InnerAnswer) → Poll Out → S → Prop}
    (htrace : Trace (.ret (.ok out, state)) events (.ret (result, final)))
    (hdoes : Does [] out state) : ∃ out, result = .ok out ∧ Does events out final := by
  obtain ⟨rfl, hret⟩ := trace_ret_iff.mp htrace
  cases hret
  exact ⟨out, rfl, hdoes⟩

/-- A poll that returns on the reader's answer does what it does there. -/
theorem does_of_answer {Does : List (Event InnerRead InnerAnswer) → Poll Out → S → Prop}
    {event : Event InnerRead InnerAnswer}
    (htrace : Trace (.ret (.ok out, state)) events (.ret (result, final)))
    (hdoes : Does [event] out state) :
    ∃ out, result = .ok out ∧ Does (event :: events) out final := by
  obtain ⟨rfl, hret⟩ := trace_ret_iff.mp htrace
  cases hret
  exact ⟨out, rfl, hdoes⟩

end Polled

end Storageprims

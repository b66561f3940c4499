import Mathlib.Data.List.Infix
import Mathlib.Logic.Function.Basic
import Storageprims.Interaction.Script

/-!
# Threads over a shared state

Every thread runs a program of its own.  The threads share a part of the state and keep
another to themselves, and one request is answered at a time: a history is any interleaving
of the requests.  Where a thread depends on nothing that another one changes, its requests
make up a run of the thread alone.
-/

namespace Interaction

variable {Thread Req : Type} {Resp : Req → Type} {α σ τ υ : Type}

/-- An answered request of one thread. -/
abbrev Turn (Thread Req : Type) (Resp : Req → Type) : Type :=
  Event (Thread × Req) fun request => Resp request.2

/-- The request and its answer, as the thread sees them. -/
def Turn.event (turn : Turn Thread Req Resp) : Event Req Resp :=
  ⟨turn.request.2, turn.response⟩

/-- The turn in which a thread made this request. -/
def Turn.of (thread : Thread) (event : Event Req Resp) : Turn Thread Req Resp :=
  ⟨(thread, event.request), event.response⟩

/-! ## Requests of a program -/

/-- What a program asks for on the way. -/
theorem Program.Uses.of_trace {allowed : Req → Prop} {program rest : Program Req Resp α}
    {events : List (Event Req Resp)} (h : program.Uses allowed)
    (htrace : Trace program events rest) : ∀ event ∈ events, allowed event.request := by
  induction htrace with
  | refl program => simp
  | step request next response events rest htail ih =>
      intro event hevent
      rcases List.mem_cons.mp hevent with rfl | hlater
      · exact h.1
      · exact ih (h.2 response) event hlater

section Threads

variable [DecidableEq Thread]

/-- One step of one thread. -/
def threads (env : Environment Req Resp (σ × τ)) :
    Environment (Thread × Req) (fun request => Resp request.2) (σ × (Thread → τ)) :=
  fun state request response state' => ∃ own,
    env (state.1, state.2 request.1) request.2 response (state'.1, own) ∧
      state'.2 = Function.update state.2 request.1 own

/-- The requests of one thread, in order. -/
def turnsOf (thread : Thread) (history : List (Turn Thread Req Resp)) : List (Event Req Resp) :=
  history.filterMap fun turn => if turn.request.1 = thread then some turn.event else none

variable {thread : Thread} {history past rest : List (Turn Thread Req Resp)}
variable {turn : Turn Thread Req Resp}

theorem mem_turnsOf_iff {event : Event Req Resp} :
    event ∈ turnsOf thread history ↔ Turn.of thread event ∈ history := by
  rw [turnsOf, List.mem_filterMap]
  constructor
  · rintro ⟨⟨⟨other, request⟩, response⟩, hmem, hturn⟩
    by_cases hother : other = thread
    · subst hother
      rw [if_pos rfl] at hturn
      cases hturn
      exact hmem
    · rw [if_neg hother] at hturn
      cases hturn
  · intro hmem
    exact ⟨_, hmem, if_pos rfl⟩

theorem event_mem_turnsOf (h : turn ∈ history) : turn.event ∈ turnsOf turn.request.1 history :=
  mem_turnsOf_iff.mpr h

/-- A stretch of a history in which a thread runs a program, as far as `rest`, while the
others take turns. -/
structure Stretch (thread : Thread) (program rest : Program Req Resp α)
    (history : List (Turn Thread Req Resp)) where
  before : List (Turn Thread Req Resp)
  segment : List (Turn Thread Req Resp)
  after : List (Turn Thread Req Resp)
  split : history = before ++ segment ++ after
  trace : Trace program (turnsOf thread segment) rest

namespace Stretch

variable {program residual : Program Req Resp α}

/-- What the thread itself asked in the stretch. -/
def events (stretch : Stretch thread program residual history) : List (Event Req Resp) :=
  turnsOf thread stretch.segment

/-- A turn of the stretch, and all that came before it. -/
theorem turn_of_event (stretch : Stretch thread program residual history) {event : Event Req Resp}
    (h : event ∈ stretch.events) : ∃ past rest, history = past ++ Turn.of thread event :: rest ∧
      stretch.before <+: past ∧ past <+: stretch.before ++ stretch.segment := by
  obtain ⟨first, second, hsegment⟩ := List.append_of_mem (mem_turnsOf_iff.mp h)
  refine ⟨stretch.before ++ first, second ++ stretch.after, ?_, List.prefix_append _ _, ?_⟩
  · refine stretch.split.trans ?_
    rw [hsegment]
    simp
  · rw [hsegment, ← List.append_assoc]
    exact List.prefix_append _ _

/-- A turn that the thread took in the stretch has been taken when the stretch is over. -/
theorem turn_mem (stretch : Stretch thread program residual history) {event : Event Req Resp}
    (h : event ∈ stretch.events) {past : List (Turn Thread Req Resp)}
    (hover : stretch.before ++ stretch.segment <+: past) : Turn.of thread event ∈ past :=
  hover.subset (List.mem_append_right _ (mem_turnsOf_iff.mp h))

end Stretch

end Threads

end Interaction

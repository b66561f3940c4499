import Mathlib.Logic.Basic
import Mathlib.Data.List.Basic

/-!
# Programs that talk to an environment

A `Program` is a well-founded tree: it either returns a value or issues one
request and continues with whatever answer comes back.  Nothing here says who
answers.  The two halves of a run are kept apart:

* `Trace` follows the program along a list of answered requests;
* `Accepts` follows an environment (a labelled transition relation on its own
  states) along the same list.

A run of a program in an environment is a trace that the environment accepts,
so one trace can be compared against several environments.  The residual
program in `Trace` may still be a `call`: a trace is a point of the run, not
only a finished run.
-/

namespace Interaction

/-- A program over requests `Req`, each answered by a value of `Resp request`. -/
inductive Program (Req : Type) (Resp : Req → Type) (α : Type) where
  | ret (value : α)
  | call (request : Req) (next : Resp request → Program Req Resp α)

/-- One answered request. -/
structure Event (Req : Type) (Resp : Req → Type) where
  request : Req
  response : Resp request

/-- An environment answers requests along a transition relation on its states. -/
abbrev Environment (Req : Type) (Resp : Req → Type) (σ : Type) :=
  σ → (request : Req) → Resp request → σ → Prop

variable {Req : Type} {Resp : Req → Type} {α β γ σ τ : Type}

namespace Program

/-- Run `program`, then continue with `next` on its value. -/
def bind (program : Program Req Resp α) (next : α → Program Req Resp β) :
    Program Req Resp β :=
  match program with
  | .ret value => next value
  | .call request rest => .call request (fun response => (rest response).bind next)

@[simp] theorem bind_ret (value : α) (next : α → Program Req Resp β) :
    (Program.ret value).bind next = next value := rfl

@[simp] theorem bind_call (request : Req)
    (rest : Resp request → Program Req Resp α) (next : α → Program Req Resp β) :
    (Program.call request rest).bind next =
      .call request (fun response => (rest response).bind next) := rfl

/-- Every request the program can ever issue satisfies `allowed`. -/
def Uses (allowed : Req → Prop) : Program Req Resp α → Prop
  | .ret _ => True
  | .call request next => allowed request ∧ ∀ response, (next response).Uses allowed

theorem Uses.bind {allowed : Req → Prop} {program : Program Req Resp α}
    {next : α → Program Req Resp β} (hfirst : program.Uses allowed)
    (hrest : ∀ value, (next value).Uses allowed) :
    (program.bind next).Uses allowed := by
  induction program with
  | ret value => exact hrest value
  | call request rest ih =>
      exact ⟨hfirst.1, fun response => ih response (hfirst.2 response)⟩

theorem Uses.mono {allowed wider : Req → Prop} {program : Program Req Resp α}
    (h : program.Uses allowed) (himp : ∀ request, allowed request → wider request) :
    program.Uses wider := by
  induction program with
  | ret value => trivial
  | call request next ih => exact ⟨himp request h.1, fun response => ih response (h.2 response)⟩

/-- Let a state-carrying handler answer every request of the program. -/
def runWith (handler : σ → (request : Req) → Resp request × σ) :
    Program Req Resp α → σ → α × List (Event Req Resp) × σ
  | .ret value, state => (value, [], state)
  | .call request next, state =>
      let answer := handler state request
      let rest := (next answer.1).runWith handler answer.2
      (rest.1, ⟨request, answer.1⟩ :: rest.2.1, rest.2.2)

end Program

/-- `Trace program events rest`: answering the requests of `program` with
`events` leads to the residual program `rest`. -/
inductive Trace : Program Req Resp α → List (Event Req Resp) → Program Req Resp α → Prop
  | refl (program : Program Req Resp α) : Trace program [] program
  | step (request : Req) (next : Resp request → Program Req Resp α)
      (response : Resp request) (events : List (Event Req Resp))
      (rest : Program Req Resp α) (htail : Trace (next response) events rest) :
      Trace (.call request next) (⟨request, response⟩ :: events) rest

/-- The environment can give the answers of `events`, in order. -/
inductive Accepts (env : Environment Req Resp σ) : σ → List (Event Req Resp) → σ → Prop
  | nil (state : σ) : Accepts env state [] state
  | cons (state middle final : σ) (request : Req) (response : Resp request)
      (events : List (Event Req Resp)) (hstep : env state request response middle)
      (htail : Accepts env middle events final) :
      Accepts env state (⟨request, response⟩ :: events) final

/-- A finished program, and a trace of what follows it. -/
theorem Trace.bind {program : Program Req Resp α} {next : α → Program Req Resp β} {value : α}
    {events more : List (Event Req Resp)} {rest : Program Req Resp β}
    (h : Trace program events (.ret value)) (hnext : Trace (next value) more rest) :
    Trace (program.bind next) (events ++ more) rest := by
  induction program generalizing events with
  | ret other =>
      cases h
      exact hnext
  | call request after ih =>
      cases h with
      | step _ _ response events _ htail => exact .step _ _ response _ _ (ih response htail)

theorem accepts_cons_iff {env : Environment Req Resp σ} {state final : σ}
    {event : Event Req Resp} {events : List (Event Req Resp)} :
    Accepts env state (event :: events) final ↔
      ∃ middle, env state event.request event.response middle ∧
        Accepts env middle events final := by
  constructor
  · intro h
    cases h with
    | cons _ middle _ _ _ _ hstep htail => exact ⟨middle, hstep, htail⟩
  · rintro ⟨middle, hstep, htail⟩
    exact .cons state middle final event.request event.response events hstep htail

theorem accepts_single_iff {env : Environment Req Resp σ} {state final : σ}
    {event : Event Req Resp} :
    Accepts env state [event] final ↔ env state event.request event.response final := by
  rw [accepts_cons_iff]
  constructor
  · rintro ⟨middle, hstep, hnil⟩
    cases hnil
    exact hstep
  · intro hstep
    exact ⟨final, hstep, .nil final⟩

theorem accepts_append_iff {env : Environment Req Resp σ} {state final : σ}
    {first second : List (Event Req Resp)} :
    Accepts env state (first ++ second) final ↔
      ∃ middle, Accepts env state first middle ∧ Accepts env middle second final := by
  induction first generalizing state with
  | nil =>
      constructor
      · intro h
        exact ⟨state, .nil state, h⟩
      · rintro ⟨middle, hfirst, hsecond⟩
        cases hfirst
        exact hsecond
  | cons event events ih =>
      rw [List.cons_append, accepts_cons_iff]
      constructor
      · rintro ⟨next, hstep, htail⟩
        obtain ⟨middle, hfirst, hsecond⟩ := ih.mp htail
        exact ⟨middle, accepts_cons_iff.mpr ⟨next, hstep, hfirst⟩, hsecond⟩
      · rintro ⟨middle, hfirst, hsecond⟩
        obtain ⟨next, hstep, htail⟩ := accepts_cons_iff.mp hfirst
        exact ⟨next, hstep, ih.mpr ⟨middle, htail, hsecond⟩⟩

/-- Every event of an accepted trace is a step of the environment. -/
theorem Accepts.step_of_mem {env : Environment Req Resp σ} {state final : σ}
    {events : List (Event Req Resp)} {event : Event Req Resp} (h : Accepts env state events final)
    (hmem : event ∈ events) : ∃ before after, env before event.request event.response after := by
  obtain ⟨first, second, rfl⟩ := List.append_of_mem hmem
  obtain ⟨before, -, hrest⟩ := accepts_append_iff.mp h
  obtain ⟨after, hstep, -⟩ := accepts_cons_iff.mp hrest
  exact ⟨before, after, hstep⟩

/-- What every step keeps, every accepted trace keeps. -/
theorem Accepts.keeps {env : Environment Req Resp σ} {P : σ → Prop}
    (hstep : ∀ state request response next, P state → env state request response next → P next)
    {state final : σ} {events : List (Event Req Resp)} (h : Accepts env state events final)
    (hstate : P state) : P final := by
  induction h with
  | nil state => exact hstate
  | cons state middle final request response events hfirst _ ih =>
      exact ih (hstep state request response middle hstate hfirst)

/-- One more answer. -/
theorem Accepts.snoc {env : Environment Req Resp σ} {state middle final : σ}
    {events : List (Event Req Resp)} {request : Req} {response : Resp request}
    (h : Accepts env state events middle) (hstep : env middle request response final) :
    Accepts env state (events ++ [⟨request, response⟩]) final :=
  accepts_append_iff.mpr
    ⟨middle, h, .cons middle final final request response [] hstep (.nil final)⟩

/-- Part of a state seen on its own: if every step is a step of the part, or leaves
it alone, then the events that concern the part are accepted by it. -/
theorem Accepts.project {Req' : Type} {Resp' : Req' → Type} {env : Environment Req Resp σ}
    {part : Environment Req' Resp' τ} (view : Event Req Resp → Option (Event Req' Resp'))
    (seen : σ → τ)
    (hquiet : ∀ event state next, env state event.request event.response next →
      view event = none → seen next = seen state)
    (hstep : ∀ event state next, env state event.request event.response next →
      ∀ image, view event = some image →
        part (seen state) image.request image.response (seen next))
    {state final : σ} {events : List (Event Req Resp)} (h : Accepts env state events final) :
    Accepts part (seen state) (events.filterMap view) (seen final) := by
  induction events generalizing state with
  | nil =>
      cases h
      exact .nil _
  | cons event events ih =>
      obtain ⟨middle, hfirst, hrest⟩ := accepts_cons_iff.mp h
      cases hview : view event with
      | none =>
          rw [List.filterMap_cons_none hview, ← hquiet event state middle hfirst hview]
          exact ih hrest
      | some image =>
          rw [List.filterMap_cons_some hview]
          exact accepts_cons_iff.mpr
            ⟨seen middle, hstep event state middle hfirst image hview, ih hrest⟩

/-- Environments are compared on the events alone: if every step of the first is
a step of the second along `related`, then so is every accepted trace. -/
theorem Accepts.simulate {env : Environment Req Resp σ} {other : Environment Req Resp τ}
    {related : σ → τ → Prop} {events : List (Event Req Resp)}
    (hstep : ∀ event ∈ events, ∀ state next mirror, related state mirror →
      env state event.request event.response next →
      ∃ mirror', other mirror event.request event.response mirror' ∧ related next mirror')
    {state final : σ} {mirror : τ} (hrelated : related state mirror)
    (h : Accepts env state events final) :
    ∃ mirror', Accepts other mirror events mirror' ∧ related final mirror' := by
  induction events generalizing state mirror with
  | nil =>
      cases h
      exact ⟨mirror, .nil mirror, hrelated⟩
  | cons event events ih =>
      obtain ⟨middle, hfirst, hrest⟩ := accepts_cons_iff.mp h
      obtain ⟨mirror₁, hother, hrelated₁⟩ :=
        hstep event List.mem_cons_self state middle mirror hrelated hfirst
      obtain ⟨mirror₂, htail, hfinal⟩ :=
        ih (fun e he => hstep e (List.mem_cons_of_mem event he)) hrelated₁ hrest
      exact ⟨mirror₂, accepts_cons_iff.mpr ⟨mirror₁, hother, htail⟩, hfinal⟩

/-- An environment that allows more accepts more. -/
theorem Accepts.mono {env other : Environment Req Resp σ}
    (hstep : ∀ state request response next, env state request response next →
      other state request response next)
    {state final : σ} {events : List (Event Req Resp)} (h : Accepts env state events final) :
    Accepts other state events final := by
  induction h with
  | nil state => exact .nil state
  | cons state middle final request response events hfirst _ ih =>
      exact .cons state middle final request response events (hstep _ _ _ _ hfirst) ih

/-- A handled run is a trace of the program. -/
theorem Program.trace_runWith (handler : σ → (request : Req) → Resp request × σ)
    (program : Program Req Resp α) (state : σ) :
    Trace program (program.runWith handler state).2.1
      (.ret (program.runWith handler state).1) := by
  induction program generalizing state with
  | ret value => exact .refl _
  | call request next ih =>
      exact .step request next _ _ _ (ih (handler state request).1 (handler state request).2)

/-- A handler whose answers the environment allows, on the states of an
invariant the handler keeps, only produces accepted traces. -/
theorem Program.accepts_runWith {env : Environment Req Resp σ}
    {handler : σ → (request : Req) → Resp request × σ}
    (hanswers : ∀ state request,
      env state request (handler state request).1 (handler state request).2)
    (program : Program Req Resp α) (state : σ) :
    Accepts env state (program.runWith handler state).2.1
      (program.runWith handler state).2.2 := by
  induction program generalizing state with
  | ret value => exact .nil _
  | call request next ih =>
      exact .cons _ _ _ request _ _ (hanswers state request)
        (ih (handler state request).1 (handler state request).2)

end Interaction

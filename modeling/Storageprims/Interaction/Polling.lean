import Storageprims.Interaction.Script

/-!
# Polled objects

An object that is polled keeps its state between the calls of a method.  A call may
return `pending`, and nobody says when the next one comes or with which argument, so a
result about the object is one about every history of calls.

`Invocations` is that history, with the requests each call made on the way; the rule
is that what every call keeps, every history keeps.
-/

namespace Interaction

/-- What a poll returns. -/
inductive Poll (α : Type) where
  | pending
  | ready (value : α)
  deriving DecidableEq

variable {Req : Type} {Resp : Req → Type} {A S ε Out σ : Type}

/-! ## Scripts at a state -/

theorem Script.read_bind_apply {next : S → Script Req Resp S ε Out} {state : S} :
    ((Script.read : Script Req Resp S ε S) >>= next) state = next state state := rfl

theorem Script.write_bind_apply {next : Unit → Script Req Resp S ε Out} {state state' : S} :
    (Script.write state' >>= next) state = next () state' := rfl

/-! ## Finished traces -/

theorem trace_ret_iff {value final : Out} {events : List (Event Req Resp)} :
    Trace (.ret value) events (.ret final) ↔ events = [] ∧ value = final := by
  constructor
  · intro h
    cases h
    exact ⟨rfl, rfl⟩
  · rintro ⟨rfl, rfl⟩
    exact .refl _

theorem trace_call_iff {request : Req} {next : Resp request → Program Req Resp Out}
    {final : Out} {events : List (Event Req Resp)} :
    Trace (.call request next) events (.ret final) ↔
      ∃ response rest, events = ⟨request, response⟩ :: rest ∧
        Trace (next response) rest (.ret final) := by
  constructor
  · intro h
    cases h with
    | step _ _ response rest _ htail => exact ⟨response, rest, rfl, htail⟩
  · rintro ⟨response, rest, rfl, htail⟩
    exact .step request next response rest _ htail

/-! ## Histories of calls -/

/-- One call of a polled method: its argument, the requests it made on the way with
their answers, and what it returned. -/
structure Invocation (Req : Type) (Resp : Req → Type) (A ε Out : Type) where
  argument : A
  events : List (Event Req Resp)
  result : Except ε Out

/-- The calls of a method on one object, one after the other. -/
inductive Invocations (method : A → Script Req Resp S ε Out) :
    S → List (Invocation Req Resp A ε Out) → S → Prop
  | nil (state : S) : Invocations method state [] state
  | cons (state middle final : S) (argument : A) (events : List (Event Req Resp))
      (result : Except ε Out) (calls : List (Invocation Req Resp A ε Out))
      (hcall : Trace (method argument state) events (.ret (result, middle)))
      (hrest : Invocations method middle calls final) :
      Invocations method state (⟨argument, events, result⟩ :: calls) final

variable {method : A → Script Req Resp S ε Out}

theorem invocations_cons_iff {state final : S} {call : Invocation Req Resp A ε Out}
    {calls : List (Invocation Req Resp A ε Out)} :
    Invocations method state (call :: calls) final ↔
      ∃ middle, Trace (method call.argument state) call.events (.ret (call.result, middle)) ∧
        Invocations method middle calls final := by
  constructor
  · intro h
    cases h with
    | cons _ middle _ _ _ _ _ hcall hrest => exact ⟨middle, hcall, hrest⟩
  · rintro ⟨middle, hcall, hrest⟩
    exact .cons state middle final _ _ _ calls hcall hrest

theorem invocations_append_iff {state final : S}
    {first second : List (Invocation Req Resp A ε Out)} :
    Invocations method state (first ++ second) final ↔
      ∃ middle, Invocations method state first middle ∧
        Invocations method middle second final := by
  induction first generalizing state with
  | nil =>
      constructor
      · intro h
        exact ⟨state, .nil state, h⟩
      · rintro ⟨middle, hfirst, hsecond⟩
        cases hfirst
        exact hsecond
  | cons call calls ih =>
      rw [List.cons_append, invocations_cons_iff]
      constructor
      · rintro ⟨next, hcall, hrest⟩
        obtain ⟨middle, hfirst, hsecond⟩ := ih.mp hrest
        exact ⟨middle, invocations_cons_iff.mpr ⟨next, hcall, hfirst⟩, hsecond⟩
      · rintro ⟨middle, hfirst, hsecond⟩
        obtain ⟨next, hcall, hrest⟩ := invocations_cons_iff.mp hfirst
        exact ⟨next, hcall, ih.mpr ⟨middle, hrest, hsecond⟩⟩

/-- A point of a history: the calls before it, the call itself, and those after. -/
theorem Invocations.point {state final : S} {call : Invocation Req Resp A ε Out}
    {past rest : List (Invocation Req Resp A ε Out)}
    (h : Invocations method state (past ++ call :: rest) final) :
    ∃ before after, Invocations method state past before ∧
      Trace (method call.argument before) call.events (.ret (call.result, after)) ∧
      Invocations method after rest final := by
  obtain ⟨before, hpast, hrest⟩ := invocations_append_iff.mp h
  obtain ⟨after, hcall, hlater⟩ := invocations_cons_iff.mp hrest
  exact ⟨before, after, hpast, hcall, hlater⟩

/-- What every call keeps, every history keeps: against an environment that answers the
requests of all calls, and with arguments that the caller is allowed to choose. -/
theorem Invocations.keeps_in {env : Environment Req Resp σ} {allowed : A → Prop}
    {inv : List (Invocation Req Resp A ε Out) → S → σ → Prop}
    (hstep : ∀ past state outer argument events result state' outer', allowed argument →
      inv past state outer → Trace (method argument state) events (.ret (result, state')) →
      Accepts env outer events outer' →
      inv (past ++ [⟨argument, events, result⟩]) state' outer')
    {past calls : List (Invocation Req Resp A ε Out)} {state final : S} {outer outer' : σ}
    (h : inv past state outer) (hcalls : Invocations method state calls final)
    (haccepts : Accepts env outer (calls.flatMap Invocation.events) outer')
    (hallowed : ∀ call ∈ calls, allowed call.argument) :
    inv (past ++ calls) final outer' := by
  induction hcalls generalizing past outer with
  | nil state =>
      cases haccepts
      rwa [List.append_nil]
  | cons state middle final argument events result calls hcall hrest ih =>
      rw [List.flatMap_cons] at haccepts
      obtain ⟨between, hfirst, hlater⟩ := accepts_append_iff.mp haccepts
      obtain ⟨hargument, harguments⟩ := List.forall_mem_cons.mp hallowed
      have hnext := ih (hstep past state outer argument events result middle between hargument h
        hcall hfirst) hlater harguments
      rwa [List.append_assoc, List.singleton_append] at hnext

/-- What every call keeps, every history keeps. -/
theorem Invocations.keeps {inv : List (Invocation Req Resp A ε Out) → S → Prop}
    (hstep : ∀ past state argument events result state', inv past state →
      Trace (method argument state) events (.ret (result, state')) →
      inv (past ++ [⟨argument, events, result⟩]) state')
    {calls : List (Invocation Req Resp A ε Out)} {state final : S} (h : inv [] state)
    (hcalls : Invocations method state calls final) : inv calls final := by
  have hkept : inv ([] ++ calls) final :=
    @Invocations.keeps_in _ _ _ _ _ _ Unit method anyAnswer (fun _ => True)
      (fun past state _ => inv past state)
      (fun past state _ argument events result state' _ _ hinv htrace _ =>
        hstep past state argument events result state' hinv htrace)
      [] calls state final () () h hcalls (accepts_anyAnswer _) fun _ _ => trivial
  rwa [List.nil_append] at hkept

end Interaction

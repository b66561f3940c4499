import Storageprims.Interaction.Program

/-!
# Scripts: programs with a state and an error exit

`Ensures` is the demonic reading of a program in an environment: whatever the
environment answers, the run finishes in the postcondition, and an invariant of
the environment's state holds at every point on the way, finished or not.

A `Script` threads a state through a program and may stop early with an error;
the state it had reached survives the error, so that a postcondition can speak
about it.  The rules below are the pre- and postcondition rules of that
language: one for each way of building a script, and the two structural ones
(consequence and sequence).
-/

namespace Interaction

variable {Req : Type} {Resp : Req → Type} {α β S ε ε' σ : Type}

/-- Against every answer of `env`, the program keeps `inv` at every point and
finishes in `post`. -/
def Program.Ensures (env : Environment Req Resp σ) (inv : σ → Prop) :
    Program Req Resp α → (α → σ → Prop) → σ → Prop
  | .ret value, post, state => inv state ∧ post value state
  | .call request next, post, state =>
      inv state ∧ ∀ response state', env state request response state' →
        (next response).Ensures env inv post state'

namespace Program

variable {env : Environment Req Resp σ} {inv : σ → Prop}

theorem Ensures.invariant {program : Program Req Resp α} {post : α → σ → Prop} {state : σ}
    (h : program.Ensures env inv post state) : inv state := by
  cases program with
  | ret value => exact h.1
  | call request next => exact h.1

theorem Ensures.mono {program : Program Req Resp α} {post post' : α → σ → Prop} {state : σ}
    (h : program.Ensures env inv post state)
    (himp : ∀ value state', inv state' → post value state' → post' value state') :
    program.Ensures env inv post' state := by
  induction program generalizing state with
  | ret value => exact ⟨h.1, himp value state h.1 h.2⟩
  | call request next ih =>
      exact ⟨h.1, fun response state' hstep => ih response (h.2 response state' hstep)⟩

theorem Ensures.bind {program : Program Req Resp α} {next : α → Program Req Resp β}
    {middle : α → σ → Prop} {post : β → σ → Prop} {state : σ}
    (h : program.Ensures env inv middle state)
    (hnext : ∀ value state', inv state' → middle value state' →
      (next value).Ensures env inv post state') :
    (program.bind next).Ensures env inv post state := by
  induction program generalizing state with
  | ret value => exact hnext value state h.1 h.2
  | call request rest ih =>
      exact ⟨h.1, fun response state' hstep => ih response (h.2 response state' hstep)⟩

/-- The invariant holds at the point a trace has reached, and the residual
program still ensures the postcondition there. -/
theorem Ensures.of_trace {program rest : Program Req Resp α} {post : α → σ → Prop}
    {state final : σ} {events : List (Event Req Resp)}
    (h : program.Ensures env inv post state) (htrace : Trace program events rest)
    (haccepts : Accepts env state events final) :
    inv final ∧ rest.Ensures env inv post final := by
  induction htrace generalizing state with
  | refl program =>
      cases haccepts
      exact ⟨h.invariant, h⟩
  | step request next response events rest htail ih =>
      obtain ⟨middle, hstep, hrest⟩ := accepts_cons_iff.mp haccepts
      exact ih (h.2 response middle hstep) hrest

/-- A finished run ends in the postcondition. -/
theorem Ensures.of_finished {program : Program Req Resp α} {post : α → σ → Prop}
    {state final : σ} {events : List (Event Req Resp)} {value : α}
    (h : program.Ensures env inv post state) (htrace : Trace program events (.ret value))
    (haccepts : Accepts env state events final) : post value final :=
  (h.of_trace htrace haccepts).2.2

end Program

/-- The environment that allows every answer and remembers the whole history. -/
def history : Environment Req Resp (List (Event Req Resp)) :=
  fun past request response past' => past' = past ++ [⟨request, response⟩]

/-- The environment that allows every answer and remembers nothing. -/
def anyAnswer : Environment Req Resp Unit := fun _ _ _ _ => True

theorem accepts_anyAnswer (events : List (Event Req Resp)) : Accepts anyAnswer () events () := by
  induction events with
  | nil => exact .nil ()
  | cons event events ih => exact accepts_cons_iff.mpr ⟨(), trivial, ih⟩

theorem accepts_history (past events : List (Event Req Resp)) :
    Accepts history past events (past ++ events) := by
  induction events generalizing past with
  | nil => rw [List.append_nil]; exact .nil past
  | cons event events ih =>
      refine accepts_cons_iff.mpr ⟨past ++ [event], rfl, ?_⟩
      have htail := ih (past ++ [event])
      rwa [List.append_assoc, List.singleton_append] at htail

/-- Behind `past`, only allowed requests have been made. -/
def Extends (allowed : Req → Prop) (past now : List (Event Req Resp)) : Prop :=
  ∃ extra, now = past ++ extra ∧ ∀ event ∈ extra, allowed event.request

theorem Extends.cons {allowed : Req → Prop} {past now : List (Event Req Resp)}
    {event : Event Req Resp} (hevent : allowed event.request)
    (h : Extends allowed (past ++ [event]) now) : Extends allowed past now := by
  obtain ⟨extra, rfl, hextra⟩ := h
  refine ⟨event :: extra, by rw [List.append_assoc, List.singleton_append], ?_⟩
  intro other hother
  rcases List.mem_cons.mp hother with rfl | hrest
  · exact hevent
  · exact hextra other hrest

/-- A program that only makes allowed requests extends every history by such. -/
theorem Program.Uses.ensures {allowed : Req → Prop} {program : Program Req Resp α}
    (h : program.Uses allowed) (past : List (Event Req Resp)) :
    program.Ensures history (fun _ => True) (fun _ now => Extends allowed past now) past := by
  induction program generalizing past with
  | ret value => exact ⟨trivial, [], (List.append_nil past).symm, by simp⟩
  | call request next ih =>
      refine ⟨trivial, fun response now hnow => ?_⟩
      subst hnow
      exact (ih response (h.2 response) _).mono fun _ _ _ hextends => hextends.cons h.1

/-- A program that threads a state `S` and may stop with an error `ε`. -/
def Script (Req : Type) (Resp : Req → Type) (S ε α : Type) : Type :=
  S → Program Req Resp (Except ε α × S)

namespace Script

protected def pure (value : α) : Script Req Resp S ε α :=
  fun state => .ret (.ok value, state)

protected def bind (script : Script Req Resp S ε α) (next : α → Script Req Resp S ε β) :
    Script Req Resp S ε β :=
  fun state => (script state).bind fun
    | (.ok value, state') => next value state'
    | (.error error, state') => .ret (.error error, state')

instance : Monad (Script Req Resp S ε) where
  pure := Script.pure
  bind := Script.bind

/-- Stop with an error. -/
def fail (error : ε) : Script Req Resp S ε α :=
  fun state => .ret (.error error, state)

/-- Read the state. -/
def read : Script Req Resp S ε S :=
  fun state => .ret (.ok state, state)

/-- Replace the state. -/
def write (state : S) : Script Req Resp S ε Unit :=
  fun _ => .ret (.ok (), state)

/-- Continue with the value of a fallible computation, or stop with its error. -/
def ofExcept : Except ε α → Script Req Resp S ε α
  | .ok value => Script.pure value
  | .error error => fail error

/-- Continue with the value of a fallible computation, or stop with its error as an error of
the script. -/
def orReturn (wrap : ε' → ε) (result : Except ε' α) : Script Req Resp S ε α :=
  ofExcept (result.mapError wrap)

/-- Make a request, and continue with the answer. -/
def ask (request : Req) : Script Req Resp S ε (Resp request) := fun state =>
  .call request fun response => .ret (.ok response, state)

theorem ofExcept_ok_bind (value : α) (next : α → Script Req Resp S ε β) :
    (ofExcept (.ok value) >>= next) = next value := rfl

/-- A postcondition for each of the two exits of a script. -/
def onExit (ok : α → S → σ → Prop) (fails : ε → S → σ → Prop) :
    Except ε α × S → σ → Prop
  | (.ok value, state), outer => ok value state outer
  | (.error error, state), outer => fails error state outer

/-- Against every answer of `env`, the script keeps `inv` at every point, and
finishes in `ok` when it returns and in `fails` when it stops with an error. -/
def Ensures (env : Environment Req Resp σ) (inv : σ → Prop) (script : Script Req Resp S ε α)
    (ok : α → S → σ → Prop) (fails : ε → S → σ → Prop) (state : S) (outer : σ) : Prop :=
  (script state).Ensures env inv (onExit ok fails) outer

/-- Every request the script can issue satisfies `allowed`. -/
def Uses (allowed : Req → Prop) (script : Script Req Resp S ε α) : Prop :=
  ∀ state, (script state).Uses allowed

section Rules

variable {env : Environment Req Resp σ} {inv : σ → Prop}
variable {ok : α → S → σ → Prop} {fails : ε → S → σ → Prop} {state : S} {outer : σ}

theorem ensures_pure {value : α} :
    Ensures env inv (pure value : Script Req Resp S ε α) ok fails state outer ↔
      inv outer ∧ ok value state outer := Iff.rfl

theorem ensures_ofExcept {result : Except ε α} (hinv : inv outer)
    (hok : ∀ value, result = .ok value → ok value state outer)
    (hfails : ∀ error, result = .error error → fails error state outer) :
    Ensures env inv (ofExcept result : Script Req Resp S ε α) ok fails state outer := by
  cases result with
  | ok value => exact ⟨hinv, hok value rfl⟩
  | error error => exact ⟨hinv, hfails error rfl⟩

theorem Ensures.invariant {script : Script Req Resp S ε α}
    (h : Ensures env inv script ok fails state outer) : inv outer :=
  Program.Ensures.invariant h

/-- Consequence. -/
theorem Ensures.mono {script : Script Req Resp S ε α} {ok' : α → S → σ → Prop}
    {fails' : ε → S → σ → Prop} (h : Ensures env inv script ok fails state outer)
    (hok : ∀ value state' outer', inv outer' → ok value state' outer' →
      ok' value state' outer')
    (hfails : ∀ error state' outer', inv outer' → fails error state' outer' →
      fails' error state' outer') :
    Ensures env inv script ok' fails' state outer := by
  refine Program.Ensures.mono h ?_
  rintro ⟨result, state'⟩ outer' hinv hpost
  cases result with
  | ok value => exact hok value state' outer' hinv hpost
  | error error => exact hfails error state' outer' hinv hpost

/-- Sequence: an error of the first part is the error of the whole. -/
theorem Ensures.bind {script : Script Req Resp S ε α} {next : α → Script Req Resp S ε β}
    {ok' : β → S → σ → Prop} (h : Ensures env inv script ok fails state outer)
    (hnext : ∀ value state' outer', inv outer' → ok value state' outer' →
      Ensures env inv (next value) ok' fails state' outer') :
    Ensures env inv (script >>= next) ok' fails state outer := by
  refine Program.Ensures.bind h ?_
  rintro ⟨result, state'⟩ outer' hinv hpost
  cases result with
  | ok value => exact hnext value state' outer' hinv hpost
  | error error => exact ⟨hinv, hpost⟩

theorem ensures_bind_read {next : S → Script Req Resp S ε β} {ok : β → S → σ → Prop} :
    Ensures env inv ((read : Script Req Resp S ε S) >>= next) ok fails state outer ↔
      Ensures env inv (next state) ok fails state outer := Iff.rfl

/-- A fallible step at the head of a sequence: it stops the sequence or hands it
its value, and asks for nothing. -/
theorem ensures_bind_ofExcept {result : Except ε α} {next : α → Script Req Resp S ε β}
    {ok : β → S → σ → Prop}
    (hfails : ∀ error, result = .error error → inv outer ∧ fails error state outer)
    (hok : ∀ value, result = .ok value → Ensures env inv (next value) ok fails state outer) :
    Ensures env inv (ofExcept result >>= next) ok fails state outer := by
  cases result with
  | ok value => exact hok value rfl
  | error error => exact hfails error rfl

/-- The same for an error that is wrapped. -/
theorem ensures_bind_orReturn {wrap : ε' → ε} {result : Except ε' α}
    {next : α → Script Req Resp S ε β} {ok : β → S → σ → Prop}
    (hfails : ∀ error, result = .error error → inv outer ∧ fails (wrap error) state outer)
    (hok : ∀ value, result = .ok value → Ensures env inv (next value) ok fails state outer) :
    Ensures env inv (orReturn wrap result >>= next) ok fails state outer := by
  cases result with
  | ok value => exact hok value rfl
  | error error => exact hfails error rfl

/-- A request at the head of a sequence: the rest goes on from every answer. -/
theorem ensures_bind_ask {request : Req} {next : Resp request → Script Req Resp S ε β}
    {ok : β → S → σ → Prop} (hinv : inv outer)
    (hnext : ∀ response outer', env outer request response outer' →
      Ensures env inv (next response) ok fails state outer') :
    Ensures env inv (ask request >>= next) ok fails state outer :=
  ⟨hinv, hnext⟩

end Rules

section UsesRules

variable {allowed : Req → Prop}

@[simp] theorem uses_pure (value : α) :
    Uses allowed (pure value : Script Req Resp S ε α) := fun _ => trivial

@[simp] theorem uses_fail (error : ε) :
    Uses allowed (fail error : Script Req Resp S ε α) := fun _ => trivial

@[simp] theorem uses_read : Uses allowed (read : Script Req Resp S ε S) := fun _ => trivial

@[simp] theorem uses_write (state : S) :
    Uses allowed (write state : Script Req Resp S ε Unit) := fun _ => trivial

@[simp] theorem uses_ofExcept (result : Except ε α) :
    Uses allowed (ofExcept result : Script Req Resp S ε α) := by
  cases result with
  | ok value => exact fun _ => trivial
  | error error => exact fun _ => trivial

theorem Uses.bind {script : Script Req Resp S ε α} {next : α → Script Req Resp S ε β}
    (hfirst : Uses allowed script) (hnext : ∀ value, Uses allowed (next value)) :
    Uses allowed (script >>= next) := by
  intro state
  refine Program.Uses.bind (hfirst state) ?_
  rintro ⟨result, state'⟩
  cases result with
  | ok value => exact hnext value state'
  | error error => trivial

/-- Behind a fallible step, a script only has to be looked at for the value of the step. -/
theorem uses_bind_ofExcept {result : Except ε α} {next : α → Script Req Resp S ε β}
    (h : ∀ value, result = .ok value → Uses allowed (next value)) :
    Uses allowed (ofExcept result >>= next) := by
  cases result with
  | ok value => exact h value rfl
  | error error => exact fun _ => trivial

/-- Whichever exit it takes, a script has extended the history by allowed requests. -/
theorem Uses.ensures {script : Script Req Resp S ε α} (h : Uses allowed script) (state : S)
    (past : List (Event Req Resp)) :
    Ensures history (fun _ => True) script (fun _ _ now => Extends allowed past now)
      (fun _ _ now => Extends allowed past now) state past := by
  refine Program.Ensures.mono ((h state).ensures past) ?_
  rintro ⟨result, state'⟩ now - hextends
  cases result with
  | ok value => exact hextends
  | error error => exact hextends

end UsesRules

end Script

end Interaction

import Storageprims.Interaction.Script

/-!
# Requests that are sent again

A client may stand between a program and its environment, and ask a request once more when
the answer tells it to.  The program sees the last answer only, but every attempt has been
answered, and may have had its effect.  `Retrace` follows a program along all attempts; what
it then does is a trace of its own in an environment that attempts.
-/

namespace Interaction

variable {Req : Type} {Resp : Req → Type} {α σ : Type}

/-- Behind an answer that allows it, the same request may be asked again. -/
inductive Retrace (again : Event Req Resp → Prop) :
    Program Req Resp α → List (Event Req Resp) → Program Req Resp α → Prop
  | refl (program : Program Req Resp α) : Retrace again program [] program
  | step (request : Req) (next : Resp request → Program Req Resp α)
      (response : Resp request) (events : List (Event Req Resp))
      (rest : Program Req Resp α) (htail : Retrace again (next response) events rest) :
      Retrace again (.call request next) (⟨request, response⟩ :: events) rest
  | again (request : Req) (next : Resp request → Program Req Resp α)
      (response : Resp request) (events : List (Event Req Resp))
      (rest : Program Req Resp α) (hagain : again ⟨request, response⟩)
      (htail : Retrace again (.call request next) events rest) :
      Retrace again (.call request next) (⟨request, response⟩ :: events) rest

/-- One request, with all attempts at it. -/
inductive Retried (again : Event Req Resp → Prop) (env : Environment Req Resp σ) :
    Environment Req Resp σ
  | last (state : σ) (request : Req) (response : Resp request) (next : σ)
      (hstep : env state request response next) : Retried again env state request response next
  | again (state middle : σ) (request : Req) (failed response : Resp request) (next : σ)
      (hagain : again ⟨request, failed⟩) (hstep : env state request failed middle)
      (hrest : Retried again env middle request response next) :
      Retried again env state request response next

section Attempts

variable {again : Event Req Resp → Prop} {env wider : Environment Req Resp σ}
variable {program rest : Program Req Resp α} {events : List (Event Req Resp)}

/-- A client that asks everything once. -/
theorem Trace.retrace (h : Trace program events rest) : Retrace again program events rest := by
  induction h with
  | refl program => exact .refl program
  | step request next response events rest _ ih => exact .step request next response events rest ih

theorem Retrace.uses {allowed : Req → Prop} (h : Retrace again program events rest)
    (huses : program.Uses allowed) : ∀ event ∈ events, allowed event.request := by
  induction h with
  | refl program => exact fun _ hevent => absurd hevent List.not_mem_nil
  | step request next response events rest _ ih =>
      exact List.forall_mem_cons.mpr ⟨huses.1, ih (huses.2 response)⟩
  | again request next response events rest _ _ ih =>
      exact List.forall_mem_cons.mpr ⟨huses.1, ih huses⟩

/-- A program of requests that are never asked again. -/
theorem Retrace.trace (h : Retrace again program events rest)
    (huses : program.Uses fun request => ∀ response, ¬ again ⟨request, response⟩) :
    Trace program events rest := by
  induction h with
  | refl program => exact .refl program
  | step request next response events rest _ ih =>
      exact .step request next response events rest (ih (huses.2 response))
  | again request next response events rest hagain _ _ => exact absurd hagain (huses.1 response)

/-- A program that is over has had the last answer to each of its requests. -/
theorem Retrace.finished {value : α} {state final : σ}
    (h : Retrace again program events (.ret value)) (haccepts : Accepts env state events final) :
    ∃ sent, Trace program sent (.ret value) ∧ Accepts (Retried again env) state sent final := by
  generalize hrest : Program.ret value = rest at h
  induction h generalizing state with
  | refl program =>
      subst hrest
      cases haccepts
      exact ⟨[], .refl _, .nil _⟩
  | step request next response events rest _ ih =>
      obtain ⟨middle, hstep, haccepts⟩ := accepts_cons_iff.mp haccepts
      obtain ⟨sent, htrace, hsent⟩ := ih haccepts hrest
      exact ⟨_, .step request next response sent _ htrace,
        .cons state middle final request response sent (.last _ _ _ _ hstep) hsent⟩
  | again request next response events rest hagain _ ih =>
      obtain ⟨middle, hstep, haccepts⟩ := accepts_cons_iff.mp haccepts
      obtain ⟨sent, htrace, hsent⟩ := ih haccepts hrest
      subst hrest
      -- the attempt belongs to the request that is asked next
      cases htrace with
      | step _ _ answer sent _ htail =>
          obtain ⟨behind, hfirst, hsent⟩ := accepts_cons_iff.mp hsent
          exact ⟨_, .step request next answer sent _ htail, .cons state behind final request answer
            sent (.again _ _ _ _ _ _ hagain hstep hfirst) hsent⟩

/-- Where an attempt may have been made by anybody, attempts add nothing. -/
theorem Retried.absorbed {request : Req}
    (hlast : ∀ state response next, env state request response next →
      wider state request response next)
    (habsorbs : ∀ state middle failed response next, again ⟨request, failed⟩ →
      env state request failed middle → wider middle request response next →
      wider state request response next)
    {state next : σ} {response : Resp request} (h : Retried again env state request response next) :
    wider state request response next := by
  induction h with
  | last state request response next hstep => exact hlast state response next hstep
  | again state middle request failed response next hagain hstep _ ih =>
      exact habsorbs state middle failed response next hagain hstep (ih hlast habsorbs)

/-- What holds in an environment holds in one that allows less, as far as the program
asks. -/
theorem Program.Ensures.narrow {allowed : Req → Prop} {inv : σ → Prop} {post : α → σ → Prop}
    {state : σ} (h : program.Ensures wider inv post state) (huses : program.Uses allowed)
    (hnarrow : ∀ state request response next, allowed request → env state request response next →
      wider state request response next) :
    program.Ensures env inv post state := by
  induction program generalizing state with
  | ret value => exact h
  | call request next ih =>
      exact ⟨h.1, fun response middle hstep =>
        ih response (h.2 response middle (hnarrow _ _ _ _ huses.1 hstep)) (huses.2 response)⟩

end Attempts

end Interaction

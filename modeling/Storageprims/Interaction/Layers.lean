import Storageprims.Interaction.Script

/-!
# Programs over an interface, and its implementation

A program over one interface runs over another once every request of the first is
implemented by a program over the second.  If every implementation meets the specification
of its request, then whatever the implemented program does is a run of the program against
the specification.
-/

namespace Interaction

variable {Req Req' : Type} {Resp : Req → Type} {Resp' : Req' → Type} {α σ : Type}

/-- Every request is carried out by its implementation. -/
def Program.implemented (implementation : (request : Req) → Program Req' Resp' (Resp request)) :
    Program Req Resp α → Program Req' Resp' α
  | .ret value => .ret value
  | .call request next =>
      (implementation request).bind fun response => (next response).implemented implementation

variable {implementation : (request : Req) → Program Req' Resp' (Resp request)}

theorem Program.Uses.implemented {allowed : Req → Prop} {allowed' : Req' → Prop}
    {program : Program Req Resp α} (h : program.Uses allowed)
    (himplementation : ∀ request, allowed request → (implementation request).Uses allowed') :
    (program.implemented implementation).Uses allowed' := by
  induction program with
  | ret value => trivial
  | call request next ih =>
      exact (himplementation request h.1).bind fun response => ih response (h.2 response)

end Interaction

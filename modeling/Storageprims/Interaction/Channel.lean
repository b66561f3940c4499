import Mathlib.Data.List.Basic

/-!
# Channels

Items go into a channel at one end and come out at the other, in order, until the sending
end is closed.  The two ends act in any order.  What the receiver has seen at its end is all
that was ever sent, and to the receiver alone a channel is a stream of fixed content.
-/

namespace Interaction

variable {Item : Type}

/-- What has been sent and what has been received of it. -/
structure Channel (Item : Type) where
  sent : List Item
  received : List Item
  closed : Bool

/-- A receive: the room there was, and the items that came. -/
abbrev Reception (Item : Type) : Type := Nat × List Item

namespace Channel

def new : Channel Item := ⟨[], [], false⟩

/-- One step at either end.  Nothing comes only behind the last item of a closed channel. -/
inductive Step : Channel Item → Option (Reception Item) → Channel Item → Prop
  | send (channel : Channel Item) (items : List Item) (hopen : channel.closed = false) :
      Step channel none { channel with sent := channel.sent ++ items }
  | close (channel : Channel Item) : Step channel none { channel with closed := true }
  | receive (channel : Channel Item) (room : Nat) (items rest : List Item)
      (hitems : channel.sent = channel.received ++ items ++ rest)
      (hend : items = [] → 0 < room → channel.closed = true ∧ rest = []) :
      Step channel (some (room, items)) { channel with received := channel.received ++ items }

/-- Steps in a row, with the receives among them. -/
inductive Runs : Channel Item → List (Reception Item) → Channel Item → Prop
  | nil (channel : Channel Item) : Runs channel [] channel
  | quiet (channel middle final : Channel Item) (receptions : List (Reception Item))
      (hstep : Step channel none middle) (hrest : Runs middle receptions final) :
      Runs channel receptions final
  | receive (channel middle final : Channel Item) (reception : Reception Item)
      (receptions : List (Reception Item)) (hstep : Step channel (some reception) middle)
      (hrest : Runs middle receptions final) : Runs channel (reception :: receptions) final

/-- A stream of this content, from which these receives leave the rest. -/
inductive Draws : List Item → List (Reception Item) → List Item → Prop
  | nil (content : List Item) : Draws content [] content
  | cons (items content rest : List Item) (room : Nat) (receptions : List (Reception Item))
      (hend : items = [] → 0 < room → content = []) (hrest : Draws content receptions rest) :
      Draws (items ++ content) ((room, items) :: receptions) rest

/-- The sender has closed its end, and everything has been received. -/
def Drained (channel : Channel Item) : Prop :=
  channel.closed = true ∧ channel.received = channel.sent

variable {channel middle final : Channel Item} {reception : Option (Reception Item)}
variable {receptions : List (Reception Item)}

/-! ## One step -/

/-- What is sent is never taken back. -/
theorem Step.sent_front (h : Step channel reception middle) : channel.sent <+: middle.sent := by
  cases h with
  | send items hopen => exact List.prefix_append _ _
  | close => exact List.prefix_rfl
  | receive room items rest hitems hend => exact List.prefix_rfl

/-- A closed channel takes no more. -/
theorem Step.closed (h : Step channel reception middle) (hclosed : channel.closed = true) :
    middle.closed = true ∧ middle.sent = channel.sent := by
  cases h with
  | send items hopen =>
      rw [hopen] at hclosed
      cases hclosed
  | close => exact ⟨rfl, rfl⟩
  | receive room items rest hitems hend => exact ⟨hclosed, rfl⟩

/-- A receive leaves the sender's end as it is, and brings nothing only when that is closed. -/
theorem Step.receive_closed {room : Nat} {items : List Item}
    (h : Step channel (some (room, items)) middle) :
    middle.closed = channel.closed ∧ (items = [] → 0 < room → channel.closed = true) := by
  cases h with
  | receive room items rest hitems hend =>
      exact ⟨rfl, fun hnothing hroom => (hend hnothing hroom).1⟩

theorem Step.drained (h : Step channel reception middle) (hdrained : channel.Drained) :
    middle.Drained := by
  obtain ⟨hclosed, hsent⟩ := h.closed hdrained.1
  refine ⟨hclosed, ?_⟩
  cases h with
  | send items hopen => exact absurd (hopen.symm.trans hdrained.1) Bool.false_ne_true
  | close => exact hdrained.2
  | receive room items rest hitems hend =>
      -- nothing is left to come
      have hnothing : items ++ rest = [] := by
        rw [hdrained.2, List.append_assoc] at hitems
        exact List.self_eq_append_right.mp hitems
      obtain ⟨rfl, rfl⟩ := List.append_eq_nil_iff.mp hnothing
      exact (List.append_nil _).trans hdrained.2

/-! ## Runs -/

theorem Runs.sent_front (h : Runs channel receptions final) : channel.sent <+: final.sent := by
  induction h with
  | nil channel => exact List.prefix_rfl
  | quiet channel middle final receptions hstep _ ih => exact hstep.sent_front.trans ih
  | receive channel middle final reception receptions hstep _ ih =>
      exact hstep.sent_front.trans ih

theorem Runs.closed (h : Runs channel receptions final) (hclosed : channel.closed = true) :
    final.closed = true ∧ final.sent = channel.sent := by
  induction h with
  | nil channel => exact ⟨hclosed, rfl⟩
  | quiet channel middle final receptions hstep _ ih =>
      obtain ⟨hmiddle, hsame⟩ := hstep.closed hclosed
      exact hsame ▸ ih hmiddle
  | receive channel middle final reception receptions hstep _ ih =>
      obtain ⟨hmiddle, hsame⟩ := hstep.closed hclosed
      exact hsame ▸ ih hmiddle

theorem Runs.drained (h : Runs channel receptions final) (hdrained : channel.Drained) :
    final.Drained := by
  induction h with
  | nil channel => exact hdrained
  | quiet channel middle final receptions hstep _ ih => exact ih (hstep.drained hdrained)
  | receive channel middle final reception receptions hstep _ ih =>
      exact ih (hstep.drained hdrained)

/-- Nothing comes only when the sender has closed its end and all of it has come. -/
theorem Runs.drained_of_nothing (h : Runs channel receptions final) {room : Nat} (hroom : 0 < room)
    (hmem : (room, []) ∈ receptions) : final.Drained := by
  induction h with
  | nil channel => cases hmem
  | quiet channel middle final receptions hstep _ ih => exact ih hmem
  | receive channel middle final reception receptions hstep hrest ih =>
      rcases List.mem_cons.mp hmem with hthis | hlater
      · cases hstep with
        | receive other items rest hitems hend =>
            cases hthis
            obtain ⟨hclosed, rfl⟩ := hend rfl hroom
            refine hrest.drained ⟨hclosed, ?_⟩
            rw [hitems, List.append_nil]
      · exact ih hlater

/-- To its receiver, a channel is a stream of all that is sent. -/
theorem Runs.draws (h : Runs channel receptions final) {content : List Item}
    (hcontent : final.sent = channel.received ++ content) :
    ∃ rest, Draws content receptions rest ∧ final.sent = final.received ++ rest := by
  induction h generalizing content with
  | nil channel => exact ⟨content, .nil content, hcontent⟩
  | quiet channel middle final receptions hstep _ ih =>
      cases hstep with
      | send items hopen => exact ih hcontent
      | close => exact ih hcontent
  | receive channel middle final reception receptions hstep hrest ih =>
      cases hstep with
      | receive room items left hitems hend =>
          -- the receive took its items off the front
          obtain ⟨more, hmore⟩ : channel.sent <+: final.sent := hrest.sent_front
          have hfront : content = items ++ (left ++ more) := by
            rw [← hmore, hitems, List.append_assoc, List.append_assoc,
              List.append_cancel_left_eq] at hcontent
            exact hcontent.symm
          subst hfront
          have hbehind : final.sent = channel.received ++ items ++ (left ++ more) := by
            rw [hcontent, List.append_assoc]
          obtain ⟨rest, hdraws, hfinal⟩ := ih hbehind
          refine ⟨rest, .cons items _ _ _ _ (fun hnothing hroom => ?_) hdraws, hfinal⟩
          obtain ⟨hclosed, rfl⟩ := hend hnothing hroom
          have hsame : final.sent = channel.sent := (hrest.closed hclosed).2
          rw [← hmore] at hsame
          exact List.append_right_eq_self.mp hsame

end Channel

end Interaction

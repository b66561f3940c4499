import Storageprims.Text.Lines
import Storageprims.Text.Utf8

/-!
# Windows of a text

A reader that sees one window of a text starts it between two characters, and
may lose the end of the last one.  `Opens window` says that more bytes complete
the window to a text: that is all a check of a window can ask for.

Line terminators are ASCII.  So a line of a text is a text, and so is a line of a
window of it, if no later byte can change the line.
-/

namespace Utf8

open Lines (Line Ending split certain lf cr)

variable {bytes window front back : List UInt8}

theorem valid_nil : Valid [] := rfl

/-- More bytes make a text of the window. -/
def Opens (window : List UInt8) : Prop := ∃ back, Valid (window ++ back)

theorem Valid.opens (h : Valid bytes) : Opens bytes := ⟨[], by rwa [List.append_nil]⟩

theorem Opens.of_append (h : Opens (window ++ back)) : Opens window := by
  obtain ⟨more, hmore⟩ := h
  exact ⟨back ++ more, by rwa [← List.append_assoc]⟩

/-- Whole characters can be taken off the front. -/
theorem Opens.behind (hfront : Valid front) (h : Opens (front ++ window)) : Opens window := by
  obtain ⟨more, hmore⟩ := h
  rw [List.append_assoc, valid_append_iff hfront] at hmore
  exact ⟨more, hmore⟩

/-- All a check can find wrong is that the input ends inside a character. -/
theorem Opens.errorLen_eq_none (h : Opens window) {error : Utf8Error}
    (herror : fromUtf8 window = .error error) : error.errorLen = none := by
  obtain ⟨more, hmore⟩ := h
  exact hmore.prefix_error herror

/-! ## Between characters -/

/-- Position `p` lies between two characters. -/
def Between (bytes : List UInt8) (p : Nat) : Prop := Valid (bytes.take p)

theorem between_zero (bytes : List UInt8) : Between bytes 0 := valid_nil

theorem valid_singleton {b : UInt8} (hb : b < 0x80) : Valid [b] := by
  simp only [Valid, run, step, first, if_pos hb]

/-- Behind an ASCII byte of a text, a character starts. -/
theorem between_succ {q : Nat} {b : UInt8} (hbytes : Valid bytes) (hb : b < 0x80)
    (hq : bytes[q]? = some b) : Between bytes (q + 1) := by
  obtain ⟨hlt, rfl⟩ := List.getElem?_eq_some_iff.mp hq
  have hsplit : bytes.take q ++ bytes[q] :: bytes.drop (q + 1) = bytes := by
    rw [List.getElem_cons_drop, List.take_append_drop]
  have hfront : Valid (bytes.take q) := (Valid.cut hb (hsplit.symm ▸ hbytes)).1
  rw [Between, List.take_succ_eq_append_getElem hlt]
  exact (valid_append_iff hfront).mpr (valid_singleton hb)

/-- Behind a byte of a terminator, a character starts. -/
theorem between_of_terminates {q : Nat} (hbytes : Valid bytes)
    (hq : Lines.Terminates bytes q) : Between bytes (q + 1) := by
  rcases hq with hlf | hcr
  · exact between_succ hbytes (by decide) hlf
  · exact between_succ hbytes (by decide) hcr

/-- From between two characters on, the rest of a text is a text. -/
theorem Between.valid_drop {p : Nat} (h : Between bytes p) (hbytes : Valid bytes) :
    Valid (bytes.drop p) := by
  rw [← List.take_append_drop p bytes] at hbytes
  exact (valid_append_iff h).mp hbytes

/-- A slice of a text opens a text when it starts between two characters. -/
theorem Between.opens_slice {p : Nat} (h : Between bytes p) (hbytes : Valid bytes)
    (length : Nat) : Opens ((bytes.drop p).take length) := by
  have hopens := (h.valid_drop hbytes).opens
  rw [← List.take_append_drop length (bytes.drop p)] at hopens
  exact hopens.of_append

/-! ## Lines -/

theorem valid_ending (ending : Option Ending) : Valid ((ending.map Ending.bytes).getD []) := by
  rcases ending with _ | (_ | _ | _)
  all_goals decide

theorem run_cons_ascii {state : State} {b : UInt8} {rest : List UInt8} (hb : b < 0x80)
    (h : run state (b :: rest) = .ok .boundary) : state = .boundary ∧ Valid rest := by
  rw [run] at h
  cases hstep : step state b with
  | error length =>
      rw [hstep] at h
      cases h
  | ok next =>
      rw [hstep] at h
      obtain ⟨rfl, rfl⟩ := step_ascii hb hstep
      exact ⟨rfl, h⟩

/-- The first line goes on from `state` to the end of a character, and the other
lines are texts of their own. -/
def GoesOn (state : State) : List Line → Prop
  | [] => True
  | line :: rest => run state line.text = .ok .boundary ∧ ∀ other ∈ rest, Valid other.text

theorem GoesOn.valid {lines : List Line} (h : GoesOn .boundary lines) :
    ∀ line ∈ lines, Valid line.text := by
  intro line hline
  cases lines with
  | nil => cases hline
  | cons first rest =>
      rcases List.mem_cons.mp hline with rfl | hin
      · exact h.1
      · exact h.2 line hin

/-- What goes on from `state` splits into lines that do. -/
theorem goesOn_split {state : State} (h : run state bytes = .ok .boundary) :
    GoesOn state (split bytes) := by
  -- behind a terminator the machine is between characters again
  induction bytes using Lines.scan_induction generalizing state with
  | nil => exact trivial
  | lf tail ih =>
      obtain ⟨rfl, htail⟩ := run_cons_ascii (by decide) h
      rw [Lines.split_lf]
      exact ⟨rfl, (ih htail).valid⟩
  | crLf tail ih =>
      obtain ⟨rfl, hmore⟩ := run_cons_ascii (by decide) h
      obtain ⟨-, htail⟩ := run_cons_ascii (by decide) hmore
      rw [Lines.split_cr_lf]
      exact ⟨rfl, (ih htail).valid⟩
  | cr tail hhead ih =>
      obtain ⟨rfl, htail⟩ := run_cons_ascii (by decide) h
      rw [Lines.split_cr hhead]
      exact ⟨rfl, (ih htail).valid⟩
  | other b tail hlf hcr ih =>
      rw [Lines.split_other tail hlf hcr]
      rw [run] at h
      cases hstep : step state b with
      | error length =>
          rw [hstep] at h
          cases h
      | ok next =>
          rw [hstep] at h
          have hrest := ih h
          cases hlines : split tail with
          | nil =>
              rw [Lines.split_eq_nil_iff.mp hlines] at h
              refine ⟨?_, fun line hline => absurd hline List.not_mem_nil⟩
              rw [run, hstep]
              exact h
          | cons first more =>
              rw [hlines] at hrest
              refine ⟨?_, hrest.2⟩
              rw [run, hstep]
              exact hrest.1

/-- The lines of a text are texts. -/
theorem Valid.lines (h : Valid bytes) : ∀ line ∈ split bytes, Valid line.text :=
  (goesOn_split h).valid

/-- So are the lines of a window that no later byte can change. -/
theorem Opens.lines (h : Opens window) : ∀ line ∈ certain (split window), Valid line.text := by
  obtain ⟨more, hmore⟩ := h
  intro line hline
  exact hmore.lines line ((Lines.certain_split_prefix window more).subset hline)

end Utf8

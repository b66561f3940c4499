import Mathlib.Data.List.Basic
import Mathlib.Data.List.DropRight
import Mathlib.Data.Nat.Find
import Mathlib.Tactic.Common

/-!
# Lines of a byte string

The reference decomposition of a byte string into lines.  A line ends at LF, at
CRLF (one terminator) or at a CR that no LF follows; a final non-empty piece
without a terminator is a line as well.  Nothing is lost: the lines with their
terminators, put back together, are the byte string.

The facts a framer needs are about cutting:

* `split_append`: the lines of a concatenation are the lines of its parts, when
  the cut breaks at a line start (`Breaks`);
* `certain_split_prefix`: the lines of a window that no later byte can change
  are lines of every extension of the window;
* `locate_after`: the lines that start behind a given byte are the lines of the
  rest at the first line start behind it.
-/

namespace Lines

/-- Line feed. -/
def lf : UInt8 := 0x0A

/-- Carriage return. -/
def cr : UInt8 := 0x0D

/-- How a line ends. -/
inductive Ending where
  | lf
  | crLf
  | cr
  deriving DecidableEq

/-- The terminator as bytes. -/
def Ending.bytes : Ending → List UInt8
  | .lf => [Lines.lf]
  | .crLf => [Lines.cr, Lines.lf]
  | .cr => [Lines.cr]

/-- A line: its text and its terminator, absent on a final unterminated line. -/
structure Line where
  text : List UInt8
  ending : Option Ending
  deriving DecidableEq

/-- The line with its terminator. -/
def Line.bytes (line : Line) : List UInt8 :=
  line.text ++ (line.ending.map Ending.bytes).getD []

/-- The number of bytes a line occupies. -/
def Line.size (line : Line) : Nat := line.bytes.length

/-- Put one more byte in front of the first line. -/
def push (b : UInt8) : List Line → List Line
  | [] => [⟨[b], none⟩]
  | line :: rest => ⟨b :: line.text, line.ending⟩ :: rest

/-- The lines of a byte string. -/
def split : List UInt8 → List Line
  | [] => []
  | b :: rest =>
      if b = lf then ⟨[], some .lf⟩ :: split rest
      else if b = cr then
        match rest with
        | [] => [⟨[], some .cr⟩]
        | c :: rest' =>
            if c = lf then ⟨[], some .crLf⟩ :: split rest'
            else ⟨[], some .cr⟩ :: split (c :: rest')
      else push b (split rest)

/-- The bytes of consecutive lines. -/
def joined (lines : List Line) : List UInt8 := lines.flatMap Line.bytes

/-- The number of bytes consecutive lines occupy. -/
def extent (lines : List Line) : Nat := (joined lines).length

/-- The lines that no byte behind the input can change: all of them, without a
final line that is unterminated or ends in a CR. -/
def certain : List Line → List Line
  | [] => []
  | [line] => if line.ending = some .lf ∨ line.ending = some .crLf then [line] else []
  | line :: next :: rest => line :: certain (next :: rest)

/-- The position between `front` and `back` starts a line. -/
def Breaks (front back : List UInt8) : Prop :=
  front = [] ∨ front.getLast? = some lf ∨ (front.getLast? = some cr ∧ back.head? ≠ some lf)

instance (front back : List UInt8) : Decidable (Breaks front back) :=
  inferInstanceAs (Decidable (_ ∨ _))

/-- Consecutive lines with the offset each starts at. -/
def locate : Nat → List Line → List (Nat × Line)
  | _, [] => []
  | base, line :: rest => (base, line) :: locate (base + line.size) rest

/-- The lines of `bytes` that start at or before byte `m`. -/
def linesUpTo (bytes : List UInt8) (m : Nat) : List Line :=
  ((locate 0 (split bytes)).filter (fun entry => decide (entry.1 ≤ m))).map Prod.snd

/-- The lines of `bytes` that start strictly behind byte `m`. -/
def linesAfter (bytes : List UInt8) (m : Nat) : List Line :=
  ((locate 0 (split bytes)).filter (fun entry => decide (m < entry.1))).map Prod.snd

theorem cr_ne_lf : cr ≠ lf := by decide

/-! ## One byte at a time -/

@[simp] theorem split_nil : split [] = [] := rfl

@[simp] theorem split_lf (rest : List UInt8) :
    split (lf :: rest) = ⟨[], some .lf⟩ :: split rest := by
  cases rest with
  | nil => simp only [split, if_pos]
  | cons c rest' => simp only [split, if_pos]

@[simp] theorem split_cr_lf (rest : List UInt8) :
    split (cr :: lf :: rest) = ⟨[], some .crLf⟩ :: split rest := by
  simp only [split, if_neg cr_ne_lf, if_pos]

theorem split_cr {rest : List UInt8} (h : rest.head? ≠ some lf) :
    split (cr :: rest) = ⟨[], some .cr⟩ :: split rest := by
  cases rest with
  | nil => rfl
  | cons c rest' =>
      have hc : c ≠ lf := by simpa using h
      simp only [split, if_neg cr_ne_lf, if_pos, if_neg hc]

theorem split_other {b : UInt8} (rest : List UInt8) (hlf : b ≠ lf) (hcr : b ≠ cr) :
    split (b :: rest) = push b (split rest) := by
  cases rest with
  | nil => simp only [split, if_neg hlf, if_neg hcr]
  | cons c rest' => simp only [split, if_neg hlf, if_neg hcr]

/-- Induction along the terminators of a byte string. -/
@[elab_as_elim] theorem scan_induction {motive : List UInt8 → Prop}
    (nil : motive [])
    (lf : ∀ rest, motive rest → motive (lf :: rest))
    (crLf : ∀ rest, motive rest → motive (cr :: Lines.lf :: rest))
    (cr : ∀ rest : List UInt8, rest.head? ≠ some Lines.lf → motive rest →
      motive (cr :: rest))
    (other : ∀ b rest, b ≠ Lines.lf → b ≠ Lines.cr → motive rest → motive (b :: rest)) :
    ∀ bytes, motive bytes
  | [] => nil
  | b :: rest => by
      by_cases hlf : b = Lines.lf
      · subst hlf
        exact lf rest (scan_induction nil lf crLf cr other rest)
      by_cases hcr : b = Lines.cr
      · subst hcr
        cases rest with
        | nil => exact cr [] (by simp) nil
        | cons c rest' =>
            by_cases hc : c = Lines.lf
            · subst hc
              exact crLf rest' (scan_induction nil lf crLf cr other rest')
            · exact cr (c :: rest') (by simpa using hc)
                (scan_induction nil lf crLf cr other (c :: rest'))
      · exact other b rest hlf hcr (scan_induction nil lf crLf cr other rest)

theorem push_ne_nil (b : UInt8) (lines : List Line) : push b lines ≠ [] := by
  cases lines with
  | nil => simp [push]
  | cons line rest => simp [push]

theorem push_append {b : UInt8} {xs : List Line} (ys : List Line) (hxs : xs ≠ []) :
    push b (xs ++ ys) = push b xs ++ ys := by
  cases xs with
  | nil => exact absurd rfl hxs
  | cons line rest => rfl

theorem split_eq_nil_iff {bytes : List UInt8} : split bytes = [] ↔ bytes = [] := by
  constructor
  · intro h
    induction bytes using scan_induction with
    | nil => rfl
    | lf rest ih => simp at h
    | crLf rest ih => simp at h
    | cr rest hrest ih => simp [split_cr hrest] at h
    | other b rest hlf hcr ih =>
        rw [split_other rest hlf hcr] at h
        exact absurd h (push_ne_nil b _)
  · rintro rfl
    rfl

/-! ## Bytes and extents -/

@[simp] theorem joined_nil : joined [] = [] := rfl

@[simp] theorem joined_cons (line : Line) (rest : List Line) :
    joined (line :: rest) = line.bytes ++ joined rest := rfl

@[simp] theorem joined_append (xs ys : List Line) :
    joined (xs ++ ys) = joined xs ++ joined ys := List.flatMap_append

@[simp] theorem extent_nil : extent [] = 0 := rfl

@[simp] theorem extent_cons (line : Line) (rest : List Line) :
    extent (line :: rest) = line.size + extent rest := by
  simp [extent, Line.size]

@[simp] theorem extent_append (xs ys : List Line) :
    extent (xs ++ ys) = extent xs + extent ys := by
  simp [extent]

theorem joined_push (b : UInt8) (lines : List Line) :
    joined (push b lines) = b :: joined lines := by
  cases lines with
  | nil => rfl
  | cons line rest => rfl

/-- The lines with their terminators are the byte string. -/
@[simp] theorem joined_split (bytes : List UInt8) : joined (split bytes) = bytes := by
  induction bytes using scan_induction with
  | nil => rfl
  | lf rest ih => rw [split_lf, joined_cons, ih]; rfl
  | crLf rest ih => rw [split_cr_lf, joined_cons, ih]; rfl
  | cr rest hrest ih => rw [split_cr hrest, joined_cons, ih]; rfl
  | other b rest hlf hcr ih => rw [split_other rest hlf hcr, joined_push, ih]

@[simp] theorem extent_split (bytes : List UInt8) : extent (split bytes) = bytes.length := by
  rw [extent, joined_split]

theorem size_pos_of_mem {bytes : List UInt8} {line : Line} (h : line ∈ split bytes) :
    0 < line.size := by
  induction bytes using scan_induction generalizing line with
  | nil => simp at h
  | lf rest ih =>
      rw [split_lf] at h
      rcases List.mem_cons.mp h with rfl | hrest
      · decide
      · exact ih hrest
  | crLf rest ih =>
      rw [split_cr_lf] at h
      rcases List.mem_cons.mp h with rfl | hrest
      · decide
      · exact ih hrest
  | cr rest hhead ih =>
      rw [split_cr hhead] at h
      rcases List.mem_cons.mp h with rfl | hrest
      · decide
      · exact ih hrest
  | other b rest hlf hcr ih =>
      rw [split_other rest hlf hcr] at h
      cases hsplit : split rest with
      | nil =>
          rw [hsplit, push] at h
          rw [List.mem_singleton.mp h]
          simp [Line.size, Line.bytes]
      | cons next lines =>
          rw [hsplit, push] at h
          rcases List.mem_cons.mp h with rfl | hrest
          · simp [Line.size, Line.bytes]
          · exact ih (hsplit ▸ List.mem_cons_of_mem next hrest)

/-- Every line takes up a byte at least. -/
theorem length_le_extent {bytes : List UInt8} {xs : List Line}
    (h : ∀ line ∈ xs, line ∈ split bytes) : xs.length ≤ extent xs := by
  induction xs with
  | nil => exact Nat.le_refl 0
  | cons line rest ih =>
      have hsize := size_pos_of_mem (h line List.mem_cons_self)
      have hrest := ih fun other hother => h other (List.mem_cons_of_mem line hother)
      rw [List.length_cons, extent_cons]
      omega

/-! ## Cutting at a line start -/

/-- A break is decided by the bytes next to it. -/
theorem breaks_cons_iff {b : UInt8} {front back : List UInt8} (hne : front ≠ []) :
    Breaks (b :: front) back ↔ Breaks front back := by
  unfold Breaks
  rw [List.getLast?_cons_of_ne_nil hne]
  simp [hne]

/-- At a line start, lines are split independently on both sides. -/
theorem split_append {front back : List UInt8} (h : Breaks front back) :
    split (front ++ back) = split front ++ split back := by
  induction front using scan_induction with
  | nil => rfl
  | lf rest ih =>
      by_cases hrest : rest = []
      · subst hrest; simp
      · rw [List.cons_append, split_lf, split_lf, ih ((breaks_cons_iff hrest).mp h),
          List.cons_append]
  | crLf rest ih =>
      by_cases hrest : rest = []
      · subst hrest; simp
      · rw [List.cons_append, List.cons_append, split_cr_lf, split_cr_lf,
          ih ((breaks_cons_iff hrest).mp ((breaks_cons_iff (by simp)).mp h)), List.cons_append]
  | cr rest hhead ih =>
      by_cases hrest : rest = []
      · subst hrest
        -- the break says that no LF follows this last CR
        have hback : back.head? ≠ some lf := by
          rcases h with h | h | h
          · cases h
          · exact absurd (Option.some.inj h) cr_ne_lf
          · exact h.2
        rw [List.singleton_append, split_cr hback, split_cr (by simp)]
        rfl
      · have hhead' : (rest ++ back).head? ≠ some lf := by
          rw [List.head?_append_of_ne_nil _ hrest]
          exact hhead
        rw [List.cons_append, split_cr hhead', split_cr hhead, ih ((breaks_cons_iff hrest).mp h),
          List.cons_append]
  | other b rest hlf hcr ih =>
      by_cases hrest : rest = []
      · subst hrest
        -- an ordinary byte at the cut is no break
        rcases h with h | h | h
        · cases h
        · exact absurd (Option.some.inj h) hlf
        · exact absurd (Option.some.inj h.1) hcr
      · have hsplit : split rest ≠ [] := fun hnil => hrest (split_eq_nil_iff.mp hnil)
        rw [List.cons_append, split_other _ hlf hcr, split_other _ hlf hcr,
          ih ((breaks_cons_iff hrest).mp h), push_append _ hsplit]

/-- Conversely, every line of a byte string starts at a break. -/
theorem breaks_of_split {bytes : List UInt8} {xs ys : List Line}
    (h : split bytes = xs ++ ys) (hys : ys ≠ []) : Breaks (joined xs) (joined ys) := by
  induction bytes using scan_induction generalizing xs ys with
  | nil => simp [hys] at h
  | lf rest ih =>
      cases xs with
      | nil => exact .inl rfl
      | cons x xs' =>
          rw [split_lf, List.cons_append, List.cons.injEq] at h
          obtain ⟨rfl, htail⟩ := h
          -- at the first line the break is behind its terminator, else it is inside the rest
          by_cases hxs : joined xs' = []
          · right; left; simp [hxs, Line.bytes, Ending.bytes]
          · exact (breaks_cons_iff hxs).mpr (ih htail hys)
  | crLf rest ih =>
      cases xs with
      | nil => exact .inl rfl
      | cons x xs' =>
          rw [split_cr_lf, List.cons_append, List.cons.injEq] at h
          obtain ⟨rfl, htail⟩ := h
          by_cases hxs : joined xs' = []
          · right; left; simp [hxs, Line.bytes, Ending.bytes]
          · exact (breaks_cons_iff (by simp)).mpr ((breaks_cons_iff hxs).mpr (ih htail hys))
  | cr rest hhead ih =>
      cases xs with
      | nil => exact .inl rfl
      | cons x xs' =>
          rw [split_cr hhead, List.cons_append, List.cons.injEq] at h
          obtain ⟨rfl, htail⟩ := h
          have hrest : rest = joined xs' ++ joined ys := by
            rw [← joined_append, ← htail, joined_split]
          by_cases hxs : joined xs' = []
          · right; right
            rw [hxs, List.nil_append] at hrest
            refine ⟨by simp [hxs, Line.bytes, Ending.bytes], hrest ▸ hhead⟩
          · exact (breaks_cons_iff hxs).mpr (ih htail hys)
  | other b rest hlf hcr ih =>
      cases xs with
      | nil => exact .inl rfl
      | cons x xs' =>
          rw [split_other rest hlf hcr, List.cons_append] at h
          -- a byte of a line joins the line behind it
          cases hsplit : split rest with
          | nil =>
              rw [hsplit, push, List.cons.injEq] at h
              exact absurd (List.append_eq_nil_iff.mp h.2.symm).2 hys
          | cons line lines =>
              rw [hsplit, push, List.cons.injEq] at h
              obtain ⟨rfl, htail⟩ := h
              have hbreak : Breaks (joined (line :: xs')) (joined ys) :=
                ih (by rw [hsplit, htail, List.cons_append]) hys
              have hne : joined (line :: xs') ≠ [] := by
                have hpos : 0 < line.size := size_pos_of_mem (hsplit ▸ List.mem_cons_self)
                intro hnil
                rw [joined_cons, List.append_eq_nil_iff] at hnil
                rw [Line.size, hnil.1] at hpos
                exact absurd hpos (Nat.lt_irrefl 0)
              exact (breaks_cons_iff hne).mpr hbreak

/-! ## Taking lines off the front -/

/-- No byte of `bytes` is part of a terminator. -/
def Plain (bytes : List UInt8) : Prop := ∀ b ∈ bytes, b ≠ lf ∧ b ≠ cr

theorem plain_nil : Plain [] := fun _ h => absurd h List.not_mem_nil

theorem Plain.snoc {front : List UInt8} {b : UInt8} (h : Plain front) (hlf : b ≠ lf)
    (hcr : b ≠ cr) : Plain (front ++ [b]) := by
  intro c hc
  rcases List.mem_append.mp hc with hfront | hlast
  · exact h c hfront
  · rw [List.mem_singleton.mp hlast]
    exact ⟨hlf, hcr⟩

theorem split_plain_append {front rest : List UInt8} {line : Line} {lines : List Line}
    (hfront : Plain front) (hrest : split rest = line :: lines) :
    split (front ++ rest) = ⟨front ++ line.text, line.ending⟩ :: lines := by
  induction front with
  | nil => exact hrest
  | cons b front ih =>
      obtain ⟨hlf, hcr⟩ := hfront b List.mem_cons_self
      rw [List.cons_append, split_other _ hlf hcr,
        ih fun c hc => hfront c (List.mem_cons_of_mem b hc)]
      rfl

theorem split_plain {front : List UInt8} (hfront : Plain front) (hne : front ≠ []) :
    split front = [⟨front, none⟩] := by
  induction front with
  | nil => exact absurd rfl hne
  | cons b front ih =>
      obtain ⟨hlf, hcr⟩ := hfront b List.mem_cons_self
      rw [split_other _ hlf hcr]
      by_cases hnil : front = []
      · subst hnil; rfl
      · rw [ih (fun c hc => hfront c (List.mem_cons_of_mem b hc)) hnil]
        rfl

/-- Behind its first line, a byte string has the other lines. -/
theorem split_drop_size {bytes : List UInt8} {line : Line} {lines : List Line}
    (h : split bytes = line :: lines) : split (bytes.drop line.size) = lines := by
  induction bytes using scan_induction generalizing line with
  | nil => simp at h
  | lf rest ih =>
      rw [split_lf, List.cons.injEq] at h
      obtain ⟨rfl, rfl⟩ := h
      rfl
  | crLf rest ih =>
      rw [split_cr_lf, List.cons.injEq] at h
      obtain ⟨rfl, rfl⟩ := h
      rfl
  | cr rest hhead ih =>
      rw [split_cr hhead, List.cons.injEq] at h
      obtain ⟨rfl, rfl⟩ := h
      rfl
  | other b rest hlf hcr ih =>
      rw [split_other rest hlf hcr] at h
      cases hsplit : split rest with
      | nil =>
          rw [hsplit, push, List.cons.injEq] at h
          obtain ⟨rfl, rfl⟩ := h
          rw [split_eq_nil_iff.mp hsplit]
          rfl
      | cons next rest' =>
          rw [hsplit, push, List.cons.injEq] at h
          obtain ⟨rfl, rfl⟩ := h
          exact ih hsplit

theorem split_drop_extent {bytes : List UInt8} {xs ys : List Line}
    (h : split bytes = xs ++ ys) : split (bytes.drop (extent xs)) = ys := by
  induction xs generalizing bytes with
  | nil => exact h
  | cons line rest ih =>
      rw [extent_cons, ← List.drop_drop]
      exact ih (split_drop_size h)

/-! ## Windows -/

@[simp] theorem certain_cons_terminated {line : Line} (rest : List Line)
    (h : line.ending = some .lf ∨ line.ending = some .crLf) :
    certain (line :: rest) = line :: certain rest := by
  cases rest with
  | nil => simp only [certain, if_pos h]
  | cons next rest => rfl

theorem certain_cons_of_ne_nil (line : Line) {rest : List Line} (h : rest ≠ []) :
    certain (line :: rest) = line :: certain rest := by
  cases rest with
  | nil => exact absurd rfl h
  | cons next rest => rfl

theorem certain_isPrefix (lines : List Line) : certain lines <+: lines := by
  induction lines with
  | nil => exact List.prefix_rfl
  | cons line rest ih =>
      cases rest with
      | nil =>
          rw [certain]
          split
          · exact List.prefix_rfl
          · exact List.nil_prefix
      | cons next rest => exact List.cons_prefix_cons.mpr ⟨rfl, ih⟩

theorem certain_push (b : UInt8) (lines : List Line) :
    certain (push b lines) = [] ∨
      (certain lines ≠ [] ∧ certain (push b lines) = push b (certain lines)) := by
  cases lines with
  | nil => left; rfl
  | cons line rest =>
      cases rest with
      | nil =>
          rw [push, certain, certain]
          split
          · right; exact ⟨by simp, rfl⟩
          · left; rfl
      | cons next rest => right; exact ⟨by simp [certain], rfl⟩

theorem certain_of_cons {line : Line} {rest tail : List Line}
    (h : certain (line :: rest) = line :: tail) : certain rest = tail := by
  cases rest with
  | nil =>
      rw [certain] at h
      split at h
      · rw [List.cons.injEq] at h
        exact h.2
      · cases h
  | cons next rest => exact (List.cons.inj h).2

/-- What is not certain is at most one line, unterminated or ended by a CR. -/
theorem exists_certain_append (lines : List Line) :
    ∃ last, lines = certain lines ++ last ∧
      (last = [] ∨ ∃ line, last = [line] ∧ line.ending ≠ some .lf ∧
        line.ending ≠ some .crLf) := by
  induction lines with
  | nil => exact ⟨[], rfl, .inl rfl⟩
  | cons line rest ih =>
      cases rest with
      | nil =>
          by_cases h : line.ending = some .lf ∨ line.ending = some .crLf
          · refine ⟨[], ?_, .inl rfl⟩
            simp only [certain, if_pos h, List.append_nil]
          · refine ⟨[line], ?_, .inr ⟨line, rfl, fun hlf => h (.inl hlf), fun hcr => h (.inr hcr)⟩⟩
            simp only [certain, if_neg h, List.nil_append]
      | cons next rest =>
          obtain ⟨last, hlast, hshape⟩ := ih
          refine ⟨last, ?_, hshape⟩
          conv_lhs => rw [hlast]
          rfl

theorem certain_concat (front : List Line) (line : Line) :
    certain (front ++ [line]) = front ++ certain [line] := by
  induction front with
  | nil => rfl
  | cons first rest ih =>
      rw [List.cons_append, certain_cons_of_ne_nil _ (by simp), ih, List.cons_append]

/-- Behind further lines, what is certain is decided by the last of them. -/
theorem certain_append (front : List Line) {back : List Line} (h : back ≠ []) :
    certain (front ++ back) = front ++ certain back := by
  induction front with
  | nil => rfl
  | cons first rest ih =>
      rw [List.cons_append, certain_cons_of_ne_nil _ (by simp [h]), ih, List.cons_append]

/-- The certain lines of a window are lines of every extension of it. -/
theorem certain_split_prefix (window back : List UInt8) :
    certain (split window) <+: split (window ++ back) := by
  induction window using scan_induction with
  | nil => exact List.nil_prefix
  | lf rest ih =>
      rw [List.cons_append, split_lf, split_lf, certain_cons_terminated _ (.inl rfl)]
      exact List.cons_prefix_cons.mpr ⟨rfl, ih⟩
  | crLf rest ih =>
      rw [List.cons_append, List.cons_append, split_cr_lf, split_cr_lf,
        certain_cons_terminated _ (.inr rfl)]
      exact List.cons_prefix_cons.mpr ⟨rfl, ih⟩
  | cr rest hhead ih =>
      by_cases hrest : rest = []
      · subst hrest
        -- an LF may follow: a CR that ends the window is not certain
        rw [split_cr (by simp), split_nil]
        exact List.nil_prefix
      · have hhead' : (rest ++ back).head? ≠ some lf := by
          rw [List.head?_append_of_ne_nil _ hrest]
          exact hhead
        have hsplit : split rest ≠ [] := fun hnil => hrest (split_eq_nil_iff.mp hnil)
        rw [List.cons_append, split_cr hhead', split_cr hhead,
          certain_cons_of_ne_nil _ hsplit]
        exact List.cons_prefix_cons.mpr ⟨rfl, ih⟩
  | other b rest hlf hcr ih =>
      rw [List.cons_append, split_other _ hlf hcr, split_other _ hlf hcr]
      rcases certain_push b (split rest) with h | ⟨hne, h⟩
      · rw [h]; exact List.nil_prefix
      · rw [h]
        obtain ⟨suffix, hsuffix⟩ := ih
        rw [← hsuffix, push_append _ hne]
        exact List.prefix_append _ _

/-- Cutting the first certain line off leaves the other ones. -/
theorem certain_split_drop {bytes : List UInt8} {line : Line} {tail : List Line}
    (h : certain (split bytes) = line :: tail) :
    certain (split (bytes.drop line.size)) = tail ∧ 0 < line.size ∧
      line.size ≤ bytes.length := by
  obtain ⟨back, hback⟩ := certain_isPrefix (split bytes)
  rw [h, List.cons_append] at hback
  have hmem : line ∈ split bytes := by
    rw [← hback]
    exact List.mem_cons_self
  have hextent := extent_split bytes
  rw [← hback, extent_cons] at hextent
  refine ⟨?_, size_pos_of_mem hmem, by omega⟩
  rw [split_drop_size hback.symm]
  exact certain_of_cons (by rw [hback, h])

/-! ## Offsets -/

@[simp] theorem locate_nil (base : Nat) : locate base [] = [] := rfl

@[simp] theorem locate_cons (base : Nat) (line : Line) (rest : List Line) :
    locate base (line :: rest) = (base, line) :: locate (base + line.size) rest := rfl

theorem locate_append (base : Nat) (xs ys : List Line) :
    locate base (xs ++ ys) = locate base xs ++ locate (base + extent xs) ys := by
  induction xs generalizing base with
  | nil => rfl
  | cons line rest ih =>
      rw [List.cons_append, locate_cons, locate_cons, ih, extent_cons, Nat.add_assoc,
        List.cons_append]

theorem map_snd_locate (base : Nat) (lines : List Line) :
    (locate base lines).map Prod.snd = lines := by
  induction lines generalizing base with
  | nil => rfl
  | cons line rest ih => rw [locate_cons, List.map_cons, ih]

theorem base_le_of_mem_locate {base : Nat} {lines : List Line} {entry : Nat × Line}
    (h : entry ∈ locate base lines) : base ≤ entry.1 := by
  induction lines generalizing base with
  | nil => simp at h
  | cons line rest ih =>
      rcases List.mem_cons.mp h with rfl | hrest
      · exact Nat.le_refl _
      · exact Nat.le_trans (Nat.le_add_right _ _) (ih hrest)

/-- A located line splits the lines around it, and its offset is the extent of
the lines in front. -/
theorem exists_append_of_mem_locate {base : Nat} {lines : List Line} {entry : Nat × Line}
    (h : entry ∈ locate base lines) :
    ∃ xs ys, lines = xs ++ entry.2 :: ys ∧ entry.1 = base + extent xs := by
  induction lines generalizing base with
  | nil => simp at h
  | cons line rest ih =>
      rcases List.mem_cons.mp h with rfl | hrest
      · exact ⟨[], rest, rfl, rfl⟩
      · obtain ⟨xs, ys, hlines, hentry⟩ := ih hrest
        refine ⟨line :: xs, ys, by rw [hlines, List.cons_append], ?_⟩
        rw [hentry, extent_cons, Nat.add_assoc]

/-! ## Line starts -/

/-- A line starts at byte `p`. -/
def StartsAt (bytes : List UInt8) (p : Nat) : Prop := Breaks (bytes.take p) (bytes.drop p)

/-- Byte `j` is part of a terminator. -/
def Terminates (bytes : List UInt8) (j : Nat) : Prop :=
  bytes[j]? = some lf ∨ bytes[j]? = some cr

instance (bytes : List UInt8) (j : Nat) : Decidable (Terminates bytes j) :=
  inferInstanceAs (Decidable (_ ∨ _))

theorem Terminates.lt_length {bytes : List UInt8} {j : Nat} (h : Terminates bytes j) :
    j < bytes.length := by
  rcases h with h | h <;> exact (List.getElem?_eq_some_iff.mp h).1

theorem startsAt_zero (bytes : List UInt8) : StartsAt bytes 0 := .inl rfl

/-- Whether a line starts behind byte `q` shows in that byte and the next. -/
theorem startsAt_succ_iff {bytes : List UInt8} {q : Nat} (hq : q < bytes.length) :
    StartsAt bytes (q + 1) ↔
      bytes[q]? = some lf ∨ (bytes[q]? = some cr ∧ bytes[q + 1]? ≠ some lf) := by
  have hlast : (bytes.take (q + 1)).getLast? = bytes[q]? := by
    rw [List.getLast?_eq_getElem?, List.length_take, Nat.min_eq_left (by omega),
      List.getElem?_take_of_lt (by omega)]
    rfl
  have hne : bytes.take (q + 1) ≠ [] := by
    intro h
    have := congrArg List.length h
    rw [List.length_take, List.length_nil] at this
    omega
  rw [StartsAt, Breaks, hlast, List.head?_drop]
  simp [hne]

theorem StartsAt.terminates {bytes : List UInt8} {q : Nat} (hq : q < bytes.length)
    (h : StartsAt bytes (q + 1)) : Terminates bytes q := by
  rcases (startsAt_succ_iff hq).mp h with hlf | hcr
  · exact .inl hlf
  · exact .inr hcr.1

/-- The lines of a byte string start at its line starts. -/
theorem startsAt_extent {bytes : List UInt8} {xs ys : List Line}
    (h : split bytes = xs ++ ys) (hys : ys ≠ []) : StartsAt bytes (extent xs) := by
  have hjoined : bytes = joined xs ++ joined ys := by
    rw [← joined_append, ← h, joined_split]
  have htake : bytes.take (extent xs) = joined xs := by
    conv_lhs => rw [hjoined]
    exact List.take_left
  have hdrop : bytes.drop (extent xs) = joined ys := by
    conv_lhs => rw [hjoined]
    exact List.drop_left
  rw [StartsAt, htake, hdrop]
  exact breaks_of_split h hys

theorem Line.getLast?_bytes {line : Line} {ending : Ending} (h : line.ending = some ending) :
    line.bytes.getLast? = some lf ∨ line.bytes.getLast? = some cr := by
  rw [Line.bytes, h]
  cases ending with
  | lf => left; simp [Ending.bytes]
  | crLf => left; simp [Ending.bytes]
  | cr => right; simp [Ending.bytes]

/-- Certain lines that cover the whole window end in an LF. -/
theorem getLast?_of_certain_covers {window : List UInt8} {n : Nat} (hne : window ≠ [])
    (hcovers : extent ((certain (split window)).take n) = window.length) :
    window.getLast? = some lf := by
  obtain ⟨tail, htail⟩ := (List.take_prefix n _).trans (certain_isPrefix (split window))
  -- no line is left out, so every line is certain, the last one as well
  have htailNil : tail = [] := by
    have hextent := congrArg extent htail
    rw [extent_append, hcovers, extent_split] at hextent
    cases tail with
    | nil => rfl
    | cons line rest =>
        have hmem : line ∈ split window := by rw [← htail]; simp
        have hpos := size_pos_of_mem hmem
        rw [extent_cons] at hextent
        omega
  rw [htailNil, List.append_nil] at htail
  have hcertain : certain (split window) = split window :=
    (certain_isPrefix _).eq_of_length_le (by
      have := congrArg List.length htail
      rw [List.length_take] at this
      omega)
  have hsplit : split window ≠ [] := fun h => hne (split_eq_nil_iff.mp h)
  obtain ⟨front, line, hlines⟩ : ∃ front line, split window = front ++ [line] :=
    ⟨_, _, (List.dropLast_append_getLast hsplit).symm⟩
  rw [hlines, certain_concat] at hcertain
  have hsingle := List.append_cancel_left hcertain
  have hending : line.ending = some .lf ∨ line.ending = some .crLf := by
    by_contra hnot
    rw [certain, if_neg hnot] at hsingle
    cases hsingle
  have hlast : line.bytes.getLast? = some lf := by
    rcases hending with h | h
    · rw [Line.bytes, h]
      simp [Ending.bytes]
    · rw [Line.bytes, h]
      simp [Ending.bytes]
  rw [← joined_split window, hlines, joined_append, joined_cons, joined_nil, List.append_nil,
    List.getLast?_append_of_ne_nil, hlast]
  intro hnil
  rw [hnil] at hlast
  cases hlast

/-- Without a terminator from byte `m` on, the last line holds byte `m` and is
unterminated. -/
theorem exists_last_of_no_terminator {bytes : List UInt8} {m : Nat} (hm : m < bytes.length)
    (hnone : ∀ j, m ≤ j → ¬ Terminates bytes j) :
    ∃ before line, split bytes = before ++ [line] ∧ line.ending = none ∧ extent before ≤ m := by
  have hne : split bytes ≠ [] := fun h => by
    rw [split_eq_nil_iff.mp h] at hm
    exact absurd hm (Nat.not_lt_zero m)
  obtain ⟨before, line, hsplit⟩ : ∃ before line, split bytes = before ++ [line] :=
    ⟨_, _, (List.dropLast_append_getLast hne).symm⟩
  have hlength : bytes.length = extent before + line.size := by
    rw [← extent_split bytes, hsplit, extent_append, extent_cons, extent_nil, Nat.add_zero]
  have hmem : line ∈ split bytes := by rw [hsplit]; simp
  have hpos : 0 < line.size := size_pos_of_mem hmem
  refine ⟨before, line, hsplit, ?_, ?_⟩
  · cases hending : line.ending with
    | none => rfl
    | some ending =>
        -- its terminator would be the last byte of all
        have hlast : bytes.getLast? = line.bytes.getLast? := by
          rw [← joined_split bytes, hsplit, joined_append, joined_cons, joined_nil,
            List.append_nil, List.getLast?_append_of_ne_nil]
          intro hnil
          rw [Line.size, hnil] at hpos
          exact absurd hpos (Nat.lt_irrefl 0)
        rw [List.getLast?_eq_getElem?] at hlast
        refine absurd ?_ (hnone (bytes.length - 1) (by omega))
        rw [Terminates, hlast]
        exact Line.getLast?_bytes hending
  · -- the byte in front of a later line start would be a terminator
    by_contra hgt
    obtain ⟨q, hq⟩ : ∃ q, extent before = q + 1 := ⟨extent before - 1, by omega⟩
    have hstart := startsAt_extent hsplit (by simp)
    rw [hq] at hstart
    exact hnone q (by omega) (hstart.terminates (by omega))

/-- A byte string is one unterminated line when no byte of it terminates. -/
theorem split_single_iff {bytes : List UInt8} (hne : bytes ≠ []) :
    (∃ line, split bytes = [line] ∧ line.ending = none) ↔ ∀ j, ¬ Terminates bytes j := by
  constructor
  · rintro ⟨line, hsplit, hending⟩
    induction bytes using scan_induction generalizing line with
    | nil => exact absurd rfl hne
    | lf rest ih =>
        rw [split_lf, List.cons.injEq] at hsplit
        rw [← hsplit.1] at hending
        cases hending
    | crLf rest ih =>
        rw [split_cr_lf, List.cons.injEq] at hsplit
        rw [← hsplit.1] at hending
        cases hending
    | cr rest hhead ih =>
        rw [split_cr hhead, List.cons.injEq] at hsplit
        rw [← hsplit.1] at hending
        cases hending
    -- a byte that ends no line leaves the question to the rest
    | other b rest hlf hcr ih =>
        intro j hterm
        cases j with
        | zero => simp [Terminates, hlf, hcr] at hterm
        | succ j =>
            rw [Terminates, List.getElem?_cons_succ] at hterm
            have hrest : rest ≠ [] := by
              rintro rfl
              simp at hterm
            rw [split_other rest hlf hcr] at hsplit
            cases htail : split rest with
            | nil => exact hrest (split_eq_nil_iff.mp htail)
            | cons next lines =>
                rw [htail, push, List.cons.injEq] at hsplit
                rw [← hsplit.1] at hending
                exact ih hrest next (by rw [htail, hsplit.2]) hending j hterm
  · intro hnone
    have hplain : Plain bytes := by
      intro b hb
      obtain ⟨j, hj⟩ := List.mem_iff_getElem?.mp hb
      exact ⟨fun h => hnone j (.inl (h ▸ hj)), fun h => hnone j (.inr (h ▸ hj))⟩
    exact ⟨_, split_plain hplain hne, rfl⟩

/-- Let `a` be the first line start strictly behind byte `m`.  Then the lines
that start behind `m` are the lines of the bytes from `a` on, and the lines in
front of `a` are those that start at or before `m`. -/
theorem locate_after {bytes : List UInt8} {m a : Nat} (hma : m < a) (ha : a ≤ bytes.length)
    (hbreak : StartsAt bytes a) (hfirst : ∀ p, m < p → p < a → ¬ StartsAt bytes p) :
    linesUpTo bytes m = split (bytes.take a) ∧ linesAfter bytes m = split (bytes.drop a) := by
  have hsplit : split bytes = split (bytes.take a) ++ split (bytes.drop a) := by
    conv_lhs => rw [← List.take_append_drop a bytes]
    exact split_append hbreak
  have hextent : extent (split (bytes.take a)) = a := by
    rw [extent_split, List.length_take, Nat.min_eq_left ha]
  have hlocate : locate 0 (split bytes) =
      locate 0 (split (bytes.take a)) ++ locate a (split (bytes.drop a)) := by
    rw [hsplit, locate_append, hextent, Nat.zero_add]
  have hfront : ∀ entry ∈ locate 0 (split (bytes.take a)), entry.1 ≤ m := by
    intro entry hentry
    obtain ⟨xs, ys, hlines, hoffset⟩ := exists_append_of_mem_locate hentry
    rw [Nat.zero_add] at hoffset
    have hmem : entry.2 ∈ split (bytes.take a) := by rw [hlines]; simp
    have hsize : 0 < entry.2.size := size_pos_of_mem hmem
    have hsum : extent xs + (entry.2.size + extent ys) = a := by
      rw [← extent_cons, ← extent_append, ← hlines, hextent]
    -- the line starts at a line start of the whole byte string in front of `a`
    have hwhole : split bytes = xs ++ (entry.2 :: ys ++ split (bytes.drop a)) := by
      rw [hsplit, hlines, List.append_assoc]
    have hstart := startsAt_extent hwhole (by simp)
    by_contra hgt
    exact hfirst entry.1 (by omega) (by omega) (hoffset ▸ hstart)
  have hback : ∀ entry ∈ locate a (split (bytes.drop a)), m < entry.1 := fun entry hentry =>
    Nat.lt_of_lt_of_le hma (base_le_of_mem_locate hentry)
  constructor
  · rw [linesUpTo, hlocate, List.filter_append, List.filter_eq_self.mpr, List.filter_eq_nil_iff.mpr,
      List.append_nil, map_snd_locate]
    · intro entry hentry
      simpa using hback entry hentry
    · intro entry hentry
      simpa using hfront entry hentry
  · rw [linesAfter, hlocate, List.filter_append, List.filter_eq_nil_iff.mpr,
      List.filter_eq_self.mpr, List.nil_append, map_snd_locate]
    · intro entry hentry
      simpa using hback entry hentry
    · intro entry hentry
      simpa using hfront entry hentry

/-! ## The last certain terminator -/

/-- A terminator that no later byte can change ends with byte `q`: a CR counts when a byte
other than LF follows it. -/
def CertainEnd (bytes : List UInt8) (q : Nat) : Prop :=
  bytes[q]? = some lf ∨ (bytes[q]? = some cr ∧ q + 1 < bytes.length ∧ bytes[q + 1]? ≠ some lf)

instance (bytes : List UInt8) (q : Nat) : Decidable (CertainEnd bytes q) :=
  inferInstanceAs (Decidable (_ ∨ _))

/-- The number of bytes up to the end of the last certain terminator. -/
def certainLength (bytes : List UInt8) : Nat :=
  Nat.findGreatest (fun length => CertainEnd bytes (length - 1)) bytes.length

theorem CertainEnd.startsAt {bytes : List UInt8} {q : Nat} (hq : q < bytes.length)
    (h : CertainEnd bytes q) : StartsAt bytes (q + 1) :=
  (startsAt_succ_iff hq).mpr (h.imp_right fun hcr => ⟨hcr.1, hcr.2.2⟩)

/-- A byte string of one line holds no certain terminator, unless the line has one. -/
theorem not_certainEnd_of_single {bytes : List UInt8} {line : Line} (hsplit : split bytes = [line])
    (hlf : line.ending ≠ some .lf) (hcrLf : line.ending ≠ some .crLf) {q : Nat} :
    ¬ CertainEnd bytes q := by
  intro hcertain
  have hjoined : line.bytes = bytes := by
    rw [← joined_split bytes, hsplit, joined_cons, joined_nil, List.append_nil]
  have hne : bytes ≠ [] := fun hnil => by
    rw [hnil] at hsplit
    cases hsplit
  have hq : q < bytes.length := by
    rcases hcertain with h | h
    · exact (List.getElem?_eq_some_iff.mp h).1
    · exact (List.getElem?_eq_some_iff.mp h.1).1
  -- the terminator would end the line, so nothing follows it
  have hend : bytes.drop (q + 1) = [] := by
    have hparts := split_append (hcertain.startsAt hq)
    rw [List.take_append_drop, hsplit] at hparts
    have hfront : split (bytes.take (q + 1)) ≠ [] := fun hnil => by
      have hlength := congrArg List.length (split_eq_nil_iff.mp hnil)
      rw [List.length_take, List.length_nil] at hlength
      omega
    cases htake : split (bytes.take (q + 1)) with
    | nil => exact absurd htake hfront
    | cons first more =>
        rw [htake, List.cons_append, List.cons.injEq] at hparts
        exact split_eq_nil_iff.mp (List.append_eq_nil_iff.mp hparts.2.symm).2
  have hlength : q + 1 = bytes.length := by
    have := List.drop_eq_nil_iff.mp hend
    omega
  have hlast : bytes.getLast? = bytes[q]? := by
    rw [List.getLast?_eq_getElem?, ← hlength, Nat.add_sub_cancel]
  rcases hcertain with hterm | ⟨-, hmore, -⟩
  · cases hending : line.ending with
    | none => exact (split_single_iff hne).mp ⟨line, hsplit, hending⟩ q (.inl hterm)
    | some ending =>
        cases ending with
        | lf => exact hlf hending
        | crLf => exact hcrLf hending
        | cr =>
            rw [← hlast, ← hjoined, Line.bytes, hending] at hterm
            simp [Ending.bytes, cr_ne_lf] at hterm
  · omega

/-- The certain lines reach up to the last certain terminator. -/
theorem certainLength_eq (bytes : List UInt8) :
    certainLength bytes = extent (certain (split bytes)) := by
  obtain ⟨last, hlast, hshape⟩ := exists_certain_append (split bytes)
  have hextent : extent (certain (split bytes)) + extent last = bytes.length := by
    rw [← extent_append, ← hlast, extent_split]
  refine Nat.findGreatest_eq_iff.mpr ⟨by omega, fun hpos => ?_, fun n hgt hle hcertain => ?_⟩
  · obtain ⟨q, hq⟩ : ∃ q, extent (certain (split bytes)) = q + 1 :=
      ⟨_, (Nat.succ_pred_eq_of_ne_zero hpos).symm⟩
    rw [hq, Nat.add_sub_cancel]
    rcases hshape with rfl | ⟨line, rfl, -, -⟩
    · -- every line is certain, so the bytes end in an LF
      rw [List.append_nil] at hlast
      have hne : bytes ≠ [] := fun hnil => by
        rw [hnil] at hq
        cases hq
      have hlf := getLast?_of_certain_covers (n := (certain (split bytes)).length) hne
        (by rw [List.take_length, ← hlast, extent_split])
      rw [extent_nil] at hextent
      rw [List.getLast?_eq_getElem?, ← hextent, Nat.add_zero, hq, Nat.add_sub_cancel] at hlf
      exact .inl hlf
    · have hsize : 0 < line.size := size_pos_of_mem (by rw [hlast]; simp)
      rw [extent_cons, extent_nil] at hextent
      have hstarts := startsAt_extent hlast (by simp)
      rw [hq] at hstarts
      exact ((startsAt_succ_iff (by omega)).mp hstarts).imp_right
        fun hcr => ⟨hcr.1, by omega, hcr.2⟩
  · have hdrop := split_drop_extent hlast
    rcases hshape with rfl | ⟨line, rfl, hlf, hcrLf⟩
    · rw [extent_nil] at hextent
      omega
    · -- a later certain terminator would be one of the line that is not certain
      refine not_certainEnd_of_single hdrop hlf hcrLf
        (q := n - 1 - extent (certain (split bytes))) ?_
      have hback : extent (certain (split bytes)) + (n - 1 - extent (certain (split bytes))) =
          n - 1 := by omega
      rw [CertainEnd, List.getElem?_drop, List.getElem?_drop, ← Nat.add_assoc, hback,
        List.length_drop]
      exact hcertain.imp_right fun hcr => ⟨hcr.1, by omega, hcr.2.2⟩

/-- The bytes of the first lines of a byte string split into these lines. -/
theorem split_take_extent {bytes : List UInt8} {xs ys : List Line} (h : split bytes = xs ++ ys) :
    split (bytes.take (extent xs)) = xs := by
  have hdrop := split_drop_extent h
  by_cases hys : ys = []
  · rw [hys, List.append_nil] at h
    rw [← h, extent_split, List.take_length, h]
  · have hparts := split_append (startsAt_extent h hys)
    rw [List.take_append_drop, hdrop, h] at hparts
    exact (List.append_cancel_right hparts).symm

/-- Cut behind the last certain terminator, a byte string is split into its certain lines. -/
theorem split_take_certainLength (bytes : List UInt8) :
    split (bytes.take (certainLength bytes)) = certain (split bytes) := by
  obtain ⟨last, hlast, -⟩ := exists_certain_append (split bytes)
  rw [certainLength_eq, split_take_extent hlast]

example : split [0x61, 0x0D, 0x0A, 0x0D, 0x62] =
    [⟨[0x61], some .crLf⟩, ⟨[], some .cr⟩, ⟨[0x62], none⟩] := by decide

end Lines

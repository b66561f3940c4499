import Storageprims.Ops.FramingCorrect
import Storageprims.Ops.LineOps

/-!
# Window alignment finds line starts

The alignment helpers see one window of an object and at most one byte in front
of it.  `boundaryFrom_ok` says what the local scan finds; `boundary_startsAt` lifts
it to the object: the position is the first line start behind the scanned byte,
unless it lies at the edge of a window that a final CR leaves undecided.
`tailAlignment_spec` and `midAlignment_spec` say where the operations cut a window,
and `alignment_finds_lineStarts` what the two helpers find in one.
-/

namespace Storageprims

open Lines (lf cr StartsAt Terminates)

/-- `a` lies behind the first terminator at or after `k`. -/
def FirstBoundary (bytes : List UInt8) (k a : Nat) : Prop :=
  ∃ q, k ≤ q ∧ q < bytes.length ∧ (∀ j, k ≤ j → j < q → ¬ Terminates bytes j) ∧
    ((bytes[q]? = some lf ∧ a = q + 1) ∨
      (bytes[q]? = some cr ∧ bytes[q + 1]? = some lf ∧ a = q + 2) ∨
      (bytes[q]? = some cr ∧ bytes[q + 1]? ≠ some lf ∧ a = q + 1))

theorem FirstBoundary.of_succ {bytes : List UInt8} {k a : Nat}
    (hk : ¬ Terminates bytes k) (h : FirstBoundary bytes (k + 1) a) :
    FirstBoundary bytes k a := by
  obtain ⟨q, hkq, hq, hplain, hshape⟩ := h
  refine ⟨q, by omega, hq, fun j hj hjq => ?_, hshape⟩
  rcases Nat.eq_or_lt_of_le hj with rfl | hlt
  · exact hk
  · exact hplain j hlt hjq

/-- What a scan from `k` on may find: the first boundary, or no terminator. -/
def FindsBoundary (bytes : List UInt8) (k : Nat) : Option Nat → Prop
  | some a => FirstBoundary bytes k a
  | none => ∀ j, k ≤ j → ¬ Terminates bytes j

/-- What the scan returns is the first boundary, or there is no terminator. -/
theorem boundaryFrom_ok {bytes : List UInt8} {index : Nat} {rest : List UInt8} {found : Option Nat}
    (hrest : bytes.drop index = rest) (h : boundaryFrom index rest = .ok found) :
    FindsBoundary bytes index found := by
  induction rest generalizing index with
  | nil =>
      cases h
      intro j hj hterm
      have hnone : bytes[j]? = none := List.getElem?_eq_none
        (Nat.le_trans (List.drop_eq_nil_iff.mp hrest) hj)
      rcases hterm with h | h <;> rw [hnone] at h <;> cases h
  | cons b rest ih =>
      have hb : bytes[index]? = some b := by
        rw [← List.head?_drop, hrest, List.head?_cons]
      have hlt : index < bytes.length := (List.getElem?_eq_some_iff.mp hb).1
      have htail : bytes.drop (index + 1) = rest := by
        rw [← List.tail_drop, hrest, List.tail_cons]
      have hnext : bytes[index + 1]? = rest.head? := by
        rw [← List.head?_drop, htail]
      have hempty : ∀ j, index ≤ j → j < index → ¬ Terminates bytes j := fun j h h' =>
        absurd h' (Nat.not_lt.mpr h)
      rw [boundaryFrom] at h
      obtain ⟨next, hstep, h⟩ := except_bind_ok h
      obtain rfl := addU64_ok hstep
      -- the scan stops at the first LF or CR, and a CR takes the LF behind it along
      by_cases hlf : b = lf
      · rw [if_pos hlf] at h
        cases h
        exact ⟨index, Nat.le_refl _, hlt, hempty, .inl ⟨hlf ▸ hb, rfl⟩⟩
      rw [if_neg hlf] at h
      by_cases hcr : b = cr
      · rw [if_pos hcr] at h
        by_cases hhead : rest.head? = some lf
        · rw [if_pos hhead] at h
          obtain ⟨next, hstep, h⟩ := except_bind_ok h
          obtain rfl := addU64_ok hstep
          cases h
          exact ⟨index, Nat.le_refl _, hlt, hempty,
            .inr (.inl ⟨hcr ▸ hb, hnext.trans hhead, rfl⟩)⟩
        · rw [if_neg hhead] at h
          cases h
          exact ⟨index, Nat.le_refl _, hlt, hempty, .inr (.inr ⟨hcr ▸ hb, hnext ▸ hhead, rfl⟩)⟩
      · rw [if_neg hcr] at h
        have hplain : ¬ Terminates bytes index := by
          rintro (h | h)
          · exact hlf (Option.some.inj (hb.symm.trans h))
          · exact hcr (Option.some.inj (hb.symm.trans h))
        have hfound := ih htail h
        cases found with
        | some a => exact FirstBoundary.of_succ hplain hfound
        | none =>
            intro j hj
            rcases Nat.eq_or_lt_of_le hj with rfl | hgt
            · exact hplain
            · exact hfound j hgt

/-- On bytes that memory can hold, the scan returns. -/
theorem boundaryFrom_returns (index : Nat) {rest : List UInt8}
    (hrest : index + rest.length < u64Bound) : ∃ found, boundaryFrom index rest = .ok found := by
  induction rest generalizing index with
  | nil => exact ⟨none, rfl⟩
  | cons b rest ih =>
      rw [List.length_cons] at hrest
      rw [boundaryFrom, addU64_of_lt (by omega)]
      simp only [bind, Except.bind]
      split
      · exact ⟨_, rfl⟩
      split
      · split
        · next hhead =>
            have hpos : 0 < rest.length := by
              cases rest with
              | nil => cases hhead
              | cons c rest' => exact Nat.succ_pos _
            rw [addU64_of_lt (by omega)]
            exact ⟨_, rfl⟩
        · exact ⟨_, rfl⟩
      · exact ih _ (by omega)

theorem nextLineBoundary_spec {bytes : List UInt8} (hbytes : bytes.length < u64Bound) {k : Nat}
    (hk : k ≤ bytes.length) :
    ∃ found, nextLineBoundary bytes k = .ok found ∧ FindsBoundary bytes k found := by
  have hrest : k + (bytes.drop k).length < u64Bound := by
    rw [List.length_drop]
    omega
  obtain ⟨found, hscan⟩ := boundaryFrom_returns k hrest
  exact ⟨found, hscan, boundaryFrom_ok rfl hscan⟩

theorem FirstBoundary.le_length {bytes : List UInt8} {k a : Nat}
    (h : FirstBoundary bytes k a) : k < a ∧ a ≤ bytes.length := by
  obtain ⟨q, hkq, hq, -, ⟨-, rfl⟩ | ⟨-, hnext, rfl⟩ | ⟨-, -, rfl⟩⟩ := h
  · omega
  · have := (List.getElem?_eq_some_iff.mp hnext).1
    omega
  · omega

/-- Inside the window, the midpoint's own terminator needs no case of its own. -/
theorem midpointAlignment_eq {bytes : List UInt8} {k : Nat} (hk : k < bytes.length)
    (hk64 : k < u64Bound) : midpointAlignment bytes k = nextLineBoundary bytes k := by
  obtain ⟨b, hb⟩ : ∃ b, bytes[k]? = some b := ⟨_, List.getElem?_eq_getElem hk⟩
  obtain ⟨rest, hrest⟩ : ∃ rest, bytes.drop k = b :: rest := by
    refine ⟨bytes.drop (k + 1), ?_⟩
    rw [List.drop_eq_getElem_cons hk]
    rw [List.getElem?_eq_getElem hk] at hb
    rw [Option.some.inj hb]
  have hnext : bytes[k + 1]? = rest.head? := by
    rw [← List.head?_drop, ← List.tail_drop, hrest, List.tail_cons]
  rw [midpointAlignment, show tryUsize k = some k from if_pos hk64]
  simp only [hb]
  rw [nextLineBoundary, hrest, boundaryFrom]
  by_cases hlf : b = lf
  · simp only [if_pos hlf]
  simp only [if_neg hlf]
  by_cases hcr : b = cr
  · simp only [if_pos hcr]
    cases hstep : addU64 k 1 with
    | error failure => rfl
    | ok next =>
        obtain rfl := addU64_ok hstep
        simp only [bind, Except.bind, hnext]
  · simp only [if_neg hcr]

/-- In front of a boundary stands a terminator. -/
theorem FirstBoundary.terminates {bytes : List UInt8} {k a : Nat}
    (h : FirstBoundary bytes k a) : ∃ q, a = q + 1 ∧ Terminates bytes q := by
  obtain ⟨q, -, -, -, ⟨hlf, rfl⟩ | ⟨-, hnext, rfl⟩ | ⟨hcr, -, rfl⟩⟩ := h
  · exact ⟨q, rfl, .inl hlf⟩
  · exact ⟨q + 1, rfl, .inl hnext⟩
  · exact ⟨q, rfl, .inr hcr⟩

/-! ## Where the operations cut a window -/

/-- A window is cut at its front, if that is allowed, behind a terminator of it,
or at its end. -/
def CutAt (front : Prop) (bytes : List UInt8) (aligned : Nat) : Prop :=
  (aligned = 0 ∧ front) ∨ aligned = bytes.length ∨ ∃ q, aligned = q + 1 ∧ Terminates bytes q

theorem CutAt.of_found {front : Prop} {bytes : List UInt8} {k default : Nat} {found : Option Nat}
    (hfound : FindsBoundary bytes k found) (hle : default ≤ bytes.length)
    (hdefault : CutAt front bytes default) :
    found.getD default ≤ bytes.length ∧ CutAt front bytes (found.getD default) := by
  cases found with
  | none => exact ⟨hle, hdefault⟩
  | some a => exact ⟨FirstBoundary.le_length hfound |>.2, .inr (.inr hfound.terminates)⟩

/-- The suffix window is cut at its front only at the front of the object or where
the byte in front of it ends a line. -/
theorem tailAlignment_spec (start : Nat) (previous : Option UInt8) {bytes : List UInt8}
    (hbytes : bytes.length < u64Bound) :
    ∃ aligned, tailAlignment start previous bytes = .ok aligned ∧ aligned ≤ bytes.length ∧
      CutAt (start = 0 ∨ sliceStartsOnLineBoundary previous bytes.head? = true) bytes aligned := by
  rw [tailAlignment]
  by_cases hzero : start = 0
  · rw [if_pos hzero]
    exact ⟨0, rfl, Nat.zero_le _, .inl ⟨rfl, .inl hzero⟩⟩
  rw [if_neg hzero, firstFullLineStart]
  by_cases hboundary : sliceStartsOnLineBoundary previous bytes.head? = true
  · rw [if_pos hboundary]
    exact ⟨0, rfl, Nat.zero_le _, .inl ⟨rfl, .inr hboundary⟩⟩
  · obtain ⟨found, hscan, hfound⟩ := nextLineBoundary_spec hbytes (Nat.zero_le _)
    rw [if_neg hboundary, hscan]
    exact ⟨_, rfl, CutAt.of_found hfound (Nat.le_refl _) (.inr (.inl rfl))⟩

/-- The midpoint window is cut at its front only at the front of the object. -/
theorem midAlignment_spec (k start : Nat) (eof : Bool) {bytes : List UInt8}
    (hbytes : bytes.length < u64Bound) :
    ∃ aligned, midAlignment bytes k start eof = .ok aligned ∧ aligned ≤ bytes.length ∧
      CutAt (start = 0) bytes aligned := by
  have hdefault : (if eof ∧ start = 0 then 0 else bytes.length) ≤ bytes.length ∧
      CutAt (start = 0) bytes (if eof ∧ start = 0 then 0 else bytes.length) := by
    by_cases hfront : eof ∧ start = 0
    · rw [if_pos hfront]
      exact ⟨Nat.zero_le _, .inl ⟨rfl, hfront.2⟩⟩
    · rw [if_neg hfront]
      exact ⟨Nat.le_refl _, .inr (.inl rfl)⟩
  rw [midAlignment]
  by_cases hk : k < bytes.length
  · obtain ⟨found, hscan, hfound⟩ := nextLineBoundary_spec hbytes (Nat.le_of_lt hk)
    rw [midpointAlignment_eq hk (by omega), hscan]
    exact ⟨_, rfl, CutAt.of_found hfound hdefault.1 hdefault.2⟩
  · -- a midpoint behind the window aligns nothing
    have hnone : midpointAlignment bytes k = .ok none := by
      rw [midpointAlignment]
      cases hfits : tryUsize k with
      | none => rfl
      | some midpoint =>
          obtain ⟨-, rfl⟩ := tryUsize_eq_some_iff.mp hfits
          simp only [List.getElem?_eq_none (Nat.not_lt.mp hk)]
    rw [hnone]
    exact ⟨_, rfl, hdefault⟩

section Window

variable {object window : List UInt8} {start : Nat}

/-- A clipped slice of the object is a window. -/
theorem window_of_slice (object : List UInt8) (start length : Nat) :
    object.drop start = (object.drop start).take length ++
      object.drop (start + ((object.drop start).take length).length) := by
  rw [← List.drop_drop]
  generalize object.drop start = suffix
  rcases Nat.le_total length suffix.length with hle | hge
  · rw [List.length_take, Nat.min_eq_left hle, List.take_append_drop]
  · rw [List.take_of_length_le hge, List.drop_length, List.append_nil]

/-- The window is the object's bytes from `start` on, as far as it reaches. -/
theorem window_getElem?
    (hwindow : object.drop start = window ++ object.drop (start + window.length))
    {j : Nat} (hj : j < window.length) : window[j]? = object[start + j]? := by
  rw [← List.getElem?_drop, hwindow, List.getElem?_append_left hj]

theorem window_le (hwindow : object.drop start = window ++ object.drop (start + window.length))
    (hne : window ≠ []) : start + window.length ≤ object.length := by
  have hlen := congrArg List.length hwindow
  rw [List.length_append, List.length_drop, List.length_drop] at hlen
  have hpos : 0 < window.length := List.length_pos_of_ne_nil hne
  omega

theorem terminates_window
    (hwindow : object.drop start = window ++ object.drop (start + window.length))
    {j : Nat} (hj : j < window.length) :
    Terminates window j ↔ Terminates object (start + j) := by
  rw [Terminates, Terminates, window_getElem? hwindow hj]

/-- Behind bytes that do not terminate, no line starts. -/
theorem not_startsAt_of_plain
    (hwindow : object.drop start = window ++ object.drop (start + window.length)) {k q : Nat}
    (hq : q ≤ window.length) (hplain : ∀ j, k ≤ j → j < q → ¬ Terminates window j) {p : Nat}
    (hkp : start + k < p) (hpq : p ≤ start + q) : ¬ StartsAt object p := by
  intro hstarts
  obtain ⟨j, rfl⟩ : ∃ j, p = start + j + 1 := ⟨p - 1 - start, by omega⟩
  have hle := window_le hwindow (List.ne_nil_of_length_pos (by omega))
  refine hplain j (by omega) (by omega) ((terminates_window hwindow (by omega)).mpr ?_)
  exact hstarts.terminates (by omega)

/-- In the object, the first boundary of a window is the first line start behind
the scanned byte, when it lies inside the window or the window is a suffix. -/
theorem boundary_startsAt
    (hwindow : object.drop start = window ++ object.drop (start + window.length))
    {k a : Nat} (h : FirstBoundary window k a)
    (hedge : a < window.length ∨ start + window.length = object.length) :
    StartsAt object (start + a) ∧
      ∀ p, start + k < p → p < start + a → ¬ StartsAt object p := by
  obtain ⟨q, hkq, hq, hplain, hshape⟩ := h
  have hne : window ≠ [] := fun hnil => by
    rw [hnil] at hq
    exact absurd hq (Nat.not_lt_zero q)
  have hle := window_le hwindow hne
  have hbyte := window_getElem? hwindow hq
  -- no line starts up to the terminator, because every byte before it is plain.
  have hbefore : ∀ p, start + k < p → p ≤ start + q → ¬ StartsAt object p := fun p hkp hpq =>
    not_startsAt_of_plain hwindow (Nat.le_of_lt hq) hplain hkp hpq
  rcases hshape with ⟨hlf, rfl⟩ | ⟨hcr, hnext, rfl⟩ | ⟨hcr, hnext, rfl⟩
  · rw [hbyte] at hlf
    refine ⟨(Lines.startsAt_succ_iff (q := start + q) (by omega)).mpr (.inl hlf),
      fun p hkp hp => ?_⟩
    exact hbefore p hkp (by omega)
  · have hlt : q + 1 < window.length := (List.getElem?_eq_some_iff.mp hnext).1
    rw [window_getElem? hwindow hlt] at hnext
    rw [hbyte] at hcr
    refine ⟨(Lines.startsAt_succ_iff (q := start + (q + 1)) (by omega)).mpr (.inl hnext),
      fun p hkp hp => ?_⟩
    rcases Nat.lt_or_ge p (start + q + 1) with hlow | hhigh
    · exact hbefore p hkp (by omega)
    · -- between the two bytes of a CRLF no line starts
      obtain rfl : p = start + q + 1 := by omega
      rw [Lines.startsAt_succ_iff (by omega), hcr]
      rintro (h | h)
      · exact Lines.cr_ne_lf (Option.some.inj h)
      · exact h.2 hnext
  · -- a CR that ends the window is bare only because the window ends with the object
    have hobject : object[start + q + 1]? ≠ some lf := by
      rcases Nat.lt_or_ge (q + 1) window.length with hlt | hge
      · rw [Nat.add_assoc, ← window_getElem? hwindow hlt]
        exact hnext
      · rw [List.getElem?_eq_none (by omega)]
        nofun
    rw [hbyte] at hcr
    refine ⟨(Lines.startsAt_succ_iff (q := start + q) (by omega)).mpr (.inr ⟨hcr, hobject⟩),
      fun p hkp hp => ?_⟩
    exact hbefore p hkp (by omega)

/-- The byte in front of the window decides whether a line starts with it. -/
theorem sliceStartsOnLineBoundary_iff (hstart : 0 < start)
    (hwindow : object.drop start = window ++ object.drop (start + window.length))
    (hne : window ≠ []) :
    sliceStartsOnLineBoundary object[start - 1]? window.head? = true ↔
      StartsAt object start := by
  have hle := window_le hwindow hne
  have hpos : 0 < window.length := List.length_pos_of_ne_nil hne
  obtain ⟨q, rfl⟩ : ∃ q, start = q + 1 := ⟨start - 1, by omega⟩
  obtain ⟨b, hb⟩ : ∃ b, object[q]? = some b :=
    ⟨_, List.getElem?_eq_getElem (by omega : q < object.length)⟩
  have hfirst : window.head? = object[q + 1]? := by
    rw [List.head?_eq_getElem?, window_getElem? hwindow hpos]
  rw [Lines.startsAt_succ_iff (by omega), Nat.add_sub_cancel, hfirst, hb]
  simp [sliceStartsOnLineBoundary]

/-! ## The helpers find the first line start -/

/-- `p` is the first line start at or behind `lower`. -/
def FirstStart (object : List UInt8) (lower p : Nat) : Prop :=
  lower ≤ p ∧ StartsAt object p ∧ ∀ q, lower ≤ q → q < p → ¬ StartsAt object q

/-- Position `a` of a window that starts at byte `start`: inside the window it is the first
line start at or behind `lower`, and it is no line start only at the end of a window that
ends in a CR before the object ends. -/
def AlignsAt (object window : List UInt8) (start lower a : Nat) : Prop :=
  (a < window.length → FirstStart object lower (start + a)) ∧
    (¬ StartsAt object (start + a) →
      a = window.length ∧ start + window.length ≠ object.length ∧ window.getLast? = some cr)

/-- Where no line starts, the search may begin one byte later. -/
theorem FirstStart.of_succ {lower p : Nat} (hlower : ¬ StartsAt object lower)
    (h : FirstStart object (lower + 1) p) : FirstStart object lower p := by
  obtain ⟨hle, hstarts, hbefore⟩ := h
  refine ⟨by omega, hstarts, fun q hq hqp => ?_⟩
  rcases Nat.eq_or_lt_of_le hq with rfl | hlt
  · exact hlower
  · exact hbefore q hlt hqp

/-- Only a CR that ends the window leaves open whether a line starts behind it. -/
theorem FirstBoundary.getLast? {k : Nat} (h : FirstBoundary window k window.length)
    (hwindow : object.drop start = window ++ object.drop (start + window.length))
    (hnot : ¬ StartsAt object (start + window.length)) : window.getLast? = some cr := by
  obtain ⟨q, hlength, hterm⟩ := h.terminates
  have hlast : window.getLast? = window[q]? := by
    rw [List.getLast?_eq_getElem?, hlength, Nat.add_sub_cancel]
  rw [hlast]
  refine hterm.resolve_left fun hlf => hnot ?_
  have hne : window ≠ [] := List.ne_nil_of_length_pos (by omega)
  have hle := window_le hwindow hne
  rw [window_getElem? hwindow (by omega)] at hlf
  rw [hlength, ← Nat.add_assoc]
  exact (Lines.startsAt_succ_iff (by omega)).mpr (.inl hlf)

theorem FirstBoundary.aligns {k a : Nat}
    (hwindow : object.drop start = window ++ object.drop (start + window.length))
    (h : FirstBoundary window k a) : AlignsAt object window start (start + k + 1) a := by
  constructor
  · intro hinside
    obtain ⟨hstarts, hbefore⟩ := boundary_startsAt hwindow h (.inl hinside)
    have hka := h.le_length.1
    exact ⟨by omega, hstarts, fun q hq hqa => hbefore q (by omega) hqa⟩
  · intro hnot
    have hedge : ¬ (a < window.length ∨ start + window.length = object.length) := fun hedge =>
      hnot (boundary_startsAt hwindow h hedge).1
    rw [not_or] at hedge
    obtain rfl : a = window.length := Nat.le_antisymm h.le_length.2 (by omega)
    exact ⟨rfl, hedge.2, h.getLast? hwindow hnot⟩

/-- Whether a line starts with the window, as the byte in front of it shows. -/
def lineStartsAtFront (object window : List UInt8) (start : Nat) : Bool :=
  sliceStartsOnLineBoundary (if start = 0 then none else object[start - 1]?) window.head?

theorem lineStartsAtFront_iff
    (hwindow : object.drop start = window ++ object.drop (start + window.length))
    (hne : window ≠ []) :
    lineStartsAtFront object window start = true ↔ StartsAt object start := by
  rcases Nat.eq_zero_or_pos start with rfl | hpos
  · exact iff_of_true rfl (Lines.startsAt_zero object)
  · rw [lineStartsAtFront, if_neg (Nat.pos_iff_ne_zero.mp hpos),
      sliceStartsOnLineBoundary_iff hpos hwindow hne]

/-- Where no line starts at the front, the window is searched from its first byte on. -/
theorem firstFullLineStart_finds {found : Option Nat}
    (hwindow : object.drop start = window ++ object.drop (start + window.length))
    (hne : window ≠ []) (hfront : lineStartsAtFront object window start = false)
    (h : firstFullLineStart window false = .ok found) :
    ¬ StartsAt object start ∧ FindsBoundary window 0 found := by
  rw [firstFullLineStart, if_neg Bool.false_ne_true] at h
  refine ⟨fun hstarts => ?_, boundaryFrom_ok rfl h⟩
  rw [(lineStartsAtFront_iff hwindow hne).mpr hstarts] at hfront
  cases hfront

theorem firstFullLineStart_aligns {a : Nat}
    (hwindow : object.drop start = window ++ object.drop (start + window.length))
    (hne : window ≠ [])
    (h : firstFullLineStart window (lineStartsAtFront object window start) = .ok (some a)) :
    AlignsAt object window start start a := by
  cases hfront : lineStartsAtFront object window start with
  | true =>
      rw [hfront, firstFullLineStart, if_pos rfl] at h
      cases h
      have hstarts := (lineStartsAtFront_iff hwindow hne).mp hfront
      exact ⟨fun _ => ⟨Nat.le_refl _, hstarts, fun q hq hqs => absurd hqs (by omega)⟩,
        fun hnot => absurd hstarts hnot⟩
  | false =>
      rw [hfront] at h
      obtain ⟨hstarts, hfound⟩ := firstFullLineStart_finds hwindow hne hfront h
      obtain ⟨hinside, hedge⟩ := FirstBoundary.aligns hwindow hfound
      exact ⟨fun hlt => FirstStart.of_succ hstarts (hinside hlt), hedge⟩

theorem firstFullLineStart_none {p : Nat}
    (hwindow : object.drop start = window ++ object.drop (start + window.length))
    (hne : window ≠ [])
    (h : firstFullLineStart window (lineStartsAtFront object window start) = .ok none)
    (hp : start ≤ p) (hpe : p < start + window.length) : ¬ StartsAt object p := by
  cases hfront : lineStartsAtFront object window start with
  | true =>
      rw [hfront, firstFullLineStart, if_pos rfl] at h
      cases h
  | false =>
      rw [hfront] at h
      obtain ⟨hstarts, hplain⟩ := firstFullLineStart_finds hwindow hne hfront h
      rcases Nat.eq_or_lt_of_le hp with rfl | hlt
      · exact hstarts
      · exact not_startsAt_of_plain hwindow (Nat.le_refl _) (fun j hj _ => hplain j hj) hlt
          (Nat.le_of_lt hpe)

/-- The midpoint is aligned to the first line start strictly behind it. -/
theorem midpointAlignment_aligns {m a : Nat}
    (hwindow : object.drop start = window ++ object.drop (start + window.length))
    (hm : m < window.length) (h : midpointAlignment window m = .ok (some a)) :
    AlignsAt object window start (start + m + 1) a := by
  -- a midpoint that is no 64-bit number aligns nothing
  have hm64 : m < u64Bound := by
    by_contra hbig
    rw [midpointAlignment, show tryUsize m = none from if_neg hbig] at h
    cases h
  rw [midpointAlignment_eq hm hm64] at h
  exact FirstBoundary.aligns hwindow (boundaryFrom_ok rfl h)

/-- On a window that memory can hold, the helpers return. -/
theorem alignment_returns (hwithin : window.length < u64Bound) (front : Bool) :
    (∃ found, firstFullLineStart window front = .ok found) ∧
      ∀ m < window.length, ∃ found, midpointAlignment window m = .ok found := by
  constructor
  · rw [firstFullLineStart]
    split
    · exact ⟨_, rfl⟩
    · obtain ⟨found, h, -⟩ := nextLineBoundary_spec hwithin (Nat.zero_le _)
      exact ⟨found, h⟩
  · intro m hm
    rw [midpointAlignment_eq hm (by omega)]
    obtain ⟨found, h, -⟩ := nextLineBoundary_spec hwithin (Nat.le_of_lt hm)
    exact ⟨found, h⟩

/-- In the window of the bytes from `start` up to `stop`, next to the byte in front of it,
the alignment helpers find line starts of the object: the first full line starts at the
first line start of the window, unless there is none, and the midpoint is aligned to the
first line start behind it.  The only result that may be no line start is the end of a
window that cuts the object behind a CR. -/
theorem alignment_finds_lineStarts {stop : Nat} (hstart : start < stop)
    (hstop : stop ≤ object.length) (hslice : window = (object.drop start).take (stop - start)) :
    (∀ a, firstFullLineStart window (lineStartsAtFront object window start) = .ok (some a) →
      AlignsAt object window start start a) ∧
    (firstFullLineStart window (lineStartsAtFront object window start) = .ok none →
      ∀ p, start ≤ p → p < stop → ¬ StartsAt object p) ∧
    (∀ m < window.length, ∀ a, midpointAlignment window m = .ok (some a) →
      AlignsAt object window start (start + m + 1) a) ∧
    (window.length < u64Bound →
      (∃ found, firstFullLineStart window (lineStartsAtFront object window start) =
        .ok found) ∧
      ∀ m < window.length, ∃ found, midpointAlignment window m = .ok found) := by
  have hwindow : object.drop start = window ++ object.drop (start + window.length) := by
    rw [hslice]
    exact window_of_slice object start (stop - start)
  have hlength : window.length = stop - start := by
    rw [hslice, List.length_take, List.length_drop]
    omega
  have hne : window ≠ [] := List.ne_nil_of_length_pos (by omega)
  refine ⟨fun a h => firstFullLineStart_aligns hwindow hne h, fun h p hp hpe => ?_,
    fun m hm a h => midpointAlignment_aligns hwindow hm h, fun hwithin => ?_⟩
  · exact firstFullLineStart_none hwindow hne h hp (by omega)
  · exact alignment_returns hwithin _

/-- A window that starts between the two bytes of a CRLF: the first line start is behind it. -/
theorem alignment_finds_lineStarts_between :
    2 < 4 ∧ 4 ≤ [0x61, cr, lf, 0x62].length ∧
      [lf, 0x62] = ([0x61, cr, lf, 0x62].drop 2).take (4 - 2) ∧
      FirstStart [0x61, cr, lf, 0x62] 2 3 :=
  ⟨by decide, by decide, rfl,
    ((alignment_finds_lineStarts (by decide : 2 < 4) (by decide : 4 ≤ [0x61, cr, lf, 0x62].length)
      rfl).1 1 (by decide)).1 (by decide)⟩

end Window

end Storageprims

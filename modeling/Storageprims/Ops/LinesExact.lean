import Storageprims.Ops.Alignment
import Storageprims.Ops.ServedLines

/-!
# Line operations are exact

Against a provider that serves one object, whatever a line operation returns is
cut out of the reference lines of that object: the first `n`, the last `n`, the
first `n` behind the midpoint, or their number.
-/

namespace Storageprims

open Interaction InspectionLedger
open Lines (Line split certain extent StartsAt Terminates)

variable {object : List UInt8} {stated : Prop} {within : Option Duration}
variable {ledger : InspectionLedger} {outer : Serving}
variable {provider : StorageProvider} {selection : GuardedReadSelection} {key : String}

/-- Whatever the served object answers, an `ok` result is in `ok`. -/
abbrev Yields {S α : Type} (object : List UInt8) (stated : Prop) (within : Option Duration)
    (script : Script Step Reply S Failure α) (ok : α → S → Serving → Prop) (state : S)
    (outer : Serving) : Prop :=
  Delivers object stated within False script ok state outer

/-- `a CRLF b CR c`. -/
def mixedObject : List UInt8 := [0x61, 0x0D, 0x0A, 0x62, 0x0D, 0x63]

theorem mixedObject_lt : mixedObject.length < u64Bound := by decide

/-! ## Head -/

/-- Lines parsed from the front of the object are its first lines, when there are
enough of them or the receipt proves the end. -/
theorem reports_of_front {length n : Nat} {receipt : SourceReceipt}
    {operation : StorageOperation} {selected : List ParsedLine} (strategy : ReadStrategy)
    (hrange : Satisfiable object 0 length)
    (hreceipt : DescribesWindow object stated 0 length receipt)
    (hparse : parseLinesUpTo provider.providerKind operation (object.take length) 0
      (provesEof receipt) n = .ok selected)
    (henough : selected.length = n ∨ provesEof receipt = true) :
    Reports object [] ((split object).take n)
      (buildLineResult selected object.length strategy) := by
  have hobject := hreceipt.object_lt
  have hback : provesEof receipt = true → object.drop length = [] := fun heof => by
    have hend := length_le_of_provesEof hrange hreceipt heof
    exact List.drop_eq_nil_iff.mpr (by omega)
  have hframed := parseLinesUpTo_window (by rw [List.length_take]; omega) hparse hback henough
  rw [List.take_append_drop] at hframed
  exact buildLineResult_reports strategy hframed

theorem yields_headWindow {n : Nat} (hbudget : ledger.budget.Admitted) (hne : object ≠ []) :
    Yields object stated within (headWindow provider selection object.length n)
      (fun result _ _ => Reports object [] ((split object).take n) result ∧
        result.strategy = .forwardStream) ledger outer := by
  have hlength := windowLength_pos hbudget (List.length_pos_of_ne_nil hne)
  refine delivers_read (Delivers.bind (delivers_guardedRangeBytes hlength False.elim
    False.elim False.elim False.elim) ?_)
  rintro ⟨bytes, receipt⟩ ledger₁ outer₁ ⟨hrange, hbytes, hreceipt, -⟩
  change bytes = (object.drop 0).take _ at hbytes
  rw [List.drop_zero] at hbytes
  refine delivers_orRaise False.elim fun _ _ => ?_
  refine delivers_ofExcept False.elim fun selected hparse => delivers_read ?_
  by_cases hshort : selected.length < n ∧ ¬ provesEof receipt
  · rw [if_pos hshort]
    exact delivers_raise id
  · rw [if_neg hshort]
    refine (delivers_reportLines False.elim).mono fun result _ _ hresult => ?_
    rw [hresult]
    rw [hbytes] at hparse
    refine ⟨reports_of_front _ hrange hreceipt hparse ?_, buildLineResult_strategy _ _ _⟩
    by_cases heof : provesEof receipt = true
    · exact .inr heof
    · have hobject := hreceipt.object_lt
      have hle := parseLinesUpTo_length_le (by rw [List.length_take]; omega) hparse
      left
      by_contra hdiff
      exact hshort ⟨by omega, heof⟩

theorem yields_headSelection {n : Nat} (hbudget : ledger.budget.Admitted) :
    Yields object stated within (headSelection provider selection n)
      (fun result _ _ => Reports object [] ((split object).take n) result ∧
        result.strategy = .forwardStream) ledger outer := by
  refine delivers_probed hbudget ?_ False.elim ?_
  · rintro rfl
    rw [Lines.split_nil, List.take_nil]
    exact ⟨emptyResult_reports [] _, rfl⟩
  intro length receipt ledger₂ outer₂ hpos hsame hrange hreceipt _ _
  refine delivers_ofExcept False.elim fun selected hparse => ?_
  by_cases henough : selected.length = n ∨ provesEof receipt
  · rw [if_pos henough]
    refine (delivers_reportLines False.elim).mono fun result _ _ hresult => ?_
    rw [hresult]
    exact ⟨reports_of_front _ hrange hreceipt hparse henough, buildLineResult_strategy _ _ _⟩
  · rw [if_neg henough]
    exact yields_headWindow (hsame ▸ hbudget) (List.ne_nil_of_length_pos hpos)

theorem yields_headLinesWithOptions {n : Nat} {options : LineOptions}
    {state : Option InspectionLedger} :
    Yields object stated within (headLinesWithOptions provider key n options)
      (fun result _ _ => Reports object [] ((split object).take n) result ∧
        result.strategy = .forwardStream) state outer := by
  refine delivers_lineBudget False.elim fun budget _ hlimits _ _ _ => ?_
  refine delivers_inspectSource False.elim fun selection ledger outer hbudget _ _ _ _ _ => ?_
  exact yields_headSelection (hbudget ▸ hlimits.admitted)

/-- Reports of more lines continue reports of fewer. -/
theorem Reports.take_prefix {n m : Nat} (hnm : n ≤ m) {first second : LineResult}
    (hfirst : Reports object [] ((split object).take n) first)
    (hsecond : Reports object [] ((split object).take m) second) :
    first.lines <+: second.lines := by
  have htake : (split object).take n <+: (split object).take m := by
    rw [← Nat.min_eq_left hnm, ← List.take_take]
    exact List.take_prefix _ _
  have hmap := htake.map Line.text
  rw [← hfirst.lines, ← hsecond.lines] at hmap
  exact (List.prefix_map_iff_of_injective text_bytes_injective).mp hmap

/-- `head_lines` returns the first `n` lines of the object, whichever of its two
reads settles them.  So the answer does not depend on the window sizes, and a
larger `n` continues it. -/
theorem headLinesWithOptions_exact {start : Serving} {n : Nat} {options : LineOptions}
    {transcript : Transcript} {result : LineResult}
    (hrun : Run (serves object within) start (headLinesWithOptions provider key n options)
      transcript (.ok result)) :
    Reports object [] ((split object).take n) result ∧
      (∀ (start' : Serving) (options' : LineOptions) (transcript' : Transcript)
        (other : LineResult),
        Run (serves object within) start' (headLinesWithOptions provider key n options')
          transcript' (.ok other) → other = result) ∧
      ∀ (start' : Serving) (m : Nat) (options' : LineOptions) (transcript' : Transcript)
        (other : LineResult), n ≤ m →
        Run (serves object within) start' (headLinesWithOptions provider key m options')
          transcript' (.ok other) → result.lines <+: other.lines := by
  obtain ⟨hreports, hstrategy⟩ := yields_headLinesWithOptions.of_run hrun
  refine ⟨hreports, ?_, ?_⟩
  · intro start' options' transcript' other hother
    obtain ⟨hother, hsame⟩ := yields_headLinesWithOptions.of_run hother
    exact hother.unique hreports (hsame.trans hstrategy.symm)
  · intro start' m options' transcript' other hnm hother
    exact hreports.take_prefix hnm (yields_headLinesWithOptions.of_run hother).1

/-- The first two lines of `a CRLF b CR c`. -/
theorem headLinesWithOptions_exact_mixed :
    Reports mixedObject [] [⟨[0x61], some .crLf⟩, ⟨[0x62], some .cr⟩]
      ⟨[⟨[0x61], rfl⟩, ⟨[0x62], rfl⟩], 0, 5, 6, .forwardStream, .mixed⟩ := by
  have hrun : Run (serves mixedObject none) ⟨fun _ => []⟩
      (headLinesWithOptions guardedProvider "log.txt" 2 .default) _
      (.ok ⟨[⟨[0x61], rfl⟩, ⟨[0x62], rfl⟩], 0, 5, 6, .forwardStream, .mixed⟩) :=
    run_reference mixedObject_lt (by simp) (by decide +kernel)
  exact (headLinesWithOptions_exact hrun).1

/-! ## Tail -/

/-- Aligned in the object's suffix, the window starts a line, or the alignment
has run to its end. -/
theorem tailAlignment_startsAt {start aligned : Nat} {previous : Option UInt8}
    (hobject : object.length < u64Bound) (hstart : start < object.length)
    (hprevious : 0 < start → previous = object[start - 1]?)
    (h : tailAlignment start previous (object.drop start) = .ok aligned) :
    aligned ≤ (object.drop start).length ∧ (StartsAt object (start + aligned) ∨
      (start ≠ 0 ∧ aligned = (object.drop start).length)) := by
  have hwithin : (object.drop start).length < u64Bound := by
    rw [List.length_drop]
    omega
  obtain ⟨cut, hcut, hle, -⟩ := tailAlignment_spec start previous hwithin
  obtain rfl : aligned = cut := Except.ok.inj (h.symm.trans hcut)
  refine ⟨hle, ?_⟩
  rw [tailAlignment] at h
  by_cases hzero : start = 0
  · rw [if_pos hzero] at h
    obtain rfl := Except.ok.inj h
    rw [hzero]
    exact .inl (Lines.startsAt_zero object)
  have hend : start + (object.drop start).length = object.length := by
    rw [List.length_drop]
    omega
  have hwindow : object.drop start =
      object.drop start ++ object.drop (start + (object.drop start).length) := by
    rw [hend, List.drop_length, List.append_nil]
  have hne : object.drop start ≠ [] := List.drop_eq_nil_iff.not.mpr (Nat.not_le.mpr hstart)
  have hfront : sliceStartsOnLineBoundary previous (object.drop start).head? =
      lineStartsAtFront object (object.drop start) start := by
    rw [lineStartsAtFront, if_neg hzero, hprevious (Nat.pos_of_ne_zero hzero)]
  rw [if_neg hzero, hfront] at h
  obtain ⟨found, hscan, h⟩ := except_bind_ok h
  obtain rfl := Except.ok.inj h
  cases found with
  | none => exact .inr ⟨hzero, rfl⟩
  | some a =>
      -- a window that ends with the object leaves no position undecided
      refine .inl (not_not.mp fun hnot => ?_)
      exact ((firstFullLineStart_aligns hwindow hne hscan).2 hnot).2.1 hend

/-- What the tail operation reports: the last `n` lines or, where a total size was left
open, the last `n` of the lines that no later byte can change. -/
def TailSample (object : List UInt8) (stated : Prop) (n : Nat) (result : LineResult) : Prop :=
  Reports object ((split object).rdrop n) ((split object).rtake n) result ∨
  (¬ stated ∧ Reports object ((certain (split object)).rdrop n)
    ((certain (split object)).rtake n) result)

/-- From a line start on, the framable lines are those of the rest. -/
theorem framable_append {p : Nat} (eof : Bool) (hstarts : StartsAt object p)
    (hrest : object.drop p ≠ [] ∨ p = 0) :
    framable eof object = split (object.take p) ++ framable eof (object.drop p) := by
  have hsplit : split object = split (object.take p) ++ split (object.drop p) := by
    conv_lhs => rw [← List.take_append_drop p object]
    exact Lines.split_append hstarts
  rcases hrest with hne | rfl
  · cases eof with
    | true => exact hsplit
    | false =>
        have hlines : split (object.drop p) ≠ [] := Lines.split_eq_nil_iff.not.mpr hne
        show certain (split object) = _ ++ certain (split (object.drop p))
        rw [hsplit, Lines.certain_append _ hlines]
  · rw [List.take_zero, List.drop_zero, Lines.split_nil, List.nil_append]

/-- From a line start on, the last lines are the last lines of the object. -/
theorem reports_of_back {p n : Nat} {eof : Bool} {operation : StorageOperation}
    {selected : List ParsedLine} (strategy : ReadStrategy) (hn : 1 ≤ n)
    (hobject : object.length < u64Bound) (hp : p ≤ object.length) (hstarts : StartsAt object p)
    (hparse : parseTailLinesBounded provider.providerKind operation (object.drop p) p eof n =
      .ok selected)
    (henough : selected.length = n ∨ p = 0) :
    Reports object ((framable eof object).rdrop n) ((framable eof object).rtake n)
      (buildLineResult selected object.length strategy) := by
  obtain ⟨front, hfront, hframe⟩ := parseTailLinesBounded_ok hn
    (by rw [List.length_drop]; omega) hparse
  have hlength : selected.length = ((framable eof (object.drop p)).rtake n).length :=
    frameAll_length hframe
  have hrest : object.drop p ≠ [] ∨ p = 0 := by
    refine henough.imp_left fun hfull hnil => ?_
    have hnone : framable eof ([] : List UInt8) = [] := by cases eof <;> rfl
    rw [hnil, hnone, List.rtake_nil, List.length_nil] at hlength
    omega
  have hsplit := framable_append eof hstarts hrest
  have hextent : extent (split (object.take p)) = p := by
    rw [Lines.extent_split, List.length_take, Nat.min_eq_left hp]
  -- the last lines lie behind `p`: there are `n` of them there, or `p` is the front
  have hlast : (framable eof object).rtake n = (framable eof (object.drop p)).rtake n := by
    rcases henough with hfull | rfl
    · rw [hfull, List.rtake, List.length_drop] at hlength
      rw [hsplit, List.rtake, List.rtake, List.length_append,
        show (split (object.take p)).length + (framable eof (object.drop p)).length - n =
          (split (object.take p)).length + ((framable eof (object.drop p)).length - n) by omega,
        List.drop_append, List.drop_eq_nil_of_le (by omega), List.nil_append]
      congr 1
      omega
    · rw [List.drop_zero]
  have hbefore : (framable eof object).rdrop n = split (object.take p) ++ front := by
    have hwhole : (framable eof object).rdrop n ++ (framable eof object).rtake n =
        (split (object.take p) ++ front) ++ (framable eof object).rtake n := by
      rw [List.append_assoc, hlast, ← hfront, ← hsplit, ← hlast]
      exact List.take_append_drop _ _
    exact List.append_cancel_right hwhole
  have hwhole : frameAll provider.providerKind operation (extent ((framable eof object).rdrop n))
      ((framable eof object).rtake n) = .ok selected := by
    rw [hbefore, hlast, Lines.extent_append, hextent]
    exact hframe
  exact buildLineResult_reports strategy hwhole

/-- The suffix from `start` on, cut where it is aligned, gives the last lines of the
object when there are enough of them or nothing lies in front. -/
theorem reports_of_suffix {start aligned n : Nat} {eof : Bool} {previous : Option UInt8}
    {operation : StorageOperation} {selected : List ParsedLine} (strategy : ReadStrategy)
    (hn : 1 ≤ n) (hobject : object.length < u64Bound) (hstart : start < object.length)
    (hprevious : 0 < start → previous = object[start - 1]?)
    (haligned : tailAlignment start previous (object.drop start) = .ok aligned)
    (hparse : parseTailLinesBounded provider.providerKind operation
      ((object.drop start).drop aligned) (start + aligned) eof n = .ok selected)
    (henough : ¬ (selected.length < n ∧ start ≠ 0)) :
    Reports object ((framable eof object).rdrop n) ((framable eof object).rtake n)
      (buildLineResult selected object.length strategy) := by
  obtain ⟨hinside, halign⟩ := tailAlignment_startsAt hobject hstart hprevious haligned
  rw [List.drop_drop] at hparse
  rw [List.length_drop] at hinside halign
  have hlen := parseTailLinesBounded_length hn (by rw [List.length_drop]; omega) hparse
  rcases halign with hstarts | ⟨hnonzero, hend⟩
  · refine reports_of_back _ hn hobject (by omega) hstarts hparse ?_
    by_cases hzero : start = 0
    · right
      rw [tailAlignment, if_pos hzero] at haligned
      rw [← Except.ok.inj haligned, hzero]
    · left
      by_contra hdiff
      exact henough ⟨by omega, hzero⟩
  · -- nothing was framed, which is too few lines
    have hnone : framable eof ([] : List UInt8) = [] := by cases eof <;> rfl
    rw [hend, List.drop_eq_nil_of_le (by omega), hnone, List.length_nil, Nat.min_zero] at hlen
    exact absurd ⟨by omega, hnonzero⟩ henough

theorem yields_tailWindow {n : Nat} {forceStream : Bool} (hbudget : ledger.budget.Admitted)
    (hne : object ≠ []) (hn : 1 ≤ n) :
    Yields object stated within (tailWindow provider selection object.length n forceStream)
      (fun result _ _ => TailSample object stated n result) ledger outer := by
  have hlength := windowLength_pos hbudget (List.length_pos_of_ne_nil hne)
  have hle := windowLength_le object.length ledger.budget
  refine delivers_read (delivers_ofExcept False.elim fun start hok => ?_)
  obtain ⟨chosen, hchosen, hinside, hsuffix⟩ := tailStart_ok hle forceStream
  obtain rfl : start = chosen := Except.ok.inj (hok.symm.trans hchosen)
  refine Delivers.bind (delivers_previousByteOf (by omega) False.elim) ?_
  rintro previous ledger₂ outer₂ ⟨hbudget₂, hprevious, -⟩
  refine Delivers.bind (delivers_guardedRangeBytes hlength False.elim
    False.elim False.elim False.elim) ?_
  rintro ⟨bytes, receipt⟩ ledger₃ outer₃ ⟨hrange, hbytes, hreceipt, -⟩
  change bytes = (object.drop start).take _ at hbytes
  refine delivers_ofExcept False.elim fun aligned haligned => ?_
  refine delivers_ofExcept False.elim fun framed hframed => ?_
  obtain ⟨-, rfl⟩ := sliceFrom_ok hframed
  refine delivers_orRaise False.elim fun _ _ => delivers_read ?_
  by_cases hunproven : forceStream ∧ ¬ provesEof receipt
  · rw [if_pos hunproven]
    exact delivers_raise id
  rw [if_neg hunproven]
  -- either way the window is the whole suffix of the object from `start` on
  have hend : object.length ≤ start + windowLength object.length ledger.budget := by
    cases forceStream with
    | false => exact (hsuffix rfl).ge
    | true =>
        refine length_le_of_provesEof hrange hreceipt ?_
        by_contra hnot
        exact hunproven ⟨rfl, hnot⟩
  have hwhole : bytes = object.drop start := by
    rw [hbytes]
    exact List.take_of_length_le (by rw [List.length_drop]; omega)
  refine delivers_ofExcept False.elim fun base hbase => ?_
  obtain rfl := addU64_ok hbase
  refine delivers_ofExcept False.elim fun selected hparse => ?_
  by_cases hshort : selected.length < n ∧ start ≠ 0
  · rw [if_pos hshort]
    exact delivers_raise id
  rw [if_neg hshort]
  refine (delivers_reportLines False.elim).mono fun result _ _ hresult => ?_
  rw [hresult]
  simp only [hwhole] at haligned
  rw [hwhole] at hparse
  have hreports := reports_of_suffix (if forceStream then .forwardStream else .rangeBackward) hn
    hreceipt.object_lt (by omega) hprevious haligned hparse hshort
  cases heof : provesEof receipt with
  | true =>
      rw [heof] at hreports
      exact .inl hreports
  | false =>
      -- only a receipt without its total size fails to prove the end here
      rw [heof] at hreports
      refine .inr ⟨fun hs => ?_, hreports⟩
      rw [(provesEof_iff hrange hreceipt (.inl hs)).mpr hend] at heof
      cases heof

theorem yields_tailSelection {n : Nat} {forceStream : Bool} (hbudget : ledger.budget.Admitted)
    (hn : 1 ≤ n) :
    Yields object stated within (tailSelection provider selection n forceStream)
      (fun result _ _ => TailSample object stated n result) ledger outer := by
  refine delivers_probed hbudget ?_ False.elim ?_
  · rintro rfl
    left
    rw [Lines.split_nil, List.rtake_nil]
    exact emptyResult_reports _ _
  · intro length receipt ledger₂ outer₂ hpos hsame _ _ _ _
    exact yields_tailWindow (hsame ▸ hbudget) (List.ne_nil_of_length_pos hpos) hn

theorem yields_tailLinesWithOptions {n : Nat} {options : LineOptions}
    {state : Option InspectionLedger} :
    Yields object stated within (tailLinesWithOptions provider key n options)
      (fun result _ _ => TailSample object stated n result) state outer := by
  rw [tailLinesWithOptions]
  by_cases hcompressed : isCompressedKey key ∧ ¬ options.forceStream
  · rw [if_pos hcompressed]
    exact delivers_raise id
  rw [if_neg hcompressed]
  refine delivers_lineBudget False.elim fun budget _ hlimits hn _ _ => ?_
  refine delivers_inspectSource False.elim fun selection ledger outer hbudget _ _ _ _ _ => ?_
  exact yields_tailSelection (hbudget ▸ hlimits.admitted) hn

/-- `tail_lines` returns the last `n` lines of the object, with the bytes they
occupy and the style of their terminators. -/
theorem tailLinesWithOptions_exact {start : Serving} {n : Nat} {options : LineOptions}
    {transcript : Transcript} {result : LineResult}
    (hrun : Run (serves object within) start (tailLinesWithOptions provider key n options)
      transcript (.ok result)) :
    Reports object ((split object).rdrop n) ((split object).rtake n) result :=
  (yields_tailLinesWithOptions.of_run hrun).resolve_right fun hopen => hopen.1 trivial

/-- The last two lines of `a CRLF b CR c`. -/
theorem tailLinesWithOptions_exact_mixed :
    Reports mixedObject [⟨[0x61], some .crLf⟩] [⟨[0x62], some .cr⟩, ⟨[0x63], none⟩]
      ⟨[⟨[0x62], rfl⟩, ⟨[0x63], rfl⟩], 3, 6, 6, .rangeBackward, .cr⟩ := by
  have hrun : Run (serves mixedObject none) ⟨fun _ => []⟩
      (tailLinesWithOptions guardedProvider "log.txt" 2 .default) _
      (.ok ⟨[⟨[0x62], rfl⟩, ⟨[0x63], rfl⟩], 3, 6, 6, .rangeBackward, .cr⟩) :=
    run_reference mixedObject_lt (by simp) (by decide +kernel)
  exact tailLinesWithOptions_exact hrun

/-! ## Midpoint -/

/-- The lines a midpoint sample is cut from, as the operation takes them: those
that start behind the midpoint, or, when no terminator follows it, all lines. -/
def MidSample (object : List UInt8) (n : Nat) (result : LineResult) : Prop :=
  ((∃ j, object.length / 2 ≤ j ∧ Terminates object j) ∧
    Reports object (Lines.linesUpTo object (object.length / 2))
      ((Lines.linesAfter object (object.length / 2)).take n) result) ∨
  ((∀ j, object.length / 2 ≤ j → ¬ Terminates object j) ∧
    Reports object [] ((split object).take n) result)

section Sample

variable {bytes : List UInt8} {start a n : Nat} {eof : Bool} {operation : StorageOperation}
variable {selected : List ParsedLine}

/-- Behind the first boundary after the midpoint, a window gives the lines that
start strictly behind the midpoint. -/
theorem midSample_of_boundary {k : Nat} (strategy : ReadStrategy) (hn : 1 ≤ n)
    (hobject : object.length < u64Bound) (hmid : start + k = object.length / 2)
    (hwindow : object.drop start = bytes ++ object.drop (start + bytes.length))
    (heof : eof = true → start + bytes.length = object.length)
    (hfirst : FirstBoundary bytes k a)
    (hparse : parseLinesUpTo provider.providerKind operation (bytes.drop a) (start + a) eof n =
      .ok selected)
    (henough : ¬ (selected.length < n ∧ ¬ eof)) :
    MidSample object n (buildLineResult selected object.length strategy) := by
  obtain ⟨hka, ha⟩ := hfirst.le_length
  have hpos : 0 < bytes.length := by omega
  have hle := window_le hwindow (List.ne_nil_of_length_pos hpos)
  have hbase : start + a + (bytes.drop a).length < u64Bound := by
    rw [List.length_drop]
    omega
  have hlen := parseLinesUpTo_length_le hbase hparse
  have hfull : selected.length = n ∨ eof = true := by
    by_contra hnone
    rw [not_or] at hnone
    exact henough ⟨by omega, hnone.2⟩
  -- a boundary at the very edge of the window frames nothing, so the window ends the object
  have hedge : a < bytes.length ∨ start + bytes.length = object.length := by
    rcases hfull with hfull | hend
    · left
      by_contra hge
      have hnil : framable eof ([] : List UInt8) = [] := by cases eof <;> rfl
      rw [parseLinesUpTo_eq _ _ hbase, List.drop_eq_nil_of_le (by omega), hnil,
        List.take_nil] at hparse
      have hzero : selected.length = 0 := frameAll_length hparse
      cases eof with
      | true => exact hge (by have := heof rfl; omega)
      | false => exact henough ⟨by omega, Bool.false_ne_true⟩
    · exact .inr (heof hend)
  obtain ⟨hstarts, hbetween⟩ := boundary_startsAt hwindow hfirst hedge
  obtain ⟨hupTo, hafter⟩ := Lines.locate_after (m := object.length / 2) (by omega) (by omega)
    hstarts (fun p hlow hhigh => hbetween p (by omega) hhigh)
  refine .inl ⟨?_, ?_⟩
  · obtain ⟨q, rfl, hterm⟩ := hfirst.terminates
    exact ⟨start + q, by omega, (terminates_window hwindow (by omega)).mp hterm⟩
  · rw [hupTo, hafter]
    suffices hframe : frameAll provider.providerKind operation
        (extent (split (object.take (start + a)))) ((split (object.drop (start + a))).take n) =
          .ok selected from buildLineResult_reports strategy hframe
    -- the lines in front of the boundary fill the object up to it
    have hextent : extent (split (object.take (start + a))) = start + a := by
      rw [Lines.extent_split, List.length_take, Nat.min_eq_left (by omega)]
    have hback : object.drop (start + a) = bytes.drop a ++ object.drop (start + bytes.length) := by
      rw [← List.drop_drop, hwindow, List.drop_append_of_le_length ha]
    rw [hextent, hback]
    refine parseLinesUpTo_window hbase hparse (fun hend => ?_) hfull
    exact List.drop_eq_nil_iff.mpr (by have := heof hend; omega)

/-- Cut where it is aligned, a window around the midpoint gives the sample when there
are enough lines or it reaches the end of the object, which it does as a whole only. -/
theorem midSample_of_window {k : Nat} (strategy : ReadStrategy) (hn : 1 ≤ n)
    (hobject : object.length < u64Bound) (hmid : start + k = object.length / 2)
    (hinside : k < bytes.length)
    (hwindow : object.drop start = bytes ++ object.drop (start + bytes.length))
    (heof : eof = true → start + bytes.length = object.length) (hwhole : eof = true → start = 0)
    (haligned : midAlignment bytes k start eof = .ok a)
    (hparse : parseLinesUpTo provider.providerKind operation (bytes.drop a) (start + a) eof n =
      .ok selected)
    (henough : ¬ (selected.length < n ∧ ¬ eof)) :
    MidSample object n (buildLineResult selected object.length strategy) := by
  have hle := window_le hwindow (List.ne_nil_of_length_pos (by omega))
  obtain ⟨found, hscan, hfound⟩ := nextLineBoundary_spec (by omega : bytes.length < u64Bound)
    (Nat.le_of_lt hinside)
  rw [midAlignment, midpointAlignment_eq hinside (by omega), hscan] at haligned
  obtain rfl := Except.ok.inj haligned
  cases found with
  | some a =>
      rw [Option.getD_some] at hparse
      exact midSample_of_boundary _ hn hobject hmid hwindow heof hfound hparse henough
  | none =>
      have hnone : ∀ j, k ≤ j → ¬ Lines.Terminates bytes j := hfound
      rw [Option.getD_none] at hparse
      cases eof with
      | true =>
          -- the window is the whole object, without a terminator from the midpoint on
          obtain rfl := hwhole rfl
          have hend := heof rfl
          have hall : object = bytes := by
            rw [List.drop_zero, List.drop_eq_nil_of_le hend.ge, List.append_nil] at hwindow
            exact hwindow
          rw [if_pos ⟨rfl, rfl⟩, List.drop_zero, ← hall,
            parseLinesUpTo_eq _ _ (by omega)] at hparse
          rw [← hall] at hnone
          exact .inr ⟨fun j hj => hnone j (by omega), buildLineResult_reports _ hparse⟩
      | false =>
          -- nothing is framed, which is too few lines
          have hnil : framable false ([] : List UInt8) = [] := rfl
          rw [if_neg fun h => Bool.false_ne_true h.1, List.drop_length,
            parseLinesUpTo_eq _ _ (by rw [List.length_nil]; omega), hnil, List.take_nil] at hparse
          have hzero : selected.length = 0 := frameAll_length hparse
          exact absurd ⟨by omega, Bool.false_ne_true⟩ henough

end Sample

theorem yields_midWindow {n : Nat} {forceStream : Bool}
    (hpending : ledger.budget.pendingLineBytes = 1024 * 1024)
    (hpayload : ledger.budget.payloadBytes = 8 * 1024 * 1024)
    (hne : object ≠ []) (hn : 1 ≤ n) :
    Yields object stated within (midWindow provider selection object.length n forceStream)
      (fun result _ _ => MidSample object n result) ledger outer := by
  have hpos := List.length_pos_of_ne_nil hne
  refine delivers_read ?_
  dsimp only
  generalize hlength : windowLength object.length ledger.budget = length
  rw [windowLength, hpending, hpayload] at hlength
  have hle : length ≤ object.length := by omega
  generalize hstart : (if forceStream = true then 0
    else object.length / 2 - length / 2) = start
  obtain ⟨hstartle, hfits⟩ := midStart_inside hle hstart
  refine delivers_ofExcept False.elim fun requested hok => ?_
  obtain rfl := Except.ok.inj ((midRequested_ok hle hstart).symm.trans hok)
  refine Delivers.bind (delivers_guardedRangeBytes (by omega) False.elim
    False.elim False.elim False.elim) ?_
  rintro ⟨bytes, receipt⟩ ledger₂ outer₂ ⟨hrange, hbytes, hreceipt, -⟩
  change bytes = (object.drop start).take length at hbytes
  refine delivers_read ?_
  by_cases hunproven : forceStream ∧ ¬ provesEof receipt
  · rw [if_pos hunproven]
    exact delivers_raise id
  rw [if_neg hunproven]
  have hobject := hreceipt.object_lt
  have heof := length_le_of_provesEof hrange hreceipt
  have hbyteslen : bytes.length = length := by
    rw [hbytes, List.length_take, List.length_drop]
    omega
  have hwindow : object.drop start = bytes ++ object.drop (start + bytes.length) := by
    rw [hbytes]
    exact window_of_slice object start length
  refine delivers_ofExcept False.elim fun k hok => ?_
  obtain rfl := Except.ok.inj ((midpointInSlice_ok hle hstart).symm.trans hok)
  -- a streamed window holds the midpoint because it has reached the end
  have hshape : object.length / 2 - start < length ∧ (provesEof receipt = true → start = 0) := by
    cases forceStream with
    | true =>
        have hend : provesEof receipt = true := by
          by_contra hnot
          exact hunproven ⟨rfl, hnot⟩
        have hreach := heof hend
        rw [if_pos rfl] at hstart
        exact ⟨by omega, fun _ => hstart.symm⟩
    | false =>
        rw [if_neg Bool.false_ne_true] at hstart
        refine ⟨by omega, fun hend => ?_⟩
        have hreach := heof hend
        omega
  refine delivers_ofExcept False.elim fun aligned haligned => ?_
  refine delivers_ofExcept False.elim fun framed hframed => ?_
  obtain ⟨-, rfl⟩ := sliceFrom_ok hframed
  refine delivers_orRaise False.elim fun _ _ => ?_
  refine delivers_ofExcept False.elim fun base hbase => ?_
  obtain rfl := addU64_ok hbase
  refine delivers_ofExcept False.elim fun selected hparse => ?_
  by_cases hshort : selected.length < n ∧ ¬ provesEof receipt
  · rw [if_pos hshort]
    exact delivers_raise id
  rw [if_neg hshort]
  refine (delivers_reportLines False.elim).mono fun result _ _ hresult => ?_
  rw [hresult]
  exact midSample_of_window _ hn hreceipt.object_lt (by omega) (by omega) hwindow
    (fun hend => by have := heof hend; omega) hshape.2 haligned hparse hshort

theorem yields_midSelection {n : Nat} {forceStream : Bool} (hbudget : ledger.budget.Admitted)
    (hpending : ledger.budget.pendingLineBytes = 1024 * 1024)
    (hpayload : ledger.budget.payloadBytes = 8 * 1024 * 1024) (hn : 1 ≤ n) :
    Yields object stated within (midSelection provider selection n forceStream)
      (fun result _ _ => MidSample object n result) ledger outer := by
  refine delivers_probed hbudget ?_ False.elim ?_
  · rintro rfl
    refine .inr ⟨fun j _ hterm => absurd hterm.lt_length (Nat.not_lt_zero j), ?_⟩
    rw [Lines.split_nil, List.take_nil]
    exact emptyResult_reports _ _
  · intro length receipt ledger₂ outer₂ hpos hsame _ _ _ _
    exact yields_midWindow (hsame ▸ hpending) (hsame ▸ hpayload) (List.ne_nil_of_length_pos hpos)
      hn

theorem yields_midLinesWithOptions {n : Nat} {options : LineOptions}
    {state : Option InspectionLedger} :
    Yields object stated within (midLinesWithOptions provider key n options)
      (fun result _ _ => 1 ≤ n ∧ MidSample object n result) state outer := by
  rw [midLinesWithOptions]
  by_cases hcompressed : isCompressedKey key ∧ ¬ options.forceStream
  · rw [if_pos hcompressed]
    exact delivers_raise id
  rw [if_neg hcompressed]
  refine delivers_lineBudget False.elim fun budget _ hlimits hn _ _ => ?_
  refine delivers_inspectSource False.elim fun selection ledger outer hbudget _ _ _ _ _ => ?_
  exact (yields_midSelection (hbudget ▸ hlimits.admitted) (hbudget ▸ hlimits.pending)
    (hbudget ▸ hlimits.payload) hn).mono fun _ _ _ hsample => ⟨hn, hsample⟩

/-- The sample the midpoint operation is for: the first `n` lines that start
strictly behind the midpoint or, without a terminator from the midpoint on, the
final unterminated line, which holds it. -/
def MidpointExact (object : List UInt8) (n : Nat) (result : LineResult) : Prop :=
  ((∃ j, object.length / 2 ≤ j ∧ Terminates object j) ∧
    Reports object (Lines.linesUpTo object (object.length / 2))
      ((Lines.linesAfter object (object.length / 2)).take n) result) ∨
  ((∀ j, object.length / 2 ≤ j → ¬ Terminates object j) ∧
    ∃ before line, split object = before ++ [line] ∧ line.ending = none ∧
      extent before ≤ object.length / 2 ∧ Reports object before [line] result)

/-- A terminator follows the midpoint, or the object has none at all. -/
def Sampleable (object : List UInt8) : Prop :=
  (∃ j, object.length / 2 ≤ j ∧ Terminates object j) ∨ ∀ j, ¬ Terminates object j

/-- What the operation samples is what it is for, exactly on sampleable objects. -/
theorem midpointExact_iff {n : Nat} {result : LineResult} (hne : object ≠ []) (hn : 1 ≤ n)
    (hsample : MidSample object n result) :
    MidpointExact object n result ↔ Sampleable object := by
  have hpos := List.length_pos_of_ne_nil hne
  rcases hsample with ⟨hterm, hreports⟩ | ⟨hnone, hreports⟩
  · exact ⟨fun _ => .inl hterm, fun _ => .inl ⟨hterm, hreports⟩⟩
  obtain ⟨before, line, hsplit, hending, hextent⟩ :=
    Lines.exists_last_of_no_terminator (by omega : object.length / 2 < object.length) hnone
  constructor
  · rintro (⟨⟨j, hj, hterm⟩, -⟩ | ⟨-, before', line', hsplit', -, -, hreports'⟩)
    · exact absurd hterm (hnone j hj)
    · -- The reported line starts at the front, so no line comes before it.
      have hselected : (split object).take n ≠ [] := by
        rw [Ne, List.take_eq_nil_iff, Lines.split_eq_nil_iff, not_or]
        exact ⟨by omega, hne⟩
      have hoffsets := hreports.offsets.symm.trans hreports'.offsets
      rw [if_neg hselected, if_neg (List.cons_ne_nil _ _), Prod.mk.injEq,
        Lines.extent_nil] at hoffsets
      have hbefore : before' = [] := by
        by_contra hcons
        obtain ⟨front, rest, rfl⟩ := List.exists_cons_of_ne_nil hcons
        have hmem : front ∈ split object := by rw [hsplit']; simp
        have hsize : 0 < front.size := Lines.size_pos_of_mem hmem
        rw [Lines.extent_cons] at hoffsets
        omega
      rw [hsplit, hbefore] at hsplit'
      obtain ⟨rfl, -⟩ := List.append_inj' hsplit' rfl
      exact .inr ((Lines.split_single_iff hne).mp ⟨line, hsplit, hending⟩)
  · rintro (⟨j, hj, hterm⟩ | hplain)
    · exact absurd hterm (hnone j hj)
    · obtain ⟨only, honly, -⟩ := (Lines.split_single_iff hne).mpr hplain
      have hnil : before = [] := by
        have hlength := congrArg List.length (hsplit.symm.trans honly)
        rw [List.length_append] at hlength
        exact List.length_eq_zero_iff.mp (by simpa using hlength)
      subst hnil
      rw [hsplit, List.take_of_length_le (by simpa using hn)] at hreports
      exact .inr ⟨hnone, [], line, hsplit, hending, hextent, hreports⟩

/-- `mid_lines` samples at the midpoint exactly when the object has a terminator
from the midpoint on or none at all. -/
theorem midLinesWithOptions_exact_iff {start : Serving} {n : Nat} {options : LineOptions}
    {transcript : Transcript} {result : LineResult} (hne : object ≠ [])
    (hrun : Run (serves object within) start (midLinesWithOptions provider key n options)
      transcript (.ok result)) :
    MidpointExact object n result ↔ Sampleable object := by
  obtain ⟨hn, hsample⟩ := yields_midLinesWithOptions.of_run hrun
  exact midpointExact_iff hne hn hsample

/-- Behind the midpoint of `a CRLF b CR c` starts the line `c`. -/
theorem midLinesWithOptions_exact_iff_mixed :
    MidpointExact mixedObject 2 ⟨[⟨[0x63], rfl⟩], 5, 6, 6, .rangeMidpoint, .unknown⟩ ↔
      Sampleable mixedObject := by
  have hrun : Run (serves mixedObject none) ⟨fun _ => []⟩
      (midLinesWithOptions guardedProvider "log.txt" 2 .default) _
      (.ok ⟨[⟨[0x63], rfl⟩], 5, 6, 6, .rangeMidpoint, .unknown⟩) :=
    run_reference mixedObject_lt (by simp) (by decide +kernel)
  exact midLinesWithOptions_exact_iff (by decide) hrun

/-- `aa LF bbbbbbbb`: the only terminator lies in front of the midpoint. -/
def frontedObject : List UInt8 :=
  [0x61, 0x61, 0x0A, 0x62, 0x62, 0x62, 0x62, 0x62, 0x62, 0x62, 0x62]

/-- The midpoint sample of `aa LF bbbbbbbb` is its first line instead of its last. -/
theorem midLinesWithOptions_samples_front :
    ∃ transcript, Run (serves frontedObject none) ⟨fun _ => []⟩
        (midLinesWithOptions guardedProvider "log.txt" 1 .default) transcript
        (.ok ⟨[⟨[0x61, 0x61], rfl⟩], 0, 3, 11, .rangeMidpoint, .lf⟩) ∧
      ¬ MidpointExact frontedObject 1
        ⟨[⟨[0x61, 0x61], rfl⟩], 0, 3, 11, .rangeMidpoint, .lf⟩ := by
  have hrun : Run (serves frontedObject none) ⟨fun _ => []⟩
      (midLinesWithOptions guardedProvider "log.txt" 1 .default) _
      (.ok ⟨[⟨[0x61, 0x61], rfl⟩], 0, 3, 11, .rangeMidpoint, .lf⟩) :=
    run_reference (by decide) (by simp) (by decide +kernel)
  refine ⟨_, hrun, ?_⟩
  rw [midpointExact_iff (by decide) Nat.one_pos
    (yields_midLinesWithOptions.of_run hrun).2]
  rintro (⟨j, hj, hterm⟩ | hnone)
  · have hlate : ∀ j < 11, 5 ≤ j → ¬ Terminates frontedObject j := by decide
    exact hlate j hterm.lt_length hj hterm
  · exact hnone 2 (.inl rfl)

/-! ## Count -/

/-- The reference lines are as many as counted, and each of them is a text without a
zero byte. -/
structure Counts (object : List UInt8) (count : Nat) : Prop where
  lines : count = (split object).length
  texts : ∀ line ∈ split object, Utf8.Valid line.text
  noNul : 0 ∉ object

theorem counts_nil : Counts [] 0 :=
  ⟨rfl, fun _ hline => absurd hline List.not_mem_nil, List.not_mem_nil⟩

theorem noNul_of_rejectBinaryPrefix {bytes : List UInt8} {kind : ProviderKind}
    {operation : StorageOperation} (h : rejectBinaryPrefix bytes kind operation = .ok ()) :
    0 ∉ bytes := by
  intro hmem
  rw [rejectBinaryPrefix, if_pos (.inr (List.contains_iff_mem.mpr hmem))] at h
  cases h

theorem yields_countSelection (hbudget : ledger.budget.Admitted) :
    Yields object stated within (countSelection provider selection)
      (fun count _ _ => Counts object count) ledger outer := by
  refine (delivers_selectedSize False.elim False.elim).bind ?_
  rintro size ledger₁ outer₁ ⟨rfl, rfl⟩
  refine delivers_read ?_
  by_cases hzero : object.length = 0
  · obtain rfl : object = [] := List.length_eq_zero_iff.mp hzero
    rw [if_pos hzero]
    exact delivers_pure counts_nil
  rw [if_neg hzero]
  by_cases hpayload : object.length > ledger.budget.payloadBytes
  · rw [if_pos hpayload]
    exact delivers_raise id
  rw [if_neg hpayload]
  by_cases hpending : object.length > ledger.budget.pendingLineBytes
  · rw [if_pos hpending]
    exact delivers_raise id
  rw [if_neg hpending]
  refine Delivers.bind (delivers_lineProbe (by exact hbudget) (Nat.pos_of_ne_zero hzero)
    False.elim) ?_
  rintro probe ledger₂ outer₂ -
  refine Delivers.bind (delivers_guardedRangeBytes (by omega) False.elim
    False.elim False.elim False.elim) ?_
  rintro ⟨bytes, receipt⟩ ledger₃ outer₃ ⟨-, hbytes, -, -⟩
  change bytes = (object.drop 0).take object.length at hbytes
  rw [List.drop_zero, List.take_length] at hbytes
  refine delivers_read ?_
  split
  · exact delivers_raise id
  refine delivers_orRaise False.elim fun _ haccepted => ?_
  refine Script.ensures_ofExcept trivial (fun count hcount => ?_) fun _ _ => False.elim
  rw [hbytes] at haccepted hcount
  have hcap : ledger.budget.payloadBytes ≤ 64 * 1024 * 1024 := hbudget.payload_le
  have hbound : u64Bound = 2 ^ 64 := rfl
  obtain ⟨hlines, htexts⟩ := countLinesBounded_ok (by omega) hcount
  exact ⟨hlines, htexts, noNul_of_rejectBinaryPrefix haccepted⟩

theorem yields_countLines {state : Option InspectionLedger} :
    Yields object stated within (countLines provider key) (fun count _ _ => Counts object count)
      state outer :=
  delivers_inspectSource False.elim fun _ _ _ hbudget hadmitted _ _ _ _ =>
    yields_countSelection (hbudget ▸ hadmitted)

/-- `count_lines` counts the lines that `head_lines` and `tail_lines` report: when they
are asked for as many lines, or more, they return exactly that number.  It counts
nothing but texts without a zero byte. -/
theorem countLines_exact {start : Serving} {transcript : Transcript} {count : Nat}
    (hrun : Run (serves object within) start (countLines provider key) transcript (.ok count)) :
    count = (split object).length ∧
    (∀ (provider : StorageProvider) key n options start transcript result, count ≤ n →
      (Run (serves object within) start (headLinesWithOptions provider key n options) transcript
          (.ok result) ∨
        Run (serves object within) start (tailLinesWithOptions provider key n options) transcript
          (.ok result)) →
      result.lines.length = count) ∧
    (∀ line ∈ split object, Utf8.Valid line.text) ∧ 0 ∉ object := by
  have hcounts : Counts object count := yields_countLines.of_run hrun
  refine ⟨hcounts.lines, ?_, hcounts.texts, hcounts.noNul⟩
  intro provider' key' n options start' transcript' result hn hlines
  have hall : (split object).length ≤ n := hcounts.lines ▸ hn
  rcases hlines with hhead | htail
  · have hreports := (yields_headLinesWithOptions.of_run hhead).1
    rw [hreports.length_eq, List.take_of_length_le hall, hcounts.lines]
  · have hreports := (yields_tailLinesWithOptions.of_run htail).resolve_right
      fun hopen => hopen.1 trivial
    rw [hreports.length_eq, List.rtake, Nat.sub_eq_zero_of_le hall, List.drop_zero,
      hcounts.lines]

/-- The three lines of `a CRLF b CR c`. -/
theorem countLines_exact_mixed :
    3 = (split mixedObject).length ∧
    (∀ (provider : StorageProvider) key n options start transcript result, 3 ≤ n →
      (Run (serves mixedObject none) start (headLinesWithOptions provider key n options)
          transcript (.ok result) ∨
        Run (serves mixedObject none) start (tailLinesWithOptions provider key n options)
          transcript (.ok result)) →
      result.lines.length = 3) ∧
    (∀ line ∈ split mixedObject, Utf8.Valid line.text) ∧ 0 ∉ mixedObject := by
  have hrun : Run (serves mixedObject none) ⟨fun _ => []⟩ (countLines guardedProvider "log.txt") _
      (.ok 3) := run_reference mixedObject_lt (by simp) (by decide +kernel)
  exact countLines_exact hrun

end Storageprims

import Storageprims.Ops.Accounts
import Storageprims.Ops.Preview
import Storageprims.Ops.LineOps
import Storageprims.Ops.Reports

/-!
# What an answer rests on

Against any provider, every operation keeps its bounds, and what it returns is
tied to what an observer saw: its size, and whether the last window's receipt
proves the end of the object.  There is one lemma for each stage of an operation;
the bounds and the evidence of the operations are read off their last ones.
-/

namespace Storageprims

open Interaction InspectionLedger
open Lines (Line split certain extent)

/-- The receipt of the last window places the end of the object right behind it. -/
def ProvenEnd (now : Transcript) : Prop :=
  ∃ read window, lastWindow now = some read ∧ read.receipt.returnedWindow = some window ∧
    read.receipt.totalSize = some (window.last + 1)

/-- The last window's receipt states a total that does not exceed the size. -/
def StatedWithin (size : Nat) (now : Transcript) : Prop :=
  ∃ read total, lastWindow now = some read ∧ read.receipt.totalSize = some total ∧ total ≤ size

/-- The last reported line stops where the bytes of the last window stop, and no
LF stops it there. -/
def EndsWithInput (result : LineResult) (now : Transcript) : Prop :=
  ∃ read, lastWindow now = some read ∧ result.lines ≠ [] ∧
    result.byteOffsetEnd = read.range.offset + read.bytes.length ∧
    read.bytes.getLast? ≠ some Lines.lf

/-- A line result within its limits. -/
structure Reported (budget : InspectionBudget) (n : Nat) (result : LineResult) : Prop where
  lines_le : result.lines.length ≤ n
  bytes_le : textBytes result.lines ≤ budget.outputBytes

/-- An answer that claims the end of a non-empty object proves it. -/
def Supported (n : Nat) (result : LineResult) (now : Transcript) : Prop :=
  selectedTotal now ≠ some 0 → result.lines.length < n ∨ EndsWithInput result now →
    ProvenEnd now

variable {budget : InspectionBudget} {ledger : InspectionLedger} {past now : Transcript}
variable {selection : GuardedReadSelection} {offset length : Nat}
variable {out : List UInt8 × SourceReceipt}

/-! ## Checked windows -/

theorem Received.length_le (h : Received selection offset length out past now) :
    out.1.length ≤ length := by
  obtain ⟨operation, hchecked⟩ := h.checked
  obtain ⟨window, -, -, -, hle, -⟩ := validateGuardedRangeReceipt_ok hchecked
  exact hle

/-- A checked window ends the object exactly when its receipt states a total that
the request reaches. -/
theorem Received.provenEnd_iff (h : Received selection offset length out past now) :
    ProvenEnd now ↔ ∃ total, out.2.totalSize = some total ∧ total ≤ offset + length := by
  obtain ⟨operation, hchecked⟩ := h.checked
  obtain ⟨window, hwindow, -, hlast, hle, htotal⟩ := validateGuardedRangeReceipt_ok hchecked
  constructor
  · rintro ⟨read, window', hread, hwindow', hend⟩
    obtain rfl := Option.some.inj (h.window.symm.trans hread)
    obtain rfl := Option.some.inj (hwindow.symm.trans hwindow')
    exact ⟨_, hend, by omega⟩
  · rintro ⟨total, hstated, hreached⟩
    refine ⟨_, window, h.window, hwindow, ?_⟩
    rw [hstated] at htotal ⊢
    simp only at htotal
    congr 1
    omega

theorem Received.provenEnd (h : Received selection offset length out past now)
    (heof : provesEof out.2 = true) : ProvenEnd now := by
  obtain ⟨operation, hchecked⟩ := h.checked
  obtain ⟨window, hwindow, -, hlast, hle, -⟩ := validateGuardedRangeReceipt_ok hchecked
  have hstated : out.2.totalSize = some (saturatingAdd window.last 1) := by
    rw [provesEof, hwindow] at heof
    exact of_decide_eq_true heof
  refine h.provenEnd_iff.mpr ⟨_, hstated, ?_⟩
  rw [saturatingAdd]
  omega

/-! ## Parsed windows -/

theorem buildLineResult_lines (lines : List ParsedLine) (size : Nat) (strategy : ReadStrategy) :
    (buildLineResult lines size strategy).lines = lines.map ParsedLine.text := by
  rcases List.eq_nil_or_concat lines with rfl | ⟨front, last, hconcat⟩
  · rfl
  · rw [buildLineResult, hconcat, List.concat_eq_append, List.getLast?_concat]
    cases front with
    | nil => rfl
    | cons first rest => rfl

theorem buildLineResult_length (lines : List ParsedLine) (size : Nat)
    (strategy : ReadStrategy) : (buildLineResult lines size strategy).lines.length =
      lines.length := by
  rw [buildLineResult_lines, List.length_map]

theorem buildLineResult_end {provider : ProviderKind} {operation : StorageOperation}
    {base : Nat} {selected : List Line} {parsed : List ParsedLine} (size : Nat)
    (strategy : ReadStrategy) (h : frameAll provider operation base selected = .ok parsed)
    (hne : parsed ≠ []) :
    (buildLineResult parsed size strategy).byteOffsetEnd = base + extent selected := by
  obtain ⟨-, -, -, hstop⟩ := frameAll_ok h
  rcases List.eq_nil_or_concat parsed with rfl | ⟨front, last, hconcat⟩
  · exact absurd rfl hne
  · have hlast : parsed.getLast? = some last := by
      rw [hconcat, List.concat_eq_append, List.getLast?_concat]
    rw [← hstop last hlast, buildLineResult, hlast, hconcat, List.concat_eq_append]
    cases front with
    | nil => rfl
    | cons first rest => rfl

/-- Lines parsed up to the end of a window without its end in sight are ended by
an LF there. -/
theorem eof_of_endsWithInput {provider : ProviderKind} {operation : StorageOperation}
    {start n size : Nat} {eof : Bool} {strategy : ReadStrategy} {parsed : List ParsedLine}
    (hreceived : Received selection start length out past now) (aligned : Nat)
    (haligned : aligned ≤ out.1.length) (hbase : start + out.1.length < u64Bound)
    (h : parseLinesUpTo provider operation (out.1.drop aligned) (start + aligned) eof n =
      .ok parsed)
    (hends : EndsWithInput (buildLineResult parsed size strategy) now) : eof = true := by
  obtain ⟨read, hread, hlines, hend, hlast⟩ := hends
  obtain rfl := Option.some.inj (hreceived.window.symm.trans hread)
  have hparsed : parsed ≠ [] := by
    rintro rfl
    exact hlines rfl
  rw [parseLinesUpTo_eq _ _ (by rw [List.length_drop]; omega)] at h
  rw [buildLineResult_end size strategy h hparsed] at hend
  simp only at hend hlast
  cases eof with
  | true => rfl
  | false =>
      -- without the end in sight only certain lines are framed, and here they cover
      -- the window, so its last byte is an LF
      rw [framable, if_neg Bool.false_ne_true] at hend h
      have hcovers : extent ((certain (split (out.1.drop aligned))).take n) =
          (out.1.drop aligned).length := by
        rw [List.length_drop]
        omega
      have hne : out.1.drop aligned ≠ [] := by
        intro hnil
        rw [hnil, Lines.split_nil] at h
        exact hparsed (List.length_eq_zero_iff.mp (by
          rw [frameAll_length h, certain, List.take_nil, List.length_nil]))
      have hlf := Lines.getLast?_of_certain_covers hne hcovers
      rw [List.getLast?_drop] at hlf
      split at hlf
      · cases hlf
      · exact absurd hlf hlast

/-! ## Output -/

theorem accounted_applyLineOutputBudget {lines : List ParsedLine}
    (hbounded : Bounded budget past) (hmetered : Metered budget ledger past) :
    Accounted budget (applyLineOutputBudget lines)
      (fun _ _ now => now = past ∧ textBytes (lines.map ParsedLine.text) ≤ budget.outputBytes)
      ledger past := by
  refine accounted_read ?_
  cases houtput : outputLength lines with
  | none => exact accounted_raise hbounded hmetered
  | some outputBytes =>
      refine (accounted_admitOutput hbounded hmetered).mono ?_
      rintro - ledger' now ⟨rfl, hroom, -⟩
      rw [outputLength_eq houtput] at hroom
      exact ⟨rfl, by omega⟩

theorem accounted_reportLines {lines : List ParsedLine} {size : Nat} {strategy : ReadStrategy}
    (hbounded : Bounded budget past) (hmetered : Metered budget ledger past) :
    Accounted budget (reportLines lines size strategy)
      (fun result _ now => now = past ∧ result = buildLineResult lines size strategy ∧
        textBytes result.lines ≤ budget.outputBytes) ledger past := by
  refine (accounted_applyLineOutputBudget hbounded hmetered).bind ?_
  rintro - ledger' now hbounded' hmetered' ⟨rfl, hroom⟩
  exact accounted_pure hbounded' hmetered' ⟨rfl, rfl, by rwa [buildLineResult_lines]⟩

/-! ## Selections -/

theorem accounted_observeAndBind {guarded : GuardedReadProvider} {key : String}
    (hbounded : Bounded budget past) (hmetered : Metered budget ledger past) :
    Accounted budget (observeAndBind guarded key) (fun _ _ _ => True) ledger past := by
  refine (accounted_request hbounded hmetered).bind ?_
  rintro - ledger₁ now₁ hbounded₁ hmetered₁ ⟨hquiet, rfl⟩
  have hspent := hmetered.requests
  have hrequests := hquiet.requests
  refine accounted_issue hbounded₁ (fun answer => hmetered₁.call answer rfl ?_) ?_
  · simp only
    omega
  intro answer hbounded₂ hmetered₂
  refine accounted_settle hbounded₂ hmetered₂ fun observation _ => accounted_read ?_
  cases observedSelector observation.receipt with
  | none => exact accounted_raise hbounded₂ hmetered₂
  | some selector =>
      exact accounted_orRaise hbounded₂ hmetered₂ fun selection _ =>
        accounted_pure hbounded₂ hmetered₂ trivial

theorem accounted_selectedSize (hbounded : Bounded budget past)
    (hmetered : Metered budget ledger past) :
    Accounted budget (selectedSize selection)
      (fun size _ now => size < u64Bound ∧ selectedTotal now = some size) ledger past := by
  refine (accounted_request hbounded hmetered).bind ?_
  rintro - ledger₁ now₁ hbounded₁ hmetered₁ ⟨hquiet, rfl⟩
  have hspent := hmetered.requests
  have hrequests := hquiet.requests
  refine accounted_issue hbounded₁ (fun answer => hmetered₁.call answer rfl ?_) ?_
  · simp only
    omega
  intro answer hbounded₂ hmetered₂
  refine accounted_settle hbounded₂ hmetered₂ fun receipt hreceipt => accounted_read ?_
  subst hreceipt
  cases htotal : receipt.totalSize with
  | none => exact accounted_raise hbounded₂ hmetered₂
  | some size =>
      refine accounted_pure hbounded₂ hmetered₂ ⟨receipt.totalSize_lt size htotal, ?_⟩
      rw [selectedTotal_snoc]
      exact htotal

theorem accounted_lineProbe {size : Nat} (hbudget : budget.Admitted) (hsize : 0 < size)
    (hbounded : Bounded budget past) (hmetered : Metered budget ledger past) :
    Accounted budget (lineProbe selection size)
      (fun out _ now => ∃ length, length ≤ size ∧ Received selection 0 length out past now)
      ledger past := by
  refine accounted_read ?_
  have hprobe := hbudget.probe_pos
  rw [hmetered.same]
  refine (accounted_guardedRangeBytes (by omega) hbounded hmetered).bind ?_
  rintro ⟨probe, receipt⟩ ledger₁ now₁ hbounded₁ hmetered₁ hreceived
  exact accounted_orRaise hbounded₁ hmetered₁ fun _ _ =>
    accounted_pure hbounded₁ hmetered₁ ⟨_, Nat.min_le_left _ _, hreceived⟩

/-! ## Head -/

variable {provider : StorageProvider} {key : String} {size n : Nat}

/-- What head reports of a window from the front. -/
theorem supported_of_front {parsed : List ParsedLine} {operation : StorageOperation}
    (hsize : size < u64Bound) (hlength : length ≤ size)
    (hreceived : Received selection 0 length out past now)
    (hparse : parseLinesUpTo provider.providerKind operation out.1 0 (provesEof out.2) n =
      .ok parsed)
    (henough : parsed.length = n ∨ provesEof out.2 = true) (strategy : ReadStrategy) :
    Supported n (buildLineResult parsed size strategy) now := by
  rintro - (hshort | hends)
  · rw [buildLineResult_length] at hshort
    exact hreceived.provenEnd (henough.resolve_left (by omega))
  · have hle := hreceived.length_le
    exact hreceived.provenEnd
      (eof_of_endsWithInput hreceived 0 (Nat.zero_le _) (by omega) hparse hends)

theorem accounted_headWindow (hbudget : budget.Admitted) (hsize : 0 < size)
    (hbound : size < u64Bound) (hbounded : Bounded budget past)
    (hmetered : Metered budget ledger past) :
    Accounted budget (headWindow provider selection size n)
      (fun result _ now => Reported budget n result ∧ Supported n result now) ledger past := by
  have hlength := windowLength_le size ledger.budget
  refine accounted_read ((accounted_guardedRangeBytes (windowLength_pos
    (hmetered.same ▸ hbudget) hsize) hbounded hmetered).bind ?_)
  rintro out ledger₁ now₁ hbounded₁ hmetered₁ hreceived
  refine accounted_orRaise hbounded₁ hmetered₁ fun _ _ => ?_
  refine accounted_ofExcept hbounded₁ hmetered₁ fun selected hparse => accounted_read ?_
  by_cases hshort : selected.length < n ∧ ¬ provesEof out.2
  · rw [if_pos hshort]
    exact accounted_raise hbounded₁ hmetered₁
  rw [if_neg hshort]
  have hle := hreceived.length_le
  have hcount := parseLinesUpTo_length_le (by omega) hparse
  refine (accounted_reportLines hbounded₁ hmetered₁).mono ?_
  rintro result ledger₂ now₂ ⟨rfl, rfl, hroom⟩
  refine ⟨⟨?_, hroom⟩, supported_of_front hbound hlength hreceived hparse ?_ _⟩
  · rwa [buildLineResult_length]
  · by_cases heof : provesEof out.2 = true
    · exact .inr heof
    · left
      by_contra hdiff
      exact hshort ⟨by omega, heof⟩

theorem accounted_headSelection (hbudget : budget.Admitted) (hbounded : Bounded budget past)
    (hmetered : Metered budget ledger past) :
    Accounted budget (headSelection provider selection n)
      (fun result _ now => Reported budget n result ∧ Supported n result now) ledger past := by
  refine (accounted_selectedSize hbounded hmetered).bind ?_
  rintro size ledger₁ now₁ hbounded₁ hmetered₁ ⟨hbound, htotal⟩
  by_cases hzero : size = 0
  · rw [if_pos hzero]
    exact accounted_pure hbounded₁ hmetered₁ ⟨⟨Nat.zero_le _, Nat.zero_le _⟩,
      fun hne => absurd (hzero ▸ htotal) hne⟩
  rw [if_neg hzero]
  refine (accounted_lineProbe hbudget (by omega) hbounded₁ hmetered₁).bind ?_
  rintro out ledger₂ now₂ hbounded₂ hmetered₂ ⟨length, hlength, hreceived⟩
  refine accounted_ofExcept hbounded₂ hmetered₂ fun selected hparse => ?_
  have hle := hreceived.length_le
  have hcount := parseLinesUpTo_length_le (by omega) hparse
  by_cases henough : selected.length = n ∨ provesEof out.2
  · rw [if_pos henough]
    refine (accounted_reportLines hbounded₂ hmetered₂).mono ?_
    rintro result ledger₃ now₃ ⟨rfl, rfl, hroom⟩
    refine ⟨⟨?_, hroom⟩, supported_of_front hbound hlength hreceived hparse henough _⟩
    rwa [buildLineResult_length]
  · rw [if_neg henough]
    exact accounted_headWindow hbudget (by omega) hbound hbounded₂ hmetered₂

/-! ## Tail -/

/-- What tail's last window proves: with `force_stream` the end, else no more than
what the provider stated about it. -/
structure TailSupported (forceStream : Bool) (size : Nat) (now : Transcript) : Prop where
  stated : ProvenEnd now ↔ StatedWithin size now
  forced : forceStream = true → ProvenEnd now

theorem accounted_previousByteOf {start : Nat} (hbounded : Bounded budget past)
    (hmetered : Metered budget ledger past) :
    Accounted budget (previousByteOf selection start)
      (fun _ _ now => selectedTotal now = selectedTotal past) ledger past := by
  rw [previousByteOf]
  split
  · exact accounted_pure hbounded hmetered rfl
  · refine accounted_ofExcept hbounded hmetered fun offset _ => ?_
    refine (accounted_guardedRangeBytes Nat.one_pos hbounded hmetered).bind ?_
    rintro ⟨previous, receipt⟩ ledger₁ now₁ hbounded₁ hmetered₁ hreceived
    exact accounted_pure hbounded₁ hmetered₁ hreceived.total

theorem accounted_tailWindow {forceStream : Bool} (hbudget : budget.Admitted) (hn : 1 ≤ n)
    (hsize : 0 < size) (hbound : size < u64Bound) (hbounded : Bounded budget past)
    (hmetered : Metered budget ledger past) :
    Accounted budget (tailWindow provider selection size n forceStream)
      (fun result _ now => Reported budget n result ∧ TailSupported forceStream size now ∧
        selectedTotal now = selectedTotal past) ledger past := by
  have hpos := windowLength_pos (hmetered.same ▸ hbudget) hsize
  have hlength := windowLength_le size ledger.budget
  refine accounted_read (accounted_ofExcept hbounded hmetered fun start hstart => ?_)
  obtain ⟨chosen, hchosen, hsuffix⟩ := tailStart_ok hlength forceStream
  obtain rfl : start = chosen := Except.ok.inj (hstart.symm.trans hchosen)
  refine (accounted_previousByteOf hbounded hmetered).bind ?_
  rintro previous ledger₁ now₁ hbounded₁ hmetered₁ hprevious
  refine (accounted_guardedRangeBytes hpos hbounded₁ hmetered₁).bind ?_
  rintro ⟨bytes, receipt⟩ ledger₂ now₂ hbounded₂ hmetered₂ hreceived
  refine accounted_ofExcept hbounded₂ hmetered₂ fun aligned _ => ?_
  refine accounted_ofExcept hbounded₂ hmetered₂ fun framed hframed => ?_
  obtain ⟨haligned, rfl⟩ := sliceFrom_ok hframed
  refine accounted_orRaise hbounded₂ hmetered₂ fun _ _ => accounted_read ?_
  by_cases hunproven : forceStream ∧ ¬ provesEof receipt
  · rw [if_pos hunproven]
    exact accounted_raise hbounded₂ hmetered₂
  rw [if_neg hunproven]
  refine accounted_ofExcept hbounded₂ hmetered₂ fun base hbase => ?_
  refine accounted_ofExcept hbounded₂ hmetered₂ fun selected hparse => ?_
  by_cases hshort : selected.length < n ∧ start ≠ 0
  · rw [if_pos hshort]
    exact accounted_raise hbounded₂ hmetered₂
  rw [if_neg hshort]
  have hle := hreceived.length_le
  obtain rfl := addU64_ok hbase
  have hcount := parseTailLinesBounded_length hn (by
    rw [List.length_drop]
    simp only at hle haligned
    omega) hparse
  refine (accounted_reportLines hbounded₂ hmetered₂).mono ?_
  rintro result ledger₃ now₃ ⟨rfl, rfl, hroom⟩
  -- only the forced stream refuses an answer whose end is not proven
  have hforced : forceStream = true → ProvenEnd now₃ := fun hforce =>
    hreceived.provenEnd (by
      by_contra heof
      exact hunproven ⟨hforce, heof⟩)
  refine ⟨⟨?_, hroom⟩, ⟨?_, hforced⟩, hreceived.total.trans hprevious⟩
  · rw [buildLineResult_length]
    omega
  · constructor
    · intro hend
      obtain ⟨total, hstated, hreached⟩ := hreceived.provenEnd_iff.mp hend
      exact ⟨_, total, hreceived.window, hstated, by omega⟩
    · rintro ⟨read, total, hread, hstated, hwithin⟩
      obtain rfl := Option.some.inj (hreceived.window.symm.trans hread)
      cases forceStream with
      | true => exact hforced rfl
      | false => exact hreceived.provenEnd_iff.mpr ⟨total, hstated, by rwa [hsuffix.2 rfl]⟩

theorem accounted_tailSelection {forceStream : Bool} (hbudget : budget.Admitted) (hn : 1 ≤ n)
    (hbounded : Bounded budget past) (hmetered : Metered budget ledger past) :
    Accounted budget (tailSelection provider selection n forceStream)
      (fun result _ now => Reported budget n result ∧ ∃ size, selectedTotal now = some size ∧
        (size ≠ 0 → TailSupported forceStream size now)) ledger past := by
  refine (accounted_selectedSize hbounded hmetered).bind ?_
  rintro size ledger₁ now₁ hbounded₁ hmetered₁ ⟨hbound, htotal⟩
  by_cases hzero : size = 0
  · rw [if_pos hzero]
    exact accounted_pure hbounded₁ hmetered₁ ⟨⟨Nat.zero_le _, Nat.zero_le _⟩, size, htotal,
      fun hne => absurd hzero hne⟩
  rw [if_neg hzero]
  refine (accounted_lineProbe hbudget (by omega) hbounded₁ hmetered₁).bind ?_
  rintro probe ledger₂ now₂ hbounded₂ hmetered₂ ⟨length, -, hreceived⟩
  refine (accounted_tailWindow hbudget hn (by omega) hbound hbounded₂ hmetered₂).mono ?_
  rintro result ledger₃ now₃ ⟨hreported, hsupported, hsame⟩
  exact ⟨hreported, size, (hsame.trans hreceived.total).trans htotal, fun _ => hsupported⟩

/-! ## Midpoint -/

theorem accounted_midWindow {forceStream : Bool} (hbudget : budget.Admitted)
    (hsize : 0 < size) (hbound : size < u64Bound) (hbounded : Bounded budget past)
    (hmetered : Metered budget ledger past) :
    Accounted budget (midWindow provider selection size n forceStream)
      (fun result _ now => Reported budget n result ∧ Supported n result now) ledger past := by
  have hpos := windowLength_pos (hmetered.same ▸ hbudget) hsize
  have hlength := windowLength_le size ledger.budget
  refine accounted_read (accounted_ofExcept hbounded hmetered fun requested hrequested => ?_)
  generalize hstart : (if forceStream then 0
    else size / 2 - windowLength size ledger.budget / 2) = start at hrequested ⊢
  obtain ⟨-, hinside⟩ := midStart_inside hlength hstart
  obtain rfl := Except.ok.inj ((midRequested_ok hlength hstart).symm.trans hrequested)
  refine (accounted_guardedRangeBytes hpos hbounded hmetered).bind ?_
  rintro ⟨bytes, receipt⟩ ledger₁ now₁ hbounded₁ hmetered₁ hreceived
  refine accounted_read ?_
  by_cases hunproven : forceStream ∧ ¬ provesEof receipt
  · rw [if_pos hunproven]
    exact accounted_raise hbounded₁ hmetered₁
  rw [if_neg hunproven]
  refine accounted_ofExcept hbounded₁ hmetered₁ fun midpointInSlice _ => ?_
  refine accounted_ofExcept hbounded₁ hmetered₁ fun aligned _ => ?_
  refine accounted_ofExcept hbounded₁ hmetered₁ fun framed hframed => ?_
  obtain ⟨haligned, rfl⟩ := sliceFrom_ok hframed
  refine accounted_orRaise hbounded₁ hmetered₁ fun _ _ => ?_
  refine accounted_ofExcept hbounded₁ hmetered₁ fun base hbase => ?_
  refine accounted_ofExcept hbounded₁ hmetered₁ fun selected hparse => ?_
  by_cases hshort : selected.length < n ∧ ¬ provesEof receipt
  · rw [if_pos hshort]
    exact accounted_raise hbounded₁ hmetered₁
  rw [if_neg hshort]
  have hle := hreceived.length_le
  obtain rfl := addU64_ok hbase
  simp only at hle haligned
  -- fewer lines than asked for, or one without a terminator, need the proven end
  have hcount := parseLinesUpTo_length_le (by rw [List.length_drop]; omega) hparse
  refine (accounted_reportLines hbounded₁ hmetered₁).mono ?_
  rintro result ledger₂ now₂ ⟨rfl, rfl, hroom⟩
  refine ⟨⟨by rwa [buildLineResult_length], hroom⟩, ?_⟩
  rintro - (hless | hends)
  · rw [buildLineResult_length] at hless
    refine hreceived.provenEnd ?_
    by_contra heof
    exact hshort ⟨hless, heof⟩
  · exact hreceived.provenEnd
      (eof_of_endsWithInput hreceived _ haligned (by simp only; omega) hparse hends)

theorem accounted_midSelection {forceStream : Bool} (hbudget : budget.Admitted)
    (hbounded : Bounded budget past) (hmetered : Metered budget ledger past) :
    Accounted budget (midSelection provider selection n forceStream)
      (fun result _ now => Reported budget n result ∧ Supported n result now) ledger past := by
  refine (accounted_selectedSize hbounded hmetered).bind ?_
  rintro size ledger₁ now₁ hbounded₁ hmetered₁ ⟨hbound, htotal⟩
  by_cases hzero : size = 0
  · rw [if_pos hzero]
    exact accounted_pure hbounded₁ hmetered₁ ⟨⟨Nat.zero_le _, Nat.zero_le _⟩,
      fun hne => absurd (hzero ▸ htotal) hne⟩
  rw [if_neg hzero]
  refine (accounted_lineProbe hbudget (by omega) hbounded₁ hmetered₁).bind ?_
  rintro probe ledger₂ now₂ hbounded₂ hmetered₂ -
  exact accounted_midWindow hbudget (by omega) hbound hbounded₂ hmetered₂

/-! ## Count -/

theorem accounted_countSelection (hbudget : budget.Admitted) (hbounded : Bounded budget past)
    (hmetered : Metered budget ledger past) :
    Accounted budget (countSelection provider selection)
      (fun _ _ now => selectedTotal now ≠ some 0 → ProvenEnd now) ledger past := by
  refine (accounted_selectedSize hbounded hmetered).bind ?_
  rintro size ledger₁ now₁ hbounded₁ hmetered₁ ⟨hbound, htotal⟩
  refine accounted_read ?_
  by_cases hzero : size = 0
  · rw [if_pos hzero]
    exact accounted_pure hbounded₁ hmetered₁ fun hne => absurd (hzero ▸ htotal) hne
  rw [if_neg hzero]
  split
  · exact accounted_raise hbounded₁ hmetered₁
  split
  · exact accounted_raise hbounded₁ hmetered₁
  refine (accounted_lineProbe hbudget (by omega) hbounded₁ hmetered₁).bind ?_
  rintro probe ledger₂ now₂ hbounded₂ hmetered₂ -
  refine (accounted_guardedRangeBytes (by omega) hbounded₂ hmetered₂).bind ?_
  rintro ⟨bytes, receipt⟩ ledger₃ now₃ hbounded₃ hmetered₃ hreceived
  refine accounted_read ?_
  split
  · exact accounted_raise hbounded₃ hmetered₃
  · rename_i hagree
    rw [not_or, not_not, not_not] at hagree
    refine accounted_orRaise hbounded₃ hmetered₃ fun _ _ => ?_
    cases countLinesBounded provider.providerKind .countLines bytes with
    | error failure => exact ⟨hbounded₃, hmetered₃⟩
    | ok count =>
        refine ⟨hbounded₃, hmetered₃, fun _ => hreceived.provenEnd ?_⟩
        exact decide_eq_true (hagree.1.trans hagree.2.symm)

/-! ## Preview -/

theorem accounted_previewSelection {length : Nat} (hlength : 0 < length)
    (hbounded : Bounded budget past) (hmetered : Metered budget ledger past) :
    Accounted budget (previewSelection selection length)
      (fun preview _ _ => preview.bytes.length ≤ budget.outputBytes) ledger past := by
  refine (accounted_request hbounded hmetered).bind ?_
  rintro - ledger₁ now₁ hbounded₁ hmetered₁ ⟨hquiet, rfl⟩
  have hspent := hmetered.requests
  have hrequests := hquiet.requests
  refine accounted_issue hbounded₁ (fun answer => hmetered₁.call answer rfl ?_) ?_
  · simp only
    omega
  intro answer hbounded₂ hmetered₂
  refine accounted_settle hbounded₂ hmetered₂ fun receipt _ => accounted_read ?_
  split
  · exact accounted_pure hbounded₂ hmetered₂ (Nat.zero_le _)
  refine (accounted_guardedRangeBytes hlength hbounded₂ hmetered₂).bind ?_
  rintro ⟨bytes, receipt'⟩ ledger₃ now₃ hbounded₃ hmetered₃ -
  refine (accounted_admitOutput hbounded₃ hmetered₃).bind ?_
  rintro - ledger₄ now₄ hbounded₄ hmetered₄ ⟨rfl, hroom, -⟩
  refine accounted_read ?_
  cases receipt'.returnedWindow.bind ByteWindow.checkedLen with
  | none => exact ⟨hbounded₄, hmetered₄⟩
  | some consumed => exact accounted_pure hbounded₄ hmetered₄ (by simp only; omega)

end Storageprims

import Storageprims.Ops.Alignment
import Storageprims.Ops.Calls
import Storageprims.Ops.RangeReceipt

/-!
# No operation panics

Offsets are computed from sizes the provider chooses, and windows are cut where
an alignment falls in bytes whose number may differ from what was asked for.
Against any answers the additions and subtractions of the source stay within 64
bits, its slices within their bytes, and a preview has a returned window when it
expects one.

`Clean` says that a computation does not panic, and `Safe` that a script does not
under any answers; there is one lemma for each function of the source.
-/

namespace Storageprims

open Interaction InspectionLedger
open Lines (split certain)

/-- The computation returns a value or an error. -/
def Clean {α : Type} (result : Except Failure α) : Prop := result ≠ .error .panic

theorem Clean.map {α β : Type} {result : Except Failure α} (f : α → β) (h : Clean result) :
    Clean (result.map f) := by
  cases result with
  | ok value => exact nofun
  | error failure =>
      intro heq
      cases heq
      exact h rfl

/-! ## The framers -/

section Framers

variable {provider : ProviderKind} {operation : StorageOperation}

/-- All that a framing reports is a line that is no text. -/
theorem clean_frameAll (base : Nat) (xs : List Lines.Line) :
    Clean (frameAll provider operation base xs) := by
  intro hpanic
  obtain ⟨-, hfailure⟩ := frameAll_error hpanic
  cases hfailure

theorem clean_parseLinesUpTo {bytes : List UInt8} {base maximum : Nat} {eof : Bool}
    (hbase : base + bytes.length < u64Bound) :
    Clean (parseLinesUpTo provider operation bytes base eof maximum) := by
  rw [parseLinesUpTo_eq _ _ hbase]
  exact clean_frameAll _ _

theorem clean_parseTailLinesBounded {bytes : List UInt8} {base maximum : Nat} {eof : Bool}
    (hmax : 1 ≤ maximum) (hbase : base + bytes.length < u64Bound) :
    Clean (parseTailLinesBounded provider operation bytes base eof maximum) := by
  rw [parseTailLinesBounded_eq _ hmax hbase]
  exact (clean_frameAll _ _).map _

theorem clean_countLinesBounded {bytes : List UInt8} (hbytes : bytes.length < u64Bound) :
    Clean (countLinesBounded provider operation bytes) := by
  rw [countLinesBounded_eq hbytes]
  exact (clean_frameAll _ _).map _

end Framers

/-! ## Scripts -/

/-- Whatever is answered, the script returns a value of `ok` or an error. -/
def Safe {S α : Type} (script : Script Step Reply S Failure α) (ok : α → Prop) (state : S) : Prop :=
  Script.Ensures anyAnswer (fun _ => True) script (fun value _ _ => ok value)
    (fun failure _ _ => failure ≠ .panic) state ()

section Rules

variable {S α β : Type} {ok : β → Prop} {state : S}

theorem Safe.bind {script : Script Step Reply S Failure α}
    {next : α → Script Step Reply S Failure β} {middle : α → Prop}
    (h : Safe script middle state)
    (hnext : ∀ value state', middle value → Safe (next value) ok state') :
    Safe (script >>= next) ok state :=
  Script.Ensures.bind h fun value state' _ _ hmiddle => hnext value state' hmiddle

theorem safe_pure {value : β} (h : ok value) :
    Safe (pure value : Script Step Reply S Failure β) ok state :=
  Script.ensures_pure.mpr ⟨trivial, h⟩

theorem safe_raise {error : StorageError} :
    Safe (raise error : Script Step Reply S Failure β) ok state :=
  ensures_raise.mpr ⟨trivial, nofun⟩

theorem safe_read {next : S → Script Step Reply S Failure β} (h : Safe (next state) ok state) :
    Safe (Script.read >>= next) ok state :=
  Script.ensures_bind_read.mpr h

theorem safe_write {state' : S} {ok : Unit → Prop} (h : ok ()) :
    Safe (Script.write state' : Script Step Reply S Failure Unit) ok state := ⟨trivial, h⟩

theorem safe_ofExcept {result : Except Failure α} {next : α → Script Step Reply S Failure β}
    (hclean : Clean result) (h : ∀ value, result = .ok value → Safe (next value) ok state) :
    Safe (Script.ofExcept result >>= next) ok state :=
  Script.ensures_bind_ofExcept
    (fun _ hfailure => ⟨trivial, fun hpanic => hclean (hpanic ▸ hfailure)⟩) h

theorem safe_ofExcept_ok {result : Except Failure α} {value : α}
    {next : α → Script Step Reply S Failure β} (hresult : result = .ok value)
    (h : Safe (next value) ok state) : Safe (Script.ofExcept result >>= next) ok state := by
  subst hresult
  exact h

theorem safe_orRaise {result : Except StorageError α} {next : α → Script Step Reply S Failure β}
    (h : ∀ value, result = .ok value → Safe (next value) ok state) :
    Safe (orRaise result >>= next) ok state :=
  ensures_bind_orRaise (fun _ _ => ⟨trivial, nofun⟩) h

theorem safe_issue {request : Request} {next : Response request → Inspect β}
    {ledger : InspectionLedger} (h : ∀ response, Safe (next response) ok ledger) :
    Safe (issue request >>= next) ok ledger :=
  ensures_bind_issue.mpr ⟨trivial, fun response _ _ => h response⟩

theorem safe_inTime {answer : Awaited α} {next : α → Inspect β} {ledger : InspectionLedger}
    (h : ∀ value, Safe (next value) ok ledger) : Safe (inTime answer >>= next) ok ledger := by
  cases answer with
  | elapsed => exact ⟨trivial, nofun⟩
  | ready value => exact h value

theorem safe_settle {answer : Awaited (Except StorageError α)} {next : α → Inspect β}
    {ledger : InspectionLedger} (h : ∀ value, Safe (next value) ok ledger) :
    Safe (settle answer >>= next) ok ledger := by
  rcases answer with _ | (error | value)
  · exact ⟨trivial, nofun⟩
  · exact ⟨trivial, nofun⟩
  · exact h value

end Rules

section Ledger

variable {ledger : InspectionLedger}

theorem safe_checkDeadline : Safe checkDeadline (fun _ => True) ledger := by
  refine safe_read (safe_issue fun now => ?_)
  split
  · exact safe_raise
  · exact safe_pure trivial

theorem safe_request : Safe request (fun _ => True) ledger := by
  refine safe_checkDeadline.bind fun _ ledger' _ => safe_read ?_
  dsimp only
  split
  · exact safe_raise
  split
  · exact safe_raise
  · exact safe_write trivial

theorem safe_admitPayload (bytes : Nat) : Safe (admitPayload bytes) (fun _ => True) ledger := by
  refine safe_checkDeadline.bind fun _ ledger' _ => safe_read ?_
  split
  · exact safe_raise
  split
  · exact safe_raise
  · exact safe_write trivial

theorem safe_releasePayload (bytes : Nat) : Safe (releasePayload bytes) (fun _ => True) ledger :=
  safe_read (safe_write trivial)

theorem safe_admitOutput (bytes : Nat) : Safe (admitOutput bytes) (fun _ => True) ledger := by
  refine safe_read ?_
  split
  · exact safe_raise
  split
  · exact safe_raise
  · exact safe_write trivial

theorem safe_observeAndBind (provider : GuardedReadProvider) (key : String) :
    Safe (observeAndBind provider key) (fun _ => True) ledger := by
  refine safe_request.bind fun _ ledger' _ => safe_issue fun answer => ?_
  refine safe_settle fun observed => safe_read ?_
  split
  · exact safe_raise
  · exact safe_orRaise fun selection _ => safe_pure trivial

/-- The size of the selected source is a 64-bit number. -/
theorem safe_selectedSize (selection : GuardedReadSelection) :
    Safe (selectedSize selection) (· < u64Bound) ledger := by
  refine safe_request.bind fun _ ledger' _ => safe_issue fun answer => safe_settle fun receipt => ?_
  refine safe_read ?_
  cases hsize : receipt.totalSize with
  | none => exact safe_raise
  | some size => exact safe_pure (receipt.totalSize_lt size hsize)

/-! ## Ranges -/

theorem safe_readChunk (reader : ReaderId) (capacity : Nat) :
    Safe (readChunk reader capacity) (fun chunk => chunk.length ≤ capacity) ledger := by
  refine safe_issue fun answer => safe_inTime fun result => safe_read ?_
  exact safe_orRaise fun chunk _ => safe_pure chunk.property

/-- The read loop never asks for more than is missing or than the buffer holds. -/
theorem safe_readWindow (reader : ReaderId) (capacity scratchLen rounds : Nat)
    {bytes : List UInt8} (hbytes : bytes.length ≤ capacity) :
    Safe (readWindow reader capacity scratchLen rounds bytes) (fun out => out.length ≤ capacity)
      ledger := by
  induction rounds generalizing bytes ledger with
  | zero => exact safe_pure hbytes
  | succ rounds ih =>
      rw [readWindow]
      split
      · refine safe_checkDeadline.bind fun _ ledger₁ _ => ?_
        refine safe_ofExcept_ok (subU64_of_le hbytes) ?_
        refine safe_ofExcept_ok (checkSlice_of_le (Nat.min_le_right _ _)) ?_
        refine (safe_readChunk reader _).bind fun chunk ledger₂ hchunk => safe_read ?_
        split
        · exact safe_raise
        · refine safe_ofExcept_ok (checkSlice_of_le (by omega)) (ih ?_)
          rw [List.length_append]
          omega
      · exact safe_pure hbytes

theorem safe_readValidated (reader : ReaderId) (returnedLength : Nat) :
    Safe (readValidated reader returnedLength) (fun out => out.length ≤ returnedLength) ledger := by
  refine safe_read ?_
  cases hcapacity : tryUsize returnedLength with
  | none => exact safe_raise
  | some capacity =>
      obtain ⟨-, rfl⟩ := tryUsize_eq_some_iff.mp hcapacity
      refine (safe_readWindow reader _ _ _ (Nat.zero_le _)).bind fun bytes ledger₁ hbytes => ?_
      refine (safe_readChunk reader 1).bind fun extra ledger₂ _ => ?_
      split
      · exact safe_raise
      · exact safe_pure hbytes

/-- A window that was read is no longer than what was asked for, and a receipt that
came with one has a returned length. -/
structure Window (length : Nat) (out : List UInt8 × SourceReceipt) : Prop where
  length_le : out.1.length ≤ length
  fits : out.1.length + 1 < u64Bound
  returned : 0 < length →
    ∃ consumed, out.2.returnedWindow.bind ByteWindow.checkedLen = some consumed

theorem safe_guardedRangeBytes (selection : GuardedReadSelection) (offset length : Nat) :
    Safe (guardedRangeBytes selection offset length) (Window length) ledger := by
  refine safe_read ?_
  split
  · rename_i hzero
    refine safe_pure ⟨Nat.zero_le _, ?_, fun hpos => absurd hzero (by omega)⟩
    show 0 + 1 < 2 ^ 64
    omega
  have hpos : 0 < length := by omega
  cases hreserved : checkedAdd length 1 with
  | none => exact safe_raise
  | some reserved =>
      obtain ⟨hfits, -⟩ := checkedAdd_eq_some_iff.mp hreserved
      refine (safe_admitPayload _).bind fun _ ledger₁ _ => ?_
      refine safe_request.bind fun _ ledger₂ _ => safe_issue fun answer => safe_settle ?_
      intro response
      -- the length is not zero, which the receipt check relies on
      refine safe_ofExcept ?_ fun returned hreturned => ?_
      · intro hpanic
        obtain ⟨error, herror⟩ := validateGuardedRangeReceipt_error hpos hpanic
        cases herror
      obtain ⟨-, hend⟩ := validateGuardedRangeReceipt_inRange hreturned
      obtain ⟨hproves, hlength, -⟩ :=
        (validateGuardedRangeReceipt_ok_iff hpos hend).mp hreturned
      obtain ⟨window, hwindow, hstart, hlast⟩ := hproves.returned
      have hle := lastReturned_le response.receipt.totalSize offset length
      have hfirst := offset_le_lastReturned hpos hproves.present
      refine (safe_readValidated _ _).bind fun bytes ledger₃ hbytes => ?_
      refine (safe_releasePayload _).bind fun _ ledger₄ _ => safe_pure ⟨?_, ?_, fun _ => ?_⟩
      · simp only
        omega
      · simp only
        omega
      · refine ⟨returned, ?_⟩
        rw [hwindow, Option.bind_some]
        exact ByteWindow.checkedLen_eq_some_iff.mpr ⟨by omega, by omega, by omega⟩

theorem safe_lineProbe (selection : GuardedReadSelection) (size : Nat) :
    Safe (lineProbe selection size) (fun out => out.1.length + 1 < u64Bound) ledger := by
  refine safe_read ((safe_guardedRangeBytes _ _ _).bind fun out ledger₁ hwindow => ?_)
  exact safe_orRaise fun _ _ => safe_pure hwindow.fits

theorem safe_reportLines (lines : List ParsedLine) (size : Nat) (strategy : ReadStrategy) :
    Safe (reportLines lines size strategy) (fun _ => True) ledger := by
  have hbudget : Safe (applyLineOutputBudget lines) (fun _ => True) ledger := by
    refine safe_read ?_
    split
    · exact safe_raise
    · exact safe_admitOutput _
  exact hbudget.bind fun _ ledger₁ _ => safe_pure trivial

/-! ## The operations -/

variable {provider : StorageProvider} {selection : GuardedReadSelection} {key : String}

theorem safe_previewBytesSelectedWithLedger {length : Nat} (hlength : 0 < length) :
    Safe (previewBytesSelectedWithLedger selection length) (fun _ => True) ledger := by
  refine (safe_guardedRangeBytes _ _ _).bind fun out ledger₁ hwindow => ?_
  refine (safe_admitOutput _).bind fun _ ledger₂ _ => safe_read ?_
  -- a range that was read has the window that is expected here
  obtain ⟨consumed, hconsumed⟩ := hwindow.returned hlength
  rw [hconsumed]
  exact safe_pure trivial

theorem safe_previewSelection {length : Nat} (hlength : 0 < length) :
    Safe (previewSelection selection length) (fun _ => True) ledger := by
  refine safe_request.bind fun _ ledger₁ _ => safe_issue fun answer => safe_settle fun receipt => ?_
  refine safe_read ?_
  split
  · exact safe_pure trivial
  · exact safe_previewBytesSelectedWithLedger hlength

theorem safe_headWindow (size n : Nat) :
    Safe (headWindow provider selection size n) (fun _ => True) ledger := by
  refine safe_read ((safe_guardedRangeBytes _ _ _).bind fun out ledger₁ hwindow => ?_)
  have hfits := hwindow.fits
  refine safe_orRaise fun _ _ => safe_ofExcept (clean_parseLinesUpTo (by omega)) ?_
  intro selected _
  refine safe_read ?_
  split
  · exact safe_raise
  · exact safe_reportLines _ _ _

theorem safe_headSelection (n : Nat) :
    Safe (headSelection provider selection n) (fun _ => True) ledger := by
  refine (safe_selectedSize _).bind fun size ledger₁ _ => ?_
  split
  · exact safe_pure trivial
  refine (safe_lineProbe _ _).bind fun probe ledger₂ hfits => ?_
  refine safe_ofExcept (clean_parseLinesUpTo (by omega)) fun lines _ => ?_
  split
  · exact safe_reportLines _ _ _
  · exact safe_headWindow _ _

theorem safe_previousByteOf (start : Nat) :
    Safe (previousByteOf selection start) (fun _ => True) ledger := by
  rw [previousByteOf]
  split
  · exact safe_pure trivial
  · refine safe_ofExcept_ok (subU64_of_le (by omega)) ?_
    exact (safe_guardedRangeBytes _ _ _).bind fun _ _ _ => safe_pure trivial

/-- Behind the suffix window of a source, nothing runs over: the window starts in
the source and is no longer than its rest. -/
theorem safe_tailWindow {size n : Nat} {forceStream : Bool} (hsize : size < u64Bound)
    (hn : 1 ≤ n) :
    Safe (tailWindow provider selection size n forceStream) (fun _ => True) ledger := by
  refine safe_read ?_
  have hlength := windowLength_le size ledger.budget
  obtain ⟨start, hstart, hinside, -⟩ := tailStart_ok hlength forceStream
  refine safe_ofExcept_ok hstart ?_
  refine (safe_previousByteOf _).bind fun previous ledger₁ _ => ?_
  refine (safe_guardedRangeBytes _ _ _).bind fun out ledger₂ hwindow => ?_
  obtain ⟨bytes, receipt⟩ := out
  obtain ⟨hle, hfits, -⟩ := hwindow
  simp only at hle hfits
  obtain ⟨aligned, haligned, hwithin, -⟩ :=
    tailAlignment_spec start previous (by omega : bytes.length < u64Bound)
  refine safe_ofExcept_ok haligned (safe_ofExcept_ok (sliceFrom_of_le hwithin) ?_)
  refine safe_orRaise fun _ _ => safe_read ?_
  split
  · exact safe_raise
  refine safe_ofExcept_ok (addU64_of_lt (by omega)) ?_
  refine safe_ofExcept (clean_parseTailLinesBounded hn ?_) fun selected _ => ?_
  · rw [List.length_drop]
    omega
  split
  · exact safe_raise
  · exact safe_reportLines _ _ _

theorem safe_tailSelection {n : Nat} {forceStream : Bool} (hn : 1 ≤ n) :
    Safe (tailSelection provider selection n forceStream) (fun _ => True) ledger := by
  refine (safe_selectedSize _).bind fun size ledger₁ hsize => ?_
  split
  · exact safe_pure trivial
  · exact (safe_lineProbe _ _).bind fun _ ledger₂ _ => safe_tailWindow hsize hn

/-- The midpoint window starts at or before the midpoint, and ends in the source. -/
theorem safe_midWindow {size n : Nat} {forceStream : Bool} (hsize : size < u64Bound) :
    Safe (midWindow provider selection size n forceStream) (fun _ => True) ledger := by
  refine safe_read ?_
  have hlength := windowLength_le size ledger.budget
  dsimp only
  generalize hstart : (if forceStream then 0
    else size / 2 - windowLength size ledger.budget / 2) = start
  obtain ⟨-, hinside⟩ := midStart_inside hlength hstart
  refine safe_ofExcept_ok (midRequested_ok hlength hstart) ?_
  refine (safe_guardedRangeBytes _ _ _).bind fun out ledger₁ hwindow => ?_
  obtain ⟨bytes, receipt⟩ := out
  obtain ⟨hbytes, hfits, -⟩ := hwindow
  simp only at hbytes hfits
  refine safe_read ?_
  split
  · exact safe_raise
  refine safe_ofExcept_ok (midpointInSlice_ok hlength hstart) ?_
  obtain ⟨aligned, haligned, hwithin, -⟩ := midAlignment_spec (size / 2 - start) start
    (provesEof receipt) (by omega : bytes.length < u64Bound)
  refine safe_ofExcept_ok haligned (safe_ofExcept_ok (sliceFrom_of_le hwithin) ?_)
  refine safe_orRaise fun _ _ => safe_ofExcept_ok (addU64_of_lt (by omega)) ?_
  refine safe_ofExcept (clean_parseLinesUpTo ?_) fun selected _ => ?_
  · show start + aligned + (bytes.drop aligned).length < u64Bound
    rw [List.length_drop]
    omega
  split
  · exact safe_raise
  · exact safe_reportLines _ _ _

theorem safe_midSelection {n : Nat} {forceStream : Bool} :
    Safe (midSelection provider selection n forceStream) (fun _ => True) ledger := by
  refine (safe_selectedSize _).bind fun size ledger₁ hsize => ?_
  split
  · exact safe_pure trivial
  · exact (safe_lineProbe _ _).bind fun _ ledger₂ _ => safe_midWindow hsize

theorem safe_countSelection : Safe (countSelection provider selection) (fun _ => True) ledger := by
  refine (safe_selectedSize _).bind fun size ledger₁ _ => safe_read ?_
  split
  · exact safe_pure trivial
  split
  · exact safe_raise
  split
  · exact safe_raise
  refine (safe_lineProbe _ _).bind fun _ ledger₂ _ => ?_
  refine (safe_guardedRangeBytes _ _ _).bind fun out ledger₃ hwindow => safe_read ?_
  split
  · exact safe_raise
  refine safe_orRaise fun _ _ => ?_
  exact Script.ensures_ofExcept trivial (fun _ _ => trivial)
    fun failure hfailure hpanic => clean_countLinesBounded (Nat.lt_of_succ_lt hwindow.fits)
      (hpanic ▸ hfailure)

end Ledger

/-! ## Every call -/

section Sessions

variable {provider : StorageProvider} {key : String} {state : Option InspectionLedger}

theorem safe_withLedger {α : Type} {ledger : InspectionLedger} {body : Inspect α}
    {ok : α → Prop} (h : Safe body ok ledger) : Safe (withLedger ledger body) ok state :=
  ensures_withLedger h

theorem safe_startClock : Safe startClock (fun _ => True) state :=
  ⟨trivial, fun _ _ _ => ⟨trivial, trivial⟩⟩

theorem safe_new (providerKind : ProviderKind) (operation : StorageOperation)
    (budget : InspectionBudget) :
    Safe (InspectionLedger.new providerKind operation budget) (fun _ => True) state := by
  refine safe_orRaise fun _ _ => safe_startClock.bind fun now _ _ => ?_
  cases now.checkedAdd budget.wallTime with
  | none => exact safe_raise
  | some _ => exact safe_pure trivial

/-- The report is only returned under its constructor. -/
theorem safe_answer {α β : Type} {f : α → β} {script : Session α}
    (h : Safe script (fun _ => True) state) :
    Safe (do return f (← script)) (fun _ => True) state :=
  h.bind fun _ _ _ => safe_pure trivial

theorem safe_inspectSource {α : Type} {operation : StorageOperation} {budget : InspectionBudget}
    {body : GuardedReadSelection → Inspect α}
    (h : ∀ selection ledger, Safe (body selection) (fun _ => True) ledger) :
    Safe (inspectSource provider key operation budget body) (fun _ => True) state := by
  refine (safe_new _ _ _).bind fun ledger _ _ => safe_withLedger (safe_orRaise fun guarded _ => ?_)
  exact (safe_observeAndBind guarded key).bind fun bound ledger' _ => h bound.1 ledger'

theorem safe_previewLedger (providerKind : ProviderKind) (length : Nat)
    (budget : InspectionBudget) :
    Safe (previewLedger providerKind length budget) (fun _ => 0 < length) state := by
  rw [previewLedger]
  split
  · exact safe_raise
  · refine (safe_new _ _ _).bind fun ledger _ _ => safe_orRaise fun _ _ => safe_pure ?_
    omega

/-- Accepted options ask for at least one line. -/
theorem safe_lineBudget {α : Type} {operation : StorageOperation} {n : Nat} {options : LineOptions}
    {next : InspectionBudget → Session α}
    (h : ∀ budget, 1 ≤ n → Safe (next budget) (fun _ => True) state) :
    Safe (orRaise (lineBudget operation n options) >>= next) (fun _ => True) state := by
  refine safe_orRaise fun budget hbudget => h budget ?_
  obtain ⟨rfl, hadmitted⟩ := lineBudget_ok_iff.mp hbudget
  exact hadmitted.lines_pos

theorem Call.safe (call : Call) : Safe call.session (fun _ => True) state := by
  cases call with
  | previewBytes provider key length budget =>
      refine safe_answer ?_
      refine (safe_previewLedger _ _ _).bind fun ledger _ hlength => ?_
      refine safe_withLedger (safe_orRaise fun guarded _ => ?_)
      exact (safe_observeAndBind guarded key).bind fun _ _ _ => safe_previewSelection hlength
  | previewBytesSelected providerKind selection length budget =>
      refine safe_answer ?_
      refine (safe_previewLedger _ _ _).bind fun ledger _ hlength => ?_
      exact safe_withLedger (safe_previewSelection hlength)
  | headLines provider key n options =>
      refine safe_answer ?_
      exact safe_lineBudget fun budget _ => safe_inspectSource fun _ _ => safe_headSelection n
  | tailLines provider key n options =>
      refine safe_answer ?_
      rw [tailLinesWithOptions]
      split
      · exact safe_raise
      · exact safe_lineBudget fun budget hn => safe_inspectSource fun _ _ => safe_tailSelection hn
  | midLines provider key n options =>
      refine safe_answer ?_
      rw [midLinesWithOptions]
      split
      · exact safe_raise
      · exact safe_lineBudget fun budget _ => safe_inspectSource fun _ _ => safe_midSelection
  | countLines provider key =>
      refine safe_answer ?_
      exact safe_inspectSource fun _ _ => safe_countSelection

end Sessions

/-- No run of an operation panics, whatever its arguments and whatever the provider,
the bodies and the clock answer. -/
theorem Call.never_panics (call : Call) (transcript : Transcript)
    (final : Option InspectionLedger) :
    ¬ Trace (call.session none) transcript (.ret (.error .panic, final)) := by
  intro htrace
  have hsafe : Safe call.session (fun _ => True) none := call.safe
  exact Program.Ensures.of_finished hsafe htrace (accepts_anyAnswer transcript) rfl

end Storageprims

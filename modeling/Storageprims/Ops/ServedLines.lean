import Storageprims.Ops.LineOps
import Storageprims.Ops.Reports
import Storageprims.Ops.ServedWindow

/-!
# Stages of a line operation

What the stages that the line operations share do against a provider that serves one
object: the opening, the probe, the byte in front of a window and the report.  As for the
windows below them there is one rule a stage for both readings: under `steady` the ledger
has room for the stage, and then the stage does not fail.
-/

namespace Storageprims

open Interaction InspectionLedger

/-! ## Room -/

/-- The limits that no option of a line operation changes. -/
structure DefaultLimits (budget : InspectionBudget) : Prop where
  admitted : budget.Admitted
  payload : budget.payloadBytes = 8 * 1024 * 1024
  requests : budget.helperRequests = 16
  output : budget.outputBytes = 1024 * 1024
  pending : budget.pendingLineBytes = 1024 * 1024

theorem DefaultLimits.windowLength {budget : InspectionBudget} (h : DefaultLimits budget)
    (size : Nat) : windowLength size budget = min size (1024 * 1024) := by
  rw [Storageprims.windowLength, h.pending, h.payload]
  omega

theorem default_limits : DefaultLimits InspectionBudget.default :=
  ⟨InspectionBudget.default_admitted, rfl, rfl, rfl, rfl⟩

/-- A ledger that has spent at most so many requests and so much payload, and has
reported nothing. -/
structure HasRoom (ledger : InspectionLedger) (requests payload : Nat) : Prop where
  limits : DefaultLimits ledger.budget
  clock : 0 < ledger.deadline
  requests_le : ledger.helperRequests ≤ requests
  payload_le : ledger.payloadBytes ≤ payload
  output_eq : ledger.outputBytes = 0

/-- A provider with guarded reads, and a key that can name an object. -/
structure Readable (provider : StorageProvider) (key : String) : Prop where
  guarded : provider.guardedReads.isSome
  named : key ≠ ""

variable {object : List UInt8} {stated : Prop} {within : Option Duration} {steady : Prop}
variable {ledger : InspectionLedger} {outer : Serving}
variable {provider : StorageProvider} {key : String} {selection : GuardedReadSelection}
variable {requests payload : Nat}

theorem HasRoom.request (h : HasRoom ledger requests payload) :
    HasRoom { ledger with helperRequests := ledger.helperRequests + 1 } (requests + 1) payload :=
  ⟨h.limits, h.clock, Nat.succ_le_succ h.requests_le, h.payload_le, h.output_eq⟩

theorem HasRoom.fits (h : HasRoom ledger requests payload) (hrequests : requests < 16) :
    ledger.helperRequests + 1 ≤ ledger.budget.helperRequests ∧
      ledger.helperRequests + 1 < 2 ^ 32 := by
  have hlimit := h.limits.requests
  have hused := h.requests_le
  omega

/-- The texts of one window fit in the output. -/
theorem HasRoom.output (h : HasRoom ledger requests payload) {bytes : Nat}
    (hbytes : bytes ≤ 1024 * 1024) :
    ledger.outputBytes + bytes ≤ ledger.budget.outputBytes ∧
      ledger.outputBytes + bytes < u64Bound := by
  have hlimit := h.limits.output
  have hnone := h.output_eq
  have hbound : 1024 * 1024 < u64Bound := by decide
  omega

/-! ## Ranges -/

/-- A range of the object, when the ledger has room for it. -/
theorem delivers_range {offset length : Nat} (hpos : 0 < length)
    (hroom : steady → within.isSome ∧ HasRoom ledger requests payload)
    (hfits : steady → requests < 16 ∧ payload + (length + 1) ≤ 8 * 1024 * 1024)
    (hrange : steady → Satisfiable object offset length) :
    Delivers object stated within steady (guardedRangeBytes selection offset length)
      (fun out ledger' _ => Satisfiable object offset length ∧
        out.1 = (object.drop offset).take length ∧
        DescribesWindow object (stated ∨ within.isSome) offset length out.2 ∧
        ledger'.budget = ledger.budget ∧
        (steady → HasRoom ledger' (requests + 1) (payload + length))) ledger outer := by
  have hbound : 8 * 1024 * 1024 < u64Bound := by decide
  refine (delivers_guardedRangeBytes hpos (fun hs => ?_) (fun hs => ?_) (fun hs => ?_)
    hrange).mono ?_
  · exact ⟨(hroom hs).1, (hroom hs).2.clock⟩
  · exact (hroom hs).2.fits (hfits hs).1
  · have hlimit := (hroom hs).2.limits.payload
    have hused := (hroom hs).2.payload_le
    have hleft := (hfits hs).2
    omega
  · rintro ⟨bytes, receipt⟩ ledger' outer' ⟨hrange', hbytes, hreceipt, -, rfl⟩
    change bytes = _ at hbytes
    refine ⟨hrange', hbytes, hreceipt, rfl, fun hs => ?_⟩
    have hused := (hroom hs).2.payload_le
    have hshort : bytes.length ≤ length := hbytes ▸ List.length_take_le _ _
    refine ⟨(hroom hs).2.limits, (hroom hs).2.clock, Nat.succ_le_succ (hroom hs).2.requests_le, ?_,
      (hroom hs).2.output_eq⟩
    exact Nat.add_le_add hused hshort

/-- The probe is a prefix of the object, and no binary. -/
theorem delivers_lineProbe (hbudget : ledger.budget.Admitted) (hpos : 0 < object.length)
    (hsteady : steady → within.isSome ∧ HasRoom ledger 2 0 ∧
      rejectBinaryPrefix (object.take ledger.budget.probeSize) ledger.provider ledger.operation =
        .ok ()) :
    Delivers object stated within steady (lineProbe selection object.length)
      (fun out ledger' _ => ledger'.budget = ledger.budget ∧
        rejectBinaryPrefix (object.take ledger.budget.probeSize) ledger.provider
          ledger.operation = .ok () ∧
        (∃ length, length ≤ 1024 * 1024 ∧ Satisfiable object 0 length ∧
          out.1 = object.take length ∧
          DescribesWindow object (stated ∨ within.isSome) 0 length out.2) ∧
        (steady → HasRoom ledger' 3 (1024 * 1024))) ledger outer := by
  have hprobe := hbudget.probe_pos
  have hcap : ledger.budget.probeSize ≤ 1024 * 1024 := hbudget.probe_le
  have hbound : 1024 * 1024 < u64Bound := by decide
  refine delivers_read (Delivers.bind (delivers_range (by omega)
    (fun hs => ⟨(hsteady hs).1, (hsteady hs).2.1⟩) (fun _ => ⟨by omega, by omega⟩)
    fun _ => ⟨by omega, hpos, by omega⟩) ?_)
  rintro ⟨probe, receipt⟩ ledger' outer' ⟨hrange, hbytes, hreceipt, hsame, hroom⟩
  rw [List.drop_zero] at hbytes
  -- the probe stops at the end of the object, and so does the prefix
  have hprefix : probe = object.take ledger.budget.probeSize := by
    rw [← List.take_take] at hbytes
    exact hbytes.trans (List.take_of_length_le (List.length_take_le' _ _))
  refine delivers_orRaise (fun hs => ⟨(), hprefix ▸ (hsteady hs).2.2⟩) fun _ haccepted => ?_
  refine delivers_pure ⟨hsame, hprefix ▸ haccepted, ⟨_, by omega, hrange, hbytes, hreceipt⟩,
    fun hs => ?_⟩
  exact ⟨(hroom hs).limits, (hroom hs).clock, (hroom hs).requests_le,
    (hroom hs).payload_le.trans (by omega), (hroom hs).output_eq⟩

/-- The byte in front of a window costs one request and one byte. -/
theorem delivers_previousByteOf {start : Nat} (hstart : start < object.length)
    (hsteady : steady → within.isSome ∧ HasRoom ledger 3 (1024 * 1024) ∧
      object.length < u64Bound) :
    Delivers object stated within steady (previousByteOf selection start)
      (fun previous ledger' _ => ledger'.budget = ledger.budget ∧
        (0 < start → previous = object[start - 1]?) ∧
        (steady → HasRoom ledger' 4 (1024 * 1024 + 1))) ledger outer := by
  rw [previousByteOf]
  by_cases hzero : start = 0
  · rw [if_pos hzero]
    refine delivers_pure ⟨rfl, fun hpos => absurd hzero (Nat.ne_of_gt hpos), fun hs => ?_⟩
    have hroom := (hsteady hs).2.1
    exact ⟨hroom.limits, hroom.clock, hroom.requests_le.trans (Nat.le_succ _),
      hroom.payload_le.trans (Nat.le_succ _), hroom.output_eq⟩
  · rw [if_neg hzero, subU64_of_le (by omega), Script.ofExcept_ok_bind]
    refine Delivers.bind (delivers_range Nat.one_pos
      (fun hs => ⟨(hsteady hs).1, (hsteady hs).2.1⟩) (fun _ => ⟨by omega, by omega⟩)
      fun hs => ⟨Nat.one_pos, by omega, ?_⟩) ?_
    · have hobject := (hsteady hs).2.2
      omega
    rintro ⟨previous, receipt⟩ ledger' outer' ⟨-, hprevious, -, hsame, hroom⟩
    change previous = (object.drop (start - 1)).take 1 at hprevious
    refine delivers_pure ⟨hsame, fun _ => ?_, hroom⟩
    rw [hprevious, List.head?_take, if_neg Nat.one_ne_zero, List.head?_drop]

/-! ## Reports -/

/-- Lines that fit in the output are reported. -/
theorem delivers_reportLines {lines : List ParsedLine} {size : Nat} {strategy : ReadStrategy}
    (hroom : steady →
      ledger.outputBytes + textBytes (lines.map ParsedLine.text) ≤ ledger.budget.outputBytes ∧
      ledger.outputBytes + textBytes (lines.map ParsedLine.text) < u64Bound) :
    Delivers object stated within steady (reportLines lines size strategy)
      (fun result _ _ => result = buildLineResult lines size strategy) ledger outer := by
  have happly : Delivers object stated within steady (applyLineOutputBudget lines)
      (fun _ _ _ => True) ledger outer := by
    refine delivers_read ?_
    cases hlength : outputLength lines with
    | none =>
        refine delivers_raise fun hs => ?_
        have hfits := (hroom hs).2
        have hsum : outputLength lines = some (0 + textBytes (lines.map ParsedLine.text)) :=
          outputLength_of_lt (by omega)
        rw [hsum] at hlength
        cases hlength
    | some outputBytes =>
        rw [outputLength_eq hlength]
        exact (delivers_admitOutput hroom).mono fun _ _ _ _ => trivial
  exact happly.bind fun _ _ _ _ => delivers_pure rfl

/-! ## Opening and probing -/

/-- The selected source is the object.  An empty one is reported at once, any other is
probed first. -/
theorem delivers_probed {α : Type} {empty : α}
    {next : Nat → List UInt8 × SourceReceipt → Inspect α} {good : α → Prop}
    (hbudget : ledger.budget.Admitted) (hempty : object = [] → good empty)
    (hsteady : steady → within.isSome ∧ HasRoom ledger 1 0 ∧
      rejectBinaryPrefix (object.take ledger.budget.probeSize) ledger.provider ledger.operation =
        .ok ())
    (hnext : ∀ length receipt ledger' outer', 0 < object.length →
      ledger'.budget = ledger.budget → Satisfiable object 0 length →
      DescribesWindow object (stated ∨ within.isSome) 0 length receipt →
      rejectBinaryPrefix (object.take ledger.budget.probeSize) ledger.provider ledger.operation =
        .ok () →
      (steady → HasRoom ledger' 3 (1024 * 1024)) →
      Delivers object stated within steady (next object.length (object.take length, receipt))
        (fun result _ _ => good result) ledger' outer') :
    Delivers object stated within steady (selectedSize selection >>= fun size =>
      if size = 0 then pure empty else lineProbe selection size >>= next size)
      (fun result _ _ => good result) ledger outer := by
  refine Delivers.bind (delivers_selectedSize (fun hs => ?_) fun hs => ?_) ?_
  · exact ⟨(hsteady hs).1, (hsteady hs).2.1.clock⟩
  · exact (hsteady hs).2.1.fits (by omega)
  rintro size ledger₁ outer₁ ⟨rfl, rfl⟩
  by_cases hzero : object.length = 0
  · rw [if_pos hzero]
    exact delivers_pure (hempty (List.length_eq_zero_iff.mp hzero))
  rw [if_neg hzero]
  have hpos : 0 < object.length := Nat.pos_of_ne_zero hzero
  refine Delivers.bind (delivers_lineProbe (by exact hbudget) hpos fun hs => ?_) ?_
  · exact ⟨(hsteady hs).1, (hsteady hs).2.1.request, (hsteady hs).2.2⟩
  rintro ⟨probe, receipt⟩ ledger₂ outer₂
    ⟨hsame, haccepted, ⟨length, -, hrange, rfl, hreceipt⟩, hroom⟩
  exact hnext length receipt ledger₂ outer₂ hpos hsame hrange hreceipt haccepted hroom

/-- The opening of a line operation leaves all the room, and the bound selection, to its
body. -/
theorem delivers_inspectSource {α : Type} {operation : StorageOperation}
    {budget : InspectionBudget} {body : GuardedReadSelection → Inspect α} {good : α → Prop}
    {state : Option InspectionLedger}
    (hsteady : steady → within = some budget.wallTime ∧ DefaultLimits budget ∧
      Readable provider key)
    (hbody : ∀ selection ledger outer, ledger.budget = budget → budget.Admitted →
      ledger.provider = provider.providerKind → ledger.operation = operation →
      Readable provider key → (steady → HasRoom ledger 1 0) →
      Delivers object stated within steady (body selection) (fun value _ _ => good value) ledger
        outer) :
    Delivers object stated within steady (inspectSource provider key operation budget body)
      (fun value _ _ => good value) state outer := by
  refine Delivers.bind (delivers_new (fun hs => (hsteady hs).2.1.admitted)
    fun hs => (hsteady hs).1) ?_
  rintro ledger state₁ outer₁ ⟨hadmitted, hclock, hledger⟩
  have hsome : steady → within.isSome := fun hs => by
    rw [(hsteady hs).1]
    rfl
  have hroom : steady → HasRoom ledger 0 0 := fun hs => by
    rw [hledger]
    exact ⟨(hsteady hs).2.1, hclock, Nat.le_refl _, Nat.le_refl _, rfl⟩
  refine delivers_withLedger (delivers_orRaise (fun hs => ?_) fun guarded hguarded => ?_)
  · obtain ⟨guarded, hguarded⟩ := Option.isSome_iff_exists.mp (hsteady hs).2.2.guarded
    exact ⟨guarded, by rw [requireGuardedReads, hguarded]⟩
  refine Delivers.bind (delivers_observeAndBind (fun hs => ⟨hsome hs, (hroom hs).clock⟩)
    (fun hs => (hroom hs).fits (by omega)) fun hs => (hsteady hs).2.2.named) ?_
  rintro ⟨selection, receipt⟩ ledger₂ outer₂ ⟨hkey, rfl⟩
  -- a call that gets here had a provider with guarded reads and a key
  have hreadable : Readable provider key := by
    refine ⟨?_, hkey ▸ selection.key_nonempty⟩
    cases hreads : provider.guardedReads with
    | none =>
        rw [requireGuardedReads, hreads] at hguarded
        cases hguarded
    | some guarded => rfl
  refine hbody selection _ outer₂ ?_ hadmitted ?_ ?_ hreadable fun hs => (hroom hs).request
  · rw [hledger]
  · rw [hledger]
  · rw [hledger]

/-- An accepted line budget keeps the default limits, and asks for a line. -/
theorem delivers_lineBudget {α : Type} {operation : StorageOperation} {n : Nat}
    {options : LineOptions} {next : InspectionBudget → Session α} {good : α → Prop}
    {state : Option InspectionLedger}
    (hsteady : steady → ∃ budget, lineBudget operation n options = .ok budget)
    (hnext : ∀ budget, lineBudget operation n options = .ok budget → DefaultLimits budget →
      1 ≤ n → budget.wallTime = InspectionBudget.default.wallTime →
      budget.probeSize = options.probeSize →
      Delivers object stated within steady (next budget) (fun value _ _ => good value) state
        outer) :
    Delivers object stated within steady (orRaise (lineBudget operation n options) >>= next)
      (fun value _ _ => good value) state outer := by
  refine delivers_orRaise hsteady fun budget hbudget => ?_
  obtain ⟨hdefault, hadmitted⟩ := lineBudget_ok_iff.mp hbudget
  refine hnext budget hbudget ⟨hadmitted, ?_, ?_, ?_, ?_⟩ ?_ ?_ ?_
  · rw [hdefault]
    rfl
  · rw [hdefault]
    rfl
  · rw [hdefault]
    rfl
  · rw [hdefault]
    rfl
  · have hlines := hadmitted.lines_pos
    rwa [hdefault] at hlines
  · rw [hdefault]
  · rw [hdefault]

end Storageprims

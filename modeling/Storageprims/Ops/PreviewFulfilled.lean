import Storageprims.Ops.Preview
import Storageprims.Ops.ServedWindow

/-!
# Which previews can be fulfilled

A preview that passes its up-front check is read through one guarded range, and
the range reserves one byte more than the preview asks for.  The two inequalities
differ: at a length equal to the payload budget the check passes and the
reservation never fits, unless the object is empty and no range is read.  Nor does a
preview start when its deadline lies behind the last instant that the clock represents.
-/

namespace Storageprims

open Interaction InspectionLedger

variable {object : List UInt8} {stated : Prop} {within : Option Duration} {steady : Prop}
variable {ledger : InspectionLedger} {outer : Serving}

/-- What a fulfilled preview returns. -/
structure PreviewOf (object : List UInt8) (length : Nat) (preview : BytePreview) : Prop where
  bytes : preview.bytes = object.take length
  consumed : preview.consumedPayloadBytes = preview.bytes.length
  requests : preview.helperRequests ≤ 3

/-- The ledger has room for the rest of a preview. -/
structure RoomFor (length : Nat) (ledger : InspectionLedger) : Prop where
  requests : ledger.helperRequests + 2 ≤ ledger.budget.helperRequests
  payload : ledger.payloadBytes + (length + 1) ≤ ledger.budget.payloadBytes
  output : ledger.outputBytes + length ≤ ledger.budget.outputBytes

theorem delivers_previewSelection {selection : GuardedReadSelection} {length : Nat}
    (hlength : 0 < length) (hbudget : ledger.budget.Admitted) (hstart : ledger.helperRequests ≤ 1)
    (hclock : steady → within.isSome ∧ 0 < ledger.deadline)
    (hrequests : steady → ledger.helperRequests + 2 ≤ ledger.budget.helperRequests)
    (hroom : steady → object = [] ∨ RoomFor length ledger) :
    Delivers object stated within steady (previewSelection selection length)
      (fun preview _ _ => PreviewOf object length preview ∧
        (object = [] ∨ ledger.payloadBytes + (length + 1) ≤ ledger.budget.payloadBytes))
      ledger outer := by
  have hcap : ledger.budget.helperRequests ≤ 64 := hbudget.requests_le
  have hpayloadCap : ledger.budget.payloadBytes ≤ 64 * 1024 * 1024 := hbudget.payload_le
  have houtputCap : ledger.budget.outputBytes ≤ 8 * 1024 * 1024 := hbudget.output_le
  have hbound : u64Bound = 2 ^ 64 := rfl
  refine (delivers_request hclock fun hs => by have := hrequests hs; omega).bind ?_
  rintro - ledger₁ outer₁ ⟨rfl, rfl⟩
  refine ensures_bind_issue.mpr ⟨trivial, ?_⟩
  rintro (answer : Awaited (Except StorageError SourceReceipt)) outer₂
    ⟨rfl, ⟨receipt, rfl, hsize⟩ | ⟨hwithin, hfault⟩⟩
  · refine delivers_settled (delivers_read ?_)
    -- an object that is known to be empty is answered without a range
    by_cases hzero : receipt.totalSize = some 0
    · obtain rfl : object = [] := List.length_eq_zero_iff.mp (hsize.total 0 hzero).symm
      rw [if_pos hzero]
      exact delivers_pure ⟨⟨by rw [List.take_nil], rfl, by simp only; omega⟩, .inl rfl⟩
    · rw [if_neg hzero]
      have hne : steady → object ≠ [] := fun hs hnil => by
        rw [hsize.totalSize_eq (hclock hs).1, hnil] at hzero
        exact hzero rfl
      have hroom' : steady → RoomFor length ledger := fun hs => (hroom hs).resolve_left (hne hs)
      refine Delivers.bind (delivers_guardedRangeBytes hlength (by exact hclock)
        (fun hs => by
          have := (hroom' hs).requests
          exact ⟨by simp only; omega, by simp only; omega⟩)
        (fun hs => by have := (hroom' hs).payload; exact ⟨this, by simp only; omega⟩)
        (fun hs => ⟨hlength, List.length_pos_of_ne_nil (hne hs), by
          have := (hroom' hs).payload; omega⟩)) ?_
      rintro ⟨bytes, receipt'⟩ ledger₂ outer₃ ⟨hrange, hbytes, hdescribes, hadmitted, rfl⟩
      change bytes = (object.drop 0).take length at hbytes
      have hconsumed := hdescribes.checkedLen hrange
      rw [← hbytes] at hconsumed
      have hshort : bytes.length ≤ length := by
        rw [hbytes]
        exact List.length_take_le _ _
      refine Delivers.bind (delivers_admitOutput fun hs => by
        have := (hroom' hs).output; exact ⟨by simp only; omega, by simp only; omega⟩) ?_
      rintro - ledger₃ outer₄ ⟨rfl, rfl⟩
      refine delivers_read ?_
      rw [hconsumed]
      exact delivers_pure ⟨⟨hbytes.trans (by rw [List.drop_zero]), rfl, by simp only; omega⟩,
        .inr hadmitted⟩
  · refine delivers_fault hfault fun hs => ?_
    have hsome := (hclock hs).1
    rw [hwithin] at hsome
    cases hsome

/-- The checks made before the first request, and the ledger they leave. -/
theorem delivers_previewLedger {provider : ProviderKind} {length : Nat}
    {budget : InspectionBudget} {state : Option InspectionLedger}
    (hvalid : steady → budget.Admitted) (hwithin : steady → within = some budget.wallTime)
    (hlength : steady → 0 < length ∧ length ≤ budget.payloadBytes ∧ length ≤ budget.outputBytes) :
    Delivers object stated within steady (previewLedger provider length budget)
      (fun ledger _ _ => 0 < length ∧ length ≤ budget.payloadBytes ∧
        length ≤ budget.outputBytes ∧ budget.Admitted ∧ 0 < ledger.deadline ∧
        ledger.budget = budget ∧ ledger.helperRequests = 0 ∧ ledger.payloadBytes = 0 ∧
        ledger.outputBytes = 0) state outer := by
  rw [previewLedger]
  by_cases hzero : length = 0
  · rw [if_pos hzero]
    exact delivers_raise fun hs => absurd hzero (Nat.ne_of_gt (hlength hs).1)
  rw [if_neg hzero]
  refine Delivers.bind (delivers_new hvalid hwithin) ?_
  rintro ledger state₁ outer₁ ⟨hadmitted, hdeadline, hledger⟩
  have hbudget : ledger.budget = budget := by rw [hledger]
  refine delivers_orRaise (fun hs => ⟨(), ?_⟩) fun _ hchecked => ?_
  · rw [validatePreviewRequest, hbudget, if_neg (by have := hlength hs; omega),
      if_neg (by have := hlength hs; omega)]
  have hfits : length ≤ budget.payloadBytes ∧ length ≤ budget.outputBytes := by
    rw [validatePreviewRequest, hbudget] at hchecked
    split at hchecked
    · cases hchecked
    · split at hchecked
      · cases hchecked
      · omega
  exact delivers_pure ⟨Nat.pos_of_ne_zero hzero, hfits.1, hfits.2, hadmitted, hdeadline,
    hbudget, by rw [hledger], by rw [hledger], by rw [hledger]⟩

theorem delivers_previewBytes {provider : StorageProvider} {key : String} {length : Nat}
    {budget : InspectionBudget} {state : Option InspectionLedger}
    (hsteady : steady → budget.Admitted ∧ within = some budget.wallTime ∧
      (0 < length ∧ length ≤ budget.payloadBytes ∧ length ≤ budget.outputBytes) ∧
      3 ≤ budget.helperRequests ∧ provider.guardedReads.isSome ∧ key ≠ "")
    (hroom : steady → object = [] ∨ length < budget.payloadBytes) :
    Delivers object stated within steady (previewBytes provider key length budget)
      (fun preview _ _ => PreviewOf object length preview ∧
        (object = [] ∨ length < budget.payloadBytes)) state outer := by
  refine Delivers.bind (delivers_previewLedger (fun hs => (hsteady hs).1)
    (fun hs => (hsteady hs).2.1) fun hs => (hsteady hs).2.2.1) ?_
  rintro ledger state₁ outer₁ ⟨hpos, hpayload, houtput, hadmitted, hdeadline, rfl, hrequests,
    hpayload₀, houtput₀⟩
  have hclock : steady → within.isSome ∧ 0 < ledger.deadline := fun hs =>
    ⟨by rw [(hsteady hs).2.1]; rfl, hdeadline⟩
  refine delivers_withLedger (delivers_orRaise (fun hs => ?_) fun guarded _ => ?_)
  · obtain ⟨guarded, hguarded⟩ := Option.isSome_iff_exists.mp (hsteady hs).2.2.2.2.1
    exact ⟨guarded, by rw [requireGuardedReads, hguarded]⟩
  refine Delivers.bind (delivers_observeAndBind hclock
    (fun hs => by have := (hsteady hs).2.2.2.1; exact ⟨by omega, by omega⟩)
    fun hs => (hsteady hs).2.2.2.2.2) ?_
  rintro ⟨selection, receipt⟩ ledger₃ outer₃ ⟨-, rfl⟩
  refine (delivers_previewSelection hpos (by exact hadmitted) (by simp only; omega)
    (by exact hclock) (fun hs => by have := (hsteady hs).2.2.2.1; simp only; omega)
    fun hs => ?_).mono ?_
  · rcases hroom hs with hempty | hlt
    · exact .inl hempty
    · exact .inr ⟨by have := (hsteady hs).2.2.2.1; simp only; omega, by simp only; omega,
        by simp only; omega⟩
  · rintro preview - - ⟨hpreview, hadmits⟩
    refine ⟨hpreview, hadmits.imp id fun hle => ?_⟩
    simp only at hle
    omega

/-! ## The start of a call -/

/-- The surroundings of `serves`, for a call whose first reading of the clock is
`opening`. -/
def servesFrom (object : List UInt8) (opening : Instant) (wall : Duration) :
    Environment Step Reply Serving := fun state step reply state' =>
  match step, reply with
  | ⟨none, .now⟩, reading => state' = state ∧ reading = opening
  | step, answer => serves object (some wall) state step answer state'

/-- When the clock can represent the deadline, this is one way of serving the object. -/
theorem serves_of_servesFrom {opening : Instant} {wall : Duration}
    (hopening : (opening.checkedAdd wall).isSome) {state state' : Serving} {step : Step}
    {reply : Reply step} (h : servesFrom object opening wall state step reply state') :
    serves object (some wall) state step reply state' := by
  obtain ⟨ledger, request⟩ := step
  cases request with
  | now =>
      cases ledger with
      | none =>
          obtain ⟨rfl, rfl⟩ := h
          exact ⟨rfl, hopening⟩
      | some ledger => exact h
  | read reader capacity => cases ledger <;> exact h
  | observeSource key => cases ledger <;> exact h
  | guardedHead selection => cases ledger <;> exact h
  | guardedGet selection => cases ledger <;> exact h
  | guardedGetRange range => cases ledger <;> exact h
  | head key => cases ledger <;> exact h
  | get key => cases ledger <;> exact h
  | getRange range => cases ledger <;> exact h

/-- The reference provider, with a clock that starts at `opening` and stops in front of
every deadline. -/
def referenceFrom (object : List UInt8) (hobject : object.length < u64Bound) (opening : Instant) :
    Serving → (step : Step) → Reply step × Serving := fun state step =>
  match step with
  | ⟨none, .now⟩ => (opening, state)
  | ⟨some ledger, .now⟩ => ((min opening (ledger.deadline - 1) : Instant), state)
  | step => reference object hobject state step

theorem servesFrom_referenceFrom (hobject : object.length < u64Bound) (opening : Instant)
    (wall : Duration) (state : Serving) (step : Step) :
    servesFrom object opening wall state step (referenceFrom object hobject opening state step).1
      (referenceFrom object hobject opening state step).2 := by
  have hserves : (step = ⟨none, .now⟩ → ∀ span ∈ some wall, span.nanos < instantBound) →
      serves object (some wall) state step (reference object hobject state step).1
        (reference object hobject state step).2 := serves_reference hobject state step
  obtain ⟨ledger, request⟩ := step
  cases request with
  | now =>
      cases ledger with
      | none => exact ⟨rfl, rfl⟩
      | some ledger =>
          exact ⟨rfl, fun hdeadline =>
            Nat.lt_of_le_of_lt (Nat.min_le_right _ _) (Nat.sub_lt hdeadline Nat.one_pos)⟩
  | read reader capacity => cases ledger <;> exact hserves nofun
  | observeSource key => cases ledger <;> exact hserves nofun
  | guardedHead selection => cases ledger <;> exact hserves nofun
  | guardedGet selection => cases ledger <;> exact hserves nofun
  | guardedGetRange range => cases ledger <;> exact hserves nofun
  | head key => cases ledger <;> exact hserves nofun
  | get key => cases ledger <;> exact hserves nofun
  | getRange range => cases ledger <;> exact hserves nofun

/-- A preview whose deadline the clock cannot represent does not start. -/
theorem previewBytes_unstarted {provider : StorageProvider} {key : String} {length : Nat}
    {budget : InspectionBudget} {opening : Instant} {start : Serving} {transcript : Transcript}
    {result : Except Failure BytePreview} (hopening : opening.checkedAdd budget.wallTime = none)
    (hrun : Run (servesFrom object opening budget.wallTime) start
      (previewBytes provider key length budget) transcript result) :
    ∃ failure, result = .error failure := by
  have hnew : Script.Ensures (servesFrom object opening budget.wallTime) (fun _ => True)
      (InspectionLedger.new provider.providerKind .previewBytes budget) (fun _ _ _ => False)
      (fun _ _ _ => True) none start := by
    refine ensures_bind_orRaise (fun _ _ => ⟨trivial, trivial⟩) fun _ _ => ⟨trivial, ?_⟩
    rintro (now : Nat) state' ⟨rfl, rfl⟩
    show Script.Ensures _ _ _ _ _ _ _
    rw [hopening]
    exact ⟨trivial, trivial⟩
  have hledger : Script.Ensures (servesFrom object opening budget.wallTime) (fun _ => True)
      (previewLedger provider.providerKind length budget) (fun _ _ _ => False)
      (fun _ _ _ => True) none start := by
    rw [previewLedger]
    split
    · exact ⟨trivial, trivial⟩
    · exact Script.Ensures.bind hnew fun _ _ _ _ => False.elim
  have hnever : Script.Ensures (servesFrom object opening budget.wallTime) (fun _ => True)
      (previewBytes provider key length budget) (fun _ _ _ => False) (fun _ _ _ => True) none
      start := Script.Ensures.bind hledger fun _ _ _ _ => False.elim
  obtain ⟨ledger, final, htrace, haccepts⟩ := hrun
  have hpost := Program.Ensures.of_finished hnever htrace haccepts
  cases result with
  | ok preview => exact hpost.elim
  | error failure => exact ⟨failure, rfl⟩

/-- A preview that passes its up-front check is fulfilled by every run that no
fault and no deadline cuts short, exactly when the object is empty or the length
is below the payload budget, and the clock can represent the deadline.  Such runs
exist. -/
theorem previewBytes_fulfilled_iff {provider : StorageProvider} {key : String} {length : Nat}
    {budget : InspectionBudget} (opening : Instant) (hobject : object.length < u64Bound)
    (hbudget : validateBudget .previewBytes budget = .ok ()) (hlength : 1 ≤ length)
    (hpayload : length ≤ budget.payloadBytes) (houtput : length ≤ budget.outputBytes)
    (hrequests : 3 ≤ budget.helperRequests) (hguarded : provider.guardedReads.isSome)
    (hkey : key ≠ "") :
    (∃ start transcript result, Run (servesFrom object opening budget.wallTime) start
      (previewBytes provider key length budget) transcript result) ∧
    ((∀ start transcript result, Run (servesFrom object opening budget.wallTime) start
        (previewBytes provider key length budget) transcript result →
        ∃ preview, result = .ok preview ∧ PreviewOf object length preview) ↔
      (object = [] ∨ length < budget.payloadBytes) ∧
        (opening.checkedAdd budget.wallTime).isSome) := by
  have hreference : Run (servesFrom object opening budget.wallTime) ⟨fun _ => []⟩
      (previewBytes provider key length budget) _ _ :=
    ⟨_, _, trace_handled (referenceFrom object hobject opening) _ _ rfl,
      Program.accepts_runWith (servesFrom_referenceFrom hobject opening _) _ _⟩
  have hserved : (opening.checkedAdd budget.wallTime).isSome →
      ∀ {start transcript result}, Run (servesFrom object opening budget.wallTime) start
        (previewBytes provider key length budget) transcript result →
      Run (serves object (some budget.wallTime)) start
        (previewBytes provider key length budget) transcript result := by
    rintro hopening start transcript result ⟨ledger, final, htrace, haccepts⟩
    exact ⟨ledger, final, htrace, haccepts.mono fun _ _ _ _ => serves_of_servesFrom hopening⟩
  refine ⟨⟨_, _, _, hreference⟩, fun hall => ?_, ?_⟩
  · obtain ⟨preview, hresult, -⟩ := hall _ _ _ hreference
    have hopening : (opening.checkedAdd budget.wallTime).isSome := by
      cases hadd : opening.checkedAdd budget.wallTime with
      | some deadline => rfl
      | none =>
          obtain ⟨failure, hfailure⟩ := previewBytes_unstarted hadd hreference
          rw [hresult] at hfailure
          cases hfailure
    rw [hresult] at hreference
    exact ⟨((delivers_previewBytes False.elim False.elim).of_run (hserved hopening hreference)).2,
      hopening⟩
  · rintro ⟨hroom, hopening⟩ start transcript result hrun
    have hdelivers : Delivers object True (some budget.wallTime) True _ _ none start :=
      delivers_previewBytes (fun _ => ⟨validateBudget_ok_iff.mp hbudget, rfl,
        ⟨hlength, hpayload, houtput⟩, hrequests, hguarded, hkey⟩) fun _ => hroom
    obtain ⟨preview, hresult, hpreview, -⟩ :=
      hdelivers.of_steady_run trivial (hserved hopening hrun)
    exact ⟨preview, hresult, hpreview⟩

/-- A budget whose payload is as small as the preview. -/
def tightBudget : InspectionBudget := { InspectionBudget.default with payloadBytes := 1 }

theorem previewBytes_fulfilled_iff_tight :
    (∃ start transcript result, Run (servesFrom [0x61] 0 tightBudget.wallTime) start
      (previewBytes guardedProvider "log.txt" 1 tightBudget) transcript result) ∧
    ((∀ start transcript result, Run (servesFrom [0x61] 0 tightBudget.wallTime) start
        (previewBytes guardedProvider "log.txt" 1 tightBudget) transcript result →
        ∃ preview, result = .ok preview ∧ PreviewOf [0x61] 1 preview) ↔
      ([0x61] = ([] : List UInt8) ∨ 1 < tightBudget.payloadBytes) ∧
        (Instant.checkedAdd 0 tightBudget.wallTime).isSome) :=
  previewBytes_fulfilled_iff 0 (by decide) rfl (by decide) (by decide) (by decide) (by decide)
    rfl (by decide)

/-- One byte of a one-byte object, under a payload budget of one byte: admitted up
front, refused by the reservation. -/
theorem previewBytes_refuses_admitted :
    validateBudget .previewBytes tightBudget = .ok () ∧ 1 ≤ tightBudget.payloadBytes ∧
      1 ≤ tightBudget.outputBytes ∧ 3 ≤ tightBudget.helperRequests ∧
      ∃ start transcript, Run (serves [0x61] (some tightBudget.wallTime)) start
        (previewBytes guardedProvider "log.txt" 1 tightBudget) transcript
        (.error (.error (.inspection (some .s3) .previewBytes .limitExceeded
          (some .payloadBytes) 1 2))) :=
  ⟨rfl, by decide, by decide, by decide, _, _,
    run_reference (by decide) (fun _ h => Option.some.inj h ▸ (by decide)) (by decide +kernel)⟩

end Storageprims

import Storageprims.Ops.Transcript
import Storageprims.Ops.RangeReceipt

/-!
# The ledger covers what an observer sees

Against any behaviour of provider, body streams and clock, the ledger's counters
stay ahead of the transcript: requests are counted before they are issued, and
bytes are reserved, with one more for the probe at the end, before they are
read.  `Metered` relates a ledger to a transcript, `Bounded` is what follows at
every point of a run, and `Accounted` is the rule format of this module.
-/

namespace Storageprims

open Interaction InspectionLedger

/-- What the ledger has reserved covers what an observer has seen. -/
structure Metered (budget : InspectionBudget) (ledger : InspectionLedger)
    (past : Transcript) : Prop where
  same : ledger.budget = budget
  requests : requestsIssued past ≤ ledger.helperRequests
  requests_le : ledger.helperRequests ≤ budget.helperRequests
  pulled : bytesPulled past ≤ ledger.payloadBytes
  pulled_le : ledger.payloadBytes ≤ budget.payloadBytes

/-- The finite bounds at one point of a run. -/
structure Bounded (budget : InspectionBudget) (past : Transcript) : Prop where
  requests : requestsIssued past ≤ budget.helperRequests
  pulled : bytesPulled past ≤ budget.payloadBytes
  ledger : ∀ ledger ∈ lastLedger past, Metered budget ledger past

/-- Against any answers the script keeps the bounds, and it ends, either way,
with a ledger that covers the transcript. -/
def Accounted {α : Type} (budget : InspectionBudget) (script : Inspect α)
    (ok : α → InspectionLedger → Transcript → Prop) (ledger : InspectionLedger)
    (past : Transcript) : Prop :=
  Script.Ensures history (Bounded budget) script
    (fun value ledger' now => Metered budget ledger' now ∧ ok value ledger' now)
    (fun _ ledger' now => Metered budget ledger' now) ledger past

variable {α β : Type} {budget : InspectionBudget} {ledger : InspectionLedger}
variable {past : Transcript}

theorem Accounted.bind {script : Inspect α} {next : α → Inspect β}
    {middle : α → InspectionLedger → Transcript → Prop}
    {ok : β → InspectionLedger → Transcript → Prop}
    (h : Accounted budget script middle ledger past)
    (hnext : ∀ value ledger' now, Bounded budget now → Metered budget ledger' now →
      middle value ledger' now → Accounted budget (next value) ok ledger' now) :
    Accounted budget (script >>= next) ok ledger past :=
  Script.Ensures.bind h fun value ledger' now hbounded hmiddle =>
    hnext value ledger' now hbounded hmiddle.1 hmiddle.2

theorem Accounted.mono {script : Inspect α} {ok ok' : α → InspectionLedger → Transcript → Prop}
    (h : Accounted budget script ok ledger past)
    (himp : ∀ value ledger' now, ok value ledger' now → ok' value ledger' now) :
    Accounted budget script ok' ledger past :=
  Script.Ensures.mono h (fun value ledger' now _ hok => ⟨hok.1, himp value ledger' now hok.2⟩)
    fun _ _ _ _ hfails => hfails

theorem accounted_pure {value : α} {ok : α → InspectionLedger → Transcript → Prop}
    (hbounded : Bounded budget past) (hmetered : Metered budget ledger past)
    (h : ok value ledger past) : Accounted budget (pure value) ok ledger past :=
  Script.ensures_pure.mpr ⟨hbounded, hmetered, h⟩

theorem accounted_raise {error : StorageError} {ok : α → InspectionLedger → Transcript → Prop}
    (hbounded : Bounded budget past) (hmetered : Metered budget ledger past) :
    Accounted budget (raise error) ok ledger past :=
  ensures_raise.mpr ⟨hbounded, hmetered⟩

theorem accounted_read {next : InspectionLedger → Inspect β}
    {ok : β → InspectionLedger → Transcript → Prop}
    (h : Accounted budget (next ledger) ok ledger past) :
    Accounted budget (Script.read >>= next) ok ledger past :=
  Script.ensures_bind_read.mpr h

theorem accounted_ofExcept {result : Except Failure α} {next : α → Inspect β}
    {ok : β → InspectionLedger → Transcript → Prop} (hbounded : Bounded budget past)
    (hmetered : Metered budget ledger past)
    (h : ∀ value, result = .ok value → Accounted budget (next value) ok ledger past) :
    Accounted budget (Script.ofExcept result >>= next) ok ledger past :=
  Script.ensures_bind_ofExcept (fun _ _ => ⟨hbounded, hmetered⟩) h

theorem accounted_orRaise {result : Except StorageError α} {next : α → Inspect β}
    {ok : β → InspectionLedger → Transcript → Prop} (hbounded : Bounded budget past)
    (hmetered : Metered budget ledger past)
    (h : ∀ value, result = .ok value → Accounted budget (next value) ok ledger past) :
    Accounted budget (orRaise result >>= next) ok ledger past :=
  ensures_bind_orRaise (fun _ _ => ⟨hbounded, hmetered⟩) h

theorem accounted_settle {answer : Awaited (Except StorageError α)} {next : α → Inspect β}
    {ok : β → InspectionLedger → Transcript → Prop} (hbounded : Bounded budget past)
    (hmetered : Metered budget ledger past)
    (h : ∀ value, answer = .ready (.ok value) → Accounted budget (next value) ok ledger past) :
    Accounted budget (settle answer >>= next) ok ledger past :=
  ensures_bind_settle (fun _ _ => ⟨hbounded, hmetered⟩) h

theorem Metered.isBounded {event : Event Step Reply} (hledger : event.request.ledger = some ledger)
    (h : Metered budget ledger (past ++ [event])) : Bounded budget (past ++ [event]) := by
  refine ⟨Nat.le_trans h.requests h.requests_le, Nat.le_trans h.pulled h.pulled_le, ?_⟩
  intro ledger' hledger'
  rw [lastLedger_snoc, hledger] at hledger'
  exact Option.some.inj hledger' ▸ h

/-- A request that the ledger covers beforehand keeps the bounds. -/
theorem accounted_issue {request : Request} {next : Response request → Inspect β}
    {ok : β → InspectionLedger → Transcript → Prop} (hbounded : Bounded budget past)
    (hcovered : ∀ response : Response request,
      Metered budget ledger (past ++ [⟨⟨some ledger, request⟩, response⟩]))
    (hnext : ∀ response : Response request,
      Bounded budget (past ++ [⟨⟨some ledger, request⟩, response⟩]) →
      Metered budget ledger (past ++ [⟨⟨some ledger, request⟩, response⟩]) →
      Accounted budget (next response) ok ledger
        (past ++ [⟨⟨some ledger, request⟩, response⟩])) :
    Accounted budget (issue request >>= next) ok ledger past := by
  refine ensures_bind_issue.mpr ⟨hbounded, ?_⟩
  rintro response now rfl
  exact hnext response ((hcovered response).isBounded rfl) (hcovered response)

/-- A provider call is covered once it has been counted. -/
theorem Metered.call {request : Request} (response : Response request)
    (hcall : request.isProviderCall = true) (hmetered : Metered budget ledger past)
    (hspare : requestsIssued past + 1 ≤ ledger.helperRequests) :
    Metered budget ledger (past ++ [⟨⟨some ledger, request⟩, response⟩]) := by
  refine ⟨hmetered.same, ?_, hmetered.requests_le, ?_, hmetered.pulled_le⟩
  · rw [requestsIssued_snoc, if_pos hcall]
    exact hspare
  · rw [bytesPulled_call hcall]
    exact hmetered.pulled

theorem Metered.drew {bytes : List UInt8} {now : Transcript} (hdrew : Drew bytes past now)
    (hmetered : Metered budget ledger past)
    (hroom : bytesPulled past + bytes.length ≤ ledger.payloadBytes) :
    Metered budget ledger now :=
  ⟨hmetered.same, hdrew.requests ▸ hmetered.requests, hmetered.requests_le,
    hdrew.pulled ▸ hroom, hmetered.pulled_le⟩

/-! ## Ledger methods -/

theorem accounted_checkDeadline (hbounded : Bounded budget past)
    (hmetered : Metered budget ledger past) :
    Accounted budget checkDeadline (fun _ ledger' now => ledger' = ledger ∧ Quiet past now)
      ledger past := by
  refine accounted_read (accounted_issue hbounded (fun now => ?_) fun now hbounded' hmetered' => ?_)
  · exact hmetered.drew (quiet_now _ _ _) hmetered.pulled
  · show Accounted budget (if (show Nat from now) ≥ ledger.deadline then _ else _) _ _ _
    split
    · exact accounted_raise hbounded' hmetered'
    · exact accounted_pure hbounded' hmetered' ⟨rfl, quiet_now _ _ _⟩

theorem accounted_request (hbounded : Bounded budget past)
    (hmetered : Metered budget ledger past) :
    Accounted budget InspectionLedger.request
      (fun _ ledger' now => Quiet past now ∧
        ledger' = { ledger with helperRequests := ledger.helperRequests + 1 })
      ledger past := by
  refine (accounted_checkDeadline hbounded hmetered).bind ?_
  rintro - ledger₁ now hbounded₁ hmetered₁ ⟨rfl, hquiet⟩
  refine accounted_read ?_
  dsimp only
  split
  · exact accounted_raise hbounded₁ hmetered₁
  split
  · exact accounted_raise hbounded₁ hmetered₁
  · rename_i hover
    rw [hmetered₁.same] at hover
    refine ⟨hbounded₁, ⟨hmetered₁.same, ?_, ?_, hmetered₁.pulled, hmetered₁.pulled_le⟩,
      hquiet, rfl⟩
    · exact Nat.le_succ_of_le hmetered₁.requests
    · exact Nat.not_lt.mp hover

theorem accounted_admitPayload {bytes : Nat} (hbounded : Bounded budget past)
    (hmetered : Metered budget ledger past) :
    Accounted budget (admitPayload bytes)
      (fun _ ledger' now => Quiet past now ∧
        ledger' = { ledger with payloadBytes := ledger.payloadBytes + bytes })
      ledger past := by
  refine (accounted_checkDeadline hbounded hmetered).bind ?_
  rintro - ledger₁ now hbounded₁ hmetered₁ ⟨rfl, hquiet⟩
  refine accounted_read ?_
  cases hnext : checkedAdd ledger₁.payloadBytes bytes with
  | none => exact accounted_raise hbounded₁ hmetered₁
  | some next =>
      obtain ⟨-, rfl⟩ := checkedAdd_eq_some_iff.mp hnext
      show Accounted budget (if _ then _ else _) _ _ _
      split
      · exact accounted_raise hbounded₁ hmetered₁
      · rename_i hover
        rw [hmetered₁.same] at hover
        refine ⟨hbounded₁, ⟨hmetered₁.same, hmetered₁.requests, hmetered₁.requests_le, ?_, ?_⟩,
          hquiet, rfl⟩
        · exact Nat.le_add_right_of_le hmetered₁.pulled
        · exact Nat.not_lt.mp hover

theorem accounted_admitOutput {bytes : Nat} (hbounded : Bounded budget past)
    (hmetered : Metered budget ledger past) :
    Accounted budget (admitOutput bytes)
      (fun _ ledger' now => now = past ∧
        ledger.outputBytes + bytes ≤ budget.outputBytes ∧
        ledger' = { ledger with outputBytes := ledger.outputBytes + bytes })
      ledger past := by
  refine accounted_read ?_
  cases hnext : checkedAdd ledger.outputBytes bytes with
  | none => exact accounted_raise hbounded hmetered
  | some next =>
      obtain ⟨-, rfl⟩ := checkedAdd_eq_some_iff.mp hnext
      show Accounted budget (if _ then _ else _) _ _ _
      split
      · exact accounted_raise hbounded hmetered
      · rename_i hover
        rw [hmetered.same] at hover
        exact ⟨hbounded, ⟨hmetered.same, hmetered.requests, hmetered.requests_le,
          hmetered.pulled, hmetered.pulled_le⟩, rfl, Nat.not_lt.mp hover, rfl⟩

/-! ## Bodies -/

theorem accounted_readChunk {reader : ReaderId} {capacity : Nat}
    (hbounded : Bounded budget past) (hmetered : Metered budget ledger past)
    (hroom : bytesPulled past + capacity ≤ ledger.payloadBytes) :
    Accounted budget (readChunk reader capacity)
      (fun chunk ledger' now => ledger' = ledger ∧ chunk.length ≤ capacity ∧
        Drew chunk past now) ledger past := by
  refine accounted_issue hbounded (fun answer => ?_) ?_
  · rcases answer with _ | (error | chunk)
    · exact ⟨hmetered.same, by simpa [Request.isProviderCall] using hmetered.requests,
        hmetered.requests_le, by simpa [delivered] using hmetered.pulled, hmetered.pulled_le⟩
    · exact ⟨hmetered.same, by simpa [Request.isProviderCall] using hmetered.requests,
        hmetered.requests_le, by simpa [delivered] using hmetered.pulled, hmetered.pulled_le⟩
    · exact hmetered.drew (drew_read past (some ledger) chunk)
        (Nat.le_trans (Nat.add_le_add_left chunk.property _) hroom)
  · rintro answer hbounded' hmetered'
    rcases answer with _ | (error | chunk)
    · exact ⟨hbounded', hmetered'⟩
    · exact ⟨hbounded', hmetered'⟩
    · exact ⟨hbounded', hmetered', rfl, chunk.property, drew_read past (some ledger) chunk⟩

/-- The loop draws what it appends, and returns only a full window. -/
theorem accounted_readWindow {reader : ReaderId} {capacity scratchLen : Nat} (rounds : Nat)
    (bytes : List UInt8) (past : Transcript) (hbounded : Bounded budget past)
    (hmetered : Metered budget ledger past) (hshort : bytes.length ≤ capacity)
    (hrounds : capacity - bytes.length ≤ rounds)
    (hroom : bytesPulled past + (capacity - bytes.length) ≤ ledger.payloadBytes) :
    Accounted budget (readWindow reader capacity scratchLen rounds bytes)
      (fun out ledger' now => ledger' = ledger ∧ out.length = capacity ∧
        ∃ rest, out = bytes ++ rest ∧ Drew rest past now) ledger past := by
  induction rounds generalizing bytes past with
  | zero =>
      exact accounted_pure hbounded hmetered ⟨rfl, by omega, [], (List.append_nil _).symm,
        rfl, rfl, by simp, rfl⟩
  | succ rounds ih =>
      rw [readWindow]
      split
      · refine (accounted_checkDeadline hbounded hmetered).bind ?_
        rintro - ledger₁ now₁ hbounded₁ hmetered₁ ⟨rfl, hquiet⟩
        have hpulled := hquiet.pulled
        rw [List.length_nil, Nat.add_zero] at hpulled
        refine accounted_ofExcept hbounded₁ hmetered₁ fun room hroom₁ => ?_
        obtain ⟨-, rfl⟩ := subU64_ok hroom₁
        refine accounted_ofExcept hbounded₁ hmetered₁ fun _ _ => ?_
        refine (accounted_readChunk hbounded₁ hmetered₁ (by omega)).bind ?_
        rintro chunk ledger₂ now₂ hbounded₂ hmetered₂ ⟨rfl, hchunk, hdrew⟩
        refine accounted_read ?_
        split
        · exact accounted_raise hbounded₂ hmetered₂
        · refine accounted_ofExcept hbounded₂ hmetered₂ fun _ _ => ?_
          have hlength : (bytes ++ chunk).length = bytes.length + chunk.length :=
            List.length_append
          have hpulled₂ := hdrew.pulled
          -- what the chunk added to the window is no longer needed of the reserved room
          refine (ih (bytes ++ chunk) now₂ hbounded₂ hmetered₂ (by omega) (by omega)
            (by omega)).mono ?_
          rintro out ledger₃ now₃ ⟨rfl, hout, rest, rfl, hrest⟩
          exact ⟨rfl, hout, chunk ++ rest, List.append_assoc _ _ _,
            (hquiet.trans hdrew).trans hrest⟩
      · exact accounted_pure hbounded hmetered ⟨rfl, by omega, [], (List.append_nil _).symm,
          rfl, rfl, by simp, rfl⟩

/-- The body of a response draws exactly the validated length. -/
theorem accounted_readValidated {reader : ReaderId} {returnedLength : Nat}
    (hbounded : Bounded budget past) (hmetered : Metered budget ledger past)
    (hroom : bytesPulled past + (returnedLength + 1) ≤ ledger.payloadBytes) :
    Accounted budget (readValidated reader returnedLength)
      (fun out ledger' now => ledger' = ledger ∧ out.length = returnedLength ∧
        Drew out past now) ledger past := by
  refine accounted_read ?_
  cases hcapacity : tryUsize returnedLength with
  | none => exact accounted_raise hbounded hmetered
  | some capacity =>
      obtain rfl : returnedLength = capacity := by
        rw [tryUsize] at hcapacity
        split at hcapacity
        · exact Option.some.inj hcapacity
        · cases hcapacity
      refine Accounted.bind (accounted_readWindow returnedLength [] past hbounded hmetered
        (Nat.zero_le _) (Nat.sub_le _ _) (by rw [List.length_nil]; omega)) ?_
      rintro bytes ledger₁ now₁ hbounded₁ hmetered₁ ⟨rfl, hlength, rest, rfl, hdrew⟩
      have hpulled := hdrew.pulled
      refine (accounted_readChunk hbounded₁ hmetered₁ (by omega)).bind ?_
      rintro extra ledger₂ now₂ hbounded₂ hmetered₂ ⟨rfl, -, hextra⟩
      split
      · exact accounted_raise hbounded₂ hmetered₂
      · rename_i hempty
        obtain rfl : extra = [] := by
          rw [← List.length_eq_zero_iff]
          exact not_not.mp hempty
        have hall := hdrew.trans hextra
        rw [List.append_nil] at hall
        exact accounted_pure hbounded₂ hmetered₂ ⟨rfl, hlength, hall⟩

/-! ## Ranges -/

/-- A receipt that passes its check proves the window it returned. -/
theorem validateGuardedRangeReceipt_ok {receipt : SourceReceipt} {offset length returned : Nat}
    {operation : StorageOperation}
    (h : validateGuardedRangeReceipt receipt offset length operation = .ok returned) :
    ∃ window, receipt.returnedWindow = some window ∧ window.start = offset ∧
      window.last + 1 = offset + returned ∧ returned ≤ length ∧
      match receipt.totalSize with
      | some total => offset < total ∧ window.last = min (offset + length - 1) (total - 1)
      | none => window.last = offset + length - 1 := by
  obtain ⟨hpos, hend⟩ := validateGuardedRangeReceipt_inRange h
  obtain ⟨⟨-, hpresent, window, hwindow, hstart, hlast⟩, hreturned, -⟩ :=
    (validateGuardedRangeReceipt_ok_iff hpos hend).mp h
  have hle := lastReturned_le receipt.totalSize offset length
  refine ⟨window, hwindow, hstart, by omega, by omega, ?_⟩
  cases htotal : receipt.totalSize with
  | none =>
      rw [htotal] at hlast
      exact hlast
  | some total =>
      rw [htotal] at hlast hpresent
      exact ⟨hpresent total rfl, hlast⟩

/-- The last window of the transcript is this read, whose receipt passed its check. -/
structure Received (selection : GuardedReadSelection) (offset length : Nat)
    (out : List UInt8 × SourceReceipt) (past now : Transcript) : Prop where
  window : lastWindow now = some ⟨⟨selection, offset, length⟩, out.2, out.1⟩
  checked : ∃ operation,
    validateGuardedRangeReceipt out.2 offset length operation = .ok out.1.length
  total : selectedTotal now = selectedTotal past

/-- A guarded range spends one request and the bytes it returns. -/
theorem accounted_guardedRangeBytes {selection : GuardedReadSelection} {offset length : Nat}
    (hlength : 0 < length) (hbounded : Bounded budget past)
    (hmetered : Metered budget ledger past) :
    Accounted budget (guardedRangeBytes selection offset length)
      (fun out _ now => Received selection offset length out past now) ledger past := by
  refine accounted_read ?_
  rw [if_neg (by omega)]
  cases hreserved : checkedAdd length 1 with
  | none => exact accounted_raise hbounded hmetered
  | some reserved =>
      obtain ⟨-, rfl⟩ := checkedAdd_eq_some_iff.mp hreserved
      -- bytes are reserved and the request counted before the provider is asked
      refine (accounted_admitPayload hbounded hmetered).bind ?_
      rintro - ledger₁ now₁ hbounded₁ hmetered₁ ⟨hquiet₁, rfl⟩
      refine (accounted_request hbounded₁ hmetered₁).bind ?_
      rintro - ledger₂ now₂ hbounded₂ hmetered₂ ⟨hquiet₂, rfl⟩
      have hquiet := hquiet₁.trans hquiet₂
      have hspent := hmetered.requests
      have hpulled := hmetered.pulled
      have hsame := hquiet.pulled
      rw [List.append_nil, List.length_nil, Nat.add_zero] at hsame
      refine accounted_issue hbounded₂ (fun answer => hmetered₂.call answer rfl ?_) ?_
      · have hrequests := hquiet.requests
        simp only
        omega
      intro answer hbounded₃ hmetered₃
      refine accounted_settle hbounded₃ hmetered₃ fun response hresponse => ?_
      subst hresponse
      refine accounted_ofExcept hbounded₃ hmetered₃ fun returned hreturned => ?_
      obtain ⟨window, -, -, -, hreturnedLe, -⟩ := validateGuardedRangeReceipt_ok hreturned
      refine Accounted.bind (accounted_readValidated hbounded₃ hmetered₃ ?_) ?_
      · rw [bytesPulled_call, hsame]
        · simp only
          omega
        · rfl
      rintro bytes ledger₃ now₃ hbounded₄ hmetered₄ ⟨rfl, rfl, hdrew⟩
      have hrequests₄ := hmetered₄.requests
      have hpulled₄ := hdrew.pulled
      have hpayload₄ := hmetered₄.pulled_le
      -- the reservation shrinks to the bytes that came, which is all that was pulled
      rw [bytesPulled_call (by rfl), hsame] at hpulled₄
      simp only at hpayload₄ hrequests₄
      refine ⟨hbounded₄, ⟨hmetered₄.same, hrequests₄, hmetered₄.requests_le, ?_, ?_⟩,
        ?_, ⟨_, hreturned⟩, ?_⟩
      · simp only
        omega
      · simp only
        omega
      · rw [hdrew.window, lastWindow_snoc]
        rfl
      · rw [hdrew.total, selectedTotal_snoc]
        exact hquiet.total

end Storageprims

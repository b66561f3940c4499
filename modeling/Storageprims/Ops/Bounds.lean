import Storageprims.Ops.Answers
import Storageprims.Ops.Calls
import Storageprims.Ops.Serving

/-!
# Finite inspection bounds

Whatever a provider, its body readers and the clock do, every bounded operation
stays within its budget at every point of its run.
-/

namespace Storageprims

open Interaction InspectionLedger

/-- An answer within the output limits; the line count of a budget is the number
of lines the caller asked for. -/
def Answer.Within (budget : InspectionBudget) : Answer → Prop
  | .preview result => result.bytes.length ≤ budget.outputBytes
  | .lines result =>
      textBytes result.lines ≤ budget.outputBytes ∧ result.lines.length ≤ budget.lineCount
  | .count _ => True

/-! ## Sessions -/

variable {α β : Type} {budget : InspectionBudget}

/-- `Accounted` for an operation whose ledger may not exist yet. -/
def Audited (budget : InspectionBudget) (session : Session α) (ok : α → Transcript → Prop)
    (state : Option InspectionLedger) (past : Transcript) : Prop :=
  Script.Ensures history (Bounded budget) session
    (fun value state' now => (∀ ledger ∈ state', Metered budget ledger now) ∧ ok value now)
    (fun _ state' now => ∀ ledger ∈ state', Metered budget ledger now) state past

theorem Audited.bind {session : Session α} {next : α → Session β}
    {middle : α → Transcript → Prop} {ok : β → Transcript → Prop}
    {state : Option InspectionLedger} {past : Transcript}
    (h : Audited budget session middle state past)
    (hnext : ∀ value state' now, Bounded budget now →
      (∀ ledger ∈ state', Metered budget ledger now) → middle value now →
      Audited budget (next value) ok state' now) :
    Audited budget (session >>= next) ok state past :=
  Script.Ensures.bind h fun value state' now hbounded hmiddle =>
    hnext value state' now hbounded hmiddle.1 hmiddle.2

theorem Audited.map {session : Session α} {ok : α → Transcript → Prop} {f : α → β}
    {ok' : β → Transcript → Prop} {state : Option InspectionLedger} {past : Transcript}
    (h : Audited budget session ok state past)
    (himp : ∀ value now, ok value now → ok' (f value) now) :
    Audited budget (do return f (← session)) ok' state past :=
  h.bind fun value _ now hbounded hmetered hok => ⟨hbounded, hmetered, himp value now hok⟩

theorem audited_orRaise {result : Except StorageError α} {next : α → Session β}
    {ok : β → Transcript → Prop} {past : Transcript} (hbounded : Bounded budget past)
    (h : ∀ value, result = .ok value → Audited budget (next value) ok none past) :
    Audited budget (orRaise result >>= next) ok none past :=
  ensures_bind_orRaise (fun _ _ => ⟨hbounded, fun _ hmem => nomatch hmem⟩) h

theorem audited_withLedger {ledger : InspectionLedger} {body : Inspect α}
    {ok : α → Transcript → Prop} {state : Option InspectionLedger} {past : Transcript}
    (h : Accounted budget body (fun value _ now => ok value now) ledger past) :
    Audited budget (withLedger ledger body) ok state past := by
  refine ensures_withLedger (Script.Ensures.mono h ?_ ?_)
  · rintro value ledger' now - ⟨hmetered, hok⟩
    exact ⟨fun _ hmem => Option.some.inj hmem ▸ hmetered, hok⟩
  · rintro failure ledger' now - hmetered
    exact fun _ hmem => Option.some.inj hmem ▸ hmetered

theorem bounded_nil : Bounded budget [] :=
  ⟨Nat.zero_le _, Nat.zero_le _, nofun⟩

/-- A fresh ledger covers the clock reading before it. -/
theorem audited_new {provider : ProviderKind} {operation : StorageOperation}
    {next : InspectionLedger → Session β} {ok : β → Transcript → Prop}
    (h : ∀ ledger past, budget.Admitted → Bounded budget past → Metered budget ledger past →
      Audited budget (next ledger) ok none past) :
    Audited budget (InspectionLedger.new provider operation budget >>= next) ok none [] := by
  rw [InspectionLedger.new]
  cases hvalid : validateBudget operation budget with
  | error error => exact ⟨bounded_nil, fun _ hmem => nomatch hmem⟩
  | ok done =>
      refine ⟨bounded_nil, ?_⟩
      rintro (now : Nat) past rfl
      have hbounded : Bounded budget [⟨⟨none, .now⟩, now⟩] :=
        ⟨Nat.zero_le _, Nat.zero_le _, nofun⟩
      show Audited budget (_ >>= next) ok none _
      cases Instant.checkedAdd now budget.wallTime with
      | none => exact ⟨hbounded, fun _ hmem => nomatch hmem⟩
      | some deadline =>
          exact h _ _ (validateBudget_ok_iff.mp hvalid) hbounded
            ⟨rfl, Nat.le_refl _, Nat.zero_le _, Nat.le_refl _, Nat.zero_le _⟩

theorem audited_inspectSource {provider : StorageProvider} {key : String}
    {operation : StorageOperation} {body : GuardedReadSelection → Inspect α}
    {ok : α → Transcript → Prop}
    (hbody : ∀ selection ledger past, budget.Admitted → Bounded budget past →
      Metered budget ledger past →
      Accounted budget (body selection) (fun value _ now => ok value now) ledger past) :
    Audited budget (inspectSource provider key operation budget body) ok none [] := by
  refine audited_new fun ledger past hbudget hbounded hmetered => audited_withLedger ?_
  refine accounted_orRaise hbounded hmetered fun guarded _ => ?_
  refine (accounted_observeAndBind hbounded hmetered).bind ?_
  rintro ⟨selection, receipt⟩ ledger₁ now hbounded₁ hmetered₁ -
  exact hbody selection ledger₁ now hbudget hbounded₁ hmetered₁

theorem audited_previewLedger {providerKind : ProviderKind} {length : Nat} :
    Audited budget (previewLedger providerKind length budget)
      (fun ledger now => 0 < length ∧ Metered budget ledger now) none [] := by
  rw [previewLedger]
  by_cases hzero : length = 0
  · rw [if_pos hzero]
    exact ⟨bounded_nil, fun _ hmem => nomatch hmem⟩
  · rw [if_neg hzero]
    refine audited_new fun ledger past _ hbounded hmetered => ?_
    refine audited_orRaise hbounded fun _ _ => ?_
    exact ⟨hbounded, fun _ hmem => (nomatch hmem), Nat.pos_of_ne_zero hzero, hmetered⟩

/-! ## Operations -/

theorem audited_lineBudget {operation : StorageOperation} {n : Nat} {options : LineOptions}
    {next : InspectionBudget → Session β} {ok : β → Transcript → Prop}
    (h : 1 ≤ n → Audited (Call.ofLines n options) (next (Call.ofLines n options)) ok none []) :
    Audited (Call.ofLines n options) (orRaise (lineBudget operation n options) >>= next) ok
      none [] := by
  refine audited_orRaise bounded_nil fun budget hbudget => ?_
  obtain ⟨rfl, hadmitted⟩ := lineBudget_ok_iff.mp hbudget
  exact h hadmitted.lines_pos

variable {provider : StorageProvider} {key : String} {n : Nat} {options : LineOptions}

theorem audited_headLinesWithOptions :
    Audited (Call.ofLines n options) (headLinesWithOptions provider key n options)
      (fun result now => Reported (Call.ofLines n options) n result ∧ Supported n result now)
      none [] :=
  audited_lineBudget fun _ => audited_inspectSource fun _ _ _ hbudget hbounded hmetered =>
    accounted_headSelection hbudget hbounded hmetered

theorem audited_tailLinesWithOptions :
    Audited (Call.ofLines n options) (tailLinesWithOptions provider key n options)
      (fun result now => Reported (Call.ofLines n options) n result ∧
        ∃ size, selectedTotal now = some size ∧
          (size ≠ 0 → TailSupported options.forceStream size now)) none [] := by
  rw [tailLinesWithOptions]
  split
  · exact ⟨bounded_nil, fun _ hmem => nomatch hmem⟩
  · exact audited_lineBudget fun hn => audited_inspectSource fun _ _ _ hbudget hbounded hmetered =>
      accounted_tailSelection hbudget hn hbounded hmetered

theorem audited_midLinesWithOptions :
    Audited (Call.ofLines n options) (midLinesWithOptions provider key n options)
      (fun result now => Reported (Call.ofLines n options) n result ∧ Supported n result now)
      none [] := by
  rw [midLinesWithOptions]
  split
  · exact ⟨bounded_nil, fun _ hmem => nomatch hmem⟩
  · exact audited_lineBudget fun _ => audited_inspectSource fun _ _ _ hbudget hbounded hmetered =>
      accounted_midSelection hbudget hbounded hmetered

theorem audited_countLines :
    Audited .default (countLines provider key)
      (fun _ now => selectedTotal now ≠ some 0 → ProvenEnd now) none [] :=
  audited_inspectSource fun _ _ _ hbudget hbounded hmetered =>
    accounted_countSelection hbudget hbounded hmetered

theorem audited_previewBytes {length : Nat} :
    Audited budget (previewBytes provider key length budget)
      (fun preview _ => preview.bytes.length ≤ budget.outputBytes) none [] := by
  refine audited_previewLedger.bind ?_
  rintro ledger state past hbounded - ⟨hlength, hmetered⟩
  refine audited_withLedger (accounted_orRaise hbounded hmetered fun guarded _ => ?_)
  refine (accounted_observeAndBind hbounded hmetered).bind ?_
  rintro ⟨selection, receipt⟩ ledger₁ now hbounded₁ hmetered₁ -
  exact accounted_previewSelection hlength hbounded₁ hmetered₁

theorem audited_previewBytesSelected {providerKind : ProviderKind}
    {selection : GuardedReadSelection} {length : Nat} :
    Audited budget (previewBytesSelected providerKind selection length budget)
      (fun preview _ => preview.bytes.length ≤ budget.outputBytes) none [] := by
  refine audited_previewLedger.bind ?_
  rintro ledger state past hbounded - ⟨hlength, hmetered⟩
  exact audited_withLedger (accounted_previewSelection hlength hbounded hmetered)

theorem Call.audited (call : Call) :
    Audited call.budget call.session (fun answer _ => answer.Within call.budget) none [] := by
  cases call with
  | previewBytes provider key length budget =>
      exact audited_previewBytes.map fun _ _ hwithin => hwithin
  | previewBytesSelected providerKind selection length budget =>
      exact audited_previewBytesSelected.map fun _ _ hwithin => hwithin
  | headLines provider key n options =>
      exact audited_headLinesWithOptions.map fun _ _ hok => ⟨hok.1.bytes_le, hok.1.lines_le⟩
  | tailLines provider key n options =>
      exact audited_tailLinesWithOptions.map fun _ _ hok => ⟨hok.1.bytes_le, hok.1.lines_le⟩
  | midLines provider key n options =>
      exact audited_midLinesWithOptions.map fun _ _ hok => ⟨hok.1.bytes_le, hok.1.lines_le⟩
  | countLines provider key => exact audited_countLines.map fun _ _ _ => trivial

/-- At every point of every run the observer's counts are covered by the ledger,
and the ledger by the budget; an answer is within the output limits. -/
theorem Call.bounded (call : Call) {transcript : Transcript}
    {rest : Program Step Reply (Except Failure Answer × Option InspectionLedger)}
    (htrace : Trace (call.session none) transcript rest) :
    requestsIssued transcript ≤ call.budget.helperRequests ∧
      bytesPulled transcript ≤ call.budget.payloadBytes ∧
      (∀ ledger ∈ lastLedger transcript, bytesPulled transcript ≤ ledger.payloadBytes ∧
        ledger.payloadBytes ≤ call.budget.payloadBytes) ∧
      ∀ result final, rest = .ret (result, final) →
        (∀ ledger ∈ final, bytesPulled transcript ≤ ledger.payloadBytes ∧
          ledger.payloadBytes ≤ call.budget.payloadBytes) ∧
        ∀ answer, result = .ok answer → answer.Within call.budget := by
  obtain ⟨hbounded, hrest⟩ := Program.Ensures.of_trace call.audited htrace
    (accepts_history [] transcript)
  refine ⟨hbounded.requests, hbounded.pulled, ?_, ?_⟩
  · intro ledger hledger
    have hmetered := hbounded.ledger ledger hledger
    exact ⟨hmetered.pulled, hmetered.pulled_le⟩
  · rintro result final rfl
    cases result with
    | ok answer =>
        obtain ⟨-, hmetered, hwithin⟩ := hrest
        refine ⟨fun ledger hledger => ?_, fun _ heq => Except.ok.inj heq ▸ hwithin⟩
        exact ⟨(hmetered ledger hledger).pulled, (hmetered ledger hledger).pulled_le⟩
    | error failure =>
        obtain ⟨-, hmetered⟩ := hrest
        refine ⟨fun ledger hledger => ?_, nofun⟩
        exact ⟨(hmetered ledger hledger).pulled, (hmetered ledger hledger).pulled_le⟩

def tailOfLetter : Call := .tailLines guardedProvider "log.txt" 1 .default

/-- The last line of the one-byte object, read within the default bounds. -/
theorem Call.bounded_letter :
    requestsIssued (referenceRun [0x61] (by decide) tailOfLetter.session).2.1 ≤ 16 ∧
      bytesPulled (referenceRun [0x61] (by decide) tailOfLetter.session).2.1 ≤ 8 * 1024 * 1024 := by
  have hbounds := tailOfLetter.bounded
    (trace_handled (reference [0x61] (by decide)) tailOfLetter.session ⟨fun _ => []⟩ rfl)
  exact ⟨hbounds.1, hbounds.2.1⟩

end Storageprims

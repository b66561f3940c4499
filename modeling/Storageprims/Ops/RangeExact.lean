import Storageprims.Ops.RangeReceipt
import Storageprims.Ops.Serving

/-!
# Guarded range bytes, exactly

Which receipts and bodies a guarded range accepts, when nothing but the response is
in its way: the receipt has to prove the window that was asked for, and the body has
to be as long as that window.  The body arrives in pieces of any size and ends, or
breaks off, behind its last byte.
-/

namespace Storageprims

open Interaction InspectionLedger

/-- What is left of a body, and the error it breaks off with, if it does not end. -/
structure Body where
  bytes : List UInt8
  failure : Option IoError

/-- A read with room takes a piece off the front while there is one, and then finds
the end. -/
def Body.Draws {capacity : Nat} (body : Body) (answer : Awaited (Except IoError (Chunk capacity)))
    (body' : Body) : Prop :=
  (∃ (chunk : Chunk capacity) (rest : List UInt8), answer = .ready (.ok chunk) ∧
    (chunk.val = [] → capacity = 0) ∧ body.bytes = chunk.val ++ rest ∧
    body' = { body with bytes := rest }) ∨
  body.bytes = [] ∧ body' = body ∧
    match body.failure with
    | none => ∃ chunk : Chunk capacity, answer = .ready (.ok chunk) ∧ chunk.val = []
    | some error => answer = .ready (.error error)

/-- The surroundings that answer a range with this receipt and body, in front of the
deadline. -/
def offers (receipt : SourceReceipt) : Environment Step Reply Body := fun body step reply body' =>
  match step, reply with
  | ⟨ledger, .now⟩, (reading : Nat) =>
      body' = body ∧ ∀ own ∈ ledger, 0 < own.deadline → reading < own.deadline
  | ⟨_, .read _ _⟩, answer => body.Draws answer body'
  | ⟨_, .guardedGetRange _⟩, answer =>
      (∃ reader, answer = .ready (.ok ⟨receipt, reader⟩)) ∧ body' = body
  | ⟨_, .observeSource _⟩, _ => body' = body
  | ⟨_, .guardedHead _⟩, _ => body' = body
  | ⟨_, .guardedGet _⟩, _ => body' = body
  | ⟨_, .head _⟩, _ => body' = body
  | ⟨_, .get _⟩, _ => body' = body
  | ⟨_, .getRange _⟩, _ => body' = body

/-- The ledger has time, and room for one request and for the range with its EOF proof
byte, in numbers of the width that the source gives them. -/
structure InspectionLedger.Admits (ledger : InspectionLedger) (length : Nat) : Prop where
  deadline : 0 < ledger.deadline
  requests : ledger.helperRequests + 1 ≤ ledger.budget.helperRequests
  requests_lt : ledger.budget.helperRequests < 2 ^ 32
  payload : ledger.payloadBytes + (length + 1) ≤ ledger.budget.payloadBytes
  payload_lt : ledger.budget.payloadBytes < u64Bound

/-- The receipt proves the range and the body is its window, up to the end. -/
structure Proven (receipt : SourceReceipt) (body : Body) (offset length : Nat) : Prop where
  proves : ProvesRange receipt offset length
  width : lastReturned receipt.totalSize offset length + 1 = offset + body.bytes.length
  ends : body.failure = none

/-- The validator passes what is proven, unless the window is wider than 64 bits say. -/
theorem Proven.validates {receipt : SourceReceipt} {body : Body} {offset length : Nat}
    (h : Proven receipt body offset length) (hpos : 0 < length)
    (hend : offset + length - 1 < u64Bound) (hlength : length < u64Bound)
    (operation : StorageOperation) :
    validateGuardedRangeReceipt receipt offset length operation = .ok body.bytes.length := by
  have hle := lastReturned_le receipt.totalSize offset length
  have hwidth := h.width
  exact (validateGuardedRangeReceipt_ok_iff hpos hend).mpr ⟨h.proves, hwidth, by omega⟩

variable {receipt : SourceReceipt} {ledger : InspectionLedger} {whole body : Body}

/-- The script returns in `ok`, or it stops with an error and `refused` holds. -/
def Settles {α : Type} (receipt : SourceReceipt) (refused : Prop) (script : Inspect α)
    (ok : α → InspectionLedger → Body → Prop) (ledger : InspectionLedger) (body : Body) : Prop :=
  Script.Ensures (offers receipt) (fun _ => True) script ok
    (fun failure _ _ => refused ∧ ∃ error, failure = .error error) ledger body

variable {refused : Prop} {α β : Type}

theorem Settles.bind {script : Inspect α} {next : α → Inspect β}
    {middle : α → InspectionLedger → Body → Prop} {ok : β → InspectionLedger → Body → Prop}
    (h : Settles receipt refused script middle ledger body)
    (hnext : ∀ value ledger' body', middle value ledger' body' →
      Settles receipt refused (next value) ok ledger' body') :
    Settles receipt refused (script >>= next) ok ledger body :=
  Script.Ensures.bind h fun value ledger' body' _ hmiddle => hnext value ledger' body' hmiddle

theorem settles_pure {value : α} {ok : α → InspectionLedger → Body → Prop}
    (h : ok value ledger body) :
    Settles receipt refused (pure value) ok ledger body :=
  Script.ensures_pure.mpr ⟨trivial, h⟩

theorem settles_raise {error : StorageError} {ok : α → InspectionLedger → Body → Prop}
    (h : refused) : Settles receipt refused (raise error) ok ledger body :=
  ensures_raise.mpr ⟨trivial, h, error, rfl⟩

theorem settles_read {next : InspectionLedger → Inspect β}
    {ok : β → InspectionLedger → Body → Prop}
    (h : Settles receipt refused (next ledger) ok ledger body) :
    Settles receipt refused (Script.read >>= next) ok ledger body :=
  Script.ensures_bind_read.mpr h

/-! ## Ledger methods -/

theorem settles_checkDeadline (hdeadline : 0 < ledger.deadline) :
    Settles receipt refused checkDeadline
      (fun _ ledger' body' => ledger' = ledger ∧ body' = body) ledger body := by
  apply settles_read
  apply ensures_bind_issue.mpr
  refine ⟨trivial, ?_⟩
  rintro (now : Nat) body' ⟨rfl, hnow⟩
  have hearly : now < ledger.deadline := hnow ledger rfl hdeadline
  rw [if_neg (Nat.not_le.mpr hearly)]
  exact settles_pure ⟨rfl, rfl⟩

theorem settles_admitPayload {length : Nat} (hroom : ledger.Admits length) :
    Settles receipt refused (admitPayload (length + 1))
      (fun _ ledger' body' =>
        ledger' = { ledger with payloadBytes := ledger.payloadBytes + (length + 1) } ∧
          body' = body) ledger body := by
  apply (settles_checkDeadline hroom.deadline).bind
  rintro - ledger' body' ⟨rfl, rfl⟩
  apply settles_read
  have hfits := hroom.payload_lt
  have hle := hroom.payload
  rw [checkedAdd_eq_some_iff.mpr ⟨by omega, rfl⟩]
  simp only
  rw [if_neg (by omega)]
  exact ⟨trivial, rfl, rfl⟩

theorem settles_request (hdeadline : 0 < ledger.deadline)
    (hrequests : ledger.helperRequests + 1 ≤ ledger.budget.helperRequests)
    (hwidth : ledger.budget.helperRequests < 2 ^ 32) :
    Settles receipt refused InspectionLedger.request
      (fun _ ledger' body' =>
        ledger' = { ledger with helperRequests := ledger.helperRequests + 1 } ∧ body' = body)
      ledger body := by
  apply (settles_checkDeadline hdeadline).bind
  rintro - ledger' body' ⟨rfl, rfl⟩
  apply settles_read
  simp only
  rw [if_neg (by omega), if_neg (by omega)]
  exact ⟨trivial, rfl, rfl⟩

/-! ## The body -/

/-- A read takes a piece, or finds the end, or stops where the body breaks off. -/
theorem settles_readChunk {reader : ReaderId} {capacity : Nat}
    (hrefused : body.bytes = [] → body.failure ≠ none → refused) :
    Settles receipt refused (readChunk reader capacity)
      (fun chunk ledger' body' => ledger' = ledger ∧ chunk.length ≤ capacity ∧
        body.bytes = chunk ++ body'.bytes ∧ body'.failure = body.failure ∧
        (chunk = [] → 0 < capacity → body.bytes = [] ∧ body.failure = none)) ledger body := by
  apply ensures_bind_issue.mpr
  refine ⟨trivial, ?_⟩
  rintro (answer : Awaited (Except IoError (Chunk capacity))) body' hdraws
  rcases hdraws with ⟨chunk, rest, rfl, hpiece, hsplit, rfl⟩ | ⟨hnil, rfl, hend⟩
  · refine ⟨trivial, rfl, chunk.property, hsplit, rfl, ?_⟩
    intro hempty hcapacity
    have hzero := hpiece hempty
    omega
  · cases hfailure : body'.failure with
    | none =>
        rw [hfailure] at hend
        obtain ⟨chunk, rfl, hempty⟩ := hend
        refine ⟨trivial, rfl, chunk.property, ?_, hfailure, fun _ _ => ⟨hnil, rfl⟩⟩
        rw [hempty]
        rfl
    | some error =>
        rw [hfailure] at hend
        obtain rfl := hend
        exact ⟨trivial, hrefused hnil (by simp [hfailure]), _, rfl⟩

/-- The loop collects the first `capacity` bytes of the body, however they arrive and
whatever the scratch buffer holds, or the body is shorter. -/
theorem settles_readWindow {reader : ReaderId} {capacity scratchLen : Nat}
    (hdeadline : 0 < ledger.deadline) (hscratch : 0 < scratchLen)
    (hrefused : whole.bytes.length < capacity → refused)
    (rounds : Nat) (bytes : List UInt8) (body : Body) (hsplit : whole.bytes = bytes ++ body.bytes)
    (hfailure : body.failure = whole.failure) (hcollected : bytes.length ≤ capacity)
    (hrounds : capacity - bytes.length ≤ rounds) :
    Settles receipt refused (readWindow reader capacity scratchLen rounds bytes)
      (fun out ledger' body' => ledger' = ledger ∧ out.length = capacity ∧
        whole.bytes = out ++ body'.bytes ∧ body'.failure = whole.failure) ledger body := by
  induction rounds generalizing bytes body with
  | zero => exact settles_pure ⟨rfl, by omega, hsplit, hfailure⟩
  | succ rounds ih =>
      rw [readWindow]
      have hlength := congrArg List.length hsplit
      rw [List.length_append] at hlength
      by_cases hmore : bytes.length < capacity
      · rw [if_pos hmore]
        apply (settles_checkDeadline hdeadline).bind
        rintro - ledger' body' ⟨rfl, rfl⟩
        -- an empty body behind a window that is not full was too short
        have hshort : body'.bytes = [] → refused := by
          intro hnil
          apply hrefused
          rw [hnil, List.length_nil] at hlength
          omega
        rw [subU64_of_le (by omega), Script.ofExcept_ok_bind,
          checkSlice_of_le (Nat.min_le_right _ _), Script.ofExcept_ok_bind]
        apply (settles_readChunk fun hnil _ => hshort hnil).bind
        rintro chunk ledger₁ body₁ ⟨rfl, hchunk, hpiece, hfailure₁, hend⟩
        apply settles_read
        by_cases hzero : chunk.length = 0
        · rw [if_pos hzero]
          have hempty := List.length_eq_zero_iff.mp hzero
          exact settles_raise (hshort (hend hempty (by omega)).1)
        · rw [if_neg hzero, checkSlice_of_le (by omega), Script.ofExcept_ok_bind]
          apply ih
          · rw [hsplit, hpiece, List.append_assoc]
          · rw [hfailure₁, hfailure]
          · rw [List.length_append]
            omega
          · rw [List.length_append]
            omega
      · rw [if_neg hmore]
        exact settles_pure ⟨rfl, by omega, hsplit, hfailure⟩

/-- A validated body is taken exactly when it has the validated length and ends. -/
theorem settles_readValidated {reader : ReaderId} {returned : Nat}
    (hdeadline : 0 < ledger.deadline) (hfits : returned < u64Bound)
    (hrefused : ¬ (body.bytes.length = returned ∧ body.failure = none) → refused) :
    Settles receipt refused (readValidated reader returned)
      (fun out ledger' _ => ledger' = ledger ∧ out = body.bytes ∧
        body.bytes.length = returned ∧ body.failure = none) ledger body := by
  have hcapacity : tryUsize returned = some returned := if_pos hfits
  apply settles_read
  rw [hcapacity]
  have hscratch : 0 < max ((tryUsize (min ledger.budget.chunkSize returned)).getD 0) 1 := by
    omega
  have hshort : body.bytes.length < returned → refused := by
    intro hshort
    apply hrefused
    omega
  apply (settles_readWindow hdeadline hscratch hshort returned [] body rfl rfl (Nat.zero_le _)
    (Nat.sub_le _ _)).bind
  rintro bytes ledger₁ body₁ ⟨rfl, hlength, hsplit, hfailure⟩
  have hwhole := congrArg List.length hsplit
  rw [List.length_append, hlength] at hwhole
  have hbroken : body₁.bytes = [] → body₁.failure ≠ none → refused := by
    intro _ hfails
    apply hrefused
    rw [← hfailure]
    exact fun hboth => hfails hboth.2
  -- one more byte is asked for, and only the end of the body answers with none
  apply (settles_readChunk hbroken).bind
  rintro extra ledger₂ body₂ ⟨rfl, -, hpiece, -, hend⟩
  by_cases hextra : extra.length ≠ 0
  · rw [if_pos hextra]
    apply settles_raise
    apply hrefused
    have hlonger := congrArg List.length hpiece
    rw [List.length_append] at hlonger
    omega
  · rw [if_neg hextra]
    obtain ⟨hnil, hends⟩ := hend (List.length_eq_zero_iff.mp (not_not.mp hextra)) Nat.one_pos
    rw [hnil, List.append_nil] at hsplit
    rw [hnil, List.length_nil] at hwhole
    exact settles_pure ⟨rfl, hsplit.symm, by omega, hfailure ▸ hends⟩

/-! ## The range -/

theorem settles_guardedRangeBytes {selection : GuardedReadSelection} {offset length : Nat}
    (hpos : 0 < length) (hend : offset + length - 1 < u64Bound) (hadmits : ledger.Admits length) :
    Settles receipt (¬ Proven receipt body offset length)
      (guardedRangeBytes selection offset length)
      (fun out ledger' _ => Proven receipt body offset length ∧ out = (body.bytes, receipt) ∧
        ledger'.payloadBytes = ledger.payloadBytes + body.bytes.length) ledger body := by
  have hroom := hadmits.payload
  have hlimit := hadmits.payload_lt
  have hreserved : checkedAdd length 1 = some (length + 1) :=
    checkedAdd_eq_some_iff.mpr ⟨by omega, rfl⟩
  apply settles_read
  rw [if_neg (by omega), hreserved]
  apply (settles_admitPayload hadmits).bind
  rintro - ledger₁ body₁ ⟨rfl, rfl⟩
  apply (settles_request (by exact hadmits.deadline) (by exact hadmits.requests)
    (by exact hadmits.requests_lt)).bind
  rintro - ledger₂ body₂ ⟨rfl, rfl⟩
  apply ensures_bind_issue.mpr
  refine ⟨trivial, ?_⟩
  rintro (answer : Awaited (Except StorageError GuardedReadResponse)) body₃ ⟨⟨reader, rfl⟩, rfl⟩
  -- the receipt is checked against the request before a byte is read
  apply Script.ensures_bind_ofExcept
  · intro failure (hfailure : validateGuardedRangeReceipt receipt offset length ledger.operation
      = .error failure)
    refine ⟨trivial, ?_, validateGuardedRangeReceipt_error hpos hfailure⟩
    intro hproven
    have hvalid := hproven.validates hpos hend (by omega) ledger.operation
    rw [hfailure] at hvalid
    cases hvalid
  · intro returned (hreturned : validateGuardedRangeReceipt receipt offset length
      ledger.operation = .ok returned)
    obtain ⟨hproves, hwidth, hfits⟩ :=
      (validateGuardedRangeReceipt_ok_iff hpos hend).mp hreturned
    have hle := lastReturned_le receipt.totalSize offset length
    apply (settles_readValidated (by exact hadmits.deadline) hfits ?_).bind
    · rintro bytes ledger₃ body₄ ⟨rfl, rfl, hlength, hends⟩
      refine ⟨trivial, ⟨hproves, by rw [hwidth, hlength], hends⟩, rfl, ?_⟩
      show ledger.payloadBytes + (length + 1) - (length + 1 - returned) = _
      omega
    · intro hbroken hproven
      apply hbroken
      have hwidth' := hproven.width
      exact ⟨by omega, hproven.ends⟩

/-- A finished run of a range from this ledger, against this receipt and body. -/
def RangeRun (receipt : SourceReceipt) (body : Body) (selection : GuardedReadSelection)
    (offset length : Nat) (ledger : InspectionLedger)
    (result : Except Failure (List UInt8 × SourceReceipt)) (ledger' : InspectionLedger) : Prop :=
  ∃ transcript final,
    Trace (guardedRangeBytes selection offset length ledger) transcript (.ret (result, ledger')) ∧
      Accepts (offers receipt) body transcript final

/-- One way to answer: the clock stands still and every read fills its buffer. -/
def offered (receipt : SourceReceipt) : Body → (step : Step) → Reply step × Body :=
    fun body step =>
  match step with
  | ⟨_, .now⟩ => ((0 : Instant), body)
  | ⟨_, .read _ capacity⟩ =>
      if body.bytes = [] then
        match body.failure with
        | none => (.ready (.ok ⟨[], Nat.zero_le _⟩), body)
        | some error => (.ready (.error error), body)
      else
        (.ready (.ok ⟨body.bytes.take capacity, List.length_take_le _ _⟩),
          { body with bytes := body.bytes.drop capacity })
  | ⟨_, .guardedGetRange _⟩ => (.ready (.ok ⟨receipt, 0⟩), body)
  | ⟨_, .observeSource _⟩ => (.elapsed, body)
  | ⟨_, .guardedHead _⟩ => (.elapsed, body)
  | ⟨_, .guardedGet _⟩ => (.elapsed, body)
  | ⟨_, .head _⟩ => (.elapsed, body)
  | ⟨_, .get _⟩ => (.elapsed, body)
  | ⟨_, .getRange _⟩ => (.elapsed, body)

theorem offers_offered (receipt : SourceReceipt) (body : Body) (step : Step) :
    offers receipt body step (offered receipt body step).1 (offered receipt body step).2 := by
  obtain ⟨ledger, request⟩ := step
  cases request with
  | now => exact ⟨rfl, fun _ _ hdeadline => hdeadline⟩
  | read reader capacity =>
      obtain ⟨bytes, failure⟩ := body
      cases bytes with
      | nil =>
          cases failure with
          | none => exact .inr ⟨rfl, rfl, _, rfl, rfl⟩
          | some error => exact .inr ⟨rfl, rfl, rfl⟩
      | cons first rest =>
          refine .inl ⟨_, _, rfl, ?_, (List.take_append_drop _ _).symm, rfl⟩
          intro hnil
          rcases List.take_eq_nil_iff.mp hnil with hzero | hempty
          · exact hzero
          · cases hempty
  | guardedGetRange request => exact ⟨⟨0, rfl⟩, rfl⟩
  | observeSource key => exact rfl
  | guardedHead selection => exact rfl
  | guardedGet selection => exact rfl
  | head key => exact rfl
  | get key => exact rfl
  | getRange request => exact rfl

theorem exists_rangeRun (receipt : SourceReceipt) (body : Body) (selection : GuardedReadSelection)
    (offset length : Nat) (ledger : InspectionLedger) :
    ∃ result ledger', RangeRun receipt body selection offset length ledger result ledger' :=
  ⟨_, _, _, _, Program.trace_runWith (offered receipt) _ body,
    Program.accepts_runWith (offers_offered receipt) _ body⟩

/-- Guarded range bytes are accepted exactly when they are proven.  From a ledger that
admits the range every run ends, and it ends the same way however the body was cut
and whatever the chunk size: with the body and the receipt when the receipt proves the
range and the body is its window up to the end, the ledger charged with the bytes of
the body, and with an error and no bytes in every other case. -/
theorem guardedRangeBytes_exact (receipt : SourceReceipt) (body : Body)
    (selection : GuardedReadSelection) (offset length : Nat) (ledger : InspectionLedger)
    (hpos : 0 < length) (hend : offset + length - 1 < u64Bound) (hadmits : ledger.Admits length) :
    (∃ result ledger', RangeRun receipt body selection offset length ledger result ledger') ∧
    ∀ result ledger', RangeRun receipt body selection offset length ledger result ledger' →
      (Proven receipt body offset length →
        result = .ok (body.bytes, receipt) ∧
          ledger'.payloadBytes = ledger.payloadBytes + body.bytes.length) ∧
      (¬ Proven receipt body offset length → ∃ error, result = .error (.error error)) := by
  refine ⟨exists_rangeRun _ _ _ _ _ _, ?_⟩
  rintro result ledger' ⟨transcript, final, htrace, haccepts⟩
  have hsettles : Settles receipt _ (guardedRangeBytes selection offset length) _ ledger body :=
    settles_guardedRangeBytes hpos hend hadmits
  have hpost := Program.Ensures.of_finished hsettles htrace haccepts
  cases result with
  | ok out =>
      obtain ⟨hproven, rfl, hcharged⟩ := hpost
      exact ⟨fun _ => ⟨rfl, hcharged⟩, fun hnot => absurd hproven hnot⟩
  | error failure =>
      obtain ⟨hnot, error, rfl⟩ := hpost
      exact ⟨fun hproven => absurd hproven hnot, fun _ => ⟨error, rfl⟩⟩

/-- The last two bytes of an object, asked for with more bytes than it has, through a
scratch buffer of no stated size: every run returns them, and another byte behind them
makes every run fail. -/
theorem guardedRangeBytes_exact_clipped :
    let selection : GuardedReadSelection :=
      ⟨"s3|aws|bucket|", "k", .nativeVersion "v1", rfl, by decide⟩
    let receipt : SourceReceipt := {
      path := "k"
      nativeVersion := some "v1"
      validator := none
      totalSize := some 3
      requestedWindow := some ⟨1, 5, by decide, by decide⟩
      returnedWindow := some ⟨1, 2, by decide, by decide⟩
      totalSize_lt := by decide }
    let ledger : InspectionLedger :=
      ⟨.s3, .previewBytes, { InspectionBudget.default with chunkSize := 0 }, 1, 0, 0, 0⟩
    (∀ result ledger', RangeRun receipt ⟨[0x62, 0x63], none⟩ selection 1 5 ledger result ledger' →
      result = .ok ([0x62, 0x63], receipt) ∧ ledger'.payloadBytes = 2) ∧
    ∀ result ledger',
      RangeRun receipt ⟨[0x62, 0x63, 0x64], none⟩ selection 1 5 ledger result ledger' →
        ∃ error, result = .error (.error error) := by
  intro selection receipt ledger
  have hadmits : ledger.Admits 5 := by constructor <;> decide
  have hproves : ProvesRange receipt 1 5 := by
    refine ⟨⟨_, rfl, rfl, rfl⟩, ?_, ⟨_, rfl, rfl, rfl⟩⟩
    intro total htotal
    obtain rfl := Option.some.inj htotal
    decide
  constructor
  · intro result ledger' hrun
    have hexact := (guardedRangeBytes_exact receipt ⟨[0x62, 0x63], none⟩ selection 1 5 ledger
      (by decide) (by decide) hadmits).2 result ledger' hrun
    exact hexact.1 ⟨hproves, rfl, rfl⟩
  · intro result ledger' hrun
    have hexact := (guardedRangeBytes_exact receipt ⟨[0x62, 0x63, 0x64], none⟩ selection 1 5
      ledger (by decide) (by decide) hadmits).2 result ledger' hrun
    apply hexact.2
    intro hproven
    exact absurd hproven.width (by decide)

end Storageprims

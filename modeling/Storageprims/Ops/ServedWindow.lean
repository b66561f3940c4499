import Storageprims.Ops.RangeReceipt
import Storageprims.Ops.Serving

/-!
# Windows of a served object

What each ledger method and each guarded read does against a provider that
serves one object: what it returns, what it leaves in the ledger, and when it
cannot fail.  The two readings share one rule per function.  `steady` stands for
the assumption under which nothing fails; a function then owes its caller that
the assumption rules out its own errors, and a caller interested in `ok` results
only takes `False` for it.
-/

namespace Storageprims

open Interaction InspectionLedger

variable {object : List UInt8} {stated : Prop} {within : Option Duration} {steady : Prop}
variable {ledger : InspectionLedger} {outer : Serving}

/-- Whatever the served object answers, the script returns in `ok`, or it stops
and `steady` does not hold. -/
def Delivers {S α : Type} (object : List UInt8) (stated : Prop) (within : Option Duration)
    (steady : Prop) (script : Script Step Reply S Failure α) (ok : α → S → Serving → Prop)
    (state : S) (outer : Serving) : Prop :=
  Script.Ensures (holds object stated within) (fun _ => True) script ok (fun _ _ _ => ¬ steady)
    state outer

theorem Delivers.bind {S α β : Type} {script : Script Step Reply S Failure α}
    {next : α → Script Step Reply S Failure β} {middle : α → S → Serving → Prop}
    {ok : β → S → Serving → Prop} {state : S}
    (h : Delivers object stated within steady script middle state outer)
    (hnext : ∀ value state' outer', middle value state' outer' →
      Delivers object stated within steady (next value) ok state' outer') :
    Delivers object stated within steady (script >>= next) ok state outer :=
  Script.Ensures.bind h fun value state' outer' _ hmiddle => hnext value state' outer' hmiddle

theorem Delivers.mono {S α : Type} {script : Script Step Reply S Failure α}
    {ok ok' : α → S → Serving → Prop} {state : S}
    (h : Delivers object stated within steady script ok state outer)
    (himp : ∀ value state' outer', ok value state' outer' → ok' value state' outer') :
    Delivers object stated within steady script ok' state outer :=
  Script.Ensures.mono h (fun value state' outer' _ => himp value state' outer')
    fun _ _ _ _ h => h

theorem delivers_pure {S α : Type} {value : α} {ok : α → S → Serving → Prop} {state : S}
    (h : ok value state outer) :
    Delivers object stated within steady (pure value : Script Step Reply S Failure α) ok state
      outer :=
  Script.ensures_pure.mpr ⟨trivial, h⟩

theorem delivers_raise {S α : Type} {error : StorageError} {ok : α → S → Serving → Prop}
    {state : S} (h : ¬ steady) :
    Delivers object stated within steady (raise error : Script Step Reply S Failure α) ok state
      outer :=
  ensures_raise.mpr ⟨trivial, h⟩

theorem delivers_read {S β : Type} {next : S → Script Step Reply S Failure β}
    {ok : β → S → Serving → Prop} {state : S}
    (h : Delivers object stated within steady (next state) ok state outer) :
    Delivers object stated within steady (Script.read >>= next) ok state outer :=
  Script.ensures_bind_read.mpr h

theorem delivers_ofExcept {S α β : Type} {result : Except Failure α}
    {next : α → Script Step Reply S Failure β} {ok : β → S → Serving → Prop} {state : S}
    (hsteady : steady → ∃ value, result = .ok value)
    (h : ∀ value, result = .ok value →
      Delivers object stated within steady (next value) ok state outer) :
    Delivers object stated within steady (Script.ofExcept result >>= next) ok state outer := by
  apply Script.ensures_bind_ofExcept _ h
  intro failure hfailure
  refine ⟨trivial, fun hs => ?_⟩
  obtain ⟨value, hvalue⟩ := hsteady hs
  rw [hfailure] at hvalue
  cases hvalue

theorem delivers_orRaise {S α β : Type} {result : Except StorageError α}
    {next : α → Script Step Reply S Failure β} {ok : β → S → Serving → Prop} {state : S}
    (hsteady : steady → ∃ value, result = .ok value)
    (h : ∀ value, result = .ok value →
      Delivers object stated within steady (next value) ok state outer) :
    Delivers object stated within steady (orRaise result >>= next) ok state outer := by
  apply ensures_bind_orRaise _ h
  intro error herror
  refine ⟨trivial, fun hs => ?_⟩
  obtain ⟨value, hvalue⟩ := hsteady hs
  rw [herror] at hvalue
  cases hvalue

theorem delivers_settled {α β : Type} {value : α} {next : α → Inspect β}
    {ok : β → InspectionLedger → Serving → Prop}
    (h : Delivers object stated within steady (next value) ok ledger outer) :
    Delivers object stated within steady (settle (.ready (.ok value)) >>= next) ok ledger outer := h

theorem delivers_fault {α β : Type} {answer : Awaited (Except StorageError α)}
    {next : α → Inspect β} {ok : β → InspectionLedger → Serving → Prop} (hfault : Fault answer)
    (hunsteady : ¬ steady) :
    Delivers object stated within steady (settle answer >>= next) ok ledger outer := by
  refine ensures_bind_settle (fun _ _ => ⟨trivial, hunsteady⟩) fun value hvalue => ?_
  rcases hfault with rfl | ⟨error, rfl⟩
  · cases hvalue
  · cases hvalue

/-! ## Ledger methods -/

theorem delivers_checkDeadline (hclock : steady → within.isSome ∧ 0 < ledger.deadline) :
    Delivers object stated within steady checkDeadline
      (fun _ ledger' outer' => ledger' = ledger ∧ outer' = outer) ledger outer := by
  refine delivers_read (ensures_bind_issue.mpr ⟨trivial, ?_⟩)
  rintro (now : Nat) outer' ⟨rfl, hnow⟩
  by_cases hlate : now ≥ ledger.deadline
  · rw [if_pos hlate]
    refine delivers_raise fun hs => ?_
    obtain ⟨hwithin, hdeadline⟩ := hclock hs
    obtain ⟨wall, rfl⟩ := Option.isSome_iff_exists.mp hwithin
    exact absurd (hnow hdeadline) (Nat.not_lt.mpr hlate)
  · rw [if_neg hlate]
    exact delivers_pure ⟨rfl, rfl⟩

theorem delivers_request (hclock : steady → within.isSome ∧ 0 < ledger.deadline)
    (hroom : steady → ledger.helperRequests + 1 ≤ ledger.budget.helperRequests ∧
      ledger.helperRequests + 1 < 2 ^ 32) :
    Delivers object stated within steady InspectionLedger.request
      (fun _ ledger' outer' =>
        ledger' = { ledger with helperRequests := ledger.helperRequests + 1 } ∧ outer' = outer)
      ledger outer := by
  refine (delivers_checkDeadline hclock).bind ?_
  rintro - ledger' outer' ⟨rfl, rfl⟩
  refine delivers_read ?_
  by_cases hwide : ledger'.helperRequests + 1 ≥ 2 ^ 32
  · rw [if_pos hwide]
    exact delivers_raise fun hs => absurd (hroom hs).2 (Nat.not_lt.mpr hwide)
  rw [if_neg hwide]
  by_cases hover : ledger'.helperRequests + 1 > ledger'.budget.helperRequests
  · rw [if_pos hover]
    exact delivers_raise fun hs => absurd (hroom hs).1 (Nat.not_le.mpr hover)
  · rw [if_neg hover]
    exact ⟨trivial, rfl, rfl⟩

theorem delivers_admitPayload {bytes : Nat}
    (hclock : steady → within.isSome ∧ 0 < ledger.deadline)
    (hroom : steady → ledger.payloadBytes + bytes ≤ ledger.budget.payloadBytes ∧
      ledger.payloadBytes + bytes < u64Bound) :
    Delivers object stated within steady (admitPayload bytes)
      (fun _ ledger' outer' => ledger.payloadBytes + bytes ≤ ledger.budget.payloadBytes ∧
        ledger' = { ledger with payloadBytes := ledger.payloadBytes + bytes } ∧ outer' = outer)
      ledger outer := by
  refine (delivers_checkDeadline hclock).bind ?_
  rintro - ledger' outer' ⟨rfl, rfl⟩
  refine delivers_read ?_
  cases hnext : checkedAdd ledger'.payloadBytes bytes with
  | none =>
      refine delivers_raise fun hs => ?_
      rw [checkedAdd, if_pos (hroom hs).2] at hnext
      cases hnext
  | some next =>
      obtain ⟨-, rfl⟩ := checkedAdd_eq_some_iff.mp hnext
      by_cases hover : ledger'.payloadBytes + bytes > ledger'.budget.payloadBytes
      · simp only [if_pos hover]
        exact delivers_raise fun hs => absurd (hroom hs).1 (Nat.not_le.mpr hover)
      · simp only [if_neg hover]
        exact ⟨trivial, Nat.not_lt.mp hover, rfl, rfl⟩

theorem delivers_admitOutput {bytes : Nat}
    (hroom : steady → ledger.outputBytes + bytes ≤ ledger.budget.outputBytes ∧
      ledger.outputBytes + bytes < u64Bound) :
    Delivers object stated within steady (admitOutput bytes)
      (fun _ ledger' outer' =>
        ledger' = { ledger with outputBytes := ledger.outputBytes + bytes } ∧ outer' = outer)
      ledger outer := by
  refine delivers_read ?_
  cases hnext : checkedAdd ledger.outputBytes bytes with
  | none =>
      refine delivers_raise fun hs => ?_
      rw [checkedAdd, if_pos (hroom hs).2] at hnext
      cases hnext
  | some next =>
      obtain ⟨-, rfl⟩ := checkedAdd_eq_some_iff.mp hnext
      by_cases hover : ledger.outputBytes + bytes > ledger.budget.outputBytes
      · simp only [if_pos hover]
        exact delivers_raise fun hs => absurd (hroom hs).1 (Nat.not_le.mpr hover)
      · simp only [if_neg hover]
        exact ⟨trivial, rfl, rfl⟩

/-! ## Bodies -/

theorem delivers_readChunk {reader : ReaderId} {capacity : Nat}
    (hclock : steady → within.isSome) :
    Delivers object stated within steady (readChunk reader capacity)
      (fun chunk ledger' outer' => ledger' = ledger ∧ chunk.length ≤ capacity ∧
        ∃ rest, outer.bodies reader = chunk ++ rest ∧ outer' = outer.set reader rest ∧
          (chunk = [] → 0 < capacity → rest = []))
      ledger outer := by
  refine ensures_bind_issue.mpr ⟨trivial, ?_⟩
  rintro (answer : Awaited (Except IoError (Chunk capacity))) outer'
    (⟨chunk, rest, rfl, hbody, hempty, rfl⟩ | ⟨hwithin, hfault, -⟩)
  · exact ⟨trivial, rfl, chunk.property, rest, hbody, rfl, hempty⟩
  · have hunsteady : ¬ steady := fun hs => by
      have hsome := hclock hs
      rw [hwithin] at hsome
      cases hsome
    rcases hfault with rfl | ⟨error, rfl⟩
    · exact ⟨trivial, hunsteady⟩
    · exact ⟨trivial, hunsteady⟩

/-- The loop collects the whole body when it is as long as the loop expects. -/
theorem delivers_readWindow {reader : ReaderId} {capacity scratchLen : Nat}
    (hscratch : 0 < scratchLen) (hclock : steady → within.isSome ∧ 0 < ledger.deadline)
    (rounds : Nat) (bytes : List UInt8) (outer : Serving)
    (hbody : bytes.length + (outer.bodies reader).length = capacity)
    (hrounds : (outer.bodies reader).length ≤ rounds) :
    Delivers object stated within steady (readWindow reader capacity scratchLen rounds bytes)
      (fun out ledger' outer' => ledger' = ledger ∧ out = bytes ++ outer.bodies reader ∧
        outer'.bodies reader = [])
      ledger outer := by
  induction rounds generalizing bytes outer with
  | zero =>
      have hnil : outer.bodies reader = [] := List.length_eq_zero_iff.mp (by omega)
      exact delivers_pure ⟨rfl, by rw [hnil, List.append_nil], hnil⟩
  | succ rounds ih =>
      rw [readWindow]
      by_cases hmore : bytes.length < capacity
      · rw [if_pos hmore]
        refine (delivers_checkDeadline hclock).bind ?_
        rintro - ledger' outer' ⟨rfl, rfl⟩
        rw [subU64_of_le (by omega), Script.ofExcept_ok_bind,
          checkSlice_of_le (Nat.min_le_right _ _), Script.ofExcept_ok_bind]
        refine (delivers_readChunk fun hs => (hclock hs).1).bind ?_
        rintro chunk ledger'' outer'' ⟨rfl, hchunk, rest, hsplit, rfl, hempty⟩
        refine delivers_read ?_
        have hlength := congrArg List.length hsplit
        rw [List.length_append] at hlength
        by_cases hzero : chunk.length = 0
        · -- the body is not empty yet, so a read with room for a byte returns one
          have hrest : rest = [] :=
            hempty (List.length_eq_zero_iff.mp hzero) (by omega)
          rw [hrest, List.length_nil] at hlength
          omega
        · rw [if_neg hzero, checkSlice_of_le (by omega), Script.ofExcept_ok_bind]
          refine (ih (bytes ++ chunk) _ ?_ ?_).mono ?_
          · rw [Serving.bodies_set, List.length_append]
            omega
          · rw [Serving.bodies_set]
            omega
          · rintro out ledger₃ outer₃ ⟨rfl, rfl, hdone⟩
            refine ⟨rfl, ?_, hdone⟩
            rw [Serving.bodies_set, hsplit, List.append_assoc]
      · rw [if_neg hmore]
        have hnil : outer.bodies reader = [] := List.length_eq_zero_iff.mp (by omega)
        exact delivers_pure ⟨rfl, by rw [hnil, List.append_nil], hnil⟩

theorem delivers_readValidated {reader : ReaderId} {returnedLength : Nat}
    (hclock : steady → within.isSome ∧ 0 < ledger.deadline)
    (hbody : (outer.bodies reader).length = returnedLength)
    (hlength : returnedLength < u64Bound) :
    Delivers object stated within steady (readValidated reader returnedLength)
      (fun out ledger' _ => ledger' = ledger ∧ out = outer.bodies reader) ledger outer := by
  have hcapacity : tryUsize returnedLength = some returnedLength := if_pos hlength
  refine delivers_read ?_
  rw [hcapacity]
  refine (delivers_readWindow (by omega) hclock returnedLength [] outer (by simpa using hbody)
    (by omega)).bind ?_
  rintro bytes ledger' outer' ⟨rfl, rfl, hdone⟩
  refine (delivers_readChunk fun hs => (hclock hs).1).bind ?_
  rintro extra ledger'' outer'' ⟨rfl, -, rest, hsplit, -, -⟩
  rw [hdone] at hsplit
  have hextra : extra = [] := (List.append_eq_nil_iff.mp hsplit.symm).1
  rw [if_neg (by rw [hextra]; exact fun h => h rfl)]
  exact delivers_pure ⟨rfl, List.nil_append _⟩

/-! ## Ranges -/

/-- The returned window is as long as the bytes it describes. -/
theorem DescribesWindow.checkedLen {offset length : Nat} {receipt : SourceReceipt}
    (hrange : Satisfiable object offset length)
    (h : DescribesWindow object stated offset length receipt) :
    receipt.returnedWindow.bind ByteWindow.checkedLen =
      some ((object.drop offset).take length).length := by
  obtain ⟨hpos, hoffset, -⟩ := hrange
  obtain ⟨returned, hreturned, hstart, hlast⟩ := h.returned
  have hobject := h.object_lt
  have hwidth : returned.last - returned.start + 1 =
      ((object.drop offset).take length).length := by
    rw [List.length_take, List.length_drop]
    omega
  rw [hreturned, Option.bind_some, ByteWindow.checkedLen, checkedSub, if_pos (by omega),
    ← hwidth]
  exact checkedAdd_eq_some_iff.mpr ⟨by omega, rfl⟩

/-- The receipt of a served range passes its check, with the length of its bytes, unless
it leaves the total size open and the range runs over the end. -/
theorem validate_of_describes (operation : StorageOperation) {offset length : Nat}
    {receipt : SourceReceipt} (hrange : Satisfiable object offset length)
    (hreceipt : DescribesWindow object stated offset length receipt)
    (hclosed : receipt.totalSize = none → offset + length ≤ object.length) :
    validateGuardedRangeReceipt receipt offset length operation =
      .ok ((object.drop offset).take length).length := by
  obtain ⟨hpos, hoffset, hbound⟩ := hrange
  have hobject := hreceipt.object_lt
  have hlast : lastReturned receipt.totalSize offset length =
      min (offset + length - 1) (object.length - 1) := by
    cases htotal : receipt.totalSize with
    | none =>
        have hend := hclosed htotal
        show offset + length - 1 = min (offset + length - 1) (object.length - 1)
        omega
    | some total =>
        rw [hreceipt.total total htotal]
        rfl
  have hwidth : ((object.drop offset).take length).length =
      min length (object.length - offset) := by
    rw [List.length_take, List.length_drop]
  refine (validateGuardedRangeReceipt_ok_iff hpos (by omega)).mpr ⟨⟨hreceipt.requested, ?_, ?_⟩, ?_⟩
  · intro total htotal
    rw [hreceipt.total total htotal]
    exact hoffset
  · rw [hlast]
    exact hreceipt.returned
  · rw [hlast, hwidth]
    omega

/-- An open receipt passes only in front of the end of the object. -/
theorem closed_of_validate {operation : StorageOperation} {offset length returned : Nat}
    {receipt : SourceReceipt} (hrange : Satisfiable object offset length)
    (hreceipt : DescribesWindow object stated offset length receipt)
    (h : validateGuardedRangeReceipt receipt offset length operation = .ok returned)
    (hopen : receipt.totalSize = none) : offset + length ≤ object.length := by
  obtain ⟨hpos, hoffset, hbound⟩ := hrange
  obtain ⟨⟨-, -, window, hwindow, -, hlast⟩, -, -⟩ :=
    (validateGuardedRangeReceipt_ok_iff hpos (by omega)).mp h
  obtain ⟨described, hdescribed, -, hclipped⟩ := hreceipt.returned
  obtain rfl : window = described := Option.some.inj (hwindow.symm.trans hdescribed)
  rw [hopen, lastReturned] at hlast
  omega

/-- A guarded range of the served object is its window, clipped at the end, and
the ledger, which had room for one byte more, keeps the bytes that were read. -/
theorem delivers_guardedRangeBytes {selection : GuardedReadSelection} {offset length : Nat}
    (hpos : 0 < length) (hclock : steady → within.isSome ∧ 0 < ledger.deadline)
    (hrequests : steady → ledger.helperRequests + 1 ≤ ledger.budget.helperRequests ∧
      ledger.helperRequests + 1 < 2 ^ 32)
    (hpayload : steady → ledger.payloadBytes + (length + 1) ≤ ledger.budget.payloadBytes ∧
      ledger.payloadBytes + (length + 1) < u64Bound)
    (hrange : steady → Satisfiable object offset length) :
    Delivers object stated within steady (guardedRangeBytes selection offset length)
      (fun out ledger' _ => Satisfiable object offset length ∧
        out.1 = (object.drop offset).take length ∧
        DescribesWindow object (stated ∨ within.isSome) offset length out.2 ∧
        ledger.payloadBytes + (length + 1) ≤ ledger.budget.payloadBytes ∧
        ledger' = { ledger with
          helperRequests := ledger.helperRequests + 1
          payloadBytes := ledger.payloadBytes + out.1.length })
      ledger outer := by
  refine delivers_read ?_
  rw [if_neg (by omega)]
  cases hreserved : checkedAdd length 1 with
  | none =>
      refine delivers_raise fun hs => ?_
      have hbound := (hpayload hs).2
      rw [checkedAdd, if_pos (by omega)] at hreserved
      cases hreserved
  | some reserved =>
      obtain ⟨-, rfl⟩ := checkedAdd_eq_some_iff.mp hreserved
      refine (delivers_admitPayload hclock hpayload).bind ?_
      rintro - ledger₁ outer₁ ⟨hadmitted, rfl, rfl⟩
      refine Delivers.bind (delivers_request (by exact hclock) (by exact hrequests)) ?_
      rintro - ledger₂ outer₂ ⟨rfl, rfl⟩
      refine ensures_bind_issue.mpr ⟨trivial, ?_⟩
      rintro (answer : Awaited (Except StorageError GuardedReadResponse)) outer₃
        (⟨response, rfl, hsatisfiable, hdescribes, rfl⟩ | ⟨hunserved, hfault, -⟩)
      -- the range is served: when its receipt is accepted, the body has the promised length
      · have hvalid := validate_of_describes ledger.operation hsatisfiable hdescribes
        have hshort : ((object.drop offset).take length).length ≤ length :=
          List.length_take_le _ _
        have hbody : (outer₂.set response.reader ((object.drop offset).take length)).bodies
            response.reader = (object.drop offset).take length := Serving.bodies_set _ _ _
        refine delivers_settled (delivers_ofExcept (fun hs => ⟨_, hvalid fun hopen => ?_⟩)
          fun returned hok => ?_)
        · rw [hdescribes.totalSize_eq (.inr (hclock hs).1)] at hopen
          cases hopen
        obtain rfl : ((object.drop offset).take length).length = returned := by
          rwa [hvalid (closed_of_validate hsatisfiable hdescribes hok), Except.ok.injEq] at hok
        refine Delivers.bind (delivers_readValidated (by exact hclock) (by rw [hbody]) ?_) ?_
        · have hlen := hdescribes.object_lt
          rw [List.length_take, List.length_drop]
          omega
        · rintro bytes ledger₄ outer₅ ⟨rfl, rfl⟩
          refine ⟨trivial, hsatisfiable, hbody, hdescribes, hadmitted, ?_⟩
          simp only [hbody]
          congr 1
          omega
      -- the call may only fail without a deadline, or when the range is not satisfiable
      · refine delivers_fault hfault fun hs => ?_
        rcases hunserved with hnone | hunsat
        · have hsome := (hclock hs).1
          rw [hnone] at hsome
          cases hsome
        · exact hunsat (hrange hs)

/-- A receipt that proves the end is right about the object. -/
theorem length_le_of_provesEof {offset length : Nat} {receipt : SourceReceipt}
    (hrange : Satisfiable object offset length)
    (hreceipt : DescribesWindow object stated offset length receipt)
    (h : provesEof receipt = true) : object.length ≤ offset + length := by
  obtain ⟨returned, hreturned, -, hlast⟩ := hreceipt.returned
  obtain ⟨hpos, hoffset, -⟩ := hrange
  have hobject := hreceipt.object_lt
  simp only [provesEof, hreturned, hlast, Option.map_some, saturatingAdd,
    decide_eq_true_eq] at h
  have hend := hreceipt.total _ h
  omega

/-- When the total size is stated, the end flag of a receipt is right about the object. -/
theorem provesEof_iff {offset length : Nat} {receipt : SourceReceipt}
    (hrange : Satisfiable object offset length)
    (hreceipt : DescribesWindow object stated offset length receipt) (hstated : stated) :
    provesEof receipt = true ↔ object.length ≤ offset + length := by
  refine ⟨length_le_of_provesEof hrange hreceipt, fun hend => ?_⟩
  obtain ⟨returned, hreturned, -, hlast⟩ := hreceipt.returned
  have hobject := hreceipt.object_lt
  obtain ⟨hpos, hoffset, -⟩ := hrange
  simp only [provesEof, hreceipt.totalSize_eq hstated, hreturned, hlast, Option.map_some,
    saturatingAdd, decide_eq_true_eq, Option.some.injEq]
  omega

/-! ## Steps every operation takes -/

theorem delivers_observeAndBind {provider : GuardedReadProvider} {key : String}
    (hclock : steady → within.isSome ∧ 0 < ledger.deadline)
    (hrequests : steady → ledger.helperRequests + 1 ≤ ledger.budget.helperRequests ∧
      ledger.helperRequests + 1 < 2 ^ 32)
    (hkey : steady → key ≠ "") :
    Delivers object stated within steady (observeAndBind provider key)
      (fun out ledger' _ => out.1.key = key ∧
        ledger' = { ledger with helperRequests := ledger.helperRequests + 1 }) ledger outer := by
  refine (delivers_request hclock hrequests).bind ?_
  rintro - ledger₁ outer₁ ⟨rfl, rfl⟩
  refine ensures_bind_issue.mpr ⟨trivial, ?_⟩
  rintro (answer : Awaited (Except StorageError SourceObservation)) outer₂ ⟨rfl, hanswer⟩
  rcases answer with _ | (error | observation)
  · refine ⟨trivial, fun hs => ?_⟩
    obtain ⟨observation, selector, heq, -⟩ := hanswer (hclock hs).1
    cases heq
  · refine ⟨trivial, fun hs => ?_⟩
    obtain ⟨observation, selector, heq, -⟩ := hanswer (hclock hs).1
    cases heq
  · refine delivers_settled (delivers_read ?_)
    cases hselector : observedSelector observation.receipt with
    | none =>
        refine ⟨trivial, fun hs => ?_⟩
        obtain ⟨observation', selector, heq, hsome, -⟩ := hanswer (hclock hs).1
        cases heq
        rw [hselector] at hsome
        cases hsome
    | some selector =>
        refine delivers_orRaise (fun hs => ?_) fun selection hbind =>
          delivers_pure ⟨(GuardedReadSelection.bind_ok hbind).2.1, rfl⟩
        obtain ⟨observation', selector', heq, hsome, hvalid⟩ := hanswer (hclock hs).1
        cases heq
        rw [hselector, Option.some.injEq] at hsome
        rw [hsome]
        exact GuardedReadSelection.exists_bind _ hvalid (hkey hs)

theorem delivers_selectedSize {selection : GuardedReadSelection}
    (hclock : steady → within.isSome ∧ 0 < ledger.deadline)
    (hrequests : steady → ledger.helperRequests + 1 ≤ ledger.budget.helperRequests ∧
      ledger.helperRequests + 1 < 2 ^ 32) :
    Delivers object stated within steady (selectedSize selection)
      (fun size ledger' _ => size = object.length ∧
        ledger' = { ledger with helperRequests := ledger.helperRequests + 1 }) ledger outer := by
  refine (delivers_request hclock hrequests).bind ?_
  rintro - ledger₁ outer₁ ⟨rfl, rfl⟩
  refine ensures_bind_issue.mpr ⟨trivial, ?_⟩
  rintro (answer : Awaited (Except StorageError SourceReceipt)) outer₂
    ⟨rfl, ⟨receipt, rfl, hsize⟩ | ⟨hwithin, hfault⟩⟩
  · refine delivers_settled (delivers_read ?_)
    cases htotal : receipt.totalSize with
    | none =>
        refine delivers_raise fun hs => ?_
        rw [hsize.totalSize_eq (hclock hs).1] at htotal
        cases htotal
    | some total => exact delivers_pure ⟨hsize.total total htotal, rfl⟩
  · refine delivers_fault hfault fun hs => ?_
    have hsome := (hclock hs).1
    rw [hwithin] at hsome
    cases hsome

/-- The ledger every operation starts from. -/
theorem delivers_new {provider : ProviderKind} {operation : StorageOperation}
    {budget : InspectionBudget} {state : Option InspectionLedger}
    (hvalid : steady → budget.Admitted) (hwithin : steady → within = some budget.wallTime) :
    Delivers object stated within steady (InspectionLedger.new provider operation budget)
      (fun ledger _ _ => budget.Admitted ∧ 0 < ledger.deadline ∧
        ledger = {
          provider, operation, budget
          deadline := ledger.deadline
          helperRequests := 0
          payloadBytes := 0
          outputBytes := 0
        }) state outer := by
  refine delivers_orRaise (fun hs => ⟨(), validateBudget_ok_iff.mpr (hvalid hs)⟩) fun _ h => ?_
  have hadmitted : budget.Admitted := validateBudget_ok_iff.mp h
  refine ⟨trivial, ?_⟩
  rintro (now : Nat) outer₂ ⟨rfl, hnow⟩
  show Delivers object stated within steady _ _ _ _
  cases hadd : Instant.checkedAdd now budget.wallTime with
  | none =>
      refine ⟨trivial, fun hs => ?_⟩
      rw [hwithin hs, ClockAllows, hadd] at hnow
      cases hnow
  | some deadline =>
      refine ⟨trivial, hadmitted, ?_, rfl⟩
      have hpos := hadmitted.wall_pos
      rw [Instant.checkedAdd] at hadd
      split at hadd
      · rw [Option.some.injEq] at hadd
        exact hadd ▸ Nat.lt_of_lt_of_le hpos (Nat.le_add_left _ _)
      · cases hadd

theorem delivers_withLedger {α : Type} {body : Inspect α} {state : Option InspectionLedger}
    {ok : α → Option InspectionLedger → Serving → Prop}
    (h : Delivers object stated within steady body (fun value ledger' => ok value (some ledger'))
      ledger outer) :
    Delivers object stated within steady (withLedger ledger body) ok state outer :=
  ensures_withLedger h

/-- A run against a provider that states every size is one against a provider that holds
the object. -/
theorem Run.held {α : Type} {session : Session α} {start : Serving} {transcript : Transcript}
    {result : Except Failure α} (h : Run (serves object within) start session transcript result) :
    Run (holds object stated within) start session transcript result := by
  obtain ⟨ledger, final, htrace, haccepts⟩ := h
  exact ⟨ledger, final, htrace, haccepts.mono fun _ _ _ _ => holds_of_serves⟩

/-- What a session delivers holds of the result of each of its runs. -/
theorem Delivers.of_held_run {α : Type} {session : Session α} {good : α → Prop}
    {transcript : Transcript} {value : α}
    (h : Delivers object stated within steady session (fun value _ _ => good value) none outer)
    (hrun : Run (holds object stated within) outer session transcript (.ok value)) :
    good value := by
  obtain ⟨ledger', final, htrace, haccepts⟩ := hrun
  exact Program.Ensures.of_finished h htrace haccepts

theorem Delivers.of_run {α : Type} {session : Session α} {good : α → Prop}
    {transcript : Transcript} {value : α}
    (h : Delivers object True within steady session (fun value _ _ => good value) none outer)
    (hrun : Run (serves object within) outer session transcript (.ok value)) : good value :=
  h.of_held_run hrun.held

/-- Under the assumption that rules out errors, every run returns. -/
theorem Delivers.of_steady_run {α : Type} {session : Session α} {good : α → Prop}
    {transcript : Transcript} {result : Except Failure α} (hs : steady)
    (h : Delivers object True within steady session (fun value _ _ => good value) none outer)
    (hrun : Run (serves object within) outer session transcript result) :
    ∃ value, result = .ok value ∧ good value := by
  obtain ⟨ledger', final, htrace, haccepts⟩ := hrun.held
  have hpost := Program.Ensures.of_finished h htrace haccepts
  cases result with
  | ok value => exact ⟨value, rfl, hpost⟩
  | error failure => exact absurd hs hpost

end Storageprims

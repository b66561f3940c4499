import Storageprims.Ops.Ledger
import Storageprims.Ops.Guarded

/-!
# Runs, and the provider that serves one object

A run of an operation is a transcript the operation follows to its end and the
surroundings allow (`Run`).

`serves object within` are the surroundings with one unchanging object: a
selected HEAD reports its size, a range is the requested window clipped at its
end, and a body arrives in pieces of any size.  With `within = none` any call may
also fail or run into the deadline.  With `within = some wall` nothing fails and
the clock stays in front of every deadline that lies `wall` behind the start.

`holds object stated within` are the same surroundings, except that a receipt may
leave the total size open, as a `Content-Range` that ends in `/*` does.
-/

namespace Storageprims

open Interaction

/-- A finished run of an operation from the start, with its final ledger. -/
def Run {α σ : Type} (env : Environment Step Reply σ) (start : σ) (session : Session α)
    (transcript : Transcript) (result : Except Failure α) : Prop :=
  ∃ ledger final, Trace (session none) transcript (.ret (result, ledger)) ∧
    Accepts env start transcript final

/-- The bodies still to be read, by reader. -/
structure Serving where
  bodies : ReaderId → List UInt8

def Serving.set (serving : Serving) (reader : ReaderId) (body : List UInt8) : Serving :=
  ⟨fun other => if other = reader then body else serving.bodies other⟩

@[simp] theorem Serving.bodies_set (serving : Serving) (reader : ReaderId)
    (body : List UInt8) : (serving.set reader body).bodies reader = body := if_pos rfl

/-- The call failed, or the deadline came first. -/
def Fault {ε α : Type} (answer : Awaited (Except ε α)) : Prop :=
  answer = .elapsed ∨ ∃ error, answer = .ready (.error error)

/-- A reading of the clock that keeps every promise about it. -/
def ClockAllows (within : Option Duration) (ledger : Option InspectionLedger)
    (now : Instant) : Prop :=
  match within, ledger with
  | none, _ => True
  | some wall, none => (now.checkedAdd wall).isSome
  | some _, some ledger => 0 < ledger.deadline → now < ledger.deadline

/-- The receipt of the window of `object` that a range request asks for. -/
structure DescribesRange (object : List UInt8) (offset length : Nat)
    (receipt : SourceReceipt) : Prop where
  total : receipt.totalSize = some object.length
  requested : ∃ window, receipt.requestedWindow = some window ∧ window.start = offset ∧
    window.last = offset + length - 1
  returned : ∃ window, receipt.returnedWindow = some window ∧ window.start = offset ∧
    window.last = min (offset + length - 1) (object.length - 1)

/-- A range that lies, at least in part, inside the object and inside 64 bits. -/
def Satisfiable (object : List UInt8) (offset length : Nat) : Prop :=
  0 < length ∧ offset < object.length ∧ offset + length ≤ u64Bound

instance (object : List UInt8) (offset length : Nat) :
    Decidable (Satisfiable object offset length) :=
  inferInstanceAs (Decidable (_ ∧ _))

/-- The surroundings that serve one unchanging object. -/
def serves (object : List UInt8) (within : Option Duration) :
    Environment Step Reply Serving := fun state step reply state' =>
  match step, reply with
  | ⟨ledger, .now⟩, reading => state' = state ∧ ClockAllows within ledger reading
  | ⟨_, .read reader capacity⟩, answer =>
      (∃ (chunk : Chunk capacity) (rest : List UInt8), answer = .ready (.ok chunk) ∧
        state.bodies reader = chunk.val ++ rest ∧
        (chunk.val = [] → 0 < capacity → rest = []) ∧ state' = state.set reader rest) ∨
      (within = none ∧ Fault answer ∧ state' = state)
  | ⟨_, .observeSource _⟩, answer =>
      state' = state ∧ (within.isSome → ∃ observation selector, answer = .ready (.ok observation) ∧
        observedSelector observation.receipt = some selector ∧ selector.validate = .ok ())
  | ⟨_, .guardedHead _⟩, answer =>
      state' = state ∧ ((∃ receipt, answer = .ready (.ok receipt) ∧
        receipt.totalSize = some object.length) ∨ (within = none ∧ Fault answer))
  | ⟨_, .guardedGetRange range⟩, answer =>
      (∃ response, answer = .ready (.ok response) ∧
        Satisfiable object range.offset range.length ∧
        DescribesRange object range.offset range.length response.receipt ∧
        state' = state.set response.reader ((object.drop range.offset).take range.length)) ∨
      ((within = none ∨ ¬ Satisfiable object range.offset range.length) ∧ Fault answer ∧
        state' = state)
  | ⟨_, .guardedGet _⟩, _ => state' = state
  | ⟨_, .head _⟩, _ => state' = state
  | ⟨_, .get _⟩, _ => state' = state
  | ⟨_, .getRange _⟩, _ => state' = state

/-- What a receipt says of the size of `object` is true.  Where `stated` does not hold
it may say nothing. -/
structure DescribesSize (object : List UInt8) (stated : Prop) (receipt : SourceReceipt) :
    Prop where
  total : ∀ total ∈ receipt.totalSize, total = object.length
  total_stated : stated → receipt.totalSize.isSome

/-- The receipt of the window of `object` that a range request asks for, when the total
size may be left open. -/
structure DescribesWindow (object : List UInt8) (stated : Prop) (offset length : Nat)
    (receipt : SourceReceipt) : Prop extends DescribesSize object stated receipt where
  requested : ∃ window, receipt.requestedWindow = some window ∧ window.start = offset ∧
    window.last = offset + length - 1
  returned : ∃ window, receipt.returnedWindow = some window ∧ window.start = offset ∧
    window.last = min (offset + length - 1) (object.length - 1)
  object_lt : object.length < u64Bound

theorem DescribesSize.totalSize_eq {object : List UInt8} {stated : Prop} {receipt : SourceReceipt}
    (h : DescribesSize object stated receipt) (hstated : stated) :
    receipt.totalSize = some object.length := by
  obtain ⟨total, htotal⟩ := Option.isSome_iff_exists.mp (h.total_stated hstated)
  rw [htotal, h.total total htotal]

/-- A receipt with its total size leaves nothing open. -/
theorem DescribesRange.window {object : List UInt8} {offset length : Nat}
    {receipt : SourceReceipt} (h : DescribesRange object offset length receipt) (stated : Prop) :
    DescribesWindow object stated offset length receipt where
  total := by
    intro total htotal
    exact (Option.some.inj (h.total.symm.trans htotal)).symm
  total_stated := fun _ => h.total ▸ rfl
  requested := h.requested
  returned := h.returned
  object_lt := receipt.totalSize_lt object.length (Option.mem_def.mpr h.total)

/-- The surroundings of `serves`, but a HEAD may leave the size open, and so may a range
where `stated` does not hold.  With a wall time to keep, both state it. -/
def holds (object : List UInt8) (stated : Prop) (within : Option Duration) :
    Environment Step Reply Serving := fun state step reply state' =>
  match step, reply with
  | ⟨_, .guardedHead _⟩, answer =>
      state' = state ∧ ((∃ receipt, answer = .ready (.ok receipt) ∧
        DescribesSize object within.isSome receipt) ∨ (within = none ∧ Fault answer))
  | ⟨_, .guardedGetRange range⟩, answer =>
      (∃ response, answer = .ready (.ok response) ∧
        Satisfiable object range.offset range.length ∧
        DescribesWindow object (stated ∨ within.isSome) range.offset range.length
          response.receipt ∧
        state' = state.set response.reader ((object.drop range.offset).take range.length)) ∨
      ((within = none ∨ ¬ Satisfiable object range.offset range.length) ∧ Fault answer ∧
        state' = state)
  | step, answer => serves object within state step answer state'

/-- Whoever states every size holds the object. -/
theorem holds_of_serves {object : List UInt8} {stated : Prop} {within : Option Duration}
    {state state' : Serving} {step : Step} {reply : Reply step}
    (h : serves object within state step reply state') :
    holds object stated within state step reply state' := by
  obtain ⟨ledger, request⟩ := step
  cases request with
  | guardedHead selection =>
      obtain ⟨rfl, ⟨receipt, hready, htotal⟩ | hfault⟩ := h
      · refine ⟨rfl, .inl ⟨receipt, hready, fun total hmem => ?_, fun _ => htotal ▸ rfl⟩⟩
        exact (Option.some.inj (htotal.symm.trans hmem)).symm
      · exact ⟨rfl, .inr hfault⟩
  | guardedGetRange range =>
      rcases h with ⟨response, hready, hrange, hdescribes, hnext⟩ | hfault
      · exact .inl ⟨response, hready, hrange, hdescribes.window _, hnext⟩
      · exact .inr hfault
  | now => exact h
  | read reader capacity => exact h
  | observeSource key => exact h
  | guardedGet selection => exact h
  | head key => exact h
  | get key => exact h
  | getRange range => exact h

/-! ## A reference provider -/

/-- The receipt of a selected response without windows. -/
def plainReceipt (path : String) (total : Nat) (htotal : total < u64Bound) : SourceReceipt where
  path := path
  nativeVersion := some "v1"
  validator := none
  totalSize := some total
  requestedWindow := none
  returnedWindow := none
  totalSize_lt := by simpa using htotal

/-- The receipt of a satisfiable range. -/
def rangeReceipt (object : List UInt8) (path : String) (offset length : Nat)
    (hobject : object.length < u64Bound) (hrange : Satisfiable object offset length) :
    SourceReceipt where
  path := path
  nativeVersion := some "v1"
  validator := none
  totalSize := some object.length
  requestedWindow := some {
    start := offset
    last := offset + length - 1
    start_lt := by have := hrange.2.1; omega
    last_lt := by have := hrange.2.2; have := hrange.1; omega
  }
  returnedWindow := some {
    start := offset
    last := min (offset + length - 1) (object.length - 1)
    start_lt := by have := hrange.2.1; omega
    last_lt := by omega
  }
  totalSize_lt := by simpa using hobject

/-- A provider that holds `object` under one native version, fills every buffer
it is given, and a clock that stands still. -/
def reference (object : List UInt8) (hobject : object.length < u64Bound) :
    Serving → (step : Step) → Reply step × Serving := fun state step =>
  match step with
  | ⟨_, .now⟩ => ((0 : Instant), state)
  | ⟨_, .read reader capacity⟩ =>
      let body := state.bodies reader
      (.ready (.ok ⟨body.take capacity, List.length_take_le _ _⟩),
        state.set reader (body.drop capacity))
  | ⟨_, .observeSource key⟩ =>
      (.ready (.ok ⟨plainReceipt key object.length hobject, none, none, []⟩), state)
  | ⟨_, .guardedHead selection⟩ =>
      (.ready (.ok (plainReceipt selection.key object.length hobject)), state)
  | ⟨_, .guardedGetRange range⟩ =>
      if hrange : Satisfiable object range.offset range.length then
        (.ready (.ok ⟨rangeReceipt object range.selection.key range.offset range.length
          hobject hrange, 0⟩),
          state.set 0 ((object.drop range.offset).take range.length))
      else
        (.ready (.error (.io (some .guardedGetRange)
          ⟨.invalidInput, "range is not satisfiable"⟩)), state)
  | ⟨_, .guardedGet _⟩ => (.elapsed, state)
  | ⟨_, .head _⟩ => (.elapsed, state)
  | ⟨_, .get _⟩ => (.elapsed, state)
  | ⟨_, .getRange _⟩ => (.elapsed, state)

/-- The reference provider serves its object, within every wall time its clock can
represent when a call starts. -/
theorem serves_reference {object : List UInt8} (hobject : object.length < u64Bound)
    {within : Option Duration} (state : Serving) (step : Step)
    (hstart : step = ⟨none, .now⟩ → ∀ wall ∈ within, wall.nanos < instantBound) :
    serves object within state step (reference object hobject state step).1
      (reference object hobject state step).2 := by
  obtain ⟨ledger, request⟩ := step
  cases request with
  | now =>
      refine ⟨rfl, ?_⟩
      cases within with
      | none => trivial
      | some wall =>
          cases ledger with
          | none =>
              -- the reference clock stands still at zero
              have hwall : 0 + wall.nanos < instantBound := by
                rw [Nat.zero_add]
                exact hstart rfl wall rfl
              have hadd : Instant.checkedAdd 0 wall = some (0 + wall.nanos) := if_pos hwall
              show (Instant.checkedAdd 0 wall).isSome = true
              rw [hadd]
              rfl
          | some ledger => exact fun hdeadline => hdeadline
  | read reader capacity =>
      refine .inl ⟨_, _, rfl, (List.take_append_drop _ _).symm, fun hnil hcapacity => ?_, rfl⟩
      rcases List.take_eq_nil_iff.mp hnil with h | h
      · omega
      · rw [h, List.drop_nil]
  | observeSource key => exact ⟨rfl, fun _ => ⟨_, .nativeVersion "v1", rfl, rfl, rfl⟩⟩
  | guardedHead selection => exact ⟨rfl, .inl ⟨_, rfl, rfl⟩⟩
  -- a range is served when it is satisfiable, and refused when it is not
  | guardedGetRange range =>
      by_cases hrange : Satisfiable object range.offset range.length
      · have hanswer : reference object hobject state ⟨ledger, .guardedGetRange range⟩ =
            (.ready (.ok ⟨rangeReceipt object range.selection.key range.offset range.length
              hobject hrange, 0⟩),
              state.set 0 ((object.drop range.offset).take range.length)) := dif_pos hrange
        rw [hanswer]
        exact .inl ⟨_, rfl, hrange, ⟨rfl, ⟨_, rfl, rfl, rfl⟩, ⟨_, rfl, rfl, rfl⟩⟩, rfl⟩
      · have hanswer : reference object hobject state ⟨ledger, .guardedGetRange range⟩ =
            (.ready (.error (.io (some .guardedGetRange)
              ⟨.invalidInput, "range is not satisfiable"⟩)), state) := dif_neg hrange
        rw [hanswer]
        exact .inr ⟨.inr hrange, .inr ⟨_, rfl⟩, rfl⟩
  | guardedGet selection => exact rfl
  | head key => exact rfl
  | get key => exact rfl
  | getRange range => exact rfl

/-- The run of an operation against the reference provider. -/
def referenceRun {α : Type} (object : List UInt8) (hobject : object.length < u64Bound)
    (session : Session α) :
    (Except Failure α × Option InspectionLedger) × Transcript × Serving :=
  (session none).runWith (reference object hobject) ⟨fun _ => []⟩

theorem trace_handled {α σ : Type} (handler : σ → (step : Step) → Reply step × σ)
    (session : Session α) (start : σ) {result : Except Failure α}
    (hresult : ((session none).runWith handler start).1.1 = result) :
    Trace (session none) ((session none).runWith handler start).2.1
      (.ret (result, ((session none).runWith handler start).1.2)) :=
  hresult ▸ Program.trace_runWith handler (session none) start

theorem run_reference {α : Type} {object : List UInt8} (hobject : object.length < u64Bound)
    {within : Option Duration} (hwithin : ∀ wall ∈ within, wall.nanos < instantBound)
    {session : Session α} {result : Except Failure α}
    (hresult : (referenceRun object hobject session).1.1 = result) :
    Run (serves object within) ⟨fun _ => []⟩ session (referenceRun object hobject session).2.1
      result :=
  ⟨_, _, trace_handled _ _ _ hresult,
    Program.accepts_runWith
      (fun state step => serves_reference hobject state step fun _ => hwithin) _ _⟩

/-- A provider whose guarded reads are enabled. -/
def guardedProvider : StorageProvider := ⟨.s3, some ⟨"s3://bucket"⟩⟩

end Storageprims

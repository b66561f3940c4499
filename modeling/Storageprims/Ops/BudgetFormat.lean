import Storageprims.Ops.Budget

/-!
# Budgets in their serialised form

A budget is written as a map from its field names to numbers.  The wall time is written
in whole milliseconds, and as the largest 64-bit number when it has more of them.

The format itself is a parameter: all that is asked of it is that it keeps maps of
64-bit numbers.  A budget survives it exactly when its wall time is a millisecond or
more, because a shorter one is written as zero, which no check of a budget accepts.
-/

namespace Storageprims

/-- The bound of an unsigned 32-bit number. -/
def u32Bound : Nat := 2 ^ 32

/-! ## The format -/

/-- A serialised struct: the names of its fields with their numbers. -/
abbrev Entries := List (String × Nat)

/-- A format that keeps maps of 64-bit numbers as they are. -/
structure Format (Document : Type) where
  write : Entries → Document
  read : Document → Option Entries
  read_write : ∀ entries, (∀ entry ∈ entries, entry.2 < u64Bound) →
    read (write entries) = some entries

/-- The map itself as the document. -/
def Format.entries : Format Entries where
  write := id
  read := some
  read_write := fun _ _ => rfl

/-- The number of a field, which must be there once and within its type. -/
def numberOf (entries : Entries) (name : String) (bound : Nat) : Option Nat :=
  match entries.filter fun entry => entry.1 = name with
  | [(_, value)] => if value < bound then some value else none
  | _ => none

/-! ## Durations in milliseconds -/

namespace DurationMillis

def serialize (value : Duration) : Nat := min value.asMillis (u64Bound - 1)

def deserialize (millis : Nat) : Duration := .fromMillis millis

/-- `loaded` is `given` to the millisecond, and not zero; only what has no 64-bit number of
milliseconds is cut down to the largest one. -/
def Rounds (given loaded : Duration) : Prop :=
  ∃ millis, 0 < millis ∧ loaded = .fromMillis millis ∧
    if given.asMillis < u64Bound then
      loaded.nanos < given.nanos + 1000000 ∧ given.nanos < loaded.nanos + 1000000
    else millis = u64Bound - 1

theorem serialize_lt (value : Duration) : serialize value < u64Bound := by
  have hbound : 0 < u64Bound := by decide
  rw [serialize]
  omega

/-- A wall time is kept exactly when it is a millisecond or more. -/
theorem serialize_pos_iff (value : Duration) : 0 < serialize value ↔ 1000000 ≤ value.nanos := by
  have hbound : 1 < u64Bound := by decide
  rw [serialize, Duration.asMillis]
  omega

theorem rounds {value : Duration} (h : 1000000 ≤ value.nanos) :
    Rounds value (deserialize (serialize value)) := by
  have hpos := (serialize_pos_iff value).mpr h
  refine ⟨serialize value, hpos, rfl, ?_⟩
  rw [serialize, deserialize, Duration.fromMillis, Duration.asMillis]
  split
  · rw [Nat.min_eq_left (by omega)]
    constructor
    · show value.nanos / 1000000 * 1000000 < value.nanos + 1000000
      omega
    · show value.nanos < value.nanos / 1000000 * 1000000 + 1000000
      omega
  · exact Nat.min_eq_right (by omega)

end DurationMillis

/-! ## Budgets -/

namespace InspectionBudget

def serialize (budget : InspectionBudget) : Entries :=
  [("payload_bytes", budget.payloadBytes),
    ("helper_requests", budget.helperRequests),
    ("output_bytes", budget.outputBytes),
    ("pending_line_bytes", budget.pendingLineBytes),
    ("line_count", budget.lineCount),
    ("chunk_size", budget.chunkSize),
    ("probe_size", budget.probeSize),
    ("wall_time", DurationMillis.serialize budget.wallTime)]

/-- Every field must be there; names that are no field are passed over. -/
def deserialize (entries : Entries) : Option InspectionBudget := do
  let payloadBytes ← numberOf entries "payload_bytes" u64Bound
  let helperRequests ← numberOf entries "helper_requests" u32Bound
  let outputBytes ← numberOf entries "output_bytes" u64Bound
  let pendingLineBytes ← numberOf entries "pending_line_bytes" u64Bound
  let lineCount ← numberOf entries "line_count" u64Bound
  let chunkSize ← numberOf entries "chunk_size" u64Bound
  let probeSize ← numberOf entries "probe_size" u64Bound
  let wallTime ← numberOf entries "wall_time" u64Bound
  return {
    payloadBytes := payloadBytes
    helperRequests := helperRequests
    outputBytes := outputBytes
    pendingLineBytes := pendingLineBytes
    lineCount := lineCount
    chunkSize := chunkSize
    probeSize := probeSize
    wallTime := DurationMillis.deserialize wallTime }

/-- The budget that is read back from the document of `budget`. -/
def reload {Document : Type} (format : Format Document) (budget : InspectionBudget) :
    Option InspectionBudget :=
  (format.read (format.write budget.serialize)).bind deserialize

/-- What is read back is accepted, and is the budget up to the rounding of its wall time. -/
def Survives {Document : Type} (format : Format Document) (operation : StorageOperation)
    (budget : InspectionBudget) : Prop :=
  ∃ loaded, budget.reload format = some loaded ∧ validateBudget operation loaded = .ok () ∧
    loaded = { budget with wallTime := loaded.wallTime } ∧
    DurationMillis.Rounds budget.wallTime loaded.wallTime

/-- The caps of the checks are within the types of the fields. -/
theorem Admitted.serialize_lt {budget : InspectionBudget} (h : budget.Admitted) :
    ∀ entry ∈ budget.serialize, entry.2 < u64Bound := by
  have hwall := DurationMillis.serialize_lt budget.wallTime
  simp only [serialize, List.forall_mem_cons, List.not_mem_nil, false_implies, implies_true,
    and_true]
  exact ⟨Nat.lt_of_le_of_lt h.payload_le (by decide),
    Nat.lt_of_le_of_lt h.requests_le (by decide), Nat.lt_of_le_of_lt h.output_le (by decide),
    Nat.lt_of_le_of_lt h.pending_le (by decide), Nat.lt_of_le_of_lt h.lines_le (by decide),
    Nat.lt_of_le_of_lt h.chunk_le (by decide), Nat.lt_of_le_of_lt h.probe_le (by decide), hwall⟩

/-- Reading back what was written changes the wall time only. -/
theorem deserialize_serialize {budget : InspectionBudget} (h : budget.Admitted) :
    deserialize budget.serialize = some { budget with
      wallTime := DurationMillis.deserialize (DurationMillis.serialize budget.wallTime) } := by
  have hfields := h.serialize_lt
  have hrequests : budget.helperRequests < u32Bound :=
    Nat.lt_of_le_of_lt h.requests_le (by decide)
  simp only [serialize, List.forall_mem_cons] at hfields
  obtain ⟨hpayload, -, houtput, hpending, hlines, hchunk, hprobe, hwall, -⟩ := hfields
  simp [deserialize, serialize, numberOf, hpayload, hrequests, houtput, hpending, hlines, hchunk,
    hprobe, hwall]

theorem reload_eq {Document : Type} (format : Format Document) {budget : InspectionBudget}
    (h : budget.Admitted) :
    budget.reload format = some { budget with
      wallTime := DurationMillis.deserialize (DurationMillis.serialize budget.wallTime) } := by
  rw [reload, format.read_write _ h.serialize_lt, Option.bind_some, deserialize_serialize h]

end InspectionBudget

/-- An accepted budget survives its format exactly when its wall time is a millisecond or
more. -/
theorem budget_survives_iff {Document : Type} (format : Format Document)
    (operation : StorageOperation) (budget : InspectionBudget)
    (hvalid : validateBudget operation budget = .ok ()) :
    budget.Survives format operation ↔ 1000000 ≤ budget.wallTime.nanos := by
  have hadmitted := validateBudget_ok_iff.mp hvalid
  have hreload := InspectionBudget.reload_eq format hadmitted
  rw [← DurationMillis.serialize_pos_iff]
  constructor
  · rintro ⟨loaded, hloaded, hloadedValid, -, -⟩
    rw [hreload] at hloaded
    cases hloaded
    have hwall := (validateBudget_ok_iff.mp hloadedValid).wall_pos
    exact Nat.pos_of_mul_pos_right hwall
  · intro hpos
    refine ⟨_, hreload, validateBudget_ok_iff.mpr { hadmitted with wall_pos := ?_ }, rfl, ?_⟩
    · exact Nat.mul_pos hpos (by decide)
    · exact DurationMillis.rounds ((DurationMillis.serialize_pos_iff _).mp hpos)

/-- The default budget survives. -/
theorem budget_survives_iff_default :
    validateBudget .headLines InspectionBudget.default = .ok () ∧
      (InspectionBudget.default.Survives Format.entries .headLines ↔
        1000000 ≤ InspectionBudget.default.wallTime.nanos) :=
  ⟨validateBudget_ok_iff.mpr InspectionBudget.default_admitted,
    budget_survives_iff Format.entries .headLines InspectionBudget.default
      (validateBudget_ok_iff.mpr InspectionBudget.default_admitted)⟩

/-- Half a millisecond is an accepted wall time, but is written as zero. -/
theorem budget_loses_short_wallTime :
    let budget : InspectionBudget := { InspectionBudget.default with wallTime := ⟨500000⟩ }
    validateBudget .headLines budget = .ok () ∧
      budget.reload Format.entries = some { budget with wallTime := ⟨0⟩ } ∧
      validateBudget .headLines { budget with wallTime := ⟨0⟩ } =
        .error (.invalidArgument (some .headLines) "wall_time"
          "must be a positive finite duration") ∧
      ¬ budget.Survives Format.entries .headLines := by
  intro budget
  have hreload : budget.reload Format.entries = some { budget with wallTime := ⟨0⟩ } := by
    decide +kernel
  refine ⟨by decide, hreload, by decide, ?_⟩
  rintro ⟨loaded, hloaded, hloadedValid, -, -⟩
  rw [hreload] at hloaded
  cases hloaded
  exact absurd hloadedValid (by decide)

end Storageprims

import Storageprims.Core.Provider

/-!
# Inspection budgets

Explicit finite limits for bounded inspection operations, their defaults and the
checks every caller's budget passes before an operation starts.
-/

namespace Storageprims

def maxBudgetBytes : Nat := 64 * 1024 * 1024
def maxOutputBytes : Nat := 8 * 1024 * 1024
def maxPendingLineBytes : Nat := 8 * 1024 * 1024
def maxHelperRequests : Nat := 64
def maxLineCount : Nat := 10000
def maxChunkSize : Nat := 1024 * 1024
def maxProbeSize : Nat := 1024 * 1024

/-- Finite limits of one operation. -/
structure InspectionBudget where
  payloadBytes : Nat
  helperRequests : Nat
  outputBytes : Nat
  pendingLineBytes : Nat
  lineCount : Nat
  chunkSize : Nat
  probeSize : Nat
  wallTime : Duration
  deriving DecidableEq, Repr

def InspectionBudget.default : InspectionBudget where
  payloadBytes := 8 * 1024 * 1024
  helperRequests := 16
  outputBytes := 1024 * 1024
  pendingLineBytes := 1024 * 1024
  lineCount := 256
  chunkSize := 256 * 1024
  probeSize := 32 * 1024
  wallTime := .fromSecs 30

/-- What a caller of a line operation can choose besides the line count. -/
structure LineOptions where
  chunkSize : Nat
  probeSize : Nat
  forceStream : Bool
  deriving DecidableEq, Repr

def LineOptions.default : LineOptions where
  chunkSize := 256 * 1024
  probeSize := 32 * 1024
  forceStream := false

/-- One check of `validateBudget`: the field is positive and within its cap. -/
def withinCap (operation : StorageOperation) (argument : String) (value cap : Nat) :
    Except StorageError Unit :=
  if value = 0 ∨ value > cap then
    .error (.invalidArgument (some operation) argument
      "must be within the finite inspection cap")
  else .ok ()

def validateBudget (operation : StorageOperation) (budget : InspectionBudget) :
    Except StorageError Unit := do
  withinCap operation "payload_bytes" budget.payloadBytes maxBudgetBytes
  withinCap operation "helper_requests" budget.helperRequests maxHelperRequests
  withinCap operation "output_bytes" budget.outputBytes maxOutputBytes
  withinCap operation "pending_line_bytes" budget.pendingLineBytes maxPendingLineBytes
  withinCap operation "line_count" budget.lineCount maxLineCount
  withinCap operation "chunk_size" budget.chunkSize maxChunkSize
  withinCap operation "probe_size" budget.probeSize maxProbeSize
  if budget.wallTime.isZero then
    .error (.invalidArgument (some operation) "wall_time"
      "must be a positive finite duration")
  else .ok ()

def lineBudget (operation : StorageOperation) (n : Nat) (options : LineOptions) :
    Except StorageError InspectionBudget := do
  let budget : InspectionBudget :=
    { InspectionBudget.default with
      lineCount := n
      chunkSize := options.chunkSize
      probeSize := options.probeSize }
  validateBudget operation budget
  return budget

/-- A budget every check of `validateBudget` accepts. -/
structure InspectionBudget.Admitted (budget : InspectionBudget) : Prop where
  payload_pos : 0 < budget.payloadBytes
  payload_le : budget.payloadBytes ≤ maxBudgetBytes
  requests_pos : 0 < budget.helperRequests
  requests_le : budget.helperRequests ≤ maxHelperRequests
  output_pos : 0 < budget.outputBytes
  output_le : budget.outputBytes ≤ maxOutputBytes
  pending_pos : 0 < budget.pendingLineBytes
  pending_le : budget.pendingLineBytes ≤ maxPendingLineBytes
  lines_pos : 0 < budget.lineCount
  lines_le : budget.lineCount ≤ maxLineCount
  chunk_pos : 0 < budget.chunkSize
  chunk_le : budget.chunkSize ≤ maxChunkSize
  probe_pos : 0 < budget.probeSize
  probe_le : budget.probeSize ≤ maxProbeSize
  wall_pos : 0 < budget.wallTime.nanos

theorem withinCap_ok_iff {operation : StorageOperation} {argument : String} {value cap : Nat} :
    withinCap operation argument value cap = .ok () ↔ 0 < value ∧ value ≤ cap := by
  rw [withinCap]
  split
  · rename_i h
    constructor
    · intro hok
      cases hok
    · rintro ⟨hpos, hle⟩
      omega
  · rename_i h
    exact ⟨fun _ => by omega, fun _ => rfl⟩

/-- The checks accept exactly the admitted budgets, whatever the operation. -/
theorem validateBudget_ok_iff {operation : StorageOperation} {budget : InspectionBudget} :
    validateBudget operation budget = .ok () ↔ budget.Admitted := by
  have hwall : (if budget.wallTime.isZero then
      Except.error (StorageError.invalidArgument (some operation) "wall_time"
        "must be a positive finite duration") else .ok ()) = Except.ok () ↔
      0 < budget.wallTime.nanos := by
    cases hzero : budget.wallTime.isZero with
    | true =>
        have hnanos : budget.wallTime.nanos = 0 := by simpa [Duration.isZero] using hzero
        simp [hnanos]
    | false =>
        have hnanos : budget.wallTime.nanos ≠ 0 := by simpa [Duration.isZero] using hzero
        simp [Nat.pos_of_ne_zero hnanos]
  simp only [validateBudget, check_bind_ok_iff, hwall, withinCap_ok_iff]
  constructor
  · rintro ⟨⟨h₁, h₂⟩, ⟨h₃, h₄⟩, ⟨h₅, h₆⟩, ⟨h₇, h₈⟩, ⟨h₉, h₁₀⟩, ⟨h₁₁, h₁₂⟩, ⟨h₁₃, h₁₄⟩, h₁₅⟩
    exact ⟨h₁, h₂, h₃, h₄, h₅, h₆, h₇, h₈, h₉, h₁₀, h₁₁, h₁₂, h₁₃, h₁₄, h₁₅⟩
  · rintro ⟨h₁, h₂, h₃, h₄, h₅, h₆, h₇, h₈, h₉, h₁₀, h₁₁, h₁₂, h₁₃, h₁₄, h₁₅⟩
    exact ⟨⟨h₁, h₂⟩, ⟨h₃, h₄⟩, ⟨h₅, h₆⟩, ⟨h₇, h₈⟩, ⟨h₉, h₁₀⟩, ⟨h₁₁, h₁₂⟩, ⟨h₁₃, h₁₄⟩, h₁₅⟩

/-- The defaults pass their own checks. -/
theorem InspectionBudget.default_admitted : InspectionBudget.default.Admitted := by
  constructor <;> decide

/-- An accepted line budget is the default one with the caller's line count,
chunk size and probe size, and it is admitted. -/
theorem lineBudget_ok_iff {operation : StorageOperation} {n : Nat} {options : LineOptions}
    {budget : InspectionBudget} :
    lineBudget operation n options = .ok budget ↔
      budget = { InspectionBudget.default with
        lineCount := n, chunkSize := options.chunkSize, probeSize := options.probeSize } ∧
      budget.Admitted := by
  simp only [lineBudget, check_bind_ok_iff]
  constructor
  · rintro ⟨hvalid, hbudget⟩
    cases hbudget
    exact ⟨rfl, validateBudget_ok_iff.mp hvalid⟩
  · rintro ⟨rfl, hadmitted⟩
    exact ⟨validateBudget_ok_iff.mpr hadmitted, rfl⟩

end Storageprims

import Storageprims.Ops.Guarded

/-!
# Line operations

Head, tail, midpoint and count.  All of them observe the object once, size it by
a selected HEAD, reject what is not text from a probe window, and then parse one
window, whose end of file is re-derived from its own receipt.
-/

namespace Storageprims

open Interaction InspectionLedger

/-- The length of the window a line operation reads at once. -/
def windowLength (size : Nat) (budget : InspectionBudget) : Nat :=
  min (min size budget.pendingLineBytes) budget.payloadBytes

theorem windowLength_pos {budget : InspectionBudget} {size : Nat} (hbudget : budget.Admitted)
    (hsize : 0 < size) : 1 ≤ windowLength size budget := by
  have hpending := hbudget.pending_pos
  have hpayload := hbudget.payload_pos
  rw [windowLength]
  omega

theorem windowLength_le (size : Nat) (budget : InspectionBudget) :
    windowLength size budget ≤ size := by
  rw [windowLength]
  omega

/-- The suffix window ends with its source, unless it is streamed from the front. -/
theorem tailStart_ok {size length : Nat} (hlength : length ≤ size) (forceStream : Bool) :
    ∃ start, (if forceStream then Except.ok 0 else subU64 size length) = .ok start ∧
      start + length ≤ size ∧ (forceStream = false → start + length = size) := by
  cases forceStream with
  | true => exact ⟨0, rfl, by omega, nofun⟩
  | false => exact ⟨_, subU64_of_le hlength, by omega, fun _ => by omega⟩

section MidOffsets

variable {size length start : Nat} {forceStream : Bool}

/-- The midpoint window lies in its source, and starts at or before the midpoint. -/
theorem midStart_inside (hlength : length ≤ size)
    (hstart : (if forceStream then 0 else size / 2 - length / 2) = start) :
    start ≤ size / 2 ∧ start + length ≤ size := by
  rw [← hstart]
  split <;> omega

/-- So it is never cut short at the end of the source. -/
theorem midRequested_ok (hlength : length ≤ size)
    (hstart : (if forceStream then 0 else size / 2 - length / 2) = start) :
    (if forceStream then Except.ok length else (subU64 size start).map (min length)) =
      .ok length := by
  obtain ⟨hle, hinside⟩ := midStart_inside hlength hstart
  cases forceStream with
  | true => rfl
  | false =>
      rw [if_neg Bool.false_ne_true, subU64_of_le (by omega), Except.map,
        Nat.min_eq_left (by omega)]

theorem midpointInSlice_ok (hlength : length ≤ size)
    (hstart : (if forceStream then 0 else size / 2 - length / 2) = start) :
    (if forceStream then Except.ok (size / 2) else subU64 (size / 2) start) =
      .ok (size / 2 - start) := by
  obtain ⟨hle, -⟩ := midStart_inside hlength hstart
  cases forceStream with
  | true =>
      rw [if_pos rfl] at hstart
      rw [if_pos rfl, ← hstart, Nat.sub_zero]
  | false => rw [if_neg Bool.false_ne_true, subU64_of_le hle]

end MidOffsets

/-- Check the output against its budget and report it. -/
def reportLines (lines : List ParsedLine) (size : Nat) (strategy : ReadStrategy) :
    Inspect LineResult := do
  applyLineOutputBudget lines
  return buildLineResult lines size strategy

section

variable (provider : StorageProvider) (key : String)

/-- The second read of `headLinesWithOptions`, when the probe did not settle it. -/
def headWindow (selection : GuardedReadSelection) (size n : Nat) : Inspect LineResult := do
  let ledger ← Script.read
  let length := windowLength size ledger.budget
  let (bytes, receipt) ← guardedRangeBytes selection 0 length
  orRaise (rejectBinaryPrefix bytes provider.providerKind .headLines)
  let eof := provesEof receipt
  let selected ← Script.ofExcept
    (parseLinesUpTo provider.providerKind .headLines bytes 0 eof n)
  let ledger ← Script.read
  if selected.length < n ∧ ¬ eof then
    raise (ledger.limit .pendingLineBytes ledger.budget.pendingLineBytes length)
  else reportLines selected size .forwardStream

def headSelection (selection : GuardedReadSelection) (n : Nat) : Inspect LineResult := do
  let size ← selectedSize selection
  if size = 0 then
    return emptyResult .forwardStream 0
  else do
    let (probe, probeReceipt) ← lineProbe selection size
    let probeEof := provesEof probeReceipt
    let probeLines ← Script.ofExcept
      (parseLinesUpTo provider.providerKind .headLines probe 0 probeEof n)
    if probeLines.length = n ∨ probeEof then
      reportLines probeLines size .forwardStream
    else headWindow provider selection size n

def headLinesWithOptions (n : Nat) (options : LineOptions) : Session LineResult := do
  let budget ← orRaise (lineBudget .headLines n options)
  inspectSource provider key .headLines budget fun selection =>
    headSelection provider selection n

def headLines (n : Nat) : Session LineResult :=
  headLinesWithOptions provider key n .default

/-- The byte in front of the suffix window, if the window has one. -/
def previousByteOf (selection : GuardedReadSelection) (start : Nat) :
    Inspect (Option UInt8) := do
  if start = 0 then
    return none
  else do
    let offset ← Script.ofExcept (subU64 start 1)
    let (previous, _) ← guardedRangeBytes selection offset 1
    return previous.head?

/-- Where the first full line of the suffix window starts in it. -/
def tailAlignment (start : Nat) (previousByte : Option UInt8) (bytes : List UInt8) :
    Except Failure Nat :=
  if start = 0 then .ok 0
  else do
    let found ← firstFullLineStart bytes (sliceStartsOnLineBoundary previousByte bytes.head?)
    return found.getD bytes.length

def tailWindow (selection : GuardedReadSelection) (size n : Nat) (forceStream : Bool) :
    Inspect LineResult := do
  let ledger ← Script.read
  let length := windowLength size ledger.budget
  let start ← Script.ofExcept (if forceStream then .ok 0 else subU64 size length)
  let previousByte ← previousByteOf selection start
  let (bytes, receipt) ← guardedRangeBytes selection start length
  let aligned ← Script.ofExcept (tailAlignment start previousByte bytes)
  let framed ← Script.ofExcept (sliceFrom bytes aligned)
  orRaise (rejectBinaryPrefix framed provider.providerKind .tailLines)
  let eof := provesEof receipt
  let ledger ← Script.read
  if forceStream ∧ ¬ eof then
    raise (ledger.limit .pendingLineBytes ledger.budget.pendingLineBytes length)
  else do
    let base ← Script.ofExcept (addU64 start aligned)
    let selected ← Script.ofExcept
      (parseTailLinesBounded provider.providerKind .tailLines framed base eof n)
    if selected.length < n ∧ start ≠ 0 then
      raise (ledger.limit .pendingLineBytes ledger.budget.pendingLineBytes length)
    else
      reportLines selected size (if forceStream then .forwardStream else .rangeBackward)

def tailSelection (selection : GuardedReadSelection) (n : Nat) (forceStream : Bool) :
    Inspect LineResult := do
  let size ← selectedSize selection
  if size = 0 then
    return emptyResult .rangeBackward 0
  else do
    let _ ← lineProbe selection size
    tailWindow provider selection size n forceStream

def tailLinesWithOptions (n : Nat) (options : LineOptions) : Session LineResult :=
  if isCompressedKey key ∧ ¬ options.forceStream then
    raise (lineOpsError provider.providerKind .tailLines .compressedObject)
  else do
    let budget ← orRaise (lineBudget .tailLines n options)
    inspectSource provider key .tailLines budget fun selection =>
      tailSelection provider selection n options.forceStream

def tailLines (n : Nat) : Session LineResult :=
  tailLinesWithOptions provider key n .default

/-- Where the sample starts in the midpoint window: behind the first terminator
at or after the midpoint, else at the start of a window that is the whole
object, else nowhere. -/
def midAlignment (bytes : List UInt8) (midpointInSlice start : Nat) (eof : Bool) :
    Except Failure Nat := do
  let found ← midpointAlignment bytes midpointInSlice
  return found.getD (if eof ∧ start = 0 then 0 else bytes.length)

def midWindow (selection : GuardedReadSelection) (size n : Nat) (forceStream : Bool) :
    Inspect LineResult := do
  let ledger ← Script.read
  let length := windowLength size ledger.budget
  let midpoint := size / 2
  let start := if forceStream then 0 else midpoint - length / 2
  let requested ← Script.ofExcept
    (if forceStream then .ok length else (subU64 size start).map (min length))
  let (bytes, receipt) ← guardedRangeBytes selection start requested
  let eof := provesEof receipt
  let ledger ← Script.read
  if forceStream ∧ ¬ eof then
    raise (ledger.limit .pendingLineBytes ledger.budget.pendingLineBytes requested)
  else do
    let midpointInSlice ← Script.ofExcept
      (if forceStream then .ok midpoint else subU64 midpoint start)
    let aligned ← Script.ofExcept (midAlignment bytes midpointInSlice start eof)
    let framed ← Script.ofExcept (sliceFrom bytes aligned)
    orRaise (rejectBinaryPrefix framed provider.providerKind .midLines)
    let base ← Script.ofExcept (addU64 start aligned)
    let selected ← Script.ofExcept
      (parseLinesUpTo provider.providerKind .midLines framed base eof n)
    if selected.length < n ∧ ¬ eof then
      raise (ledger.limit .pendingLineBytes ledger.budget.pendingLineBytes requested)
    else
      reportLines selected size (if forceStream then .forwardStream else .rangeMidpoint)

def midSelection (selection : GuardedReadSelection) (n : Nat) (forceStream : Bool) :
    Inspect LineResult := do
  let size ← selectedSize selection
  if size = 0 then
    return emptyResult .rangeMidpoint 0
  else do
    let _ ← lineProbe selection size
    midWindow provider selection size n forceStream

def midLinesWithOptions (n : Nat) (options : LineOptions) : Session LineResult :=
  if isCompressedKey key ∧ ¬ options.forceStream then
    raise (lineOpsError provider.providerKind .midLines .compressedObject)
  else do
    let budget ← orRaise (lineBudget .midLines n options)
    inspectSource provider key .midLines budget fun selection =>
      midSelection provider selection n options.forceStream

def midLines (n : Nat) : Session LineResult :=
  midLinesWithOptions provider key n .default

def countSelection (selection : GuardedReadSelection) : Inspect Nat := do
  let size ← selectedSize selection
  let ledger ← Script.read
  if size = 0 then
    return 0
  else if size > ledger.budget.payloadBytes then
    raise (ledger.limit .payloadBytes ledger.budget.payloadBytes ledger.payloadBytes)
  else if size > ledger.budget.pendingLineBytes then
    raise (ledger.limit .pendingLineBytes ledger.budget.pendingLineBytes ledger.payloadBytes)
  else do
    let _ ← lineProbe selection size
    let (bytes, receipt) ← guardedRangeBytes selection 0 size
    let ledger ← Script.read
    if receipt.totalSize ≠ some size
        ∨ receipt.returnedWindow.map (fun window => saturatingAdd window.last 1) ≠ some size then
      raise (ledger.limit .payloadBytes ledger.budget.payloadBytes size)
    else do
      orRaise (rejectBinaryPrefix bytes provider.providerKind .countLines)
      Script.ofExcept (countLinesBounded provider.providerKind .countLines bytes)

def countLines : Session Nat :=
  inspectSource provider key .countLines .default fun selection =>
    countSelection provider selection

end

end Storageprims

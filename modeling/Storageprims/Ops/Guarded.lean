import Storageprims.Ops.Ledger
import Storageprims.Ops.Framing

/-!
# Guarded windows

How an operation gets at bytes: one observation that is bound into a selection,
and range reads over that selection, each checked against the receipt of its own
response and against the body that came with it.
-/

namespace Storageprims

open Interaction InspectionLedger

/-- The selector an observation authorises: its native version, else its
validator. -/
def observedSelector (receipt : SourceReceipt) : Option SourceSelector :=
  match receipt.nativeVersion with
  | some token => some (.nativeVersion token)
  | none =>
      match receipt.validator with
      | some token => some (.validatorMatch token)
      | none => none

def observeAndBind (provider : GuardedReadProvider) (key : String) :
    Inspect (GuardedReadSelection × SourceReceipt) := do
  request
  let answer ← issue (.observeSource key)
  let observation ← settle answer
  let ledger ← Script.read
  match observedSelector observation.receipt with
  | none => raise (.unsupportedCapability ledger.provider ledger.operation .guardedRead)
  | some selector => do
      let selection ← orRaise (provider.bindGuardedRead key selector)
      return (selection, observation.receipt)

/-- How every line operation opens: a ledger for its budget, one observation, and
then nothing but the bound selection. -/
def inspectSource {α : Type} (provider : StorageProvider) (key : String)
    (operation : StorageOperation) (budget : InspectionBudget)
    (body : GuardedReadSelection → Inspect α) : Session α := do
  let ledger ← InspectionLedger.new provider.providerKind operation budget
  withLedger ledger do
    let guarded ← orRaise (requireGuardedReads provider operation)
    let (selection, _) ← observeAndBind guarded key
    body selection

def invalidGuardedRangeResponse (operation : StorageOperation) (detail : String) :
    StorageError :=
  .io (some operation) ⟨.invalidData, detail⟩

/-- `ok_or_else` with an invalid range response. -/
def orInvalid {α : Type} (operation : StorageOperation) (detail : String) :
    Option α → Except Failure α
  | some value => .ok value
  | none => .error (.error (invalidGuardedRangeResponse operation detail))

/-- The last byte the returned window must have. -/
def expectedEnd (operation : StorageOperation) (totalSize : Option Nat)
    (offset requestedEnd : Nat) : Except Failure Nat :=
  match totalSize with
  | some 0 => .error (.error (invalidGuardedRangeResponse operation
      "non-empty range has an empty total"))
  | some total =>
      if offset ≥ total then
        .error (.error (invalidGuardedRangeResponse operation
          "range starts at or beyond total size"))
      else do
        let last ← subU64 total 1
        return min requestedEnd last
  | none => .ok requestedEnd

def validateGuardedRangeReceipt (receipt : SourceReceipt) (offset length : Nat)
    (operation : StorageOperation) : Except Failure Nat := do
  let span ← subU64 length 1
  let requestedEnd ← orInvalid operation "guarded range request overflows"
    (checkedAdd offset span)
  let requested ← orInvalid operation "guarded range is missing its requested window"
    receipt.requestedWindow
  if requested.start ≠ offset ∨ requested.last ≠ requestedEnd then
    .error (.error (invalidGuardedRangeResponse operation
      "guarded range receipt does not match its request"))
  else do
    let returned ← orInvalid operation "guarded range is missing its returned window"
      receipt.returnedWindow
    let expected ← expectedEnd operation receipt.totalSize offset requestedEnd
    if returned.start ≠ offset ∨ returned.last ≠ expected then
      .error (.error (invalidGuardedRangeResponse operation
        "guarded range returned window does not prove the requested bytes"))
    else
      orInvalid operation "guarded range returned window overflows" returned.checkedLen

/-- One read of a body under the deadline. -/
def readChunk (reader : ReaderId) (capacity : Nat) : Inspect (List UInt8) := do
  let answer ← issue (.read reader capacity)
  let answer ← inTime answer
  let ledger ← Script.read
  let chunk ← orRaise (answer.mapError (StorageError.io (some ledger.operation)))
  return chunk.val

/-- The read loop.  Every round that goes on adds a byte, so `capacity` rounds
suffice. -/
def readWindow (reader : ReaderId) (capacity scratchLen : Nat) :
    Nat → List UInt8 → Inspect (List UInt8)
  | 0, bytes => pure bytes
  | rounds + 1, bytes =>
      if bytes.length < capacity then do
        checkDeadline
        let room ← Script.ofExcept (subU64 capacity bytes.length)
        Script.ofExcept (checkSlice (min room scratchLen) scratchLen)
        let chunk ← readChunk reader (min room scratchLen)
        let ledger ← Script.read
        if chunk.length = 0 then
          raise (.io (some ledger.operation) ⟨.unexpectedEof,
            "guarded range body ended before its validated window"⟩)
        else do
          Script.ofExcept (checkSlice chunk.length scratchLen)
          readWindow reader capacity scratchLen rounds (bytes ++ chunk)
      else pure bytes

/-- The body of a validated response: exactly `returnedLength` bytes, then EOF. -/
def readValidated (reader : ReaderId) (returnedLength : Nat) : Inspect (List UInt8) := do
  let ledger ← Script.read
  match tryUsize returnedLength with
  | none => raise (ledger.limit .payloadBytes ledger.budget.payloadBytes returnedLength)
  | some capacity => do
      let scratchLen :=
        max ((tryUsize (min ledger.budget.chunkSize returnedLength)).getD 0) 1
      let bytes ← readWindow reader capacity scratchLen capacity []
      let extra ← readChunk reader 1
      if extra.length ≠ 0 then
        raise (invalidGuardedRangeResponse ledger.operation
          "guarded range body exceeds its returned window")
      else return bytes

def guardedRangeBytes (selection : GuardedReadSelection) (offset length : Nat) :
    Inspect (List UInt8 × SourceReceipt) := do
  let ledger ← Script.read
  if length = 0 then
    return ([], {
      path := selection.key
      nativeVersion := none
      validator := none
      totalSize := none
      requestedWindow := none
      returnedWindow := none
      totalSize_lt := noTotal_lt
    })
  else
    match checkedAdd length 1 with
    | none => raise (.invalidArgument (some ledger.operation) "length"
        "range length cannot reserve an EOF proof byte")
    | some reserved => do
        admitPayload reserved
        request
        let answer ← issue (.guardedGetRange ⟨selection, offset, length⟩)
        let response ← settle answer
        let returnedLength ← Script.ofExcept
          (validateGuardedRangeReceipt response.receipt offset length ledger.operation)
        let bytes ← readValidated response.reader returnedLength
        releasePayload (reserved - returnedLength)
        return (bytes, response.receipt)

/-- The selected HEAD, whose size every line window is cut from. -/
def selectedSize (selection : GuardedReadSelection) : Inspect Nat := do
  request
  let answer ← issue (.guardedHead selection)
  let receipt ← settle answer
  let ledger ← Script.read
  match receipt.totalSize with
  | some size => return size
  | none => raise (.io (some ledger.operation) ⟨.invalidData,
      "guarded source response is missing total size"⟩)

def lineProbe (selection : GuardedReadSelection) (size : Nat) :
    Inspect (List UInt8 × SourceReceipt) := do
  let ledger ← Script.read
  let (probe, receipt) ← guardedRangeBytes selection 0 (min size ledger.budget.probeSize)
  orRaise (rejectBinaryPrefix probe ledger.provider ledger.operation)
  return (probe, receipt)

/-- The sum of the texts' lengths, checked for overflow. -/
def outputLength : List ParsedLine → Option Nat
  | lines => lines.foldlM (fun total line => checkedAdd total line.text.bytes.length) 0

def applyLineOutputBudget (lines : List ParsedLine) : Inspect Unit := do
  let ledger ← Script.read
  match outputLength lines with
  | none => raise (ledger.limit .outputBytes ledger.budget.outputBytes (u64Bound - 1))
  | some outputBytes => admitOutput outputBytes

/-- The receipt's total says that the returned window reaches the end. -/
def provesEof (receipt : SourceReceipt) : Bool :=
  receipt.totalSize = receipt.returnedWindow.map fun window => saturatingAdd window.last 1

end Storageprims

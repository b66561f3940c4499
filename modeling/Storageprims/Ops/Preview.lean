import Storageprims.Ops.Guarded

/-!
# Byte previews

The first bytes of an object, read through one guarded range.  The selected HEAD
only establishes the empty object; every other preview asks for the caller's
full length.
-/

namespace Storageprims

open Interaction InspectionLedger

/-- Result of a selected first-N byte preview. -/
structure BytePreview where
  bytes : List UInt8
  receipt : SourceReceipt
  consumedPayloadBytes : Nat
  helperRequests : Nat
  deriving DecidableEq

def validatePreviewRequest (length : Nat) (ledger : InspectionLedger) :
    Except StorageError Unit :=
  if length > ledger.budget.payloadBytes then
    .error (ledger.limit .payloadBytes ledger.budget.payloadBytes length)
  else if length > ledger.budget.outputBytes then
    .error (ledger.limit .outputBytes ledger.budget.outputBytes length)
  else .ok ()

def previewBytesSelectedWithLedger (selection : GuardedReadSelection) (length : Nat) :
    Inspect BytePreview := do
  let (bytes, receipt) ← guardedRangeBytes selection 0 length
  admitOutput bytes.length
  let ledger ← Script.read
  match receipt.returnedWindow.bind ByteWindow.checkedLen with
  | some consumed => return ⟨bytes, receipt, consumed, ledger.helperRequests⟩
  | none => Script.fail .panic

/-- The selected HEAD of a preview, then its range. -/
def previewSelection (selection : GuardedReadSelection) (length : Nat) :
    Inspect BytePreview := do
  request
  let answer ← issue (.guardedHead selection)
  let receipt ← settle answer
  let ledger ← Script.read
  if receipt.totalSize = some 0 then
    return ⟨[], receipt, 0, ledger.helperRequests⟩
  else previewBytesSelectedWithLedger selection length

/-- The checks both preview operations make before their first request. -/
def previewLedger (provider : ProviderKind) (length : Nat) (budget : InspectionBudget) :
    Session InspectionLedger := do
  if length = 0 then
    raise (.invalidArgument (some .previewBytes) "length"
      "preview length must be greater than zero")
  else do
    let ledger ← InspectionLedger.new provider .previewBytes budget
    orRaise (validatePreviewRequest length ledger)
    return ledger

def previewBytes (provider : StorageProvider) (key : String) (length : Nat)
    (budget : InspectionBudget) : Session BytePreview := do
  let ledger ← previewLedger provider.providerKind length budget
  withLedger ledger do
    let guarded ← orRaise (requireGuardedReads provider .previewBytes)
    let (selection, _) ← observeAndBind guarded key
    previewSelection selection length

def previewBytesSelected (providerKind : ProviderKind) (selection : GuardedReadSelection)
    (length : Nat) (budget : InspectionBudget) : Session BytePreview := do
  let ledger ← previewLedger providerKind length budget
  withLedger ledger (previewSelection selection length)

end Storageprims

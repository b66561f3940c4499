import Storageprims.Ops.Preview
import Storageprims.Ops.LineOps

/-!
# Calls of the bounded operations

One type for the calls and one for what they return, for the results that hold of
every operation alike.
-/

namespace Storageprims

/-- A call of a bounded operation, with its arguments. -/
inductive Call where
  | previewBytes (provider : StorageProvider) (key : String) (length : Nat)
      (budget : InspectionBudget)
  | previewBytesSelected (providerKind : ProviderKind) (selection : GuardedReadSelection)
      (length : Nat) (budget : InspectionBudget)
  | headLines (provider : StorageProvider) (key : String) (n : Nat) (options : LineOptions)
  | tailLines (provider : StorageProvider) (key : String) (n : Nat) (options : LineOptions)
  | midLines (provider : StorageProvider) (key : String) (n : Nat) (options : LineOptions)
  | countLines (provider : StorageProvider) (key : String)

/-- What a call returns. -/
inductive Answer where
  | preview (result : BytePreview)
  | lines (result : LineResult)
  | count (count : Nat)
  deriving DecidableEq

namespace Call

def session : Call → Session Answer
  | .previewBytes provider key length budget => do
      return .preview (← Storageprims.previewBytes provider key length budget)
  | .previewBytesSelected providerKind selection length budget => do
      return .preview (← Storageprims.previewBytesSelected providerKind selection length budget)
  | .headLines provider key n options => do
      return .lines (← headLinesWithOptions provider key n options)
  | .tailLines provider key n options => do
      return .lines (← tailLinesWithOptions provider key n options)
  | .midLines provider key n options => do
      return .lines (← midLinesWithOptions provider key n options)
  | .countLines provider key => do
      return .count (← Storageprims.countLines provider key)

/-- The budget a line operation runs under. -/
def ofLines (n : Nat) (options : LineOptions) : InspectionBudget :=
  { InspectionBudget.default with
    lineCount := n
    chunkSize := options.chunkSize
    probeSize := options.probeSize }

/-- The budget a call runs under. -/
def budget : Call → InspectionBudget
  | .previewBytes _ _ _ budget => budget
  | .previewBytesSelected _ _ _ budget => budget
  | .headLines _ _ n options => ofLines n options
  | .tailLines _ _ n options => ofLines n options
  | .midLines _ _ n options => ofLines n options
  | .countLines _ _ => .default

/-- The key a call observes, if it binds its own selection. -/
def key : Call → Option String
  | .previewBytes _ key _ _ => some key
  | .previewBytesSelected _ _ _ _ => none
  | .headLines _ key _ _ => some key
  | .tailLines _ key _ _ => some key
  | .midLines _ key _ _ => some key
  | .countLines _ key => some key

end Call

end Storageprims

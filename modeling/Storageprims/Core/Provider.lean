import Storageprims.Core.Types
import Storageprims.Interaction.Script

/-!
# What an operation can ask for

An operation sees a provider, the monotonic clock and the body streams it was
given, and nothing else.  `Request` lists everything it can ask for and
`Response` what can come back.  A provider call and a stream read run under a
deadline, so their answer is `Awaited`: either the deadline fired or the future
was ready.
-/

namespace Storageprims

/-- A reading of the monotonic clock, in nanoseconds. -/
abbrev Instant := Nat

/-- The clock represents seconds as a signed 64-bit number. -/
abbrev instantBound : Nat := 2 ^ 63 * 1000000000

/-- `Instant::checked_add`. -/
def Instant.checkedAdd (now : Instant) (span : Duration) : Option Instant :=
  if now + span.nanos < instantBound then some (now + span.nanos) else none

/-- The outcome of awaiting a future under a deadline. -/
inductive Awaited (α : Type) where
  | elapsed
  | ready (value : α)
  deriving DecidableEq

/-- Everything an operation can ask its surroundings. -/
inductive Request where
  | now
  | read (reader : ReaderId) (capacity : Nat)
  | observeSource (key : String)
  | guardedHead (selection : GuardedReadSelection)
  | guardedGet (selection : GuardedReadSelection)
  | guardedGetRange (request : GuardedRangeRequest)
  | head (key : String)
  | get (key : String)
  | getRange (request : GetRangeRequest)
  deriving DecidableEq

/-- A read fills at most the buffer it is given. -/
abbrev Chunk (capacity : Nat) := { bytes : List UInt8 // bytes.length ≤ capacity }

/-- What comes back for a request. -/
def Response : Request → Type
  | .now => Instant
  | .read _ capacity => Awaited (Except IoError (Chunk capacity))
  | .observeSource _ => Awaited (Except StorageError SourceObservation)
  | .guardedHead _ => Awaited (Except StorageError SourceReceipt)
  | .guardedGet _ => Awaited (Except StorageError GuardedReadResponse)
  | .guardedGetRange _ => Awaited (Except StorageError GuardedReadResponse)
  | .head _ => Awaited (Except StorageError ObjectMetadata)
  | .get _ => Awaited (Except StorageError ReaderId)
  | .getRange _ => Awaited (Except StorageError ReaderId)

/-- The guarded extension of a provider, as far as it answers on the spot. -/
structure GuardedReadProvider where
  guardedReadTargetIdentity : String

def GuardedReadProvider.bindGuardedRead (provider : GuardedReadProvider) (key : String)
    (selector : SourceSelector) : Except StorageError GuardedReadSelection :=
  GuardedReadSelection.bind provider.guardedReadTargetIdentity key selector

/-- A provider, as far as it answers on the spot. -/
structure StorageProvider where
  providerKind : ProviderKind
  guardedReads : Option GuardedReadProvider

def requireGuardedReads (provider : StorageProvider) (operation : StorageOperation) :
    Except StorageError GuardedReadProvider :=
  match provider.guardedReads with
  | some guarded => .ok guarded
  | none => .error (.unsupportedCapability provider.providerKind operation .guardedRead)

end Storageprims

import Storageprims.Core.Types
import Storageprims.Text.Lines
import Storageprims.Text.Utf8
import Mathlib.Data.List.Dedup

/-!
# Framing bytes into lines

The parsers of the line operations, each over one window of bytes.  They share
one driver: a main loop that extracts complete lines, a second attempt at the
end of the object (where a final CR counts), and the final unterminated piece.
The head form stops at a number of lines; the tail form keeps a ring of the most
recent ones.  Counting has a scanner of its own.
-/

namespace Storageprims

open Lines (lf cr)

inductive ReadStrategy where
  | rangeBackward
  | rangeMidpoint
  | forwardStream
  deriving DecidableEq, Repr

inductive LineEnding where
  | lf
  | crLf
  | cr
  | mixed
  | unknown
  deriving DecidableEq, Repr

structure LineResult where
  lines : List Utf8.Text
  byteOffsetStart : Nat
  byteOffsetEnd : Nat
  totalSize : Nat
  strategy : ReadStrategy
  lineEnding : LineEnding
  deriving DecidableEq

inductive LineOpsError where
  | compressedObject
  | noLineTerminatorInProbe (probeSize : Nat)
  | binaryContent
  deriving DecidableEq, Repr

/-- One framed line; `stop` is the source's `end`, behind the terminator. -/
structure ParsedLine where
  text : Utf8.Text
  start : Nat
  stop : Nat
  ending : Option LineEnding
  deriving DecidableEq

def lineOpsError (provider : ProviderKind) (operation : StorageOperation) :
    LineOpsError → StorageError
  | .noLineTerminatorInProbe probeSize =>
      .inspection (some provider) operation .limitExceeded (some .probeSize) probeSize probeSize
  | .compressedObject | .binaryContent =>
      .inspection (some provider) operation .encodingRejected none 0 0

/-! ## Slices -/

/-- A slice `[..stop]` of `len` elements. -/
def checkSlice (stop len : Nat) : Except Failure Unit :=
  if stop ≤ len then .ok () else .error .panic

/-- The slice of `bytes` up to `stop`. -/
def sliceTo (bytes : List UInt8) (stop : Nat) : Except Failure (List UInt8) :=
  if stop ≤ bytes.length then .ok (bytes.take stop) else .error .panic

/-- The slice of `bytes` from `start` on, which must not lie behind the end. -/
def sliceFrom (bytes : List UInt8) (start : Nat) : Except Failure (List UInt8) :=
  if start ≤ bytes.length then .ok (bytes.drop start) else .error .panic

theorem checkSlice_of_le {stop len : Nat} (h : stop ≤ len) : checkSlice stop len = .ok () :=
  if_pos h

theorem sliceTo_of_le {bytes : List UInt8} {stop : Nat} (h : stop ≤ bytes.length) :
    sliceTo bytes stop = .ok (bytes.take stop) := if_pos h

theorem sliceFrom_of_le {bytes : List UInt8} {start : Nat} (h : start ≤ bytes.length) :
    sliceFrom bytes start = .ok (bytes.drop start) := if_pos h

theorem sliceFrom_ok {bytes framed : List UInt8} {start : Nat}
    (h : sliceFrom bytes start = .ok framed) :
    start ≤ bytes.length ∧ framed = bytes.drop start := by
  rw [sliceFrom] at h
  split at h
  · exact ⟨‹_›, (Except.ok.inj h).symm⟩
  · cases h

/-! ## Extracting one line -/

section Extraction

variable (provider : ProviderKind) (operation : StorageOperation)

/-- The strict check every line's text passes. -/
def lineText (bytes : List UInt8) : Except Failure Utf8.Text :=
  match Utf8.fromUtf8 bytes with
  | .ok text => .ok text
  | .error _ => .error (.error (lineOpsError provider operation .binaryContent))

/-- The line that ends at `index` with a terminator of `consumed` bytes. -/
def completeLine (bytes : List UInt8) (baseOffset index consumed : Nat) (ending : LineEnding) :
    Except Failure (Option (ParsedLine × Nat)) := do
  let front ← sliceTo bytes index
  let text ← lineText provider operation front
  let stop ← addU64 (← addU64 baseOffset index) consumed
  let taken ← addU64 index consumed
  return some (⟨text, baseOffset, stop, some ending⟩, taken)

/-- The scan of `extractFirstCompleteLine`: `rest` is what lies behind `index`, so
that the scan reads no byte behind the end. -/
def extractFrom (bytes : List UInt8) (baseOffset : Nat) (eof : Bool) :
    Nat → List UInt8 → Except Failure (Option (ParsedLine × Nat))
  | _, [] => .ok none
  | index, b :: rest =>
      if b = lf then
        completeLine provider operation bytes baseOffset index 1 .lf
      else if b = cr then do
        let next ← addU64 index 1
        if next = bytes.length ∧ ¬ eof then return none
        else if bytes[next]? = some lf then
          completeLine provider operation bytes baseOffset index 2 .crLf
        else
          completeLine provider operation bytes baseOffset index 1 .cr
      else do
        let next ← addU64 index 1
        extractFrom bytes baseOffset eof next rest

def extractFirstCompleteLine (bytes : List UInt8) (baseOffset : Nat) (eof : Bool) :
    Except Failure (Option (ParsedLine × Nat)) :=
  extractFrom provider operation bytes baseOffset eof 0 bytes

/-- The text in front of `index` is checked, and `consumed` bytes end with it. -/
def completeConsumed (bytes : List UInt8) (index consumed : Nat) : Except Failure (Option Nat) := do
  let front ← sliceTo bytes index
  let _ ← lineText provider operation front
  return some consumed

/-- The scan of `completeLineConsumed`. -/
def consumedFrom (bytes : List UInt8) (eof : Bool) :
    Nat → List UInt8 → Except Failure (Option Nat)
  | _, [] => .ok none
  | index, b :: rest =>
      if b = lf then do
        let consumed ← addU64 index 1
        completeConsumed provider operation bytes index consumed
      else if b = cr then do
        let next ← addU64 index 1
        if next < bytes.length ∧ bytes[next]? = some lf then do
          let consumed ← addU64 index 2
          completeConsumed provider operation bytes index consumed
        else if next < bytes.length ∨ eof then
          completeConsumed provider operation bytes index next
        else return none
      else consumedFrom bytes eof (index + 1) rest

def completeLineConsumed (bytes : List UInt8) (eof : Bool) : Except Failure (Option Nat) :=
  consumedFrom provider operation bytes eof 0 bytes

/-! ## The drivers -/

/-- The main loop.  Every round consumes at least one byte, so as many rounds as
there are bytes suffice. -/
def frameLoop (more : List ParsedLine → Bool)
    (keep : List ParsedLine → ParsedLine → List ParsedLine)
    (bytes : List UInt8) (baseOffset : Nat) :
    Nat → Nat → List ParsedLine → Except Failure (Nat × List ParsedLine)
  | 0, cursor, lines => .ok (cursor, lines)
  | rounds + 1, cursor, lines =>
      if cursor < bytes.length ∧ more lines then do
        let rest ← sliceFrom bytes cursor
        let offset ← addU64 baseOffset cursor
        match ← extractFirstCompleteLine provider operation rest offset false with
        | none => return (cursor, lines)
        | some (line, consumed) => do
            let cursor ← addU64 cursor consumed
            frameLoop more keep bytes baseOffset rounds cursor (keep lines line)
      else .ok (cursor, lines)

/-- The end of the object: a terminal CR is a terminator now, and what is left
after it is the final unterminated line. -/
def frameTrailing (more : List ParsedLine → Bool)
    (keep : List ParsedLine → ParsedLine → List ParsedLine)
    (bytes : List UInt8) (baseOffset cursor : Nat) (lines : List ParsedLine) :
    Except Failure (List ParsedLine) := do
  let (cursor, lines) ←
    if more lines ∧ cursor < bytes.length then do
      let rest ← sliceFrom bytes cursor
      let offset ← addU64 baseOffset cursor
      match ← extractFirstCompleteLine provider operation rest offset true with
      | none => pure (cursor, lines)
      | some (line, consumed) => do
          let cursor ← addU64 cursor consumed
          pure (cursor, keep lines line)
    else pure (cursor, lines)
  if more lines ∧ cursor < bytes.length then do
    let rest ← sliceFrom bytes cursor
    let text ← lineText provider operation rest
    let start ← addU64 baseOffset cursor
    let stop ← addU64 baseOffset bytes.length
    return keep lines ⟨text, start, stop, none⟩
  else return lines

def frameLines (more : List ParsedLine → Bool)
    (keep : List ParsedLine → ParsedLine → List ParsedLine)
    (bytes : List UInt8) (baseOffset : Nat) (includeTrailing : Bool) :
    Except Failure (List ParsedLine) := do
  let (cursor, lines) ←
    frameLoop provider operation more keep bytes baseOffset bytes.length 0 []
  if includeTrailing then
    frameTrailing provider operation more keep bytes baseOffset cursor lines
  else return lines

/-- A ring buffer of at most `maximum` lines: the oldest one leaves. -/
def ringPush (maximum : Nat) (lines : List ParsedLine) (line : ParsedLine) : List ParsedLine :=
  (if lines.length = maximum then lines.drop 1 else lines) ++ [line]

/-- Every line: the reference parser of the source's own tests. -/
def parseLines (bytes : List UInt8) (baseOffset : Nat) (includeTrailing : Bool) :
    Except Failure (List ParsedLine) :=
  frameLines provider operation (fun _ => true) (fun lines line => lines ++ [line]) bytes
    baseOffset includeTrailing

def parseLinesUpTo (bytes : List UInt8) (baseOffset : Nat) (includeTrailing : Bool)
    (maximum : Nat) : Except Failure (List ParsedLine) :=
  frameLines provider operation (fun lines => decide (lines.length < maximum))
    (fun lines line => lines ++ [line]) bytes baseOffset includeTrailing

def parseTailLinesBounded (bytes : List UInt8) (baseOffset : Nat) (includeTrailing : Bool)
    (maximum : Nat) : Except Failure (List ParsedLine) :=
  frameLines provider operation (fun _ => true) (ringPush maximum) bytes baseOffset
    includeTrailing

/-- `count.checked_add(1)` with its error. -/
def countOne (count : Nat) : Except Failure Nat :=
  match checkedAdd count 1 with
  | some count => .ok count
  | none => .error (.error (.invalidArgument (some operation) "line count"
      "line count overflows u64"))

def countLoop (bytes : List UInt8) : Nat → Nat → Nat → Except Failure (Nat × Nat)
  | 0, cursor, count => .ok (cursor, count)
  | rounds + 1, cursor, count =>
      if cursor < bytes.length then do
        let rest ← sliceFrom bytes cursor
        match ← completeLineConsumed provider operation rest false with
        | none => return (cursor, count)
        | some consumed => do
            let cursor ← addU64 cursor consumed
            let count ← countOne operation count
            countLoop bytes rounds cursor count
      else .ok (cursor, count)

def countLinesBounded (bytes : List UInt8) : Except Failure Nat := do
  let (cursor, count) ← countLoop provider operation bytes bytes.length 0 0
  if cursor < bytes.length then do
    let rest ← sliceFrom bytes cursor
    let _ ← lineText provider operation rest
    countOne operation count
  else return count

end Extraction

/-! ## Alignment -/

/-- The scan of `nextLineBoundary` from `index` on. -/
def boundaryFrom : Nat → List UInt8 → Except Failure (Option Nat)
  | _, [] => .ok none
  | index, b :: rest => do
      let next ← addU64 index 1
      if b = lf then return some next
      else if b = cr then
        if rest.head? = some lf then return some (← addU64 index 2) else return some next
      else boundaryFrom next rest

def nextLineBoundary (bytes : List UInt8) (start : Nat) : Except Failure (Option Nat) :=
  boundaryFrom start (bytes.drop start)

def firstFullLineStart (bytes : List UInt8) (boundaryBeforeStart : Bool) :
    Except Failure (Option Nat) :=
  if boundaryBeforeStart then .ok (some 0) else nextLineBoundary bytes 0

def sliceStartsOnLineBoundary (previousByte firstByte : Option UInt8) : Bool :=
  match previousByte with
  | none => true
  | some b => b = lf ∨ (b = cr ∧ firstByte ≠ some lf)

def midpointAlignment (bytes : List UInt8) (midpointInSlice : Nat) :
    Except Failure (Option Nat) :=
  match tryUsize midpointInSlice with
  | none => .ok none
  | some midpoint =>
      match bytes[midpoint]? with
      | none => .ok none
      | some b =>
          if b = lf then return some (← addU64 midpoint 1)
          else if b = cr then do
            let next ← addU64 midpoint 1
            if bytes[next]? = some lf then return some (← addU64 midpoint 2) else return some next
          else nextLineBoundary bytes midpoint

/-! ## Rejecting what is not text -/

def startsWithUtf16Bom (bytes : List UInt8) : Bool :=
  [0xFF, 0xFE].isPrefixOf bytes || [0xFE, 0xFF].isPrefixOf bytes

def stripUtf8Bom (bytes : List UInt8) : List UInt8 :=
  (bytes.dropPrefix? [0xEF, 0xBB, 0xBF]).getD bytes

/-- A code point cut at the end of the window is carry-over, not evidence of
binary content. -/
def rejectBinaryPrefix (bytes : List UInt8) (provider : ProviderKind)
    (operation : StorageOperation) : Except StorageError Unit :=
  if startsWithUtf16Bom bytes ∨ bytes.contains 0 then
    .error (lineOpsError provider operation .binaryContent)
  else
    match Utf8.fromUtf8 (stripUtf8Bom bytes) with
    | .ok _ => .ok ()
    | .error error =>
        if error.errorLen.isSome then
          .error (lineOpsError provider operation .binaryContent)
        else .ok ()

def isCompressedKey (key : String) : Bool :=
  [".gz", ".zst", ".bz2", ".xz", ".lz4", ".br"].any fun ending =>
    ending.toList.isSuffixOf key.toList

/-! ## Results -/

def emptyResult (strategy : ReadStrategy) (totalSize : Nat) : LineResult where
  lines := []
  byteOffsetStart := 0
  byteOffsetEnd := 0
  totalSize := totalSize
  strategy := strategy
  lineEnding := .unknown

def aggregateLineEndings (endings : List LineEnding) : LineEnding :=
  match endings.dedup with
  | [] => .unknown
  | [ending] => ending
  | _ => .mixed

def buildLineResult (lines : List ParsedLine) (totalSize : Nat) (strategy : ReadStrategy) :
    LineResult :=
  match lines.head?, lines.getLast? with
  | some first, some last =>
      { lines := lines.map ParsedLine.text
        byteOffsetStart := first.start
        byteOffsetEnd := last.stop
        totalSize := totalSize
        strategy := strategy
        lineEnding := aggregateLineEndings (lines.filterMap ParsedLine.ending) }
  | _, _ => emptyResult strategy totalSize

end Storageprims

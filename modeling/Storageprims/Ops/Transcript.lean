import Storageprims.Ops.Ledger

/-!
# Reading a transcript

What an outside observer can tell from the requests an operation has made and
the answers it got: how many provider requests there were, how many bytes came
out of body streams, what size the selected HEAD reported, and which bytes the
last range delivered under which receipt.
-/

namespace Storageprims

open Interaction

/-- Calls of the provider; the clock and the body streams are not. -/
def Request.isProviderCall : Request → Bool
  | .now => false
  | .read _ _ => false
  | _ => true

/-- The number of provider requests issued. -/
def requestsIssued (transcript : Transcript) : Nat :=
  transcript.countP fun event => event.request.request.isProviderCall

/-- The bytes a read delivered. -/
def delivered : Event Step Reply → List UInt8
  | ⟨⟨_, .read _ _⟩, .ready (.ok chunk)⟩ => chunk.val
  | _ => []

/-- The number of bytes pulled from body readers, probes for the end included. -/
def bytesPulled (transcript : Transcript) : Nat :=
  (transcript.map fun event => (delivered event).length).sum

/-- A range, the receipt of its response, and the bytes read from that response. -/
structure WindowRead where
  range : GuardedRangeRequest
  receipt : SourceReceipt
  bytes : List UInt8
  deriving DecidableEq

/-- The last window after one more event. -/
def nextWindow (window : Option WindowRead) : Event Step Reply → Option WindowRead
  | ⟨⟨_, .guardedGetRange range⟩, .ready (.ok response)⟩ => some ⟨range, response.receipt, []⟩
  | ⟨⟨_, .read _ _⟩, .ready (.ok chunk)⟩ =>
      window.map fun read => { read with bytes := read.bytes ++ chunk.val }
  | _ => window

/-- The last window an operation has opened, with the bytes read so far. -/
def lastWindow (transcript : Transcript) : Option WindowRead :=
  transcript.foldl nextWindow none

/-- The size reported last after one more event. -/
def nextTotal (total : Option Nat) : Event Step Reply → Option Nat
  | ⟨⟨_, .guardedHead _⟩, .ready (.ok receipt)⟩ => receipt.totalSize
  | _ => total

/-- The size the last selected HEAD reported. -/
def selectedTotal (transcript : Transcript) : Option Nat :=
  transcript.foldl nextTotal none

/-- The ledger at the last request. -/
def lastLedger (transcript : Transcript) : Option InspectionLedger :=
  transcript.getLast?.bind fun event => event.request.ledger

section Snoc

variable (past : Transcript) (ledger : Option InspectionLedger)

@[simp] theorem requestsIssued_snoc (event : Event Step Reply) :
    requestsIssued (past ++ [event]) =
      requestsIssued past + if event.request.request.isProviderCall then 1 else 0 := by
  rw [requestsIssued, List.countP_append, List.countP_singleton]
  rfl

@[simp] theorem bytesPulled_snoc (event : Event Step Reply) :
    bytesPulled (past ++ [event]) = bytesPulled past + (delivered event).length := by
  rw [bytesPulled, List.map_append, List.sum_append]
  simp [bytesPulled]

@[simp] theorem lastWindow_snoc (event : Event Step Reply) :
    lastWindow (past ++ [event]) = nextWindow (lastWindow past) event := by
  rw [lastWindow, List.foldl_append]
  rfl

@[simp] theorem selectedTotal_snoc (event : Event Step Reply) :
    selectedTotal (past ++ [event]) = nextTotal (selectedTotal past) event := by
  rw [selectedTotal, List.foldl_append]
  rfl

@[simp] theorem lastLedger_snoc (event : Event Step Reply) :
    lastLedger (past ++ [event]) = event.request.ledger := by
  rw [lastLedger, List.getLast?_concat]
  rfl

end Snoc

/-- A provider request delivers no bytes of a body. -/
theorem delivered_of_isProviderCall {event : Event Step Reply}
    (h : event.request.request.isProviderCall = true) : delivered event = [] := by
  obtain ⟨⟨ledger, request⟩, reply⟩ := event
  cases request <;> first | rfl | cases h

theorem bytesPulled_call {past : Transcript} {event : Event Step Reply}
    (hcall : event.request.request.isProviderCall = true) :
    bytesPulled (past ++ [event]) = bytesPulled past := by
  rw [bytesPulled_snoc, delivered_of_isProviderCall hcall, List.length_nil, Nat.add_zero]

/-- Between `past` and `now` an observer saw `bytes` come out of the last window,
and the clock. -/
structure Drew (bytes : List UInt8) (past now : Transcript) : Prop where
  requests : requestsIssued now = requestsIssued past
  pulled : bytesPulled now = bytesPulled past + bytes.length
  window : lastWindow now =
    (lastWindow past).map fun read => { read with bytes := read.bytes ++ bytes }
  total : selectedTotal now = selectedTotal past

theorem Drew.trans {first second : List UInt8} {past middle now : Transcript}
    (h₁ : Drew first past middle) (h₂ : Drew second middle now) :
    Drew (first ++ second) past now := by
  refine ⟨h₂.requests.trans h₁.requests, ?_, ?_, h₂.total.trans h₁.total⟩
  · rw [h₂.pulled, h₁.pulled, List.length_append, Nat.add_assoc]
  · rw [h₂.window, h₁.window, Option.map_map]
    congr 1
    funext read
    simp [List.append_assoc]

/-- Between `past` and `now` an observer saw nothing but the clock. -/
abbrev Quiet (past now : Transcript) : Prop := Drew [] past now

theorem quiet_now (past : Transcript) (ledger : Option InspectionLedger) (reading : Instant) :
    Quiet past (past ++ [⟨⟨ledger, .now⟩, reading⟩]) := by
  refine ⟨?_, ?_, ?_, ?_⟩
  · rw [requestsIssued_snoc]
    rfl
  · rw [bytesPulled_snoc]
    rfl
  · rw [lastWindow_snoc]
    simp [nextWindow]
  · rw [selectedTotal_snoc]
    rfl

/-- A read draws what it delivers. -/
theorem drew_read (past : Transcript) (ledger : Option InspectionLedger) {reader : ReaderId}
    {capacity : Nat} (chunk : Chunk capacity) :
    Drew chunk.val past (past ++ [⟨⟨ledger, .read reader capacity⟩, .ready (.ok chunk)⟩]) := by
  refine ⟨?_, ?_, ?_, ?_⟩
  · rw [requestsIssued_snoc]
    rfl
  · rw [bytesPulled_snoc]
    rfl
  · rw [lastWindow_snoc]
    rfl
  · rw [selectedTotal_snoc]
    rfl

end Storageprims

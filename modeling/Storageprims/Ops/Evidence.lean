import Storageprims.Ops.Bounds

/-!
# End-of-object answers and their evidence

When does an answer that claims the end of the object rest on a receipt that
proves the end?  Always for head, midpoint and count; for tail exactly when the
suffix response states a total, and none above the size of the selected HEAD.
-/

namespace Storageprims

open Interaction

/-- Against any answers, an `ok` result of a line operation on an object that is
not empty proves the end it claims.  Without `force_stream` the tail operation
leaves that proof to the provider. -/
theorem lineOperations_prove_end (provider : StorageProvider) (key : String) (n : Nat)
    (options : LineOptions) {transcript : Transcript} {final : Option InspectionLedger}
    (hnonempty : selectedTotal transcript ≠ some 0) :
    (∀ result, Trace (tailLinesWithOptions provider key n options none) transcript
        (.ret (.ok result, final)) →
      (ProvenEnd transcript ↔
        ∃ size, selectedTotal transcript = some size ∧ StatedWithin size transcript) ∧
      (options.forceStream = true → ProvenEnd transcript)) ∧
    (∀ result, Trace (headLinesWithOptions provider key n options none) transcript
        (.ret (.ok result, final)) →
      result.lines.length < n ∨ EndsWithInput result transcript → ProvenEnd transcript) ∧
    (∀ result, Trace (midLinesWithOptions provider key n options none) transcript
        (.ret (.ok result, final)) →
      result.lines.length < n ∨ EndsWithInput result transcript → ProvenEnd transcript) ∧
    ∀ count, Trace (countLines provider key none) transcript (.ret (.ok count, final)) →
      ProvenEnd transcript := by
  -- one part an operation, each from its last answer
  refine ⟨fun result htrace => ?_, fun result htrace => ?_, fun result htrace => ?_,
    fun count htrace => ?_⟩
  · obtain ⟨-, -, size, htotal, hsupported⟩ := Program.Ensures.of_finished
      audited_tailLinesWithOptions htrace (accepts_history [] transcript)
    have hsize : size ≠ 0 := fun hzero => hnonempty (hzero ▸ htotal)
    refine ⟨(hsupported hsize).stated.trans ⟨fun h => ⟨size, htotal, h⟩, ?_⟩,
      (hsupported hsize).forced⟩
    rintro ⟨size', htotal', hstated⟩
    rwa [Option.some.inj (htotal.symm.trans htotal')]
  · obtain ⟨-, -, hsupported⟩ := Program.Ensures.of_finished audited_headLinesWithOptions
      htrace (accepts_history [] transcript)
    exact hsupported hnonempty
  · obtain ⟨-, -, hsupported⟩ := Program.Ensures.of_finished audited_midLinesWithOptions
      htrace (accepts_history [] transcript)
    exact hsupported hnonempty
  · exact (Program.Ensures.of_finished audited_countLines htrace
      (accepts_history [] transcript)).2 hnonempty

/-- The count of `a LF b` rests on its end. -/
theorem lineOperations_prove_end_count :
    ProvenEnd (referenceRun [0x61, 0x0A, 0x62] (by decide)
      (countLines guardedProvider "log.txt")).2.1 :=
  (lineOperations_prove_end guardedProvider "log.txt" 1 .default
    (by decide +kernel)).2.2.2 2 (trace_handled _ _ _ (by decide +kernel))

/-- The reference provider, except that its ranges do not state a total. -/
def silent (object : List UInt8) (hobject : object.length < u64Bound) :
    Serving → (step : Step) → Reply step × Serving := fun state step =>
  match step with
  | ⟨_, .guardedGetRange range⟩ =>
      if hrange : Satisfiable object range.offset range.length then
        (.ready (.ok ⟨{
            rangeReceipt object range.selection.key range.offset range.length hobject hrange with
            totalSize := none
            totalSize_lt := noTotal_lt
          }, 0⟩),
          state.set 0 ((object.drop range.offset).take range.length))
      else (.elapsed, state)
  | step => reference object hobject state step

/-- Of `a LF b` the tail operation reports `a` as the last line when the range
does not state a total. -/
theorem tailLinesWithOptions_drops_last :
    ∃ transcript final, Trace (tailLinesWithOptions guardedProvider "log.txt" 1 .default none)
        transcript (.ret (.ok ⟨[⟨[0x61], rfl⟩], 0, 2, 3, .rangeBackward, .lf⟩, final)) ∧
      selectedTotal transcript = some 3 ∧ ¬ ProvenEnd transcript := by
  refine ⟨_, _, trace_handled (silent [0x61, 0x0A, 0x62] (by decide)) _ ⟨fun _ => []⟩
    (by decide +kernel), by decide +kernel, ?_⟩
  rintro ⟨read, window, hread, -, htotal⟩
  have hsilent : (lastWindow ((tailLinesWithOptions guardedProvider "log.txt" 1 .default
      none).runWith (silent [0x61, 0x0A, 0x62] (by decide)) ⟨fun _ => []⟩).2.1).bind
      (fun read => read.receipt.totalSize) = none := by decide +kernel
  rw [hread] at hsilent
  exact Option.some_ne_none _ (htotal.symm.trans hsilent)

end Storageprims

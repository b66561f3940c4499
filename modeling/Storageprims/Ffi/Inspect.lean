import Storageprims.Ffi.Control
import Storageprims.S3.GuardedStore

/-!
# Lines through the interface

A line operation that a foreign caller asks for runs over the provider behind its id, and the
provider over a bucket that other clients write to.  What the caller gets is the text of an
answer about one version of the object.
-/

namespace Storageprims

open Interaction

/-- The provider that a line operation runs on. -/
def Call.provider : Call → Option StorageProvider
  | .previewBytes provider _ _ _ => some provider
  | .previewBytesSelected _ _ _ _ => none
  | .headLines provider _ _ _ => some provider
  | .tailLines provider _ _ _ => some provider
  | .midLines provider _ _ _ => some provider
  | .countLines provider _ => some provider

/-- The interface over buckets that other clients write to.  A line operation runs to its end
over the bucket of its provider; everything else takes its time. -/
def inspecting (behind : StorageProvider → S3Provider) :
    Environment ControlRequest ControlResponse Wire
  | wire, .inspect call, answer, wire' => ∃ provider transcript ledger,
      call.provider = some provider ∧
      Trace (call.session none) transcript (.ret (answer, ledger)) ∧
      Accepts (behind provider).overBucket wire transcript wire'
  | wire, _, _, wire' => Relation.ReflTransGen Store.Writes wire.store wire'.store ∧
      wire'.readers = wire.readers

/-- The calls that are line operations. -/
def ControlCall.IsLines : ControlCall → Prop
  | .headLines _ _ _ => True
  | .tailLines _ _ _ => True
  | .midLines _ _ _ => True
  | .countLines _ => True
  | _ => False

/-- The bucket when a line operation looked its object up, somewhere in its run. -/
def SeenBy (provider : S3Provider) (inner : Call) (key : String) (answer : Answer)
    (transcript : Transcript) (wire seen : Wire) : Prop :=
  ∃ middle ledger, ∃ observed : Observed key transcript,
    Relation.ReflTransGen Store.Writes wire.store middle.store ∧
    Trace (inner.session none) transcript (.ret (.ok answer, ledger)) ∧
    Accepts provider.overBucket middle (observed.before ++
      [⟨⟨observed.ledger, .observeSource key⟩, .ready (.ok observed.observation)⟩]) seen

/-- What a line operation asks for is a call of the bounded operations, on its provider. -/
theorem ControlCall.IsLines.inspects {json : ControlJson} {call : ControlCall}
    {provider : StorageProvider} {request : ControlRequest} (h : call.IsLines)
    (hasks : call.Asks json provider request) :
    ∃ inner key, request = .inspect inner ∧ inner.key = some key ∧
      inner.provider = some provider := by
  cases call with
  | headLines key n optsJson =>
      obtain ⟨text, options, -, -, rfl⟩ := hasks
      exact ⟨_, text, rfl, rfl, rfl⟩
  | tailLines key n optsJson =>
      obtain ⟨text, options, -, -, rfl⟩ := hasks
      exact ⟨_, text, rfl, rfl, rfl⟩
  | midLines key n optsJson =>
      obtain ⟨text, options, -, -, rfl⟩ := hasks
      exact ⟨_, text, rfl, rfl, rfl⟩
  | countLines key =>
      obtain ⟨text, -, rfl⟩ := hasks
      exact ⟨_, text, rfl, rfl, rfl⟩
  | _ => exact h.elim

section Lines

variable {json : ControlJson} {call : ControlCall} {handle providerId : UInt64}
variable {behind : StorageProvider → S3Provider} {wire wire' : Wire}
variable {events : List ControlEvent} {out out' : OutPointer}

/-- A line operation that returns `Ok` has handed the caller the text of an answer, which its
arguments and one version of the object determine: the one that the bucket held under the
resolved key when the operation looked, however other clients write to it.  Where the service
states every total, the answer is exact. -/
theorem lines_through_interface (hlines : call.IsLines)
    (hfresh : ∀ reader, wire.readers reader = none)
    (htrace : Trace (call.run json handle providerId out) events (.ret (.ok, out')))
    (haccepts : Accepts (inspecting behind) wire events wire') :
    ∃ provider inner key answer text transcript seen version,
      ⟨.registry (.provider providerId), .ok provider⟩ ∈ events ∧
      call.Asks json provider (.inspect inner) ∧ inner.key = some key ∧
      json.output (.inspected answer) = .ok text ∧ out' = some (some (withoutNul text)) ∧
      SeenBy (behind provider) inner key answer transcript wire seen ∧
      seen.store.current (joinKey (behind provider).rootPrefix key) = some version ∧
      inner.Computes version.bytes (StatesTotals transcript) answer := by
  obtain ⟨provider, ⟨request, response⟩, value, text, rfl, hasks, hshown, htext, rfl, -⟩ :=
    ((call.run_ensures json handle providerId out).of_finished htrace
      (accepts_history [] events)).1 rfl
  obtain ⟨inner, key, hrequest, hkey, hprovider⟩ := hlines.inspects hasks
  change request = .inspect inner at hrequest
  subst hrequest
  obtain ⟨answer, hanswer, rfl⟩ := Option.map_eq_some_iff.mp hshown
  cases response with
  | error failure => cases hanswer
  | ok other =>
      cases hanswer
      -- while the two lookups take their time, other clients write
      obtain ⟨wire₁, ⟨hwrites₁, hreaders₁⟩, hrest₁⟩ := accepts_cons_iff.mp haccepts
      obtain ⟨wire₂, ⟨hwrites₂, hreaders₂⟩, hrest₂⟩ := accepts_cons_iff.mp hrest₁
      obtain ⟨provider', transcript, ledger, hprovider', hinner, hbucket⟩ :=
        accepts_single_iff.mp hrest₂
      obtain rfl : provider = provider' := Option.some.inj (hprovider.symm.trans hprovider')
      have hfresh₂ : ∀ reader, wire₂.readers reader = none := by
        rw [hreaders₂, hreaders₁]
        exact hfresh
      obtain ⟨observed⟩ := Call.observed hkey hinner
      obtain ⟨seen, version, start, serving, hopening, hcurrent, -, hserves⟩ :=
        S3Provider.mirrored_over_bucket observed hfresh₂ hbucket
      refine ⟨provider, inner, key, answer, text, transcript, seen, version, by simp, hasks, hkey,
        htext, rfl, ⟨wire₂, ledger, observed, hwrites₁.trans hwrites₂, hinner, hopening⟩,
        hcurrent, ?_⟩
      exact (Call.yields hkey).of_held_run ⟨ledger, serving, hinner, hserves⟩

end Lines

/-- A JSON library that writes a count of one, and nothing else. -/
def onlyOne : ControlOutput → Except String String
  | .inspected (.count 1) => .ok "1"
  | _ => .error ""

def oneJson : ControlJson := { emptyJson with output := onlyOne }

theorem onlyOne_ok {answer : Answer} {text : String}
    (h : onlyOne (.inspected answer) = .ok text) : answer = .count 1 := by
  unfold onlyOne at h
  split at h
  · rename_i hanswer
    exact ControlOutput.inspected.inj hanswer
  · cases h

/-- The count that a caller asks for over `letterWire`, while the object is overwritten. -/
theorem lines_through_interface_raced :
    ∃ (seen : Wire) (version : Version),
      seen.store.current (joinKey (some "logs") "log.txt") = some version ∧
      1 = (Lines.split version.bytes).length := by
  obtain ⟨transcript, ledger, final, hinner, hbucket⟩ := countLines_raced
  have hwritten : writeJson (.ok "1") (some none) = .ok (some (some "1")) := by
    decide +kernel
  have htrace :
      Trace ((ControlCall.countLines (some (.ok "log.txt"))).run oneJson 1 1 (some none))
        [⟨.registry (.getRuntime 1), .ok ()⟩,
          ⟨.registry (.provider 1), .ok rooted.storageProvider⟩,
          ⟨.inspect (.countLines rooted.storageProvider "log.txt"), .ok (.count 1)⟩]
        (.ret (.ok, some (some "1"))) := by
    refine .step _ _ _ _ _ (.step _ _ _ _ _ (.step _ _ _ _ _ ?_))
    exact Trace.bind (@trace_writeOutput oneJson (.inspected (.count 1)) _ _ hwritten) (.refl _)
  have haccepts : Accepts (inspecting fun _ => rooted) letterWire
      [⟨.registry (.getRuntime 1), .ok ()⟩,
        ⟨.registry (.provider 1), .ok rooted.storageProvider⟩,
        ⟨.inspect (.countLines rooted.storageProvider "log.txt"), .ok (.count 1)⟩] final := by
    refine .cons _ _ _ _ _ _ ⟨.refl, rfl⟩ (.cons _ _ _ _ _ _ ⟨.refl, rfl⟩ ?_)
    exact accepts_single_iff.mpr ⟨_, _, _, rfl, hinner, hbucket⟩
  obtain ⟨provider, inner, key, answer, text, transcript, seen, version, -, hasks, hkey, htext, -,
    -, hcurrent, hcomputes⟩ := lines_through_interface (by trivial) (fun _ => rfl) htrace haccepts
  obtain ⟨name, hname, hinspect⟩ := hasks
  cases hname
  cases hinspect
  cases hkey
  obtain rfl := onlyOne_ok htext
  exact ⟨seen, version, hcurrent, hcomputes⟩

end Storageprims

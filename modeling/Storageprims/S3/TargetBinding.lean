import Storageprims.S3.Receipts

/-!
# Selections and the targets they are bound to

A selection carries the identity of the target it was bound to, and every guarded
read compares it with the identity of its own target before it sends a request.
The identity joins its fields with a mark that the fields may contain, so it tells
two targets apart only as far as the joined text does.
-/

namespace Storageprims

namespace S3Provider

/-- Two providers are configured for one target: the endpoint without its user
information, the bucket and the root prefix are the same. -/
def SameTarget (first second : S3Provider) : Prop :=
  first.endpoint.map sanitizeEndpoint = second.endpoint.map sanitizeEndpoint ∧
    first.bucket = second.bucket ∧ first.rootPrefix = second.rootPrefix

/-- The parts between the separators of the endpoint (`aws` when there is none), the
bucket and the root prefix (the empty text when there is none), in this order. -/
def targetFields (provider : S3Provider) : List (List Char) :=
  ((provider.endpoint.map sanitizeEndpoint).getD "aws").toList.splitOn '|' ++
    (provider.bucket.toList.splitOn '|' ++ (provider.rootPrefix.getD "").toList.splitOn '|')

/-- The answer to a selection that is bound elsewhere. -/
def boundElsewhere (operation : StorageOperation) : StorageError :=
  .invalidArgument (some operation) "selection"
    "selection is bound to a different configured target or key"

/-- The provider refuses the selection in every guarded read, whatever the service
would answer, and sends it no request. -/
structure Refuses (provider : S3Provider) (selection : GuardedReadSelection) : Prop where
  head : provider.guardedHeadCalls selection = .error (boundElsewhere .guardedHead) ∧
    ∀ service, provider.guardedHead service selection = .error (boundElsewhere .guardedHead)
  get : provider.guardedGetCalls selection = .error (boundElsewhere .guardedGet) ∧
    ∀ service, provider.guardedGet service selection = .error (boundElsewhere .guardedGet)
  getRange : ∀ offset length, 0 < length → offset + length - 1 < u64Bound →
    provider.guardedGetRangeCalls ⟨selection, offset, length⟩
        = .error (boundElsewhere .guardedGetRange) ∧
      ∀ service, provider.guardedGetRange service ⟨selection, offset, length⟩
        = .error (boundElsewhere .guardedGetRange)

/-- Selections that the first provider binds are refused by the second one, unless
both are configured for one target. -/
def TargetBound (first second : S3Provider) : Prop :=
  ¬ SameTarget first second → ∀ key selector selection,
    GuardedReadSelection.bind first.guardedTargetIdentity key selector = .ok selection →
      second.Refuses selection

/-- The joined identity determines the parts between its separators and nothing more. -/
theorem guardedTargetIdentity_eq_iff (first second : S3Provider) :
    first.guardedTargetIdentity = second.guardedTargetIdentity ↔
      first.targetFields = second.targetFields := by
  have hfields : ∀ provider : S3Provider,
      provider.guardedTargetIdentity.toList.splitOn '|' = "s3".toList :: provider.targetFields := by
    intro provider
    have hchars : provider.guardedTargetIdentity.toList = "s3".toList ++ '|' ::
        (((provider.endpoint.map sanitizeEndpoint).getD "aws").toList ++ '|' ::
          (provider.bucket.toList ++ '|' :: (provider.rootPrefix.getD "").toList)) := by
      unfold guardedTargetIdentity
      simp only [String.toList_append, List.append_assoc]
      rfl
    rw [hchars, List.splitOn_append_cons_self, List.splitOn_append_cons_self,
      List.splitOn_append_cons_self]
    rfl
  constructor
  · intro hidentity
    have hboth := hfields first
    rw [hidentity, hfields second, List.cons.injEq] at hboth
    exact hboth.2.symm
  · intro hsame
    have hboth : first.guardedTargetIdentity.toList.splitOn '|'
        = second.guardedTargetIdentity.toList.splitOn '|' := by
      rw [hfields first, hfields second, hsame]
    rw [← String.toList_inj]
    calc first.guardedTargetIdentity.toList
        = ['|'].intercalate (first.guardedTargetIdentity.toList.splitOn '|') :=
          (List.intercalate_splitOn '|').symm
      _ = ['|'].intercalate (second.guardedTargetIdentity.toList.splitOn '|') := by rw [hboth]
      _ = second.guardedTargetIdentity.toList := List.intercalate_splitOn '|'

theorem refuses_of_identity_ne {provider : S3Provider} {selection : GuardedReadSelection}
    (hidentity : selection.targetIdentity ≠ provider.guardedTargetIdentity) :
    provider.Refuses selection := by
  have htarget : ∀ operation, provider.selectedTarget selection operation
      = .error (boundElsewhere operation) := by
    intro operation
    unfold selectedTarget GuardedReadSelection.validateFor
    rw [if_pos (.inl hidentity)]
    rfl
  constructor
  case head =>
    unfold guardedHeadCalls guardedHead
    rw [htarget]
    exact ⟨rfl, fun _ => rfl⟩
  case get =>
    unfold guardedGetCalls guardedGet
    rw [htarget]
    exact ⟨rfl, fun _ => rfl⟩
  case getRange =>
    intro offset length hpos hfits
    have hlength : checkLength .guardedGetRange length = .ok () := by
      unfold checkLength
      rw [if_neg (by omega)]
    obtain ⟨requested, hrequested⟩ :=
      exists_requestedRange .guardedGetRange hpos hfits
    unfold guardedGetRangeCalls guardedGetRange
    rw [hlength, rangeHeader_of_requestedRange hrequested, hrequested]
    simp only [bind, Except.bind, htarget]
    exact ⟨trivial, fun _ => trivial⟩

/-- A selection bound by one of two targets that share an identity is accepted by the
other. -/
theorem not_targetBound {first second : S3Provider} (hdiffer : ¬ SameTarget first second)
    (hidentity : first.guardedTargetIdentity = second.guardedTargetIdentity) :
    ¬ TargetBound first second := by
  intro hbound
  have hvalid : (SourceSelector.nativeVersion "v1").validate = .ok () := by decide +kernel
  obtain ⟨selection, hselection⟩ := GuardedReadSelection.exists_bind
    first.guardedTargetIdentity hvalid (show "k" ≠ "" by decide)
  obtain ⟨htarget, -, -⟩ := GuardedReadSelection.bind_ok hselection
  have hrefused := (hbound hdiffer "k" _ selection hselection).head.1
  have hvalidFor : selection.validateFor second.guardedTargetIdentity selection.key .guardedHead
      = .ok () := by
    unfold GuardedReadSelection.validateFor
    rw [if_neg (by simp [htarget, hidentity]), selection.selector_valid]
  unfold guardedHeadCalls selectedTarget keyTarget resolveKey at hrefused
  rw [hvalidFor, if_neg selection.key_nonempty] at hrefused
  cases hrefused

/-- Selections are bound to their target exactly as far as the joined identity tells
targets apart: the second provider refuses what the first has bound if and only if
the parts between the separators differ, or both are configured for one target. -/
theorem targetBound_iff (first second : S3Provider) :
    TargetBound first second ↔
      SameTarget first second ∨ first.targetFields ≠ second.targetFields := by
  constructor
  · intro hbound
    by_cases hsame : SameTarget first second
    · exact .inl hsame
    · refine .inr ?_
      intro hfields
      exact not_targetBound hsame ((guardedTargetIdentity_eq_iff first second).mpr hfields) hbound
  · rintro (hsame | hfields) hdiffer
    · exact absurd hsame hdiffer
    · intro key selector selection hbind
      obtain ⟨hidentity, -, -⟩ := GuardedReadSelection.bind_ok hbind
      apply refuses_of_identity_ne
      rw [hidentity]
      exact mt (guardedTargetIdentity_eq_iff first second).mp hfields

/-- Two pairs of targets that share an identity: a separator that moves from the
bucket to the root prefix, and an endpoint that spells the placeholder. -/
theorem targets_share_identity :
    let left : S3Provider := ⟨"a|b", some "c", none, by decide⟩
    let right : S3Provider := ⟨"a", some "b|c", none, by decide⟩
    let default : S3Provider := ⟨"a", none, none, by decide⟩
    let named : S3Provider := ⟨"a", none, some "aws", by decide⟩
    (left.guardedTargetIdentity = "s3|aws|a|b|c" ∧ right.guardedTargetIdentity = "s3|aws|a|b|c" ∧
      ¬ TargetBound left right) ∧
    default.guardedTargetIdentity = "s3|aws|a|" ∧ named.guardedTargetIdentity = "s3|aws|a|" ∧
      ¬ TargetBound default named := by
  intro left right default named
  have hleft : left.guardedTargetIdentity = "s3|aws|a|b|c" := by decide +kernel
  have hright : right.guardedTargetIdentity = "s3|aws|a|b|c" := by decide +kernel
  have hdefault : default.guardedTargetIdentity = "s3|aws|a|" := by decide +kernel
  have hnamed : named.guardedTargetIdentity = "s3|aws|a|" := by decide +kernel
  refine ⟨⟨hleft, hright, ?_⟩, hdefault, hnamed, ?_⟩
  · apply not_targetBound
    · rintro ⟨-, hbucket, -⟩
      exact absurd hbucket (by decide)
    · rw [hleft, hright]
  · apply not_targetBound
    · rintro ⟨hendpoint, -, -⟩
      cases hendpoint
    · rw [hdefault, hnamed]

end S3Provider

end Storageprims

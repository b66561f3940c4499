import Storageprims.Ops.Guarded

/-!
# Receipts of guarded ranges

What the receipt of a range says when the range check passes it.  Every later
statement about a range takes the window from here and not from the check.
-/

namespace Storageprims

/-- The last byte that a range can return from a source of this total. -/
def lastReturned (totalSize : Option Nat) (offset length : Nat) : Nat :=
  match totalSize with
  | some total => min (offset + length - 1) (total - 1)
  | none => offset + length - 1

/-- The receipt names the requested window, a source that has its first byte, and
the part of the window that lies in the source. -/
structure ProvesRange (receipt : SourceReceipt) (offset length : Nat) : Prop where
  requested : ∃ window, receipt.requestedWindow = some window ∧ window.start = offset ∧
    window.last = offset + length - 1
  present : ∀ total ∈ receipt.totalSize, offset < total
  returned : ∃ window, receipt.returnedWindow = some window ∧ window.start = offset ∧
    window.last = lastReturned receipt.totalSize offset length

theorem offset_le_lastReturned {totalSize : Option Nat} {offset length : Nat}
    (hpos : 0 < length) (hpresent : ∀ total ∈ totalSize, offset < total) :
    offset ≤ lastReturned totalSize offset length := by
  unfold lastReturned
  cases totalSize with
  | none =>
      show offset ≤ offset + length - 1
      omega
  | some total =>
      have hlt := hpresent total rfl
      show offset ≤ min (offset + length - 1) (total - 1)
      omega

theorem lastReturned_le (totalSize : Option Nat) (offset length : Nat) :
    lastReturned totalSize offset length ≤ offset + length - 1 := by
  unfold lastReturned
  cases totalSize with
  | none => exact Nat.le_refl _
  | some total => exact Nat.min_le_left _ _

theorem orInvalid_ok_iff {α : Type} {operation : StorageOperation} {detail : String}
    {value? : Option α} {value : α} :
    orInvalid operation detail value? = .ok value ↔ value? = some value := by
  cases value? with
  | none => simp [orInvalid]
  | some other => simp [orInvalid]

theorem expectedEnd_ok_iff {operation : StorageOperation} {totalSize : Option Nat}
    {offset length expected : Nat} :
    expectedEnd operation totalSize offset (offset + length - 1) = .ok expected ↔
      (∀ total ∈ totalSize, offset < total) ∧ lastReturned totalSize offset length = expected := by
  unfold expectedEnd lastReturned
  cases totalSize with
  | none => simp
  | some total =>
      cases total with
      | zero => simp
      | succ total =>
          simp only [subU64_of_le (Nat.succ_pos total)]
          by_cases hoffset : total + 1 ≤ offset
          · simp [hoffset, Nat.not_lt.mpr hoffset]
          · simp [hoffset, Nat.not_le.mp hoffset, bind, Except.bind, pure, Except.pure]

/-- The length of a window that does not run backwards and fits in 64 bits. -/
theorem ByteWindow.checkedLen_eq_some_iff {window : ByteWindow} {length : Nat} :
    window.checkedLen = some length ↔
      window.start ≤ window.last ∧ window.last - window.start + 1 = length ∧
        length < u64Bound := by
  unfold ByteWindow.checkedLen checkedSub
  by_cases hordered : window.start ≤ window.last
  · rw [if_pos hordered]
    show checkedAdd (window.last - window.start) 1 = some length ↔ _
    rw [checkedAdd_eq_some_iff]
    omega
  · simp [hordered]

/-- A range whose receipt passes is not empty and does not run over. -/
theorem validateGuardedRangeReceipt_inRange {receipt : SourceReceipt}
    {offset length returned : Nat} {operation : StorageOperation}
    (h : validateGuardedRangeReceipt receipt offset length operation = .ok returned) :
    0 < length ∧ offset + length - 1 < u64Bound := by
  unfold validateGuardedRangeReceipt at h
  obtain ⟨span, hspan, h⟩ := except_bind_ok h
  obtain ⟨requestedEnd, hend, -⟩ := except_bind_ok h
  obtain ⟨hpos, rfl⟩ := subU64_ok hspan
  obtain ⟨hlt, -⟩ := checkedAdd_eq_some_iff.mp (orInvalid_ok_iff.mp hend)
  exact ⟨hpos, by omega⟩

/-- The receipt check passes exactly the receipts that prove the range, with the
length of the window they return. -/
theorem validateGuardedRangeReceipt_ok_iff {receipt : SourceReceipt} {offset length returned : Nat}
    {operation : StorageOperation} (hpos : 0 < length) (hend : offset + length - 1 < u64Bound) :
    validateGuardedRangeReceipt receipt offset length operation = .ok returned ↔
      ProvesRange receipt offset length ∧
        lastReturned receipt.totalSize offset length + 1 = offset + returned ∧
        returned < u64Bound := by
  have hadd : checkedAdd offset (length - 1) = some (offset + length - 1) :=
    checkedAdd_eq_some_iff.mpr ⟨by omega, by omega⟩
  unfold validateGuardedRangeReceipt
  rw [subU64_of_le hpos]
  simp only [bind, Except.bind, hadd, orInvalid]
  constructor
  · intro h
    -- the checks in the order of the source: the two windows, the end expected of the
    -- answer in between, then the length of what was returned
    obtain ⟨requested, hrequested, h⟩ := except_bind_ok h
    split at h
    · cases h
    rename_i hasked
    rw [not_or, not_not, not_not] at hasked
    obtain ⟨window, hwindow, h⟩ := except_bind_ok h
    obtain ⟨expected, hexpected, h⟩ := except_bind_ok h
    obtain ⟨hpresent, rfl⟩ := expectedEnd_ok_iff.mp hexpected
    split at h
    · cases h
    rename_i hanswer
    rw [not_or, not_not, not_not] at hanswer
    obtain ⟨hordered, hwidth, hfits⟩ :=
      ByteWindow.checkedLen_eq_some_iff.mp (orInvalid_ok_iff.mp h)
    refine ⟨⟨⟨requested, orInvalid_ok_iff.mp hrequested, hasked⟩, hpresent,
      window, orInvalid_ok_iff.mp hwindow, hanswer⟩, by omega, hfits⟩
  · rintro ⟨⟨⟨requested, hrequested, hasked⟩, hpresent, window, hwindow, hanswer⟩, hreturned,
      hfits⟩
    have hfirst := offset_le_lastReturned hpos hpresent
    have hlen : window.checkedLen = some returned :=
      ByteWindow.checkedLen_eq_some_iff.mpr ⟨by omega, by omega, hfits⟩
    simp only [hrequested, hasked, ne_eq, not_true_eq_false, or_self, if_false, hwindow,
      expectedEnd_ok_iff.mpr ⟨hpresent, rfl⟩, hanswer, hlen]

theorem orInvalid_error {α : Type} {operation : StorageOperation} {detail : String}
    {value? : Option α} {failure : Failure}
    (h : orInvalid operation detail value? = .error failure) : ∃ error, failure = .error error := by
  cases value? with
  | none =>
      cases h
      exact ⟨_, rfl⟩
  | some value => cases h

theorem expectedEnd_error {operation : StorageOperation} {totalSize : Option Nat}
    {offset requestedEnd : Nat} {failure : Failure}
    (h : expectedEnd operation totalSize offset requestedEnd = .error failure) :
    ∃ error, failure = .error error := by
  unfold expectedEnd at h
  split at h
  · cases h
    exact ⟨_, rfl⟩
  · split at h
    · cases h
      exact ⟨_, rfl⟩
    · rename_i hinside
      rw [subU64_of_le (by omega)] at h
      cases h
  · cases h

/-- A receipt check of a non-empty range that does not pass reports an error. -/
theorem validateGuardedRangeReceipt_error {receipt : SourceReceipt} {offset length : Nat}
    {operation : StorageOperation} {failure : Failure} (hpos : 0 < length)
    (h : validateGuardedRangeReceipt receipt offset length operation = .error failure) :
    ∃ error, failure = .error error := by
  unfold validateGuardedRangeReceipt at h
  rw [subU64_of_le hpos] at h
  rcases except_bind_error h with h | ⟨span, -, h⟩
  · cases h
  rcases except_bind_error h with h | ⟨requestedEnd, -, h⟩
  · exact orInvalid_error h
  rcases except_bind_error h with h | ⟨requested, -, h⟩
  · exact orInvalid_error h
  split at h
  · cases h
    exact ⟨_, rfl⟩
  rcases except_bind_error h with h | ⟨returned, -, h⟩
  · exact orInvalid_error h
  rcases except_bind_error h with h | ⟨expected, -, h⟩
  · exact expectedEnd_error h
  split at h
  · cases h
    exact ⟨_, rfl⟩
  · exact orInvalid_error h

end Storageprims

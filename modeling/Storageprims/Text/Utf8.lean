import Mathlib.Data.List.Basic
import Mathlib.Tactic.Common

/-!
# Checked UTF-8 text

UTF-8 validation as a machine that reads one byte at a time.  The machine is
either between two characters or owes continuation bytes; an offending byte
stops it with the number of bytes of the broken sequence, and input that ends
inside a character is reported without a number.  This is the distinction a
caller needs to tell a cut at a buffer edge from bytes that are not text.

`Text` is a byte string together with the proof that the machine accepts it.
-/

namespace Utf8

/-- The next byte must lie in `[low, high]`, and `owed` continuation bytes
follow it.  `seen` bytes of the character were read so far. -/
structure Pending where
  low : UInt8
  high : UInt8
  owed : Nat
  seen : Nat
  low_ge : 0x80 ≤ low
  deriving DecidableEq

/-- Where the machine stands between two bytes. -/
inductive State where
  | boundary
  | inside (pending : Pending)
  deriving DecidableEq

/-- The machine after the first byte of a character. -/
def first (b : UInt8) : Except Nat State :=
  if b < 0x80 then .ok .boundary
  else if 0xC2 ≤ b ∧ b ≤ 0xDF then .ok (.inside ⟨0x80, 0xBF, 0, 1, by decide⟩)
  else if b = 0xE0 then .ok (.inside ⟨0xA0, 0xBF, 1, 1, by decide⟩)
  else if 0xE1 ≤ b ∧ b ≤ 0xEC then .ok (.inside ⟨0x80, 0xBF, 1, 1, by decide⟩)
  else if b = 0xED then .ok (.inside ⟨0x80, 0x9F, 1, 1, by decide⟩)
  else if 0xEE ≤ b ∧ b ≤ 0xEF then .ok (.inside ⟨0x80, 0xBF, 1, 1, by decide⟩)
  else if b = 0xF0 then .ok (.inside ⟨0x90, 0xBF, 2, 1, by decide⟩)
  else if 0xF1 ≤ b ∧ b ≤ 0xF3 then .ok (.inside ⟨0x80, 0xBF, 2, 1, by decide⟩)
  else if b = 0xF4 then .ok (.inside ⟨0x80, 0x8F, 2, 1, by decide⟩)
  else .error 1

/-- One byte.  The error is the length of the broken sequence. -/
def step : State → UInt8 → Except Nat State
  | .boundary, b => first b
  | .inside p, b =>
      if p.low ≤ b ∧ b ≤ p.high then
        match p.owed with
        | 0 => .ok .boundary
        | owed + 1 => .ok (.inside ⟨0x80, 0xBF, owed, p.seen + 1, by decide⟩)
      else .error p.seen

/-- All bytes, from a given state. -/
def run : State → List UInt8 → Except Nat State
  | state, [] => .ok state
  | state, b :: rest =>
      match step state b with
      | .ok state' => run state' rest
      | .error length => .error length

/-- The bytes are a sequence of whole characters. -/
def Valid (bytes : List UInt8) : Prop := run .boundary bytes = .ok .boundary

instance (bytes : List UInt8) : Decidable (Valid bytes) :=
  match h : run .boundary bytes with
  | .ok .boundary => isTrue h
  | .ok (.inside _) => isFalse fun hvalid => nomatch h.symm.trans hvalid
  | .error _ => isFalse fun hvalid => nomatch h.symm.trans hvalid

/-- A UTF-8 string: bytes that carry their validity. -/
@[ext] structure Text where
  bytes : List UInt8
  valid : Valid bytes
  deriving DecidableEq

/-- Why bytes are not text.  `errorLen` is absent when the input ended inside a
character, which more input could complete. -/
structure Utf8Error where
  errorLen : Option Nat
  deriving DecidableEq

/-- Check bytes and keep them as text. -/
def fromUtf8 (bytes : List UInt8) : Except Utf8Error Text :=
  match h : run .boundary bytes with
  | .ok .boundary => .ok ⟨bytes, h⟩
  | .ok (.inside _) => .error ⟨none⟩
  | .error length => .error ⟨some length⟩

theorem run_append (state : State) (xs ys : List UInt8) :
    run state (xs ++ ys) =
      match run state xs with
      | .ok state' => run state' ys
      | .error length => .error length := by
  induction xs generalizing state with
  | nil => rfl
  | cons b rest ih =>
      simp only [List.cons_append, run]
      cases step state b with
      | ok state' => exact ih state'
      | error length => rfl

theorem fromUtf8_of_valid {bytes : List UInt8} (h : Valid bytes) :
    fromUtf8 bytes = .ok ⟨bytes, h⟩ := by
  have hrun : run .boundary bytes = .ok .boundary := h
  unfold fromUtf8
  split
  · rfl
  · rename_i hinside
    rw [hrun] at hinside
    cases hinside
  · rename_i herror
    rw [hrun] at herror
    cases herror

theorem fromUtf8_ok_iff {bytes : List UInt8} {text : Text} :
    fromUtf8 bytes = .ok text ↔ text.bytes = bytes := by
  constructor
  · intro h
    unfold fromUtf8 at h
    split at h
    · cases h
      rfl
    · cases h
    · cases h
  · intro h
    have hvalid : Valid bytes := h ▸ text.valid
    rw [fromUtf8_of_valid hvalid]
    congr 1
    exact Text.ext h.symm

/-- Behind whole characters, the rest is text exactly when the whole is. -/
theorem valid_append_iff {xs ys : List UInt8} (hxs : Valid xs) :
    Valid (xs ++ ys) ↔ Valid ys := by
  unfold Valid at *
  rw [run_append, hxs]

/-- An ASCII byte is a character of its own, and never continues another. -/
theorem step_ascii {b : UInt8} (hb : b < 0x80) {state state' : State}
    (h : step state b = .ok state') : state = .boundary ∧ state' = .boundary := by
  cases state with
  | boundary =>
      simp only [step, first, if_pos hb, Except.ok.injEq] at h
      exact ⟨rfl, h.symm⟩
  | inside p =>
      have hlow : ¬ p.low ≤ b := fun hle =>
        absurd (UInt8.lt_of_le_of_lt (UInt8.le_trans p.low_ge hle) hb) (UInt8.lt_irrefl _)
      simp only [step, hlow, false_and, if_false] at h
      cases h

/-- Text can be cut in front of any ASCII byte. -/
theorem Valid.cut {xs ys : List UInt8} {b : UInt8} (hb : b < 0x80)
    (h : Valid (xs ++ b :: ys)) : Valid xs ∧ Valid ys := by
  unfold Valid at h
  rw [run_append] at h
  cases hxs : run .boundary xs with
  | error length => rw [hxs] at h; cases h
  | ok state =>
      rw [hxs] at h
      simp only [run] at h
      cases hstep : step state b with
      | error length => rw [hstep] at h; cases h
      | ok state' =>
          rw [hstep] at h
          obtain ⟨rfl, rfl⟩ := step_ascii hb hstep
          exact ⟨hxs, h⟩

/-- A prefix of text is text, or ends inside a character: it never contains a
broken sequence. -/
theorem Valid.prefix_error {xs ys : List UInt8} (h : Valid (xs ++ ys)) {error : Utf8Error}
    (herror : fromUtf8 xs = .error error) : error.errorLen = none := by
  unfold Valid at h
  rw [run_append] at h
  unfold fromUtf8 at herror
  split at herror
  · cases herror
  · cases herror
    rfl
  · rename_i length hxs
    rw [hxs] at h
    cases h

/-- A two-byte character; a lead byte alone is incomplete; a stray continuation
byte is broken. -/
example : Valid [0x61, 0xC3, 0xA9] := by decide
example : fromUtf8 [0x61, 0xC3] = .error ⟨none⟩ := by decide
example : fromUtf8 [0x61, 0xA9] = .error ⟨some 1⟩ := by decide

end Utf8

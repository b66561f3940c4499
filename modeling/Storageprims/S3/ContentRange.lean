import Storageprims.S3.Receipts
import Storageprims.Text.Decimal

/-!
# The grammar of a content range

The values that `parse_content_range` should accept, and those that it accepts: it reads
its numbers as the standard library does, with a plus sign in front of any of them.
-/

namespace Storageprims

open Str (Denotes)

/-- The value with these three fields. -/
def rangeText (first last total : String) : String :=
  "bytes " ++ first ++ "-" ++ last ++ "/" ++ total

/-- An open total, or one that is more than the last byte. -/
def TotalField (text : String) (last : Nat) : Option Nat → Prop
  | none => text = "*"
  | some total => Denotes text total ∧ last < total ∧ total < 2 ^ 64

/-- The fields denote a window that does not run backwards, and an open total or one that
the window does not reach. -/
structure RangeFields (firstText lastText totalText : String) (first last : Nat)
    (total : Option Nat) : Prop where
  firstDigits : Denotes firstText first
  lastDigits : Denotes lastText last
  ordered : first ≤ last
  fits : last < 2 ^ 64
  totalDigits : TotalField totalText last total

/-- A value of the grammar, for the window from `first` to `last`. -/
def ContentRange (value : String) (first last : Nat) (total : Option Nat) : Prop :=
  ∃ firstText lastText totalText, value = rangeText firstText lastText totalText ∧
    RangeFields firstText lastText totalText first last total

/-- No plus sign, or one. -/
def IsSign (sign : String) : Prop := sign = "" ∨ sign = "+"

/-- A value of the grammar, but for a plus sign in front of one of its numbers or more. -/
def SignedRange (value : String) : Prop :=
  ∃ firstSign lastSign totalSign firstText lastText totalText first last total,
    value = rangeText (firstSign ++ firstText) (lastSign ++ lastText) (totalSign ++ totalText) ∧
    RangeFields firstText lastText totalText first last total ∧
    IsSign firstSign ∧ IsSign lastSign ∧ IsSign totalSign ∧
    (firstSign = "+" ∨ lastSign = "+" ∨ totalSign = "+") ∧ (total = none → totalSign = "")

/-- The parser accepts the value, with this window and total. -/
def ParsesAs (value : String) (operation : StorageOperation) (first last : Nat)
    (total : Option Nat) : Prop :=
  ∃ parsed, parseContentRange (some value) operation = .ok parsed ∧
    parsed.window.start = first ∧ parsed.window.last = last ∧
    parsed.totalSize.map (·.val) = total

section

variable {value text firstText lastText totalText : String} {operation : StorageOperation}
variable {first last n : Nat} {total : Option Nat}

theorem parseU64_eq_some_iff :
    (parseU64 text).map (·.val) = some n ↔
      n < u64Bound ∧ ∃ sign digits, text = sign ++ digits ∧ IsSign sign ∧ Denotes digits n := by
  rw [parseU64, Str.parseBelow_eq_some_iff]
  refine and_congr_right fun _ => ⟨?_, ?_⟩
  · rintro ⟨digits, rfl | rfl, hdenotes⟩
    · exact ⟨"", _, (String.empty_append).symm, .inl rfl, hdenotes⟩
    · exact ⟨"+", digits, rfl, .inr rfl, hdenotes⟩
  · rintro ⟨sign, digits, rfl, rfl | rfl, hdenotes⟩
    · exact ⟨digits, .inl String.empty_append, hdenotes⟩
    · exact ⟨digits, .inr rfl, hdenotes⟩

/-- A mark of the value is no character of its numbers. -/
theorem not_mem_of_parseU64 {mark : Char} (hdigit : mark.isDigit = false) (hplus : mark ≠ '+')
    (h : (parseU64 text).map (·.val) = some n) : mark ∉ text.toList := by
  obtain ⟨-, sign, digits, rfl, hsign, hdenotes⟩ := parseU64_eq_some_iff.mp h
  rw [String.toList_append, List.mem_append, not_or]
  refine ⟨?_, hdenotes.not_mem hdigit⟩
  rcases hsign with rfl | rfl
  · exact List.not_mem_nil
  · simpa using hplus

theorem parseTotal_of_names {last : Fin u64Bound} (operation : StorageOperation)
    (hnames : match total with
      | none => totalText = "*"
      | some size => (parseU64 totalText).map (·.val) = some size)
    (hbeyond : ∀ size ∈ total, last.val < size) :
    ∃ totalSize, parseTotal totalText last operation = .ok totalSize ∧
      totalSize.map (·.val) = total := by
  cases total with
  | none => exact ⟨none, if_pos hnames, rfl⟩
  | some size =>
      obtain ⟨parsed, hparsed, rfl⟩ := Option.map_eq_some_iff.mp hnames
      have hopen : totalText ≠ "*" := by
        rintro rfl
        have hstar : '*' ∉ "*".toList := not_mem_of_parseU64 (by decide) (by decide) hnames
        exact hstar List.mem_cons_self
      have hlast := hbeyond parsed.val rfl
      refine ⟨some parsed, ?_, rfl⟩
      rw [parseTotal, if_neg hopen, hparsed]
      exact if_neg (by omega)

/-- The values the parser accepts. -/
theorem parsesAs_iff :
    ParsesAs value operation first last total ↔
      NamesRange value first last total ∧ first ≤ last ∧ ∀ size ∈ total, last < size := by
  constructor
  · rintro ⟨parsed, hparsed, rfl, rfl, rfl⟩
    obtain ⟨text, htext, hnames, hordered, hbeyond⟩ := parseContentRange_ok hparsed
    obtain rfl := Option.some.inj htext
    refine ⟨hnames, hordered, fun size hsize => ?_⟩
    obtain ⟨total, htotal, rfl⟩ := Option.map_eq_some_iff.mp hsize
    exact hbeyond total htotal
  · rintro ⟨⟨firstText, lastText, totalText, rfl, hfirst, hlast, htotal⟩, hordered, hbeyond⟩
    obtain ⟨firstParsed, hfirstParsed, rfl⟩ := Option.map_eq_some_iff.mp hfirst
    obtain ⟨lastParsed, hlastParsed, rfl⟩ := Option.map_eq_some_iff.mp hlast
    obtain ⟨totalSize, hsize, rfl⟩ := parseTotal_of_names operation htotal hbeyond
    -- no mark occurs in the numbers, so each split finds the mark that was put there
    have hslash : '/' ∉ (firstText ++ "-" ++ lastText).toList := by
      rw [String.toList_append, String.toList_append, List.mem_append, List.mem_append, not_or,
        not_or]
      exact ⟨⟨not_mem_of_parseU64 (by decide) (by decide) hfirst, by decide⟩,
        not_mem_of_parseU64 (by decide) (by decide) hlast⟩
    have hdash : '-' ∉ firstText.toList := not_mem_of_parseU64 (by decide) (by decide) hfirst
    have hfields : (Str.stripFront "bytes "
        ("bytes " ++ firstText ++ "-" ++ lastText ++ "/" ++ totalText)).bind (Str.splitOnce "/") =
        some (firstText ++ "-" ++ lastText, totalText) := by
      rw [Str.stripFront_eq_some_iff.mpr
        (by simp only [String.append_assoc] :
          _ = "bytes " ++ (firstText ++ "-" ++ lastText ++ "/" ++ totalText)), Option.bind_some]
      exact Str.splitOnce_of_not_mem rfl hslash totalText
    have hwindow : Str.splitOnce "-" (firstText ++ "-" ++ lastText) = some (firstText, lastText) :=
      Str.splitOnce_of_not_mem rfl hdash lastText
    refine ⟨⟨⟨firstParsed, lastParsed, firstParsed.isLt, lastParsed.isLt⟩, totalSize⟩, ?_, rfl,
      rfl, rfl⟩
    unfold parseContentRange
    simp only [hfields, hwindow, hfirstParsed, hlastParsed, if_neg (Nat.not_lt.mpr hordered),
      hsize]
    rfl

/-- A value of the grammar is accepted, also with signs in front of its numbers. -/
theorem parsesAs_of_fields {firstSign lastSign totalSign : String} (hfirst : IsSign firstSign)
    (hlast : IsSign lastSign) (htotal : IsSign totalSign) (hopen : total = none → totalSign = "")
    (h : RangeFields firstText lastText totalText first last total) :
    ParsesAs (rangeText (firstSign ++ firstText) (lastSign ++ lastText) (totalSign ++ totalText))
      operation first last total := by
  have hbound : u64Bound = 2 ^ 64 := rfl
  have hfits := h.fits
  have hordered := h.ordered
  refine parsesAs_iff.mpr ⟨⟨_, _, _, rfl, ?_, ?_, ?_⟩, hordered, ?_⟩
  · exact parseU64_eq_some_iff.mpr ⟨by omega, _, _, rfl, hfirst, h.firstDigits⟩
  · exact parseU64_eq_some_iff.mpr ⟨by omega, _, _, rfl, hlast, h.lastDigits⟩
  · have hnames := h.totalDigits
    cases total with
    | none =>
        rw [hopen rfl, String.empty_append]
        exact hnames
    | some size =>
        exact parseU64_eq_some_iff.mpr ⟨hnames.2.2, _, _, rfl, htotal, hnames.1⟩
  · rintro size rfl
    exact h.totalDigits.2.1

/-- No value of the grammar has a plus sign. -/
theorem ContentRange.no_plus (h : ContentRange value first last total) : '+' ∉ value.toList := by
  obtain ⟨firstText, lastText, totalText, rfl, hfields⟩ := h
  have htotal : '+' ∉ totalText.toList := by
    have hnames := hfields.totalDigits
    cases total with
    | none =>
        obtain rfl : totalText = "*" := hnames
        decide
    | some size => exact hnames.1.not_mem (by decide)
  simp only [rangeText, String.toList_append, List.mem_append, not_or]
  exact ⟨⟨⟨⟨⟨by decide, hfields.firstDigits.not_mem (by decide)⟩, by decide⟩,
    hfields.lastDigits.not_mem (by decide)⟩, by decide⟩, htotal⟩

theorem SignedRange.plus (h : SignedRange value) : '+' ∈ value.toList := by
  obtain ⟨firstSign, lastSign, totalSign, firstText, lastText, totalText, first, last, total, rfl,
    -, -, -, -, hplus, -⟩ := h
  simp only [rangeText, String.toList_append, List.mem_append]
  rcases hplus with rfl | rfl | rfl
  · simp
  · simp
  · simp

/-- A value that is accepted is one of the grammar, or has a plus sign too many. -/
theorem ParsesAs.range_or_signed (h : ParsesAs value operation first last total) :
    ContentRange value first last total ∨ SignedRange value := by
  obtain ⟨⟨firstText, lastText, totalText, rfl, hfirst, hlast, htotal⟩, hordered, hbeyond⟩ :=
    parsesAs_iff.mp h
  obtain ⟨-, firstSign, firstDigits, rfl, hfirstSign, hfirstDenotes⟩ :=
    parseU64_eq_some_iff.mp hfirst
  obtain ⟨hfits, lastSign, lastDigits, rfl, hlastSign, hlastDenotes⟩ :=
    parseU64_eq_some_iff.mp hlast
  obtain ⟨totalSign, totalDigits, rfl, htotalSign, hopen, hnames⟩ :
      ∃ totalSign totalDigits, totalText = totalSign ++ totalDigits ∧ IsSign totalSign ∧
        (total = none → totalSign = "") ∧ TotalField totalDigits last total := by
    cases total with
    | none => exact ⟨"", totalText, String.empty_append.symm, .inl rfl, fun _ => rfl, htotal⟩
    | some size =>
        obtain ⟨hsize, sign, digits, rfl, hsign, hdenotes⟩ := parseU64_eq_some_iff.mp htotal
        exact ⟨sign, digits, rfl, hsign, nofun, hdenotes, hbeyond size rfl, hsize⟩
  have hfields : RangeFields firstDigits lastDigits totalDigits first last total :=
    ⟨hfirstDenotes, hlastDenotes, hordered, hfits, hnames⟩
  -- every number has a sign or none, and without any sign the value is of the grammar
  by_cases hplus : firstSign = "+" ∨ lastSign = "+" ∨ totalSign = "+"
  · exact .inr ⟨firstSign, lastSign, totalSign, firstDigits, lastDigits, totalDigits, first, last,
      total, rfl, hfields, hfirstSign, hlastSign, htotalSign, hplus, hopen⟩
  · rw [not_or, not_or] at hplus
    obtain rfl := hfirstSign.resolve_right hplus.1
    obtain rfl := hlastSign.resolve_right hplus.2.1
    obtain rfl := htotalSign.resolve_right hplus.2.2
    refine .inl ⟨firstDigits, lastDigits, totalDigits, ?_, hfields⟩
    simp only [String.empty_append]
    rfl

end

/-- The parser agrees with the grammar, except on values with a plus sign in front of a
number.  An absent header is refused. -/
theorem parseContentRange_agrees_iff (operation : StorageOperation) :
    (∀ parsed, parseContentRange none operation ≠ .ok parsed) ∧
    ∀ value, (∀ first last total,
        ParsesAs value operation first last total ↔ ContentRange value first last total) ↔
      ¬ SignedRange value := by
  refine ⟨fun parsed => nofun, fun value => ⟨fun hagrees hsigned => ?_, fun hplain => ?_⟩⟩
  · have hplus := hsigned.plus
    obtain ⟨firstSign, lastSign, totalSign, firstText, lastText, totalText, first, last, total,
      rfl, hfields, hfirst, hlast, htotal, -, hopen⟩ := hsigned
    exact ((hagrees first last total).mp
      (parsesAs_of_fields hfirst hlast htotal hopen hfields)).no_plus hplus
  · intro first last total
    constructor
    · intro h
      exact h.range_or_signed.resolve_right hplain
    · rintro ⟨firstText, lastText, totalText, rfl, hfields⟩
      have hparses : ParsesAs (rangeText ("" ++ firstText) ("" ++ lastText) ("" ++ totalText))
          operation first last total :=
        parsesAs_of_fields (.inl rfl) (.inl rfl) (.inl rfl) (fun _ => rfl) hfields
      simpa only [String.empty_append] using hparses

/-- The window of the first two bytes of two, with a plus sign. -/
theorem parseContentRange_signed :
    ParsesAs "bytes +0-1/2" .guardedGetRange 0 1 (some 2) ∧
      ¬ ContentRange "bytes +0-1/2" 0 1 (some 2) :=
  ⟨⟨⟨⟨0, 1, by decide, by decide⟩, some ⟨2, by decide⟩⟩, by decide +kernel, rfl, rfl, rfl⟩,
    fun h => h.no_plus (by decide)⟩

end Storageprims

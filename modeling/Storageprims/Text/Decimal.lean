import Storageprims.Text.Str

/-!
# Decimal numbers

A decimal number is a non-empty text of digits.  `parseBelow` reads one below a bound,
and admits a plus sign in front of it.
-/

namespace Str

/-- The number that `c` appends to `value`. -/
def appendDigit (value : Nat) (c : Char) : Nat := value * 10 + (c.toNat - '0'.toNat)

def decimalValue (chars : List Char) : Nat := chars.foldl appendDigit 0

/-- A non-empty text of digits, and the number it denotes. -/
def Denotes (text : String) (value : Nat) : Prop :=
  text ≠ "" ∧ (∀ c ∈ text.toList, c.isDigit = true) ∧ decimalValue text.toList = value

theorem parseDigits_eq_some_iff {value n : Nat} {chars : List Char} :
    parseDigits value chars = some n ↔
      (∀ c ∈ chars, c.isDigit = true) ∧ chars.foldl appendDigit value = n := by
  induction chars generalizing value with
  | nil => simp [parseDigits]
  | cons c rest ih =>
      rw [parseDigits]
      by_cases hc : c.isDigit = true
      · rw [if_pos hc, ih, List.foldl_cons, List.forall_mem_cons]
        simp [hc, appendDigit]
      · rw [if_neg hc, List.forall_mem_cons]
        simp [hc]

theorem Denotes.unique {text : String} {m n : Nat} (hm : Denotes text m) (hn : Denotes text n) :
    m = n := hm.2.2.symm.trans hn.2.2

theorem Denotes.not_mem {text : String} {n : Nat} {c : Char} (h : Denotes text n)
    (hc : c.isDigit = false) : c ∉ text.toList := by
  intro hmem
  rw [h.2.1 c hmem] at hc
  cases hc

/-- The bounded number that a run of digits denotes. -/
theorem digitsBelow_eq_some_iff {bound n : Nat} {digits : List Char} :
    ((if digits = [] then none else (parseDigits 0 digits).bind fun value =>
      if h : value < bound then some (⟨value, h⟩ : Fin bound) else none).map (·.val)) = some n ↔
      n < bound ∧ Denotes (String.ofList digits) n := by
  have hempty : String.ofList digits = "" ↔ digits = [] := by
    rw [eq_empty_iff, String.toList_ofList]
  rw [Denotes, String.toList_ofList, ne_eq, hempty, decimalValue, ← parseDigits_eq_some_iff]
  -- an empty text denotes nothing, and is read as nothing
  by_cases hnil : digits = []
  · simp [hnil]
  rw [if_neg hnil]
  cases hparsed : parseDigits 0 digits with
  | none => simp
  | some value =>
      by_cases hbound : value < bound
      · simp only [Option.bind_some, dif_pos hbound, Option.map_some, Option.some.injEq]
        constructor
        · rintro rfl
          exact ⟨hbound, hnil, rfl⟩
        · rintro ⟨-, -, rfl⟩
          rfl
      · simp only [Option.bind_some, dif_neg hbound, Option.map_none, reduceCtorEq, false_iff]
        rintro ⟨hlt, -, hvalue⟩
        exact hbound (Option.some.inj hvalue ▸ hlt)

/-- A number is read from its digits, with or without a plus sign in front of them. -/
theorem parseBelow_eq_some_iff {bound n : Nat} {text : String} :
    (parseBelow bound text).map (·.val) = some n ↔
      n < bound ∧ ∃ digits, (text = digits ∨ text = "+" ++ digits) ∧ Denotes digits n := by
  unfold parseBelow
  dsimp only
  split
  · next rest hrest =>
      have htext : text = "+" ++ String.ofList rest := by
        rw [← String.toList_inj, hrest]
        simp
      rw [digitsBelow_eq_some_iff]
      refine and_congr_right fun _ => ⟨fun h => ⟨_, .inr htext, h⟩, ?_⟩
      rintro ⟨digits, rfl | rfl, hdenotes⟩
      · -- a plus sign is no digit
        exact absurd (hrest ▸ List.mem_cons_self) (hdenotes.not_mem (c := '+') (by decide))
      · rw [String.toList_append] at hrest
        obtain rfl : digits.toList = rest := (List.cons.inj hrest).2
        rwa [String.ofList_toList]
  · next hplain =>
      rw [digitsBelow_eq_some_iff, String.ofList_toList]
      refine and_congr_right fun _ => ⟨fun h => ⟨text, .inl rfl, h⟩, ?_⟩
      rintro ⟨digits, rfl | rfl, hdenotes⟩
      · exact hdenotes
      · exact absurd String.toList_append (hplain digits.toList)

/-- Digits alone are read as the number they denote, if it fits. -/
theorem Denotes.parseBelow_eq_some_iff {bound m n : Nat} {text : String} (h : Denotes text m) :
    (parseBelow bound text).map (·.val) = some n ↔ n < bound ∧ n = m := by
  rw [Str.parseBelow_eq_some_iff]
  refine and_congr_right fun _ => ⟨?_, ?_⟩
  · rintro ⟨digits, rfl | rfl, hdigits⟩
    · exact hdigits.unique h
    · refine absurd ?_ (h.not_mem (c := '+') (by decide))
      simp
  · rintro rfl
    exact ⟨text, .inl rfl, h⟩

/-! ## The first number of a text -/

/-- `value` is the first number in the text: its digits follow characters that are none,
and no further digit follows them. -/
def FirstNumber (text : String) (value : Nat) : Prop :=
  ∃ front digits back, text = front ++ digits ++ back ∧
    (∀ c ∈ front.toList, c.isDigit = false) ∧ Denotes digits value ∧
    ∀ c, back.toList.head? = some c → c.isDigit = false

/-- The first run of digits in the text. -/
def firstDigits (text : String) : Option (List Char) :=
  (text.toList.splitOnP fun c => !c.isDigit).find? (· ≠ [])

theorem firstDigits_eq_none {text : String} (htext : ∀ c ∈ text.toList, c.isDigit = false) :
    firstDigits text = none := by
  apply find?_splitOnP_eq_none
  intro c hc
  rw [htext c hc]
  rfl

theorem FirstNumber.firstDigits {text : String} {value : Nat} (h : FirstNumber text value) :
    ∃ digits, Str.firstDigits text = some digits ∧ Denotes (String.ofList digits) value := by
  obtain ⟨front, digits, back, rfl, hfront, hdenotes, hback⟩ := h
  refine ⟨digits.toList, ?_, by rwa [String.ofList_toList]⟩
  rw [Str.firstDigits, String.toList_append, String.toList_append]
  apply find?_splitOnP
  · intro c hc
    rw [hfront c hc]
    rfl
  · exact mt eq_empty_iff.mpr hdenotes.1
  · intro c hc
    rw [hdenotes.2.1 c hc]
    rfl
  · intro c hc
    rw [hback c hc]
    rfl

theorem not_firstNumber {text : String} {value : Nat}
    (htext : ∀ c ∈ text.toList, c.isDigit = false) : ¬ FirstNumber text value := by
  intro h
  obtain ⟨digits, hdigits, -⟩ := h.firstDigits
  rw [firstDigits_eq_none htext] at hdigits
  cases hdigits

theorem FirstNumber.unique {text : String} {m n : Nat} (hm : FirstNumber text m)
    (hn : FirstNumber text n) : m = n := by
  obtain ⟨digits, hdigits, hdenotes⟩ := hm.firstDigits
  obtain ⟨digits', hdigits', hdenotes'⟩ := hn.firstDigits
  obtain rfl := Option.some.inj (hdigits.symm.trans hdigits')
  exact hdenotes.unique hdenotes'

/-- A text with a digit has a first number. -/
theorem exists_firstNumber {text : String} {c : Char} (hmem : c ∈ text.toList)
    (hc : c.isDigit = true) : ∃ value, FirstNumber text value := by
  obtain ⟨front, run, back, htext, hfront, hne, hrun, hback⟩ :=
    exists_run (p := fun c => !c.isDigit) hmem (by simp [hc])
  refine ⟨decimalValue run, String.ofList front, String.ofList run, String.ofList back, ?_⟩
  simp only [Denotes, String.toList_ofList, ne_eq, eq_empty_iff]
  refine ⟨?_, ?_, ⟨hne, ?_, trivial⟩, ?_⟩
  · rw [← String.toList_inj, htext]
    simp only [String.toList_append, String.toList_ofList]
  · simpa using hfront
  · simpa using hrun
  · simpa using hback

/-- No white space is a digit. -/
theorem isDigit_of_isWhitespace {c : Char} (hc : isWhitespace c = true) :
    c.isDigit = false := by
  rw [← Bool.not_eq_true, Char.isDigit_iff_toNat]
  have hzero : '0'.toNat = 0x30 := rfl
  have hnine : '9'.toNat = 0x39 := rfl
  simp only [isWhitespace, Bool.or_eq_true, Bool.and_eq_true, decide_eq_true_eq, beq_iff_eq] at hc
  omega

/-- A number with nothing but white space around it is the first one of the text. -/
theorem Denotes.firstNumber_of_trim {text : String} {value : Nat}
    (h : Denotes (trim text) value) : FirstNumber text value := by
  obtain ⟨front, back, htext, hfront, hback⟩ := append_trim text
  refine ⟨front, trim text, back, htext, fun c hc => ?_, h, fun c hc => ?_⟩
  · exact isDigit_of_isWhitespace (hfront c hc)
  · exact isDigit_of_isWhitespace (hback c (List.mem_of_mem_head? hc))

end Str

import Mathlib.Data.List.DropRight
import Mathlib.Logic.Basic

/-!
# String functions

The string functions a program cuts paths and addresses with, over the
characters of a string: trimming, prefixes and splitting at the first mark.
-/

namespace Str

/-- The text without the leading run of `mark`. -/
def trimStart (mark : Char) (text : String) : String :=
  String.ofList (text.toList.dropWhile (· = mark))

/-- The text without the leading and the trailing run of `mark`. -/
def trimMatches (mark : Char) (text : String) : String :=
  String.ofList ((text.toList.dropWhile (· = mark)).rdropWhile (· = mark))

/-- What follows `front` in the text, if the text starts with it. -/
def stripFront (front text : String) : Option String :=
  (front.toList.isPrefixOf? text.toList).map String.ofList

def startsWith (front text : String) : Bool := front.toList.isPrefixOf text.toList

/-- `char::is_whitespace`: the characters with the property White_Space. -/
def isWhitespace (c : Char) : Bool :=
  let code := c.toNat
  (0x09 ≤ code && code ≤ 0x0d) || code == 0x20 || code == 0x85 || code == 0xa0
    || code == 0x1680 || (0x2000 ≤ code && code ≤ 0x200a) || code == 0x2028 || code == 0x2029
    || code == 0x202f || code == 0x205f || code == 0x3000

/-- The text without the white space around it. -/
def trim (text : String) : String :=
  String.ofList ((text.toList.dropWhile isWhitespace).rdropWhile isWhitespace)

/-- The parts before and behind the first occurrence of `mark`. -/
def splitOnceList (mark : List Char) : List Char → Option (List Char × List Char)
  | [] => if mark = [] then some ([], []) else none
  | c :: rest =>
      match mark.isPrefixOf? (c :: rest) with
      | some back => some ([], back)
      | none => (splitOnceList mark rest).map fun (front, back) => (c :: front, back)

def splitOnce (mark text : String) : Option (String × String) :=
  (splitOnceList mark.toList text.toList).map fun (front, back) =>
    (String.ofList front, String.ofList back)

/-- At most `n` parts, the last of which keeps the marks behind the first ones. -/
def splitn (mark : String) : Nat → String → List String
  | 0, _ => []
  | 1, text => [text]
  | n + 2, text =>
      match splitOnce mark text with
      | none => [text]
      | some (front, back) => front :: splitn mark (n + 1) back

/-- The number that decimal digits append to `value`. -/
def parseDigits (value : Nat) : List Char → Option Nat
  | [] => some value
  | c :: rest =>
      if c.isDigit then parseDigits (value * 10 + (c.toNat - '0'.toNat)) rest else none

/-- A number below `bound` in decimal, after at most one plus sign.  At least one
digit is needed. -/
def parseBelow (bound : Nat) (text : String) : Option (Fin bound) :=
  let digits := match text.toList with
    | '+' :: rest => rest
    | chars => chars
  if digits = [] then none
  else (parseDigits 0 digits).bind fun value =>
    if h : value < bound then some ⟨value, h⟩ else none

example : (["0", "007", "+12", "", "+", "-1", "1 ", "256"].map (parseBelow 256))
    = [some 0, some 7, some 12, none, none, none, none, none] := by decide +kernel

theorem eq_empty_iff {text : String} : text = "" ↔ text.toList = [] :=
  String.toList_eq_nil_iff.symm

/-! ## Prefixes -/

theorem stripFront_eq_some_iff {front text rest : String} :
    stripFront front text = some rest ↔ text = front ++ rest := by
  rw [stripFront, Option.map_eq_some_iff]
  constructor
  · rintro ⟨chars, hchars, rfl⟩
    rw [List.isPrefixOf?_eq_some_iff_append_eq] at hchars
    rw [← String.toList_inj, String.toList_append, String.toList_ofList, hchars]
  · rintro rfl
    exact ⟨rest.toList, List.isPrefixOf?_eq_some_iff_append_eq.mpr String.toList_append.symm,
      String.ofList_toList⟩

theorem startsWith_iff {front text : String} :
    startsWith front text = true ↔ ∃ rest, text = front ++ rest := by
  rw [startsWith, List.isPrefixOf_iff_prefix]
  constructor
  · rintro ⟨chars, hchars⟩
    refine ⟨String.ofList chars, ?_⟩
    rw [← String.toList_inj, String.toList_append, String.toList_ofList, hchars]
  · rintro ⟨rest, rfl⟩
    rw [String.toList_append]
    exact List.prefix_append _ _

theorem startsWith_char_iff {mark : Char} {front text : String} (hfront : front.toList = [mark]) :
    startsWith front text = true ↔ text.toList.head? = some mark := by
  rw [startsWith, hfront, List.isPrefixOf_iff_prefix]
  cases text.toList with
  | nil => simp
  | cons c rest => simp [eq_comm]

/-! ## Splitting -/

theorem append_of_splitOnceList {mark chars front back : List Char}
    (h : splitOnceList mark chars = some (front, back)) : chars = front ++ mark ++ back := by
  induction chars generalizing front with
  | nil =>
      unfold splitOnceList at h
      split at h
      · rename_i hmark
        cases h
        rw [hmark]
        rfl
      · cases h
  | cons c rest ih =>
      unfold splitOnceList at h
      split at h
      · rename_i back' hback
        cases h
        exact (List.isPrefixOf?_eq_some_iff_append_eq.mp hback).symm
      · obtain ⟨⟨front', back'⟩, hrest, hcons⟩ := Option.map_eq_some_iff.mp h
        cases hcons
        rw [ih hrest]
        rfl

/-- Putting the mark back between the parts gives the text. -/
theorem append_of_splitOnce {mark text front back : String}
    (h : splitOnce mark text = some (front, back)) : text = front ++ mark ++ back := by
  obtain ⟨⟨frontChars, backChars⟩, hchars, hparts⟩ := Option.map_eq_some_iff.mp h
  cases hparts
  rw [← String.toList_inj, String.toList_append, String.toList_append, String.toList_ofList,
    String.toList_ofList]
  exact append_of_splitOnceList hchars

/-- The part before the first occurrence of a mark contains no occurrence. -/
theorem not_infix_of_splitOnceList {mark chars front back : List Char} (hmark : mark ≠ [])
    (h : splitOnceList mark chars = some (front, back)) : ¬ mark <:+: front := by
  induction chars generalizing front with
  | nil =>
      unfold splitOnceList at h
      rw [if_neg hmark] at h
      cases h
  | cons c rest ih =>
      unfold splitOnceList at h
      split at h
      · cases h
        rwa [List.infix_nil]
      · rename_i hfirst
        obtain ⟨⟨front', back'⟩, hrest, hcons⟩ := Option.map_eq_some_iff.mp h
        cases hcons
        rw [List.infix_cons_iff, not_or]
        refine ⟨?_, ih hrest⟩
        -- an occurrence at the head would have been found here
        rintro ⟨behind, hbehind⟩
        have hhead : mark ++ (behind ++ mark ++ back) = c :: rest := by
          rw [append_of_splitOnceList hrest, ← List.append_assoc, ← List.append_assoc, hbehind]
          rfl
        rw [List.isPrefixOf?_eq_some_iff_append_eq.mpr hhead] at hfirst
        cases hfirst

/-- A mark whose first character does not come back in it cannot overlap itself, so
the first occurrence behind a text without one is where it was put. -/
theorem splitOnceList_append {m : Char} {ms front : List Char} (hmark : m ∉ ms)
    (hfront : ¬ (m :: ms) <:+: front) (back : List Char) :
    splitOnceList (m :: ms) (front ++ (m :: ms) ++ back) = some (front, back) := by
  induction front with
  | nil =>
      unfold splitOnceList
      have hhead : List.isPrefixOf? (m :: ms) (m :: (ms ++ back)) = some back :=
        List.isPrefixOf?_eq_some_iff_append_eq.mpr rfl
      simp only [List.nil_append, List.cons_append, hhead]
  | cons c rest ih =>
      rw [List.infix_cons_iff, not_or] at hfront
      have hnone : List.isPrefixOf? (m :: ms) (c :: (rest ++ (m :: ms) ++ back)) = none := by
        rw [← Option.not_isSome_iff_eq_none]
        intro hsome
        obtain ⟨behind, hbehind⟩ := Option.isSome_iff_exists.mp hsome
        rw [List.isPrefixOf?_eq_some_iff_append_eq] at hbehind
        have hwhole : (m :: ms) <+: (c :: rest) ++ (m :: ms ++ back) :=
          ⟨behind, by rw [hbehind, List.cons_append, List.append_assoc]⟩
        by_cases hlength : (m :: ms).length ≤ (c :: rest).length
        · exact hfront.1
            (List.prefix_of_prefix_length_le hwhole (List.prefix_append _ _) hlength)
        · -- the occurrence would run over the front, and repeat its first character
          obtain ⟨more, hmore⟩ := List.prefix_of_prefix_length_le
            (List.prefix_append (c :: rest) (m :: ms ++ back)) hwhole (by omega)
          rw [← hmore, List.prefix_append_right_inj] at hwhole
          cases more with
          | nil =>
              rw [← hmore, List.append_nil] at hlength
              exact hlength (Nat.le_refl _)
          | cons first others =>
              rw [List.cons_append, List.cons_append, List.cons_prefix_cons] at hwhole
              rw [List.cons_append, List.cons.injEq] at hmore
              apply hmark
              rw [← hmore.2, ← hmore.1, ← hwhole.1]
              simp
      unfold splitOnceList
      simp only [List.cons_append, hnone, ih hfront.2, Option.map_some]

theorem splitOnce_append {mark front : String} {m : Char} {ms : List Char}
    (hmark : mark.toList = m :: ms) (hfresh : m ∉ ms)
    (hfront : ¬ mark.toList <:+: front.toList) (back : String) :
    splitOnce mark (front ++ mark ++ back) = some (front, back) := by
  unfold splitOnce
  rw [hmark] at hfront
  rw [String.toList_append, String.toList_append, hmark, splitOnceList_append hfresh hfront]
  simp only [Option.map_some, String.ofList_toList]

/-- A mark of one character splits a text at its first occurrence. -/
theorem splitOnce_of_not_mem {mark front : String} {m : Char} (hmark : mark.toList = [m])
    (hfront : m ∉ front.toList) (back : String) :
    splitOnce mark (front ++ mark ++ back) = some (front, back) := by
  refine splitOnce_append hmark List.not_mem_nil ?_ back
  rw [hmark]
  exact fun hoccurs => hfront (hoccurs.subset (List.mem_singleton_self m))

/-- A text without the mark is not split. -/
theorem splitOnce_eq_none_iff {mark text : String} {m : Char} (hmark : mark.toList = [m]) :
    splitOnce mark text = none ↔ m ∉ text.toList := by
  constructor
  · intro hnone hmem
    obtain ⟨front, back, htext, hfront⟩ := List.eq_append_cons_of_mem hmem
    have hparts : text = String.ofList front ++ mark ++ String.ofList back := by
      rw [← String.toList_inj, htext, String.toList_append, String.toList_append, hmark,
        String.toList_ofList, String.toList_ofList, List.append_assoc]
      rfl
    rw [hparts, splitOnce_of_not_mem hmark (by rwa [String.toList_ofList])] at hnone
    cases hnone
  · intro htext
    rw [← Option.not_isSome_iff_eq_none]
    intro hsome
    obtain ⟨⟨front, back⟩, hsplit⟩ := Option.isSome_iff_exists.mp hsome
    apply htext
    rw [append_of_splitOnce hsplit, String.toList_append, String.toList_append, hmark]
    simp

theorem not_infix_of_splitOnce {mark text front back : String} (hmark : mark ≠ "")
    (h : splitOnce mark text = some (front, back)) : ¬ mark.toList <:+: front.toList := by
  obtain ⟨⟨frontChars, backChars⟩, hchars, hparts⟩ := Option.map_eq_some_iff.mp h
  cases hparts
  rw [String.toList_ofList]
  exact not_infix_of_splitOnceList (mt eq_empty_iff.mpr hmark) hchars

/-- The part in front of a mark of one character does not contain it. -/
theorem not_mem_of_splitOnce {mark text front back : String} {m : Char} (hmark : mark.toList = [m])
    (h : splitOnce mark text = some (front, back)) : m ∉ front.toList := by
  intro hmem
  obtain ⟨before, behind, hfront⟩ := List.append_of_mem hmem
  refine not_infix_of_splitOnce ?_ h ⟨before, behind, ?_⟩
  · rintro rfl
    cases hmark
  · rw [hmark, hfront, List.append_assoc]
    rfl

/-- A run of admitted characters is taken up to the first that is not. -/
theorem takeWhile_append_of_head {p : Char → Bool} {front back : List Char}
    (hfront : ∀ c ∈ front, p c) (hback : ∀ c, back.head? = some c → p c = false) :
    (front ++ back).takeWhile p = front ∧ (front ++ back).dropWhile p = back := by
  rw [List.takeWhile_append_of_pos hfront, List.dropWhile_append_of_pos hfront]
  cases back with
  | nil => simp
  | cons c rest =>
      have hc := hback c rfl
      simp [hc]

/-! ## Trimming -/

theorem trimStart_eq_empty_iff {mark : Char} {text : String} :
    trimStart mark text = "" ↔ ∀ c ∈ text.toList, c = mark := by
  rw [eq_empty_iff, trimStart, String.toList_ofList, List.dropWhile_eq_nil_iff]
  simp

theorem trimStart_eq_self_iff {mark : Char} {text : String} :
    trimStart mark text = text ↔ text.toList.head? ≠ some mark := by
  rw [← String.toList_inj, trimStart, String.toList_ofList]
  cases text.toList with
  | nil => simp
  | cons c rest =>
      by_cases hc : c = mark
      · rw [List.dropWhile_cons_of_pos (by simpa using hc)]
        have hle : (rest.dropWhile (· = mark)).length ≤ rest.length :=
          (List.dropWhile_suffix _).length_le
        constructor
        · intro heq
          have hlen := congrArg List.length heq
          rw [List.length_cons] at hlen
          omega
        · intro hne
          exact absurd (congrArg some hc) hne
      · rw [List.dropWhile_cons_of_neg (by simpa using hc)]
        simpa using hc

theorem dropWhile_eq_self_of_isPrefix {p : Char → Bool} {chars front : List Char}
    (hfront : front <+: chars) (hchars : chars.dropWhile p = chars) :
    front.dropWhile p = front := by
  cases front with
  | nil => rfl
  | cons c rest =>
      obtain ⟨back, rfl⟩ := hfront
      apply List.dropWhile_cons_of_neg
      intro hc
      rw [List.cons_append, List.dropWhile_cons_of_pos hc] at hchars
      have hle := (List.dropWhile_suffix (l := rest ++ back) p).length_le
      have hlen := congrArg List.length hchars
      rw [List.length_cons] at hlen
      omega

/-- Trimming leaves a text that trimming does not change. -/
theorem trimMatches_idem (mark : Char) (text : String) :
    trimMatches mark (trimMatches mark text) = trimMatches mark text := by
  unfold trimMatches
  rw [String.toList_ofList]
  -- the trimmed text is a prefix of one without a leading mark
  rw [dropWhile_eq_self_of_isPrefix (List.rdropWhile_prefix _ _) (List.dropWhile_idempotent _ _),
    List.rdropWhile_idempotent]

/-- Trimming takes white space away and nothing else. -/
theorem append_trim (text : String) :
    ∃ front back, text = front ++ trim text ++ back ∧
      (∀ c ∈ front.toList, isWhitespace c = true) ∧
      ∀ c ∈ back.toList, isWhitespace c = true := by
  refine ⟨String.ofList (text.toList.takeWhile isWhitespace),
    String.ofList ((text.toList.dropWhile isWhitespace).rtakeWhile isWhitespace), ?_, ?_, ?_⟩
  · rw [← String.toList_inj, String.toList_append, String.toList_append, trim,
      String.toList_ofList, String.toList_ofList, String.toList_ofList, List.append_assoc,
      List.rdropWhile_append_rtakeWhile, List.takeWhile_append_dropWhile]
  · intro c hc
    rw [String.toList_ofList] at hc
    exact List.mem_takeWhile_imp hc
  · intro c hc
    rw [String.toList_ofList] at hc
    exact List.mem_rtakeWhile_imp hc

/-! ## The first run of admitted characters -/

section

variable {p : Char → Bool}

theorem splitOnP_cons_of_pos {c : Char} (hc : p c = true) (chars : List Char) :
    (c :: chars).splitOnP p = [] :: chars.splitOnP p := by
  rw [List.splitOnP_cons_eq_if_modifyHead, if_pos hc]

theorem find?_splitOnP_eq_none {chars : List Char} (hchars : ∀ c ∈ chars, p c = true) :
    (chars.splitOnP p).find? (· ≠ []) = none := by
  induction chars with
  | nil => rfl
  | cons c rest ih =>
      rw [splitOnP_cons_of_pos (hchars c List.mem_cons_self), List.find?_cons_of_neg (by simp)]
      exact ih fun d hd => hchars d (List.mem_cons_of_mem c hd)

/-- The first non-empty part between marks is the run behind the leading marks. -/
theorem find?_splitOnP {front run back : List Char} (hfront : ∀ c ∈ front, p c = true)
    (hne : run ≠ []) (hrun : ∀ c ∈ run, p c = false)
    (hback : ∀ c, back.head? = some c → p c = true) :
    ((front ++ run ++ back).splitOnP p).find? (· ≠ []) = some run := by
  induction front with
  | nil =>
      rw [List.nil_append]
      cases back with
      | nil =>
          rw [List.append_nil, List.splitOnP_eq_singleton hrun]
          simp [hne]
      | cons c rest =>
          rw [List.splitOnP_append_cons_of_forall_mem hrun c (hback c rfl)]
          simp [hne]
  | cons c rest ih =>
      rw [List.cons_append, List.cons_append,
        splitOnP_cons_of_pos (hfront c List.mem_cons_self), List.find?_cons_of_neg (by simp)]
      exact ih fun d hd => hfront d (List.mem_cons_of_mem c hd)

/-- A text with a character that is no mark has a first run of them. -/
theorem exists_run {chars : List Char} {c : Char} (hmem : c ∈ chars) (hc : p c = false) :
    ∃ front run back, chars = front ++ run ++ back ∧ (∀ d ∈ front, p d = true) ∧ run ≠ [] ∧
      (∀ d ∈ run, p d = false) ∧ ∀ d, back.head? = some d → p d = true := by
  refine ⟨chars.takeWhile p, (chars.dropWhile p).takeWhile (!p ·),
    (chars.dropWhile p).dropWhile (!p ·), ?_, fun d => List.mem_takeWhile_imp, ?_, ?_, ?_⟩
  · rw [List.append_assoc, List.takeWhile_append_dropWhile, List.takeWhile_append_dropWhile]
  · -- the first character behind the leading marks belongs to the run
    cases hrest : chars.dropWhile p with
    | nil =>
        rw [List.dropWhile_eq_nil_iff] at hrest
        rw [hrest c hmem] at hc
        cases hc
    | cons d rest =>
        have hd := List.head?_dropWhile_not p chars
        rw [hrest, List.head?_cons] at hd
        rw [List.takeWhile_cons_of_pos (by simpa using hd)]
        exact List.cons_ne_nil _ _
  · intro d hd
    simpa using List.mem_takeWhile_imp hd
  · intro d hd
    have hnot := List.head?_dropWhile_not (!p ·) (chars.dropWhile p)
    rw [hd] at hnot
    simpa using hnot

end

end Str

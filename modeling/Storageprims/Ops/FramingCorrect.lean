import Storageprims.Ops.Framing
import Storageprims.Text.Windows
import Mathlib.Tactic.Ring

/-!
# The framers compute the reference lines

Every driver of `Framing` is one recursion over the reference decomposition of
its window: over all lines at the end of the object, over the certain lines of a
window that more bytes may follow.

* `extractFirstCompleteLine_eq`: one extraction is the first complete line;
* `frameLines_eq`: the shared driver feeds those lines one by one;
* `parseLinesUpTo_eq`, `parseTailLinesBounded_eq`: the two parsers frame the
  first, respectively the last, lines;
* `countLinesBounded_eq`: the counter frames them as well, and returns their number.
-/

namespace Storageprims

open Lines (lf cr Line Plain split certain extent)

/-- A terminator under its name in a result. -/
def endingOf : Lines.Ending → LineEnding
  | .lf => .lf
  | .crLf => .crLf
  | .cr => .cr

/-- The lines a parser may report: all of them at the end of the object, else
those that later bytes cannot change. -/
def framable (eof : Bool) (bytes : List UInt8) : List Line :=
  if eof then split bytes else certain (split bytes)

theorem framable_isPrefix (eof : Bool) (bytes : List UInt8) :
    framable eof bytes <+: split bytes := by
  cases eof with
  | true => exact List.prefix_rfl
  | false => exact Lines.certain_isPrefix _

/-- The first line whose terminator is settled. -/
def firstComplete (eof : Bool) (lines : List Line) : Option Line :=
  if eof then lines.head?.filter fun line => line.ending.isSome else (certain lines).head?

section

variable (provider : ProviderKind) (operation : StorageOperation)

/-- Frame one reference line at its offset. -/
def frameLine (base : Nat) (line : Line) : Except Failure ParsedLine :=
  (lineText provider operation line.text).map fun text =>
    ⟨text, base, base + line.size, line.ending.map endingOf⟩

/-- Frame consecutive reference lines. -/
def frameAll : Nat → List Line → Except Failure (List ParsedLine)
  | _, [] => .ok []
  | base, line :: rest => do
      let parsed ← frameLine provider operation base line
      let more ← frameAll (base + line.size) rest
      return parsed :: more

/-- Frame reference lines into a collection that may say stop. -/
def feed (more : List ParsedLine → Bool)
    (keep : List ParsedLine → ParsedLine → List ParsedLine) :
    Nat → List Line → List ParsedLine → Except Failure (List ParsedLine)
  | _, [], lines => .ok lines
  | base, line :: rest, lines =>
      if more lines then do
        let parsed ← frameLine provider operation base line
        feed more keep (base + line.size) rest (keep lines parsed)
      else .ok lines

end

variable {provider : ProviderKind} {operation : StorageOperation}

/-! ## One extraction -/

theorem lineText_ok_iff {bytes : List UInt8} {text : Utf8.Text} :
    lineText provider operation bytes = .ok text ↔ text.bytes = bytes := by
  rw [← Utf8.fromUtf8_ok_iff, lineText]
  cases Utf8.fromUtf8 bytes with
  | ok value => simp
  | error error => simp

theorem lineText_of_valid {bytes : List UInt8} (h : Utf8.Valid bytes) :
    lineText provider operation bytes = .ok ⟨bytes, h⟩ := lineText_ok_iff.mpr rfl

/-- What is no text is refused, always with the same error. -/
theorem lineText_of_not_valid {bytes : List UInt8} (h : ¬ Utf8.Valid bytes) :
    lineText provider operation bytes =
      .error (.error (lineOpsError provider operation .binaryContent)) := by
  cases hchecked : Utf8.fromUtf8 bytes with
  | ok text => exact absurd (Utf8.fromUtf8_ok_iff.mp hchecked ▸ text.valid) h
  | error error => rw [lineText, hchecked]

/-- A line is a text with its terminator exactly when it is one without. -/
theorem lineText_bytes (line : Line) :
    (lineText provider operation line.bytes).map (fun _ => ()) =
      (lineText provider operation line.text).map fun _ => () := by
  have hiff : Utf8.Valid line.bytes ↔ Utf8.Valid line.text := by
    constructor
    · intro h
      obtain ⟨text, ending⟩ := line
      cases ending with
      | none => simpa [Line.bytes] using h
      | some style =>
          cases style with
          | lf => exact (Utf8.Valid.cut (by decide) h).1
          | crLf => exact (Utf8.Valid.cut (by decide) h).1
          | cr => exact (Utf8.Valid.cut (by decide) h).1
    · intro h
      exact (Utf8.valid_append_iff h).mpr (Utf8.valid_ending line.ending)
  by_cases hvalid : Utf8.Valid line.text
  · rw [lineText_of_valid hvalid, lineText_of_valid (hiff.mpr hvalid)]
    rfl
  · rw [lineText_of_not_valid hvalid, lineText_of_not_valid (mt hiff.mp hvalid)]

@[simp] theorem firstComplete_terminated (eof : Bool) {line : Line} (rest : List Line)
    (h : line.ending = some .lf ∨ line.ending = some .crLf) :
    firstComplete eof (line :: rest) = some line := by
  cases eof with
  | true => rcases h with h | h <;> simp [firstComplete, h]
  | false => simp [firstComplete, Lines.certain_cons_terminated rest h]

theorem completeLine_eq {front rest : List UInt8} {base consumed : Nat} (ending : Lines.Ending)
    (hconsumed : ending.bytes.length = consumed)
    (hbase : base + (front.length + consumed) < u64Bound) :
    completeLine provider operation (front ++ rest) base front.length consumed
        (endingOf ending) =
      (frameLine provider operation base ⟨front, some ending⟩).map fun parsed =>
        some (parsed, (⟨front, some ending⟩ : Line).size) := by
  have hsize : (⟨front, some ending⟩ : Line).size = front.length + consumed := by
    simp [Line.size, Line.bytes, hconsumed]
  rw [completeLine, sliceTo_of_le (by simp), List.take_left, frameLine, hsize]
  simp only [bind, Except.bind]
  cases lineText provider operation front with
  | error failure => rfl
  | ok text =>
      rw [addU64_of_lt (by omega : base + front.length < u64Bound)]
      simp only [Except.map]
      rw [addU64_of_lt (by omega), addU64_of_lt (by omega)]
      simp only [pure, Except.pure, Option.map, Nat.add_assoc]

/-- The scan, with `front` behind it, finds the first complete line. -/
theorem extractFrom_eq {front rest : List UInt8} {base : Nat} (eof : Bool)
    (hfront : Plain front) (hbase : base + (front ++ rest).length < u64Bound) :
    extractFrom provider operation (front ++ rest) base eof front.length rest =
      match firstComplete eof (split (front ++ rest)) with
      | none => .ok none
      | some line => (frameLine provider operation base line).map fun parsed =>
          some (parsed, line.size) := by
  -- `front` is what the scan has passed: it holds no terminator
  induction rest generalizing front with
  | nil =>
      rw [List.append_nil, extractFrom]
      by_cases hnil : front = []
      · subst hnil
        cases eof <;> rfl
      · rw [Lines.split_plain hfront hnil]
        cases eof <;> rfl
  | cons b rest ih =>
      have hlen : (front ++ b :: rest).length = front.length + (rest.length + 1) := by simp
      rw [hlen] at hbase
      have hnext : (front ++ b :: rest)[front.length + 1]? = rest.head? := by
        rw [List.getElem?_append_right (by omega),
          show front.length + 1 - front.length = 1 by omega,
          List.getElem?_cons_succ, List.head?_eq_getElem?]
      rw [extractFrom, addU64_of_lt (by omega)]
      simp only [bind, Except.bind, hnext]
      by_cases hlf : b = lf
      · subst hlf
        have hsplit : split (front ++ lf :: rest) = ⟨front, some .lf⟩ :: split rest := by
          rw [Lines.split_plain_append hfront (Lines.split_lf rest), List.append_nil]
        rw [if_pos rfl, hsplit, firstComplete_terminated eof _ (.inl rfl)]
        exact completeLine_eq .lf rfl (by omega)
      rw [if_neg hlf]
      by_cases hcr : b = cr
      · subst hcr
        rw [if_pos rfl]
        cases rest with
        | nil =>
            have hsplit : split (front ++ [cr]) = [⟨front, some .cr⟩] := by
              rw [Lines.split_plain_append hfront (Lines.split_cr (by simp)), List.append_nil]
              rfl
            rw [hsplit]
            -- a CR at the end of the window may be half of a CRLF
            cases eof with
            | false =>
                rw [if_pos ⟨by simp, by simp⟩]
                rfl
            | true =>
                rw [if_neg (by simp), if_neg (by simp)]
                exact completeLine_eq .cr rfl (by simpa using hbase)
        | cons c rest' =>
            rw [if_neg (by simp)]
            by_cases hc : c = lf
            · subst hc
              have hsplit : split (front ++ cr :: lf :: rest') =
                  ⟨front, some .crLf⟩ :: split rest' := by
                rw [Lines.split_plain_append hfront (Lines.split_cr_lf rest'), List.append_nil]
              rw [List.head?_cons, if_pos rfl, hsplit, firstComplete_terminated eof _ (.inr rfl)]
              exact completeLine_eq .crLf rfl (by simp at hbase; omega)
            · have hhead : (c :: rest').head? ≠ some lf := by simpa using hc
              have hsplit : split (front ++ cr :: c :: rest') =
                  ⟨front, some .cr⟩ :: split (c :: rest') := by
                rw [Lines.split_plain_append hfront (Lines.split_cr hhead), List.append_nil]
              have hne : split (c :: rest') ≠ [] := fun h => by
                simpa using Lines.split_eq_nil_iff.mp h
              have hfirst : firstComplete eof (⟨front, some .cr⟩ :: split (c :: rest')) =
                  some ⟨front, some .cr⟩ := by
                cases eof with
                | true => rfl
                | false => simp [firstComplete, Lines.certain_cons_of_ne_nil _ hne]
              rw [if_neg hhead, hsplit, hfirst]
              exact completeLine_eq .cr rfl (by simp at hbase; omega)
      · have hsnoc := ih (hfront.snoc hlf hcr) (by simp at hbase ⊢; omega)
        rw [List.append_assoc, List.singleton_append, List.length_append] at hsnoc
        rw [if_neg hcr]
        exact hsnoc

theorem extractFirstCompleteLine_eq (bytes : List UInt8) {base : Nat} (eof : Bool)
    (hbase : base + bytes.length < u64Bound) :
    extractFirstCompleteLine provider operation bytes base eof =
      match firstComplete eof (split bytes) with
      | none => .ok none
      | some line => (frameLine provider operation base line).map fun parsed =>
          some (parsed, line.size) := by
  have hscan : extractFrom provider operation ([] ++ bytes) base eof 0 bytes = _ :=
    extractFrom_eq eof Lines.plain_nil hbase
  exact hscan

/-! ## The driver -/

section

variable {more : List ParsedLine → Bool}
variable {keep : List ParsedLine → ParsedLine → List ParsedLine}

theorem feed_of_stop (base : Nat) (xs : List Line) {lines : List ParsedLine}
    (hstop : more lines = false) :
    feed provider operation more keep base xs lines = .ok lines := by
  cases xs with
  | nil => rfl
  | cons line rest =>
      rw [feed, hstop]
      rfl

theorem feed_cons (base : Nat) (line : Line) (rest : List Line) {lines : List ParsedLine}
    (hmore : more lines = true) :
    feed provider operation more keep base (line :: rest) lines =
      (frameLine provider operation base line).bind fun parsed =>
        feed provider operation more keep (base + line.size) rest (keep lines parsed) := by
  rw [feed, if_pos hmore]
  rfl

theorem feed_append (base : Nat) (xs ys : List Line) (lines : List ParsedLine) :
    feed provider operation more keep base (xs ++ ys) lines =
      (feed provider operation more keep base xs lines).bind fun lines' =>
        feed provider operation more keep (base + extent xs) ys lines' := by
  induction xs generalizing base lines with
  | nil => rfl
  | cons line rest ih =>
      cases hmore : more lines with
      | false =>
          rw [feed_of_stop _ _ hmore, feed_of_stop _ _ hmore]
          exact (feed_of_stop _ _ hmore).symm
      | true =>
          rw [List.cons_append, feed_cons _ _ _ hmore, feed_cons _ _ _ hmore]
          cases frameLine provider operation base line with
          | error failure => rfl
          | ok parsed =>
              simp only [Except.bind]
              rw [ih, Lines.extent_cons, Nat.add_assoc]
              rfl

/-- The main loop feeds the certain lines behind the cursor.  Unless the
collection stopped it, it ends behind the last of them. -/
theorem frameLoop_spec {bytes : List UInt8} {base : Nat}
    (hbase : base + bytes.length < u64Bound) (rounds cursor : Nat) (lines : List ParsedLine)
    (hrounds : (bytes.drop cursor).length ≤ rounds) :
    match frameLoop provider operation more keep bytes base rounds cursor lines with
    | .error failure =>
        feed provider operation more keep (base + cursor) (certain (split (bytes.drop cursor)))
          lines = .error failure
    | .ok (cursor', lines') =>
        feed provider operation more keep (base + cursor) (certain (split (bytes.drop cursor)))
          lines = .ok lines' ∧
        (more lines' = true →
          cursor' = cursor + extent (certain (split (bytes.drop cursor)))) := by
  induction rounds generalizing cursor lines with
  | zero =>
      have hnil : bytes.drop cursor = [] := List.length_eq_zero_iff.mp (by omega)
      rw [hnil]
      exact ⟨rfl, fun _ => rfl⟩
  | succ rounds ih =>
      rw [frameLoop]
      by_cases hgo : cursor < bytes.length ∧ more lines
      · have hdrop : (bytes.drop cursor).length = bytes.length - cursor := List.length_drop
        rw [if_pos hgo, sliceFrom_of_le (by omega), addU64_of_lt (by omega)]
        simp only [bind, Except.bind]
        rw [extractFirstCompleteLine_eq _ _ (by rw [hdrop]; omega), firstComplete,
          if_neg Bool.false_ne_true]
        cases hcertain : certain (split (bytes.drop cursor)) with
        | nil => exact ⟨rfl, fun _ => rfl⟩
        | cons line tail =>
            -- one round frames `line`; the lines behind it are `tail`
            obtain ⟨htail, hsize, hle⟩ := Lines.certain_split_drop hcertain
            rw [List.drop_drop] at htail
            rw [feed_cons _ _ _ hgo.2]
            simp only [List.head?_cons]
            cases frameLine provider operation (base + cursor) line with
            | error failure => rfl
            | ok parsed =>
                have hrest := ih (cursor + line.size) (keep lines parsed)
                  (by rw [List.length_drop] at hrounds ⊢; omega)
                simp only [Except.map, Except.bind]
                rw [htail, ← Nat.add_assoc] at hrest
                rw [addU64_of_lt (by omega), Lines.extent_cons, ← Nat.add_assoc]
                exact hrest
      · rw [if_neg hgo]
        by_cases hmore : more lines = true
        · have hnil : bytes.drop cursor = [] := by
            rw [List.drop_eq_nil_iff]
            by_contra hlt
            exact hgo ⟨by omega, hmore⟩
          rw [hnil]
          exact ⟨rfl, fun _ => rfl⟩
        · exact ⟨feed_of_stop _ _ (by simpa using hmore), fun h => absurd h hmore⟩

/-- The end of the object feeds what the loop had to leave: one line at most. -/
theorem frameTrailing_eq {bytes : List UInt8} {base cursor : Nat} {lines : List ParsedLine}
    (hbase : base + bytes.length < u64Bound)
    (hlast : more lines = true → split (bytes.drop cursor) = [] ∨
      ∃ line, split (bytes.drop cursor) = [line] ∧ line.ending ≠ some .lf ∧
        line.ending ≠ some .crLf) :
    frameTrailing provider operation more keep bytes base cursor lines =
      feed provider operation more keep (base + cursor) (split (bytes.drop cursor)) lines := by
  rw [frameTrailing]
  cases hmore : more lines with
  | false =>
      rw [feed_of_stop _ _ hmore]
      simp [hmore, bind, Except.bind, pure, Except.pure]
  | true =>
      rcases hlast hmore with hnil | ⟨line, hline, hlf, hcrlf⟩
      · have hend : ¬ cursor < bytes.length := by
          have := List.drop_eq_nil_iff.mp (Lines.split_eq_nil_iff.mp hnil)
          omega
        rw [hnil]
        simp [hmore, hend, bind, Except.bind, pure, Except.pure, feed]
      · have hjoined : line.bytes = bytes.drop cursor := by
          rw [← Lines.joined_split (bytes.drop cursor), hline]
          simp
        have hsize : line.size = bytes.length - cursor := by
          rw [Line.size, hjoined, List.length_drop]
        have hmem : line ∈ split (bytes.drop cursor) := by rw [hline]; simp
        have hpos : 0 < line.size := Lines.size_pos_of_mem hmem
        have hlt : cursor < bytes.length := by omega
        rw [hline, feed_cons _ _ _ hmore]
        simp only [hlt, and_self, if_true, bind, Except.bind]
        rw [sliceFrom_of_le (by omega), addU64_of_lt (by omega)]
        simp only
        rw [extractFirstCompleteLine_eq _ _ (by rw [List.length_drop]; omega), hline,
          firstComplete, if_pos rfl, List.head?_cons]
        obtain ⟨text, ending⟩ := line
        cases ending with
        | some style =>
            -- a terminal CR: the second attempt takes it and leaves nothing
            simp only [Option.filter, Option.isSome_some, if_true]
            cases frameLine provider operation (base + cursor) ⟨text, some style⟩ with
            | error failure => rfl
            | ok parsed =>
                simp only [Except.map, pure, Except.pure]
                rw [addU64_of_lt (by omega)]
                simp only
                rw [if_neg (by omega)]
                rfl
        | none =>
            -- no terminator: the loop leaves the piece, and the end frames it
            have htext : text = bytes.drop cursor := by
              simpa [Line.bytes] using hjoined
            simp only [Option.filter, Option.isSome_none, Bool.false_eq_true, if_false, hlt,
              hmore, and_self, if_true, pure, Except.pure]
            rw [frameLine, sliceFrom_of_le (by omega), ← htext]
            simp only
            cases lineText provider operation text with
            | error failure => rfl
            | ok framed =>
                simp only [Except.map]
                rw [addU64_of_lt (by omega), addU64_of_lt hbase]
                simp only [feed, hsize, Option.map, show base + cursor + (bytes.length - cursor) =
                  base + bytes.length by omega]

/-- The shared driver feeds the framable lines of its window. -/
theorem frameLines_eq {bytes : List UInt8} {base : Nat} (includeTrailing : Bool)
    (hbase : base + bytes.length < u64Bound) :
    frameLines provider operation more keep bytes base includeTrailing =
      feed provider operation more keep base (framable includeTrailing bytes) [] := by
  have hloop := @frameLoop_spec provider operation more keep bytes base hbase bytes.length 0 []
    (by simp)
  rw [List.drop_zero, Nat.add_zero] at hloop
  rw [frameLines, framable]
  cases hrun : frameLoop provider operation more keep bytes base bytes.length 0 [] with
  | error failure =>
      rw [hrun] at hloop
      simp only [bind, Except.bind]
      cases includeTrailing with
      | false => exact hloop.symm
      | true =>
          obtain ⟨last, hlast, -⟩ := Lines.exists_certain_append (split bytes)
          rw [if_pos rfl, hlast, feed_append, hloop]
          rfl
  | ok out =>
      obtain ⟨cursor, lines⟩ := out
      rw [hrun] at hloop
      obtain ⟨hfeed, hcursor⟩ := hloop
      simp only [bind, Except.bind]
      cases includeTrailing with
      | false => exact hfeed.symm
      | true =>
          obtain ⟨last, hlast, hshape⟩ := Lines.exists_certain_append (split bytes)
          have hdrop := Lines.split_drop_extent hlast
          rw [if_pos rfl, if_pos rfl]
          conv_rhs => rw [hlast, feed_append, hfeed]
          simp only [Except.bind]
          -- the trailing line is framed only when the driver still asks for lines
          by_cases hmore : more lines = true
          · have hend : cursor = extent (certain (split bytes)) := by
              rw [hcursor hmore, Nat.zero_add]
            rw [frameTrailing_eq hbase, hend, hdrop]
            intro _
            rw [hend, hdrop]
            exact hshape
          · have hstop : more lines = false := by simpa using hmore
            rw [feed_of_stop _ _ hstop, frameTrailing_eq hbase fun h => absurd h hmore,
              feed_of_stop _ _ hstop]

end

/-! ## The parsers -/

theorem frameAll_cons (base : Nat) (line : Line) (rest : List Line) :
    frameAll provider operation base (line :: rest) =
      (frameLine provider operation base line).bind fun parsed =>
        (frameAll provider operation (base + line.size) rest).map (parsed :: ·) := by
  rw [frameAll]
  cases frameLine provider operation base line with
  | error failure => rfl
  | ok parsed =>
      simp only [bind, Except.bind]
      cases frameAll provider operation (base + line.size) rest <;> rfl

theorem frameAll_length {base : Nat} {xs : List Line} {lines : List ParsedLine}
    (h : frameAll provider operation base xs = .ok lines) : lines.length = xs.length := by
  induction xs generalizing base lines with
  | nil =>
      cases h
      rfl
  | cons line rest ih =>
      rw [frameAll_cons] at h
      cases hline : frameLine provider operation base line with
      | error failure =>
          rw [hline] at h
          cases h
      | ok parsed =>
          cases hrest : frameAll provider operation (base + line.size) rest with
          | error failure =>
              rw [hline, hrest] at h
              cases h
          | ok parsed' =>
              rw [hline, hrest] at h
              cases h
              rw [List.length_cons, List.length_cons, ih hrest]

/-- Lines are framed exactly when all of them are texts. -/
theorem frameAll_of_valid (base : Nat) {xs : List Line} (h : ∀ line ∈ xs, Utf8.Valid line.text) :
    ∃ lines, frameAll provider operation base xs = .ok lines := by
  induction xs generalizing base with
  | nil => exact ⟨[], rfl⟩
  | cons line rest ih =>
      obtain ⟨parsed, hparsed⟩ :=
        ih (base + line.size) fun other hother => h other (List.mem_cons_of_mem line hother)
      rw [frameAll_cons, frameLine, lineText_of_valid (h line List.mem_cons_self), hparsed]
      exact ⟨_, rfl⟩

theorem frameAll_valid {base : Nat} {xs : List Line} {lines : List ParsedLine}
    (h : frameAll provider operation base xs = .ok lines) :
    ∀ line ∈ xs, Utf8.Valid line.text := by
  induction xs generalizing base lines with
  | nil => exact nofun
  | cons line rest ih =>
      rw [frameAll_cons, frameLine] at h
      by_cases hvalid : Utf8.Valid line.text
      · rw [lineText_of_valid hvalid] at h
        cases hrest : frameAll provider operation (base + line.size) rest with
        | error failure =>
            rw [hrest] at h
            cases h
        | ok parsed => exact List.forall_mem_cons.mpr ⟨hvalid, ih hrest⟩
      · rw [lineText_of_not_valid hvalid] at h
        cases h

/-- A framing that fails has met a line that is no text. -/
theorem frameAll_error {base : Nat} {xs : List Line} {failure : Failure}
    (h : frameAll provider operation base xs = .error failure) :
    (∃ line ∈ xs, ¬ Utf8.Valid line.text) ∧
      failure = .error (lineOpsError provider operation .binaryContent) := by
  induction xs generalizing base with
  | nil => cases h
  | cons line rest ih =>
      rw [frameAll_cons, frameLine] at h
      by_cases hvalid : Utf8.Valid line.text
      · rw [lineText_of_valid hvalid] at h
        cases hrest : frameAll provider operation (base + line.size) rest with
        | error failure' =>
            rw [hrest] at h
            cases h
            obtain ⟨⟨other, hother, hnot⟩, hfailure⟩ := ih hrest
            exact ⟨⟨other, List.mem_cons_of_mem line hother, hnot⟩, hfailure⟩
        | ok parsed =>
            rw [hrest] at h
            cases h
      · rw [lineText_of_not_valid hvalid] at h
        cases h
        exact ⟨⟨line, List.mem_cons_self, hvalid⟩, rfl⟩

theorem frameAll_append (base : Nat) (xs ys : List Line) :
    frameAll provider operation base (xs ++ ys) =
      (frameAll provider operation base xs).bind fun front =>
        (frameAll provider operation (base + extent xs) ys).map (front ++ ·) := by
  induction xs generalizing base with
  | nil =>
      rw [List.nil_append, frameAll, Lines.extent_nil, Nat.add_zero]
      cases frameAll provider operation base ys <;> rfl
  | cons line rest ih =>
      rw [List.cons_append, frameAll_cons, frameAll_cons, ih, Lines.extent_cons,
        ← Nat.add_assoc]
      cases frameLine provider operation base line with
      | error failure => rfl
      | ok parsed =>
          simp only [Except.bind]
          cases frameAll provider operation (base + line.size) rest with
          | error failure => rfl
          | ok front =>
              simp only [Except.map]
              cases frameAll provider operation (base + line.size + extent rest) ys <;> rfl

/-- Feeding a collection that keeps everything frames all the lines. -/
theorem feed_all (base : Nat) (xs : List Line) (lines : List ParsedLine) :
    feed provider operation (fun _ => true) (fun lines line => lines ++ [line]) base xs lines =
      (frameAll provider operation base xs).map (lines ++ ·) := by
  induction xs generalizing base lines with
  | nil => simp [feed, frameAll, Except.map]
  | cons line rest ih =>
      rw [feed_cons _ _ _ rfl, frameAll_cons]
      cases frameLine provider operation base line with
      | error failure => rfl
      | ok parsed =>
          simp only [Except.bind]
          rw [ih]
          cases frameAll provider operation (base + line.size) rest with
          | error failure => rfl
          | ok parsed' => simp [Except.map]

/-- Feeding the head collection frames a prefix of the lines. -/
theorem feed_upTo (maximum base : Nat) (xs : List Line) (lines : List ParsedLine) :
    feed provider operation (fun lines => decide (lines.length < maximum))
        (fun lines line => lines ++ [line]) base xs lines =
      (frameAll provider operation base (xs.take (maximum - lines.length))).map (lines ++ ·) := by
  induction xs generalizing base lines with
  | nil =>
      rw [List.take_nil]
      simp [feed, frameAll, Except.map]
  | cons line rest ih =>
      -- room for `line`, or the collection is full and stops
      by_cases hmore : lines.length < maximum
      · rw [feed_cons _ _ _ (by simpa using hmore),
          show maximum - lines.length = (maximum - (lines.length + 1)) + 1 by omega,
          List.take_succ_cons, frameAll_cons]
        cases frameLine provider operation base line with
        | error failure => rfl
        | ok parsed =>
            simp only [Except.bind]
            rw [ih, List.length_append, List.length_singleton]
            cases frameAll provider operation (base + line.size)
                (rest.take (maximum - (lines.length + 1))) with
            | error failure => rfl
            | ok parsed' => simp [Except.map]
      · rw [feed_of_stop _ _ (by simpa using hmore), show maximum - lines.length = 0 by omega]
        simp [frameAll, Except.map]

theorem ringPush_eq_rtake {maximum : Nat} (hmax : 1 ≤ maximum) (lines : List ParsedLine)
    (line : ParsedLine) :
    ringPush maximum (lines.rtake maximum) line = (lines ++ [line]).rtake maximum := by
  rw [ringPush, List.rtake, List.rtake, List.length_drop, List.length_append,
    List.length_singleton]
  -- a full ring drops its oldest line
  by_cases hfull : maximum ≤ lines.length
  · rw [if_pos (by omega), List.drop_drop, List.drop_append_of_le_length (by omega),
      show lines.length - maximum + 1 = lines.length + 1 - maximum by omega]
  · rw [if_neg (by omega), show lines.length - maximum = 0 by omega,
      show lines.length + 1 - maximum = 0 by omega, List.drop_zero, List.drop_zero]

/-- Feeding the ring frames all the lines and keeps the last ones. -/
theorem feed_ring {maximum : Nat} (hmax : 1 ≤ maximum) (base : Nat) (xs : List Line)
    (lines : List ParsedLine) :
    feed provider operation (fun _ => true) (ringPush maximum) base xs (lines.rtake maximum) =
      (frameAll provider operation base xs).map fun parsed =>
        (lines ++ parsed).rtake maximum := by
  induction xs generalizing base lines with
  | nil => simp [feed, frameAll, Except.map]
  | cons line rest ih =>
      rw [feed_cons _ _ _ rfl, frameAll_cons]
      cases frameLine provider operation base line with
      | error failure => rfl
      | ok parsed =>
          simp only [Except.bind]
          rw [ringPush_eq_rtake hmax, ih]
          cases frameAll provider operation (base + line.size) rest with
          | error failure => rfl
          | ok parsed' => simp [Except.map]

/-- The reference parser frames every line. -/
theorem parseLines_eq {bytes : List UInt8} {base : Nat} (includeTrailing : Bool)
    (hbase : base + bytes.length < u64Bound) :
    parseLines provider operation bytes base includeTrailing =
      frameAll provider operation base (framable includeTrailing bytes) := by
  rw [parseLines, frameLines_eq _ hbase, feed_all]
  cases frameAll provider operation base (framable includeTrailing bytes) <;> rfl

/-- The head form frames the first lines. -/
theorem parseLinesUpTo_eq {bytes : List UInt8} {base : Nat} (includeTrailing : Bool)
    (maximum : Nat) (hbase : base + bytes.length < u64Bound) :
    parseLinesUpTo provider operation bytes base includeTrailing maximum =
      frameAll provider operation base ((framable includeTrailing bytes).take maximum) := by
  rw [parseLinesUpTo, frameLines_eq _ hbase, feed_upTo]
  cases frameAll provider operation base
    ((framable includeTrailing bytes).take (maximum - ([] : List ParsedLine).length)) <;> rfl

/-- A window framed to the end, or with as many lines as asked for, gives the
first lines of everything from its start on. -/
theorem parseLinesUpTo_window {framed back : List UInt8} {base maximum : Nat} {eof : Bool}
    {lines : List ParsedLine} (hbase : base + framed.length < u64Bound)
    (hparse : parseLinesUpTo provider operation framed base eof maximum = .ok lines)
    (heof : eof = true → back = []) (henough : lines.length = maximum ∨ eof = true) :
    frameAll provider operation base ((split (framed ++ back)).take maximum) = .ok lines := by
  rw [parseLinesUpTo_eq _ _ hbase] at hparse
  cases eof with
  | true => rwa [heof rfl, List.append_nil]
  | false =>
      -- as many certain lines as asked for: later bytes cannot change them
      have hlength := frameAll_length hparse
      obtain ⟨tail, htail⟩ := Lines.certain_split_prefix framed back
      have hfull : lines.length = maximum := henough.resolve_right Bool.false_ne_true
      rw [framable, if_neg Bool.false_ne_true, List.length_take, hfull] at hlength
      rw [← htail, List.take_append_of_le_length (by omega)]
      exact hparse

/-- The tail form frames every line and keeps the last ones. -/
theorem parseTailLinesBounded_eq {bytes : List UInt8} {base : Nat} (includeTrailing : Bool)
    {maximum : Nat} (hmax : 1 ≤ maximum) (hbase : base + bytes.length < u64Bound) :
    parseTailLinesBounded provider operation bytes base includeTrailing maximum =
      (frameAll provider operation base (framable includeTrailing bytes)).map
        (List.rtake · maximum) := by
  have hfeed := @feed_ring provider operation maximum hmax base
    (framable includeTrailing bytes) []
  rw [List.rtake_nil] at hfeed
  rw [parseTailLinesBounded, frameLines_eq _ hbase, hfeed]
  rfl

/-- What the tail form returns is the framing of the last lines. -/
theorem parseTailLinesBounded_ok {bytes : List UInt8} {base : Nat} {includeTrailing : Bool}
    {maximum : Nat} {lines : List ParsedLine} (hmax : 1 ≤ maximum)
    (hbase : base + bytes.length < u64Bound)
    (h : parseTailLinesBounded provider operation bytes base includeTrailing maximum =
      .ok lines) :
    ∃ front, framable includeTrailing bytes =
        front ++ (framable includeTrailing bytes).rtake maximum ∧
      frameAll provider operation (base + extent front)
        ((framable includeTrailing bytes).rtake maximum) = .ok lines := by
  rw [parseTailLinesBounded_eq _ hmax hbase] at h
  generalize framable includeTrailing bytes = xs at h ⊢
  refine ⟨xs.take (xs.length - maximum), (List.take_append_drop _ _).symm, ?_⟩
  have hsplit : xs = xs.take (xs.length - maximum) ++ xs.rtake maximum :=
    (List.take_append_drop _ _).symm
  rw [hsplit, frameAll_append] at h
  cases hfront : frameAll provider operation base (xs.take (xs.length - maximum)) with
  | error failure =>
      rw [hfront] at h
      cases h
  | ok front =>
      rw [hfront] at h
      simp only [Except.bind] at h
      cases hback : frameAll provider operation
          (base + extent (xs.take (xs.length - maximum))) (xs.rtake maximum) with
      | error failure =>
          rw [hback] at h
          cases h
      | ok back =>
          rw [hback] at h
          cases h
          have hf := frameAll_length hfront
          have hb := frameAll_length hback
          rw [List.length_take] at hf
          rw [List.rtake, List.length_drop] at hb
          have hkept : (front ++ back).rtake maximum = back := by
            rw [List.rtake, List.length_append,
              show front.length + back.length - maximum = front.length by omega, List.drop_left]
          exact congrArg Except.ok hkept.symm

theorem parseLinesUpTo_length_le {bytes : List UInt8} {base maximum : Nat} {eof : Bool}
    {lines : List ParsedLine} (hbase : base + bytes.length < u64Bound)
    (h : parseLinesUpTo provider operation bytes base eof maximum = .ok lines) :
    lines.length ≤ maximum := by
  rw [parseLinesUpTo_eq _ _ hbase] at h
  rw [frameAll_length h]
  exact List.length_take_le _ _

theorem parseTailLinesBounded_length {bytes : List UInt8} {base maximum : Nat} {eof : Bool}
    {lines : List ParsedLine} (hmax : 1 ≤ maximum) (hbase : base + bytes.length < u64Bound)
    (h : parseTailLinesBounded provider operation bytes base eof maximum = .ok lines) :
    lines.length = min maximum (framable eof bytes).length := by
  obtain ⟨front, -, hframe⟩ := parseTailLinesBounded_ok hmax hbase h
  rw [frameAll_length hframe, List.rtake, List.length_drop]
  omega

/-! ## The counter -/

theorem completeLine_consumed {bytes : List UInt8} {index consumed : Nat} (ending : LineEnding)
    (hindex : index ≤ bytes.length) (h : index + consumed < u64Bound) :
    (completeLine provider operation bytes 0 index consumed ending).map (Option.map Prod.snd) =
      completeConsumed provider operation bytes index (index + consumed) := by
  rw [completeLine, completeConsumed, sliceTo_of_le hindex]
  simp only [bind, Except.bind]
  cases lineText provider operation (bytes.take index) with
  | error failure => rfl
  | ok text =>
      rw [addU64_of_lt (by omega : 0 + index < u64Bound)]
      simp only
      rw [addU64_of_lt (by omega), addU64_of_lt h]
      rfl

/-- The counter's scanner stops where the extractor stops. -/
theorem consumedFrom_eq_extractFrom {bytes : List UInt8} (eof : Bool)
    (hbytes : bytes.length < u64Bound) {index : Nat} {rest : List UInt8}
    (hindex : index + rest.length = bytes.length) :
    consumedFrom provider operation bytes eof index rest =
      (extractFrom provider operation bytes 0 eof index rest).map (Option.map Prod.snd) := by
  induction rest generalizing index with
  | nil => rfl
  | cons b rest ih =>
      rw [List.length_cons] at hindex
      rw [consumedFrom, extractFrom, addU64_of_lt (by omega)]
      simp only [bind, Except.bind]
      by_cases hlf : b = lf
      · rw [if_pos hlf, if_pos hlf, completeLine_consumed _ (by omega) (by omega)]
      rw [if_neg hlf, if_neg hlf]
      by_cases hcr : b = cr
      · rw [if_pos hcr, if_pos hcr]
        by_cases hend : index + 1 = bytes.length
        · have hnext : bytes[index + 1]? ≠ some lf := by
            rw [hend, List.getElem?_length]
            simp
          cases eof with
          | false => simp [hend, Except.map, pure, Except.pure]
          | true =>
              rw [if_neg (fun h => hnext h.2), if_pos (.inr rfl), if_neg (by simp),
                if_neg hnext, completeLine_consumed _ (by omega) (by omega)]
        · have hlt : index + 1 < bytes.length := by omega
          rw [if_neg (c := index + 1 = bytes.length ∧ ¬ eof = true) fun h => hend h.1]
          by_cases hnext : bytes[index + 1]? = some lf
          · rw [if_pos ⟨hlt, hnext⟩, if_pos hnext, addU64_of_lt (by omega)]
            exact (completeLine_consumed _ (by omega) (by omega)).symm
          · rw [if_neg fun h => hnext h.2, if_pos (.inl hlt), if_neg hnext,
              completeLine_consumed _ (by omega) (by omega)]
      · rw [if_neg hcr, if_neg hcr]
        exact ih (by omega)

theorem completeLineConsumed_eq {bytes : List UInt8} (eof : Bool)
    (hbytes : bytes.length < u64Bound) :
    completeLineConsumed provider operation bytes eof =
      match firstComplete eof (split bytes) with
      | none => .ok none
      | some line => (lineText provider operation line.text).map fun _ => some line.size := by
  rw [completeLineConsumed, consumedFrom_eq_extractFrom eof hbytes (by omega),
    ← extractFirstCompleteLine, extractFirstCompleteLine_eq _ _ (by omega)]
  cases firstComplete eof (split bytes) with
  | none => rfl
  | some line =>
      simp only [frameLine]
      cases lineText provider operation line.text <;> rfl

/-- No more lines than bytes are counted, so the count never overflows. -/
theorem countOne_of_lt {count : Nat} (h : count + 1 < u64Bound) :
    countOne operation count = .ok (count + 1) := by
  rw [countOne, show checkedAdd count 1 = some (count + 1) from if_pos h]

/-- The counting loop frames the certain lines behind the cursor, and keeps their number. -/
theorem countLoop_eq {bytes : List UInt8} (hbytes : bytes.length < u64Bound)
    (rounds cursor count : Nat) (hcount : count ≤ cursor)
    (hrounds : (bytes.drop cursor).length ≤ rounds) :
    countLoop provider operation bytes rounds cursor count =
      (frameAll provider operation cursor (certain (split (bytes.drop cursor)))).map fun lines =>
        (cursor + extent (certain (split (bytes.drop cursor))), count + lines.length) := by
  induction rounds generalizing cursor count with
  | zero =>
      have hnil : bytes.drop cursor = [] := List.length_eq_zero_iff.mp (by omega)
      rw [hnil]
      rfl
  | succ rounds ih =>
      rw [countLoop]
      by_cases hgo : cursor < bytes.length
      · have hdrop : (bytes.drop cursor).length = bytes.length - cursor := List.length_drop
        rw [if_pos hgo, sliceFrom_of_le (by omega)]
        simp only [bind, Except.bind]
        rw [completeLineConsumed_eq _ (by omega), firstComplete, if_neg Bool.false_ne_true]
        -- the loop goes on as long as a complete line is left
        cases hcertain : certain (split (bytes.drop cursor)) with
        | nil => rfl
        | cons line tail =>
            -- behind that line the rest of the window has the remaining lines
            obtain ⟨htail, hsize, hle⟩ := Lines.certain_split_drop hcertain
            rw [List.drop_drop] at htail
            rw [List.head?_cons, frameAll_cons, frameLine]
            simp only
            cases lineText provider operation line.text with
            | error failure => rfl
            | ok text =>
                have hrest := ih (cursor + line.size) (count + 1) (by omega)
                  (by rw [List.length_drop] at hrounds ⊢; omega)
                rw [htail] at hrest
                simp only [Except.map, Except.bind]
                rw [addU64_of_lt (by omega), countOne_of_lt (by omega)]
                simp only
                rw [hrest]
                cases frameAll provider operation (cursor + line.size) tail with
                | error failure => rfl
                | ok lines =>
                    simp only [Except.map, Lines.extent_cons, List.length_cons]
                    rw [← Nat.add_assoc, Nat.add_assoc count, Nat.add_comm 1]
      · have hnil : bytes.drop cursor = [] := List.drop_eq_nil_iff.mpr (by omega)
        rw [if_neg hgo, hnil]
        rfl

/-- The counter frames all the reference lines, and returns their number. -/
theorem countLinesBounded_eq {bytes : List UInt8} (hbytes : bytes.length < u64Bound) :
    countLinesBounded provider operation bytes =
      (frameAll provider operation 0 (split bytes)).map List.length := by
  obtain ⟨last, hlast, hshape⟩ := Lines.exists_certain_append (split bytes)
  have hdrop := Lines.split_drop_extent hlast
  have hextent : extent (certain (split bytes)) + extent last = bytes.length := by
    rw [← Lines.extent_append, ← hlast, Lines.extent_split]
  have hfew : (certain (split bytes)).length ≤ extent (certain (split bytes)) :=
    Lines.length_le_extent fun line hline => (Lines.certain_isPrefix _).subset hline
  rw [countLinesBounded, countLoop_eq hbytes _ _ _ (Nat.le_refl 0) (by simp), List.drop_zero]
  conv_rhs => rw [hlast, frameAll_append, Nat.zero_add]
  cases hfront : frameAll provider operation 0 (certain (split bytes)) with
  | error failure => rfl
  | ok front =>
      have hcount := frameAll_length hfront
      simp only [Except.map, bind, Except.bind, Nat.zero_add]
      -- bytes behind the loop are one more line, which the counter adds
      rcases hshape with rfl | ⟨line, rfl, -, -⟩
      · rw [if_neg (by rw [Lines.extent_nil] at hextent; omega)]
        simp [frameAll, pure, Except.pure]
      · have hmem : line ∈ split bytes := by rw [hlast]; simp
        have hpos : 0 < line.size := Lines.size_pos_of_mem hmem
        rw [Lines.extent_cons, Lines.extent_nil] at hextent
        have hrest : bytes.drop (extent (certain (split bytes))) = line.bytes := by
          rw [← Lines.joined_split (bytes.drop _), hdrop]
          simp
        have hchecked := @lineText_bytes provider operation line
        rw [if_pos (by omega), sliceFrom_of_le (by omega), hrest, frameAll_cons, frameLine]
        simp only
        cases htext : lineText provider operation line.text with
        | error failure =>
            rw [htext] at hchecked
            cases hbytes : lineText provider operation line.bytes with
            | error failure' =>
                rw [hbytes] at hchecked
                cases hchecked
                rfl
            | ok text =>
                rw [hbytes] at hchecked
                cases hchecked
        | ok text =>
            rw [htext] at hchecked
            cases hbytes : lineText provider operation line.bytes with
            | error failure =>
                rw [hbytes] at hchecked
                cases hchecked
            | ok text' =>
                simp only
                rw [countOne_of_lt (by omega)]
                simp [frameAll, Except.map, Except.bind]

/-- The counter counts the reference lines, and has checked every one of them. -/
theorem countLinesBounded_ok {bytes : List UInt8} (hbytes : bytes.length < u64Bound)
    {count : Nat} (h : countLinesBounded provider operation bytes = .ok count) :
    count = (split bytes).length ∧ ∀ line ∈ split bytes, Utf8.Valid line.text := by
  rw [countLinesBounded_eq hbytes] at h
  cases hframe : frameAll provider operation 0 (split bytes) with
  | error failure =>
      rw [hframe] at h
      cases h
  | ok lines =>
      rw [hframe] at h
      cases h
      exact ⟨frameAll_length hframe, frameAll_valid hframe⟩

end Storageprims

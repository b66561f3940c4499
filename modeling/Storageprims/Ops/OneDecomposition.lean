import Storageprims.Ops.FramingCorrect

/-!
# The line framers are one decomposition

`FramingCorrect` says what each framer computes.  Here the results are read as lines of
the bytes: the parsers return lines that lie one behind the other in the bytes, and they
are the last, the first or all lines of the reference decomposition, whose number is what
the counter returns.  All of them refuse exactly the lines that are no text.
-/

namespace Storageprims

open Lines (Line split certain extent joined)

/-- The parsed lines are the given lines of `bytes`, which lie one behind the other from
position `p` up to position `q`.  Every offset is counted from `base`. -/
inductive Tiles (bytes : List UInt8) (base : Nat) :
    Nat → Nat → List ParsedLine → List Line → Prop
  | nil (p : Nat) : Tiles bytes base p p [] []
  | cons {p q : Nat} {parsed : ParsedLine} {lines : List ParsedLine} {line : Line}
      {xs : List Line} (text : parsed.text.bytes = line.text)
      (ending : parsed.ending = line.ending.map endingOf) (start : parsed.start = base + p)
      (stop : parsed.stop = base + (p + line.size))
      (inside : (bytes.drop p).take line.size = line.bytes)
      (behind : Tiles bytes base (p + line.size) q lines xs) :
      Tiles bytes base p q (parsed :: lines) (line :: xs)

/-- The bytes a parser may frame: all of them at the end of the object, else those up to
the last certain terminator. -/
def cutOff (includeTrailing : Bool) (bytes : List UInt8) : List UInt8 :=
  if includeTrailing then bytes else bytes.take (Lines.certainLength bytes)

variable {provider : ProviderKind} {operation : StorageOperation} {bytes : List UInt8}
variable {base maximum : Nat} {xs : List Line} {lines : List ParsedLine}

theorem framable_eq_split (includeTrailing : Bool) (bytes : List UInt8) :
    framable includeTrailing bytes = split (cutOff includeTrailing bytes) := by
  cases includeTrailing with
  | true => rfl
  | false => exact (Lines.split_take_certainLength bytes).symm

theorem length_cutOff (includeTrailing : Bool) (bytes : List UInt8) :
    (cutOff includeTrailing bytes).length = extent (framable includeTrailing bytes) := by
  rw [framable_eq_split, Lines.extent_split]

/-- Framed lines tile the bytes they were framed from. -/
theorem frameAll_tiles {front back : List UInt8} (hbytes : bytes = front ++ joined xs ++ back)
    (h : frameAll provider operation (base + front.length) xs = .ok lines) :
    Tiles bytes base front.length (front.length + extent xs) lines xs := by
  induction xs generalizing front lines with
  | nil =>
      cases h
      exact .nil _
  | cons line rest ih =>
      rw [frameAll_cons, frameLine] at h
      cases htext : lineText provider operation line.text with
      | error failure =>
          rw [htext] at h
          cases h
      | ok text =>
          rw [htext] at h
          simp only [Except.map, Except.bind] at h
          cases hrest : frameAll provider operation (base + front.length + line.size) rest with
          | error failure =>
              rw [hrest] at h
              cases h
          | ok parsed =>
              rw [hrest] at h
              cases h
              have hnext : bytes = (front ++ line.bytes) ++ joined rest ++ back := by
                rw [hbytes, Lines.joined_cons]
                simp only [List.append_assoc]
              have hlength : (front ++ line.bytes).length = front.length + line.size :=
                List.length_append
              have htail := ih hnext (by rw [hlength, ← Nat.add_assoc]; exact hrest)
              rw [hlength] at htail
              rw [Lines.extent_cons, ← Nat.add_assoc]
              refine .cons (lineText_ok_iff.mp htext) rfl rfl (Nat.add_assoc _ _ _) ?_ htail
              rw [hnext, List.append_assoc, List.append_assoc, List.drop_left, Line.size,
                List.take_left]

/-- Part of the lines of a cut lies in the bytes behind the lines in front of it. -/
theorem frameAll_tiles_part (includeTrailing : Bool) (before behind : List Line)
    (hparts : framable includeTrailing bytes = before ++ xs ++ behind)
    (h : frameAll provider operation (base + extent before) xs = .ok lines) :
    Tiles bytes base (extent before) (extent before + extent xs) lines xs := by
  obtain ⟨last, hlast⟩ := framable_isPrefix includeTrailing bytes
  have hbytes : bytes = joined before ++ joined xs ++ (joined behind ++ joined last) := by
    rw [← Lines.joined_split bytes, ← hlast, hparts]
    simp only [Lines.joined_append, List.append_assoc]
  exact frameAll_tiles hbytes h

/-! ## Which bytes are refused -/

/-- The computation fails exactly when one of the lines is no text, and says so. -/
def FailsExactlyOn {α : Type} (provider : ProviderKind) (operation : StorageOperation)
    (result : Except Failure α) (xs : List Line) : Prop :=
  ((∃ failure, result = .error failure) ↔ ∃ line ∈ xs, ¬ Utf8.Valid line.text) ∧
    ∀ failure, result = .error failure →
      failure = .error (lineOpsError provider operation .binaryContent)

theorem frameAll_failsExactlyOn (base : Nat) (xs : List Line) :
    FailsExactlyOn provider operation (frameAll provider operation base xs) xs := by
  refine ⟨⟨?_, ?_⟩, fun failure h => (frameAll_error h).2⟩
  · rintro ⟨failure, h⟩
    exact (frameAll_error h).1
  · rintro ⟨line, hline, hnot⟩
    cases h : frameAll provider operation base xs with
    | error failure => exact ⟨failure, rfl⟩
    | ok lines => exact absurd (frameAll_valid h line hline) hnot

/-- What is made of the framed lines does not matter. -/
theorem FailsExactlyOn.map {α β : Type} {result : Except Failure α} (f : α → β)
    (h : FailsExactlyOn provider operation result xs) :
    FailsExactlyOn provider operation (result.map f) xs := by
  have herror : ∀ failure, result.map f = .error failure ↔ result = .error failure := by
    intro failure
    cases result <;> simp [Except.map]
  simpa only [FailsExactlyOn, herror] using h

/-! ## The framers -/

/-- The line framers are one decomposition: of the bytes, or of the bytes up to their last
certain terminator, the tail form returns the last lines and the head form the first
ones.  Both return them as they lie in the bytes, without a gap; the tail form up to the
end of the cut, the head form from the front on.  The counter returns the number of lines
of all the bytes.  Each fails exactly when a line it has to frame is no text. -/
theorem framers_one_decomposition (provider : ProviderKind) (operation : StorageOperation)
    (bytes : List UInt8) (base maximum : Nat) (includeTrailing : Bool)
    (hbase : base + bytes.length < u64Bound) (hmaximum : 1 ≤ maximum) :
    let cut := cutOff includeTrailing bytes
    let tail := parseTailLinesBounded provider operation bytes base includeTrailing maximum
    let head := parseLinesUpTo provider operation bytes base includeTrailing maximum
    let counted := countLinesBounded provider operation bytes
    (∀ lines, tail = .ok lines →
      ∃ p, Tiles bytes base p cut.length lines ((split cut).rtake maximum)) ∧
    (∀ lines, head = .ok lines →
      ∃ q, Tiles bytes base 0 q lines ((split cut).take maximum)) ∧
    (∀ count, counted = .ok count → count = (split bytes).length) ∧
    FailsExactlyOn provider operation tail (split cut) ∧
    FailsExactlyOn provider operation head ((split cut).take maximum) ∧
    FailsExactlyOn provider operation counted (split bytes) := by
  intro cut tail head counted
  have hsplit : framable includeTrailing bytes = split cut := framable_eq_split _ _
  have htail : tail = (frameAll provider operation base (split cut)).map (List.rtake · maximum) :=
    hsplit ▸ parseTailLinesBounded_eq _ hmaximum hbase
  have hhead : head = frameAll provider operation base ((split cut).take maximum) :=
    hsplit ▸ parseLinesUpTo_eq _ _ hbase
  have hcounted : counted = (frameAll provider operation 0 (split bytes)).map List.length :=
    countLinesBounded_eq (by omega)
  refine ⟨fun lines h => ?_, fun lines h => ?_, fun count h => ?_, ?_, ?_, ?_⟩
  · obtain ⟨before, hparts, hframe⟩ := parseTailLinesBounded_ok hmaximum hbase h
    have htiles := frameAll_tiles_part includeTrailing before []
      (by rw [List.append_nil]; exact hparts) hframe
    rw [← Lines.extent_append, ← hparts, ← length_cutOff, hsplit] at htiles
    exact ⟨_, htiles⟩
  · rw [hhead] at h
    refine ⟨_, frameAll_tiles_part includeTrailing [] ((split cut).drop maximum) ?_ h⟩
    rw [hsplit, List.nil_append, List.take_append_drop]
  · exact (countLinesBounded_ok (by omega) h).1
  · rw [htail]
    exact (frameAll_failsExactlyOn _ _).map _
  · rw [hhead]
    exact frameAll_failsExactlyOn _ _
  · rw [hcounted]
    exact (frameAll_failsExactlyOn _ _).map _

/-- `a` CR LF `b` CR, of which the last CR may be half of a CRLF: one line is certain. -/
theorem framers_one_decomposition_cut :
    5 < u64Bound ∧ 1 ≤ 2 ∧
      (∀ lines, parseTailLinesBounded .s3 .tailLines [0x61, Lines.cr, Lines.lf, 0x62, Lines.cr] 0
          false 2 = .ok lines →
        ∃ p, Tiles [0x61, Lines.cr, Lines.lf, 0x62, Lines.cr] 0 p 3 lines
          [⟨[0x61], some .crLf⟩]) :=
  ⟨by decide, by decide,
    (framers_one_decomposition .s3 .tailLines [0x61, Lines.cr, Lines.lf, 0x62, Lines.cr] 0 2 false
      (by decide) (by decide)).1⟩

/-- The reference parser returns the whole decomposition, so the other two cut its result. -/
theorem parseLines_tiles {includeTrailing : Bool} (hbase : base + bytes.length < u64Bound)
    (h : parseLines provider operation bytes base includeTrailing = .ok lines) :
    Tiles bytes base 0 (cutOff includeTrailing bytes).length lines
      (split (cutOff includeTrailing bytes)) := by
  rw [parseLines_eq _ hbase] at h
  have hparts : framable includeTrailing bytes = [] ++ framable includeTrailing bytes ++ [] := by
    rw [List.nil_append, List.append_nil]
  have htiles := frameAll_tiles_part includeTrailing [] [] hparts h
  rwa [Lines.extent_nil, Nat.zero_add, ← length_cutOff, framable_eq_split] at htiles

end Storageprims

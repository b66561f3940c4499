import Storageprims.Ops.FramingCorrect
import Storageprims.Ops.Guarded

/-!
# What a line result says about an object

`Reports object before selected result` reads a result against the reference
lines of the object: its lines are `selected`, which start behind the lines
`before`, its offsets are the bytes they occupy, and its line ending is the one
their terminators have in common.
-/

namespace Storageprims

open Lines (Line split extent)

/-- Every terminator of the lines is `style`, and there is one. -/
def Uniform (lines : List Line) (style : Lines.Ending) : Prop :=
  (∃ line ∈ lines, line.ending = some style) ∧
    ∀ line ∈ lines, ∀ ending, line.ending = some ending → ending = style

/-- The aggregated ending of lines: unknown without a terminator, the style they
share, or mixed when two of them differ. -/
def HasStyle (lines : List Line) : LineEnding → Prop
  | .unknown => ∀ line ∈ lines, line.ending = none
  | .lf => Uniform lines .lf
  | .crLf => Uniform lines .crLf
  | .cr => Uniform lines .cr
  | .mixed => ∃ first ∈ lines, ∃ second ∈ lines, ∃ style other,
      first.ending = some style ∧ second.ending = some other ∧ style ≠ other

/-- The result reports the lines `selected` of the object, behind `before`. -/
structure Reports (object : List UInt8) (before selected : List Line) (result : LineResult) :
    Prop where
  lines : result.lines.map Utf8.Text.bytes = selected.map Line.text
  total : result.totalSize = object.length
  offsets : (result.byteOffsetStart, result.byteOffsetEnd) =
    if selected = [] then (0, 0) else (extent before, extent before + extent selected)
  ending : HasStyle selected result.lineEnding

/-- A report has one text for each line. -/
theorem Reports.length_eq {object : List UInt8} {before selected : List Line}
    {result : LineResult} (h : Reports object before selected result) :
    result.lines.length = selected.length := by
  have hlength := congrArg List.length h.lines
  rwa [List.length_map, List.length_map] at hlength

theorem endingOf_injective {style other : Lines.Ending} (h : endingOf style = endingOf other) :
    style = other := by
  cases style <;> cases other <;> first | rfl | cases h

theorem hasStyle_endingOf {lines : List Line} {style : Lines.Ending} :
    HasStyle lines (endingOf style) ↔ Uniform lines style := by
  cases style <;> exact Iff.rfl

theorem LineEnding.eq_unknown_or_mixed_or_endingOf (ending : LineEnding) :
    ending = .unknown ∨ ending = .mixed ∨ ∃ style, ending = endingOf style := by
  cases ending with
  | lf => exact .inr (.inr ⟨.lf, rfl⟩)
  | crLf => exact .inr (.inr ⟨.crLf, rfl⟩)
  | cr => exact .inr (.inr ⟨.cr, rfl⟩)
  | mixed => exact .inr (.inl rfl)
  | unknown => exact .inl rfl

/-- Lines have one style only. -/
theorem HasStyle.unique {lines : List Line} {first second : LineEnding}
    (hfirst : HasStyle lines first) (hsecond : HasStyle lines second) : first = second := by
  have hunknown : ∀ {line : Line} {style}, HasStyle lines .unknown → line ∈ lines →
      line.ending = some style → False := fun hnone hline hending => by
    rw [hnone _ hline] at hending
    cases hending
  have hmixed : ∀ {style}, HasStyle lines .mixed → Uniform lines style → False := by
    rintro style ⟨a, ha, b, hb, s, t, hs, ht, hne⟩ huniform
    exact hne ((huniform.2 a ha s hs).trans (huniform.2 b hb t ht).symm)
  rcases first.eq_unknown_or_mixed_or_endingOf with rfl | rfl | ⟨style, rfl⟩ <;>
    rcases second.eq_unknown_or_mixed_or_endingOf with rfl | rfl | ⟨other, rfl⟩
  · rfl
  · obtain ⟨a, ha, -, -, s, -, hs, -⟩ := hsecond
    exact (hunknown hfirst ha hs).elim
  · obtain ⟨⟨a, ha, hs⟩, -⟩ := hasStyle_endingOf.mp hsecond
    exact (hunknown hfirst ha hs).elim
  · obtain ⟨a, ha, -, -, s, -, hs, -⟩ := hfirst
    exact (hunknown hsecond ha hs).elim
  · rfl
  · exact (hmixed hfirst (hasStyle_endingOf.mp hsecond)).elim
  · obtain ⟨⟨a, ha, hs⟩, -⟩ := hasStyle_endingOf.mp hfirst
    exact (hunknown hsecond ha hs).elim
  · exact (hmixed hsecond (hasStyle_endingOf.mp hfirst)).elim
  · obtain ⟨⟨a, ha, hs⟩, -⟩ := hasStyle_endingOf.mp hfirst
    rw [(hasStyle_endingOf.mp hsecond).2 a ha style hs]

/-- The aggregation of the source finds the style of the lines. -/
theorem hasStyle_aggregate (lines : List Line) :
    HasStyle lines
      (aggregateLineEndings ((lines.filterMap Line.ending).map endingOf)) := by
  have hmem : ∀ {ending : LineEnding},
      ending ∈ ((lines.filterMap Line.ending).map endingOf).dedup ↔
        ∃ line ∈ lines, ∃ style, line.ending = some style ∧ endingOf style = ending := by
    intro ending
    rw [List.mem_dedup, List.mem_map]
    constructor
    · rintro ⟨style, hstyle, rfl⟩
      obtain ⟨line, hline, hending⟩ := List.mem_filterMap.mp hstyle
      exact ⟨line, hline, style, hending, rfl⟩
    · rintro ⟨line, hline, style, hending, rfl⟩
      exact ⟨style, List.mem_filterMap.mpr ⟨line, hline, hending⟩, rfl⟩
  have hnodup := List.nodup_dedup ((lines.filterMap Line.ending).map endingOf)
  rw [aggregateLineEndings]
  generalize ((lines.filterMap Line.ending).map endingOf).dedup = endings at hmem hnodup ⊢
  rcases endings with _ | ⟨first, _ | ⟨second, rest⟩⟩
  · intro line hline
    cases hending : line.ending with
    | none => rfl
    | some style => exact absurd (hmem.mpr ⟨line, hline, style, hending, rfl⟩) List.not_mem_nil
  · obtain ⟨line, hline, style, hending, rfl⟩ := hmem.mp (List.mem_singleton.mpr rfl)
    refine hasStyle_endingOf.mpr ⟨⟨line, hline, hending⟩, fun line' hline' other hother => ?_⟩
    exact endingOf_injective
      (List.mem_singleton.mp (hmem.mpr ⟨line', hline', other, hother, rfl⟩))
  · obtain ⟨line, hline, style, hending, hfirst⟩ :=
      hmem.mp (List.mem_cons_self : first ∈ first :: second :: rest)
    obtain ⟨line', hline', other, hother, hsecond⟩ :=
      hmem.mp (List.mem_cons_of_mem first (List.mem_cons_self : second ∈ second :: rest))
    refine ⟨line, hline, line', hline', style, other, hending, hother, fun heq => ?_⟩
    have hne : first ≠ second := by
      have hnot := (List.nodup_cons.mp hnodup).1
      exact fun h => hnot (h ▸ List.mem_cons_self)
    exact hne (by rw [← hfirst, ← hsecond, heq])

variable {provider : ProviderKind} {operation : StorageOperation}

/-- What framing keeps of each reference line. -/
theorem frameAll_ok {base : Nat} {selected : List Line} {parsed : List ParsedLine}
    (h : frameAll provider operation base selected = .ok parsed) :
    parsed.map (fun line => line.text.bytes) = selected.map Line.text ∧
      parsed.filterMap ParsedLine.ending = (selected.filterMap Line.ending).map endingOf ∧
      (∀ first ∈ parsed.head?, first.start = base) ∧
      ∀ last ∈ parsed.getLast?, last.stop = base + extent selected := by
  induction selected generalizing base parsed with
  | nil =>
      cases h
      exact ⟨rfl, rfl, nofun, nofun⟩
  | cons line rest ih =>
      rw [frameAll_cons, frameLine] at h
      cases htext : lineText provider operation line.text with
      | error failure =>
          rw [htext] at h
          cases h
      | ok text =>
          rw [htext] at h
          simp only [Except.map, Except.bind] at h
          cases hrest : frameAll provider operation (base + line.size) rest with
          | error failure =>
              rw [hrest] at h
              cases h
          | ok parsed' =>
              rw [hrest] at h
              cases h
              obtain ⟨htexts, hendings, -, hstop⟩ := ih hrest
              have hbytes := lineText_ok_iff.mp htext
              refine ⟨?_, ?_, ?_, ?_⟩
              · rw [List.map_cons, List.map_cons, htexts, hbytes]
              · cases hending : line.ending with
                | none => simp [hending, hendings]
                | some style => simp [hending, hendings]
              · rintro first hfirst
                cases hfirst
                rfl
              · intro last hlast
                rw [Lines.extent_cons, ← Nat.add_assoc]
                -- the last line ends the extent: it is this one when nothing follows it
                cases parsed' with
                | nil =>
                    have hnil : rest = [] := by
                      rw [← List.length_eq_zero_iff, ← frameAll_length hrest, List.length_nil]
                    cases hlast
                    rw [hnil, Lines.extent_nil, Nat.add_zero]
                    rfl
                | cons next more =>
                    exact hstop last (by rwa [List.getLast?_cons_cons] at hlast)

/-- A result built from framed lines reports them. -/
theorem buildLineResult_reports {object : List UInt8} {before selected : List Line}
    {parsed : List ParsedLine} (strategy : ReadStrategy)
    (h : frameAll provider operation (extent before) selected = .ok parsed) :
    Reports object before selected (buildLineResult parsed object.length strategy) := by
  obtain ⟨htexts, hendings, hstart, hstop⟩ := frameAll_ok h
  have hlength := frameAll_length h
  rcases List.eq_nil_or_concat parsed with rfl | ⟨front, last, hconcat⟩
  · have hnil : selected = [] := List.length_eq_zero_iff.mp hlength.symm
    subst hnil
    exact ⟨rfl, rfl, rfl, fun line hline => absurd hline List.not_mem_nil⟩
  · rw [List.concat_eq_append] at hconcat
    have hlast : parsed.getLast? = some last := by rw [hconcat, List.getLast?_concat]
    obtain ⟨first, hfirst⟩ : ∃ first, parsed.head? = some first := by
      cases parsed with
      | nil => simp at hlast
      | cons first rest => exact ⟨first, rfl⟩
    have hne : selected ≠ [] := by
      rintro rfl
      rw [hconcat] at hlength
      simp at hlength
    have hbuilt : buildLineResult parsed object.length strategy = {
        lines := parsed.map ParsedLine.text
        byteOffsetStart := first.start
        byteOffsetEnd := last.stop
        totalSize := object.length
        strategy := strategy
        lineEnding := aggregateLineEndings (parsed.filterMap ParsedLine.ending) } := by
      rw [buildLineResult, hfirst, hlast]
    rw [hbuilt]
    refine ⟨?_, rfl, ?_, ?_⟩
    · rw [List.map_map]
      exact htexts
    · rw [if_neg hne, hstart first hfirst, hstop last hlast]
    · rw [hendings]
      exact hasStyle_aggregate selected

/-- The empty object has nothing to report. -/
theorem emptyResult_reports (before : List Line) (strategy : ReadStrategy) :
    Reports [] before [] (emptyResult strategy 0) :=
  ⟨rfl, rfl, rfl, fun _ hline => absurd hline List.not_mem_nil⟩

theorem text_bytes_injective : Function.Injective Utf8.Text.bytes := fun _ _ h =>
  Utf8.Text.ext h

/-- Up to the strategy, a report determines the result. -/
theorem Reports.unique {object : List UInt8} {before selected : List Line}
    {first second : LineResult} (hfirst : Reports object before selected first)
    (hsecond : Reports object before selected second)
    (hstrategy : first.strategy = second.strategy) : first = second := by
  obtain ⟨lines, offset, stop, total, strategy, ending⟩ := first
  obtain ⟨lines', offset', stop', total', strategy', ending'⟩ := second
  have hlines : lines = lines' :=
    List.map_injective_iff.mpr text_bytes_injective (hfirst.lines.trans hsecond.lines.symm)
  have hoffsets := hfirst.offsets.trans hsecond.offsets.symm
  have htotal := hfirst.total.trans hsecond.total.symm
  have hending := hfirst.ending.unique hsecond.ending
  simp only [Prod.mk.injEq] at hoffsets htotal hending hstrategy
  simp only [LineResult.mk.injEq]
  exact ⟨hlines, hoffsets.1, hoffsets.2, htotal, hstrategy, hending⟩

@[simp] theorem buildLineResult_strategy (lines : List ParsedLine) (totalSize : Nat)
    (strategy : ReadStrategy) : (buildLineResult lines totalSize strategy).strategy = strategy := by
  rw [buildLineResult]
  split <;> rfl

/-! ## The bytes of the texts -/

/-- The bytes of the reported texts. -/
def textBytes (lines : List Utf8.Text) : Nat :=
  (lines.map fun text => text.bytes.length).sum

theorem textBytes_cons (text : Utf8.Text) (rest : List Utf8.Text) :
    textBytes (text :: rest) = text.bytes.length + textBytes rest := by
  rw [textBytes, List.map_cons, List.sum_cons, textBytes]

theorem outputLength_from {lines : List ParsedLine} {start total : Nat}
    (h : lines.foldlM (fun total line => checkedAdd total line.text.bytes.length) start =
      some total) : total = start + textBytes (lines.map ParsedLine.text) := by
  induction lines generalizing start with
  | nil => exact (Option.some.inj h).symm
  | cons line rest ih =>
      rw [List.foldlM_cons] at h
      cases hnext : checkedAdd start line.text.bytes.length with
      | none =>
          rw [hnext] at h
          cases h
      | some next =>
          rw [hnext] at h
          obtain ⟨-, rfl⟩ := checkedAdd_eq_some_iff.mp hnext
          rw [ih h, List.map_cons, textBytes_cons, Nat.add_assoc]

theorem outputLength_eq {lines : List ParsedLine} {total : Nat}
    (h : outputLength lines = some total) : total = textBytes (lines.map ParsedLine.text) := by
  rw [outputLength_from h, Nat.zero_add]

/-- Within 64 bits, the sum of the lengths is found. -/
theorem outputLength_of_lt {lines : List ParsedLine} {start : Nat}
    (h : start + textBytes (lines.map ParsedLine.text) < u64Bound) :
    lines.foldlM (fun total line => checkedAdd total line.text.bytes.length) start =
      some (start + textBytes (lines.map ParsedLine.text)) := by
  induction lines generalizing start with
  | nil => rfl
  | cons line rest ih =>
      rw [List.map_cons, textBytes_cons, ← Nat.add_assoc] at h ⊢
      rw [List.foldlM_cons, checkedAdd, if_pos (by omega)]
      exact ih h

/-- The texts of framed lines are no longer than the lines. -/
theorem textBytes_le_extent {base : Nat} {selected : List Line} {parsed : List ParsedLine}
    (h : frameAll provider operation base selected = .ok parsed) :
    textBytes (parsed.map ParsedLine.text) ≤ extent selected := by
  obtain ⟨htexts, -⟩ := frameAll_ok h
  have hsum : textBytes (parsed.map ParsedLine.text) =
      ((parsed.map fun line => line.text.bytes).map List.length).sum := by
    rw [textBytes, List.map_map, List.map_map]
    rfl
  rw [hsum, htexts]
  clear h htexts hsum
  induction selected with
  | nil => exact Nat.le_refl _
  | cons line rest ih =>
      have hline : line.text.length ≤ line.size := by
        rw [Line.size, Line.bytes, List.length_append]
        omega
      rw [List.map_cons, List.map_cons, List.sum_cons, Lines.extent_cons]
      omega

end Storageprims

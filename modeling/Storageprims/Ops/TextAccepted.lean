import Storageprims.Ops.Alignment
import Storageprims.Ops.Calls
import Storageprims.Ops.ServedLines
import Storageprims.Text.Windows

/-!
# Text is accepted

A line operation checks every window for text, and every line strictly.  Its
windows start between two characters, and what may be cut off at their ends is no
evidence against them; its lines end at a terminator or with the object.  So on a
text without a zero byte no check fails, and the default limits leave room for
every request, byte and line: what remains is the window of 1 MiB in which the
lines must be found.
-/

namespace Storageprims

open Interaction InspectionLedger
open Lines (Line split certain extent Terminates)
open Utf8 (Valid Opens Between)

/-- UTF-8 without a zero byte. -/
structure IsText (object : List UInt8) : Prop where
  valid : Valid object
  noNul : 0 ∉ object

/-! ## The checks -/

section Checks

variable {kind : ProviderKind} {operation : StorageOperation}
variable {object window : List UInt8} {start n : Nat} {eof : Bool}

theorem startsWithUtf16Bom_of_opens (h : Opens window) : startsWithUtf16Bom window = false := by
  -- neither byte of a UTF-16 mark begins a character
  have hmark : ∀ mark : List UInt8, (∀ more, ¬ Valid (mark ++ more)) →
      mark.isPrefixOf window = false := by
    intro mark hmark
    rw [Bool.eq_false_iff]
    intro hprefix
    obtain ⟨rest, rfl⟩ := List.isPrefixOf_iff_prefix.mp hprefix
    obtain ⟨more, hmore⟩ := h
    rw [List.append_assoc] at hmore
    exact hmark _ hmore
  rw [startsWithUtf16Bom, hmark _ (fun more hvalid => ?_),
    hmark _ (fun more hvalid => ?_), Bool.or_false]
  · cases hvalid
  · cases hvalid

theorem opens_stripUtf8Bom (h : Opens window) : Opens (stripUtf8Bom window) := by
  rw [stripUtf8Bom]
  cases hstrip : window.dropPrefix? [0xEF, 0xBB, 0xBF] with
  | none => exact h
  | some rest =>
      obtain ⟨mark, rfl, hmark⟩ := List.dropPrefix?_eq_some_iff.mp hstrip
      obtain rfl := eq_of_beq hmark
      exact h.behind (by decide)

/-- A window that opens a text passes the check for text. -/
theorem rejectBinaryPrefix_of_opens (hopens : Opens window) (hnul : 0 ∉ window) :
    rejectBinaryPrefix window kind operation = .ok () := by
  rw [rejectBinaryPrefix, if_neg]
  · cases hutf8 : Utf8.fromUtf8 (stripUtf8Bom window) with
    | ok text => rfl
    | error error =>
        simp only
        rw [if_neg]
        rw [(opens_stripUtf8Bom hopens).errorLen_eq_none hutf8]
        exact Bool.false_ne_true
  · rintro (hmark | hzero)
    · rw [startsWithUtf16Bom_of_opens hopens] at hmark
      exact Bool.false_ne_true hmark
    · exact hnul (List.contains_iff_mem.mp hzero)

theorem extent_framable_le (eof : Bool) (window : List UInt8) :
    extent (framable eof window) ≤ window.length := by
  obtain ⟨last, hlast⟩ := framable_isPrefix eof window
  have hextent := congrArg extent hlast
  rw [Lines.extent_append, Lines.extent_split] at hextent
  omega

/-- The lines a parser may report of a window that opens a text are texts. -/
theorem framable_valid (hopens : Opens window) (heof : eof = true → Valid window) :
    ∀ line ∈ framable eof window, Valid line.text := by
  cases eof with
  | true => exact (heof rfl).lines
  | false => exact hopens.lines

/-- The texts of parsed lines lie next to each other in the window. -/
theorem parseLinesUpTo_textBytes_le {base : Nat} {parsed : List ParsedLine}
    (hbase : base + window.length < u64Bound)
    (h : parseLinesUpTo kind operation window base eof n = .ok parsed) :
    textBytes (parsed.map ParsedLine.text) ≤ window.length := by
  rw [parseLinesUpTo_eq _ _ hbase] at h
  refine (textBytes_le_extent h).trans ?_
  have hextent := extent_framable_le eof window
  rw [← List.take_append_drop n (framable eof window), Lines.extent_append] at hextent
  omega

theorem parseTailLinesBounded_textBytes_le {base : Nat} {parsed : List ParsedLine} (hn : 1 ≤ n)
    (hbase : base + window.length < u64Bound)
    (h : parseTailLinesBounded kind operation window base eof n = .ok parsed) :
    textBytes (parsed.map ParsedLine.text) ≤ window.length := by
  obtain ⟨front, hfront, hframe⟩ := parseTailLinesBounded_ok hn hbase h
  refine (textBytes_le_extent hframe).trans ?_
  have hextent := extent_framable_le eof window
  rw [hfront, Lines.extent_append] at hextent
  omega

theorem parseLinesUpTo_of_opens (kind : ProviderKind) (operation : StorageOperation) (base n : Nat)
    (hbase : base + window.length < u64Bound)
    (hopens : Opens window) (heof : eof = true → Valid window) :
    ∃ parsed, parseLinesUpTo kind operation window base eof n = .ok parsed ∧
      textBytes (parsed.map ParsedLine.text) ≤ window.length := by
  obtain ⟨parsed, hparsed⟩ := @frameAll_of_valid kind operation base _
    fun line (hline : line ∈ (framable eof window).take n) =>
      framable_valid hopens heof line (List.mem_of_mem_take hline)
  have hparse : parseLinesUpTo kind operation window base eof n = .ok parsed := by
    rw [parseLinesUpTo_eq _ _ hbase, hparsed]
  exact ⟨parsed, hparse, parseLinesUpTo_textBytes_le hbase hparse⟩

theorem parseTailLinesBounded_of_opens (kind : ProviderKind) (operation : StorageOperation)
    (base : Nat) (hn : 1 ≤ n) (hbase : base + window.length < u64Bound)
    (hopens : Opens window) (heof : eof = true → Valid window) :
    ∃ parsed, parseTailLinesBounded kind operation window base eof n = .ok parsed ∧
      textBytes (parsed.map ParsedLine.text) ≤ window.length := by
  obtain ⟨all, hall⟩ :=
    @frameAll_of_valid kind operation base _ (framable_valid hopens heof)
  have hparse : parseTailLinesBounded kind operation window base eof n = .ok (all.rtake n) := by
    rw [parseTailLinesBounded_eq _ hn hbase, hall]
    rfl
  exact ⟨_, hparse, parseTailLinesBounded_textBytes_le hn hbase hparse⟩

theorem countLinesBounded_of_valid (kind : ProviderKind) (operation : StorageOperation)
    (hbytes : window.length < u64Bound) (hvalid : Valid window) :
    ∃ count, countLinesBounded kind operation window = .ok count := by
  obtain ⟨lines, hframe⟩ := @frameAll_of_valid kind operation 0 _ hvalid.lines
  rw [countLinesBounded_eq hbytes, hframe]
  exact ⟨_, rfl⟩

/-- Cut between two characters, a slice of a text opens a text, and is one when it
reaches the end. -/
theorem slice_opens {length aligned : Nat} (hvalid : Valid object)
    (hbetween : Between object (start + aligned)) :
    Opens (((object.drop start).take length).drop aligned) ∧
      (object.length ≤ start + length →
        Valid (((object.drop start).take length).drop aligned)) := by
  rw [List.drop_take, List.drop_drop]
  refine ⟨hbetween.opens_slice hvalid _, fun hend => ?_⟩
  rw [List.take_of_length_le (by rw [List.length_drop]; omega)]
  exact hbetween.valid_drop hvalid

/-- So every cut the alignments make is between two characters, or leaves nothing. -/
theorem CutAt.opens {front : Prop} {length aligned : Nat}
    (h : CutAt front ((object.drop start).take length) aligned) (hvalid : Valid object)
    (hfront : front → Between object start) :
    Opens (((object.drop start).take length).drop aligned) ∧
      (object.length ≤ start + length →
        Valid (((object.drop start).take length).drop aligned)) := by
  rcases h with ⟨rfl, hcut⟩ | rfl | ⟨q, rfl, hterm⟩
  · exact slice_opens hvalid (hfront hcut)
  · rw [List.drop_length]
    exact ⟨Utf8.valid_nil.opens, fun _ => Utf8.valid_nil⟩
  · refine slice_opens hvalid ?_
    have hwindow := window_of_slice object start length
    exact Utf8.between_of_terminates hvalid ((terminates_window hwindow hterm.lt_length).mp hterm)

theorem IsText.noNul_slice (h : IsText object) {length aligned : Nat} :
    0 ∉ ((object.drop start).take length).drop aligned := by
  intro hmem
  exact h.noNul (List.mem_of_mem_drop (List.mem_of_mem_take (List.mem_of_mem_drop hmem)))

/-- The byte in front of a window that starts a line is a terminator. -/
theorem between_of_boundary {first : Option UInt8} (hvalid : Valid object)
    (hstart : 0 < start) (hinside : start ≤ object.length)
    (h : sliceStartsOnLineBoundary object[start - 1]? first = true) : Between object start := by
  obtain ⟨q, rfl⟩ : ∃ q, start = q + 1 := ⟨start - 1, by omega⟩
  obtain ⟨b, hb⟩ : ∃ b, object[q]? = some b := ⟨_, List.getElem?_eq_getElem (by omega)⟩
  refine Utf8.between_of_terminates hvalid ?_
  simp only [Nat.add_sub_cancel, hb, sliceStartsOnLineBoundary, decide_eq_true_eq] at h
  rcases h with rfl | ⟨rfl, -⟩
  · exact .inl hb
  · exact .inr hb

/-- The front of a text opens a text, and is one when it is the whole. -/
theorem front_opens (hvalid : Valid object) (length : Nat) :
    Opens (object.take length) ∧ (object.length ≤ length → Valid (object.take length)) := by
  refine ⟨(List.take_append_drop length object ▸ hvalid.opens).of_append, fun hend => ?_⟩
  rwa [List.take_of_length_le hend]

end Checks

/-! ## What may fail -/

/-- The lines did not fit in a window: the object is larger than that, and the
failure names an exceeded limit of one of the dimensions. -/
def Excused (object : List UInt8) (dimensions : List InspectionLimitDimension)
    (failure : Failure) : Prop :=
  1024 * 1024 < object.length ∧ ∃ provider operation dimension limit observed,
    dimension ∈ dimensions ∧ failure = .error (.inspection provider operation .limitExceeded
      (some dimension) limit observed)

/-- Whatever the served object answers in time, the script returns, or its failure is
excused. -/
def Passes {S α : Type} (object : List UInt8) (wall : Duration)
    (dimensions : List InspectionLimitDimension) (script : Script Step Reply S Failure α)
    (state : S) (outer : Serving) : Prop :=
  Script.Ensures (holds object True (some wall)) (fun _ => True) script (fun _ _ _ => True)
    (fun failure _ _ => Excused object dimensions failure) state outer

section Rules

variable {S α β : Type} {object : List UInt8} {wall : Duration}
variable {dimensions : List InspectionLimitDimension} {state : S} {outer : Serving}

/-- A script that cannot fail. -/
theorem Passes.of_delivers {script : Script Step Reply S Failure α} {ok : α → S → Serving → Prop}
    (h : Delivers object True (some wall) True script ok state outer) :
    Passes object wall dimensions script state outer := by
  refine Script.Ensures.mono h (fun _ _ _ _ _ => trivial) ?_
  intro failure state' outer' _ hfails
  exact absurd trivial hfails

/-- Behind a script that cannot fail. -/
theorem Passes.after {script : Script Step Reply S Failure α}
    {next : α → Script Step Reply S Failure β} {middle : α → S → Serving → Prop}
    (h : Delivers object True (some wall) True script middle state outer)
    (hnext : ∀ value state' outer', middle value state' outer' →
      Passes object wall dimensions (next value) state' outer') :
    Passes object wall dimensions (script >>= next) state outer := by
  refine Script.Ensures.bind (Script.Ensures.mono h (fun _ _ _ _ hok => hok) ?_) ?_
  · intro failure state' outer' _ hfails
    exact absurd trivial hfails
  · intro value state' outer' _ hmiddle
    exact hnext value state' outer' hmiddle

/-- The report is only returned under its constructor. -/
theorem Passes.answer {f : α → β} {script : Script Step Reply S Failure α}
    (h : Passes object wall dimensions script state outer) :
    Passes object wall dimensions (do return f (← script)) state outer :=
  Script.Ensures.bind h fun _ _ _ _ _ => Script.ensures_pure.mpr ⟨trivial, trivial⟩

theorem passes_pure {value : α} :
    Passes object wall dimensions (pure value : Script Step Reply S Failure α) state outer :=
  Script.ensures_pure.mpr ⟨trivial, trivial⟩

theorem passes_read {next : S → Script Step Reply S Failure β}
    (h : Passes object wall dimensions (next state) state outer) :
    Passes object wall dimensions (Script.read >>= next) state outer :=
  Script.ensures_bind_read.mpr h

theorem passes_ofExcept {result : Except Failure α} {value : α}
    {next : α → Script Step Reply S Failure β} (hresult : result = .ok value)
    (h : Passes object wall dimensions (next value) state outer) :
    Passes object wall dimensions (Script.ofExcept result >>= next) state outer := by
  subst hresult
  exact h

theorem passes_orRaise {result : Except StorageError α} {value : α}
    {next : α → Script Step Reply S Failure β} (hresult : result = .ok value)
    (h : Passes object wall dimensions (next value) state outer) :
    Passes object wall dimensions (orRaise result >>= next) state outer := by
  subst hresult
  exact h

theorem passes_limit {ledger : InspectionLedger} {dimension : InspectionLimitDimension}
    {limit observed : Nat} (hlarge : 1024 * 1024 < object.length)
    (hdimension : dimension ∈ dimensions) :
    Passes object wall dimensions
      (raise (ledger.limit dimension limit observed) : Script Step Reply S Failure α)
      state outer :=
  ensures_raise.mpr ⟨trivial, hlarge, _, _, dimension, limit, observed, hdimension, rfl⟩

end Rules

/-! ## Room -/

section Room

variable {object : List UInt8} {wall : Duration} {ledger : InspectionLedger} {outer : Serving}
variable {requests payload : Nat}

theorem HasRoom.steady (h : HasRoom ledger requests payload) :
    True → (some wall).isSome ∧ HasRoom ledger requests payload := fun _ => ⟨rfl, h⟩

/-- No prefix of a text passes for a binary. -/
theorem IsText.probe (htext : IsText object) (kind : ProviderKind) (operation : StorageOperation)
    (length : Nat) : rejectBinaryPrefix (object.take length) kind operation = .ok () :=
  rejectBinaryPrefix_of_opens (front_opens htext.valid length).1 fun hmem =>
    htext.noNul (List.mem_of_mem_take hmem)

/-- The texts of one window fit in the output. -/
theorem passes_reportLines {dimensions : List InspectionLimitDimension}
    {lines : List ParsedLine} {size : Nat} {strategy : ReadStrategy}
    (hroom : HasRoom ledger requests payload)
    (hbytes : textBytes (lines.map ParsedLine.text) ≤ 1024 * 1024) :
    Passes object wall dimensions (reportLines lines size strategy) ledger outer :=
  Passes.of_delivers (delivers_reportLines fun _ => hroom.output hbytes)

end Room

/-! ## The operations -/

section Operations

variable {object : List UInt8} {wall : Duration} {ledger : InspectionLedger} {outer : Serving}
variable {provider : StorageProvider} {key : String} {selection : GuardedReadSelection}
variable {requests payload n : Nat} {forceStream : Bool}

/-- The selected source is the object.  An empty one is reported at once, any other
is probed first. -/
theorem passes_probed {α : Type} {dimensions : List InspectionLimitDimension} {empty : α}
    {next : Nat → List UInt8 × SourceReceipt → Inspect α} (hroom : HasRoom ledger 1 0)
    (htext : IsText object)
    (hnext : ∀ length receipt ledger' outer', 0 < object.length → length ≤ 1024 * 1024 →
      Satisfiable object 0 length →
      DescribesWindow object (True ∨ (some wall).isSome) 0 length receipt →
      HasRoom ledger' 3 (1024 * 1024) →
      Passes object wall dimensions (next object.length (object.take length, receipt)) ledger'
        outer') :
    Passes object wall dimensions (selectedSize selection >>= fun size =>
      if size = 0 then pure empty else lineProbe selection size >>= next size) ledger outer := by
  refine Passes.after (delivers_selectedSize (fun _ => ⟨rfl, hroom.clock⟩)
    fun _ => hroom.fits (by omega)) ?_
  rintro size ledger₁ outer₁ ⟨rfl, rfl⟩
  by_cases hzero : object.length = 0
  · rw [if_pos hzero]
    exact passes_pure
  rw [if_neg hzero]
  have hpos : 0 < object.length := Nat.pos_of_ne_zero hzero
  refine Passes.after (delivers_lineProbe hroom.limits.admitted hpos fun _ =>
    ⟨rfl, hroom.request, htext.probe _ _ _⟩) ?_
  rintro ⟨probe, receipt⟩ ledger₂ outer₂
    ⟨-, -, ⟨length, hlength, hrange, rfl, hreceipt⟩, hroom₂⟩
  exact hnext length receipt ledger₂ outer₂ hpos hlength hrange hreceipt (hroom₂ trivial)

theorem passes_headWindow (hroom : HasRoom ledger 3 (1024 * 1024)) (htext : IsText object)
    (hobject : object.length < u64Bound) (hpos : 0 < object.length) :
    Passes object wall [.pendingLineBytes] (headWindow provider selection object.length n)
      ledger outer := by
  refine passes_read ?_
  rw [hroom.limits.windowLength]
  have hrange : Satisfiable object 0 (min object.length (1024 * 1024)) :=
    ⟨by omega, hpos, by omega⟩
  refine Passes.after (delivers_range hrange.1 hroom.steady (fun _ => ⟨by omega, by omega⟩)
    fun _ => hrange) ?_
  rintro ⟨bytes, receipt⟩ ledger₁ outer₁ ⟨-, hbytes, hreceipt, -, hroom₁⟩
  change bytes = (object.drop 0).take _ at hbytes
  rw [List.drop_zero] at hbytes
  have heof := provesEof_iff hrange hreceipt (.inl trivial)
  obtain ⟨hopens, hwhole⟩ := front_opens htext.valid (min object.length (1024 * 1024))
  rw [← hbytes] at hopens hwhole
  have hlength : bytes.length ≤ min object.length (1024 * 1024) :=
    hbytes ▸ List.length_take_le _ _
  refine passes_orRaise (rejectBinaryPrefix_of_opens hopens fun hmem =>
    htext.noNul (List.mem_of_mem_take (hbytes ▸ hmem))) ?_
  obtain ⟨selected, hparse, htexts⟩ := parseLinesUpTo_of_opens provider.providerKind .headLines 0 n
    (by omega) hopens fun hend => hwhole (by have := heof.mp hend; omega)
  refine passes_ofExcept hparse (passes_read ?_)
  by_cases hshort : selected.length < n ∧ ¬ provesEof receipt
  · -- the end was not in sight, so the object is larger than the window
    rw [if_pos hshort]
    rw [heof] at hshort
    exact passes_limit (by omega) List.mem_cons_self
  · rw [if_neg hshort]
    exact passes_reportLines (hroom₁ trivial) (by omega)

theorem passes_headSelection (hroom : HasRoom ledger 1 0) (htext : IsText object)
    (hobject : object.length < u64Bound) :
    Passes object wall [.pendingLineBytes] (headSelection provider selection n) ledger outer := by
  refine passes_probed hroom htext fun length receipt ledger₂ outer₂ hpos hlength hrange hreceipt
    hroom₂ => ?_
  have heof := provesEof_iff hrange hreceipt (.inl trivial)
  obtain ⟨hopens, hwhole⟩ := front_opens htext.valid length
  have hshort : (object.take length).length = min length object.length := List.length_take
  obtain ⟨selected, hparse, htexts⟩ := parseLinesUpTo_of_opens provider.providerKind .headLines 0 n
    (by omega) hopens fun hend => hwhole (by have := heof.mp hend; omega)
  refine passes_ofExcept hparse ?_
  by_cases henough : selected.length = n ∨ provesEof receipt
  · rw [if_pos henough]
    exact passes_reportLines hroom₂ (by omega)
  · rw [if_neg henough]
    exact passes_headWindow hroom₂ htext hobject hpos

theorem passes_tailWindow (hroom : HasRoom ledger 3 (1024 * 1024)) (htext : IsText object)
    (hobject : object.length < u64Bound) (hpos : 0 < object.length) (hn : 1 ≤ n) :
    Passes object wall [.pendingLineBytes]
      (tailWindow provider selection object.length n forceStream) ledger outer := by
  refine passes_read ?_
  rw [hroom.limits.windowLength]
  generalize hlength : min object.length (1024 * 1024) = length
  obtain ⟨start, hstart, hinside, -⟩ :=
    tailStart_ok (by omega : length ≤ object.length) forceStream
  refine passes_ofExcept hstart ?_
  refine Passes.after (delivers_previousByteOf (by omega) fun _ => ⟨rfl, hroom, hobject⟩) ?_
  rintro previous ledger₁ outer₁ ⟨-, hprevious, hroom₁⟩
  have hrange : Satisfiable object start length := ⟨by omega, by omega, by omega⟩
  refine Passes.after (delivers_range hrange.1 (hroom₁ trivial).steady
    (fun _ => ⟨by omega, by omega⟩) fun _ => hrange) ?_
  rintro ⟨bytes, receipt⟩ ledger₂ outer₂ ⟨-, hbytes, hreceipt, -, hroom₂⟩
  change bytes = _ at hbytes
  subst hbytes
  have heof := provesEof_iff hrange hreceipt (.inl trivial)
  have hshort : ((object.drop start).take length).length ≤ length := List.length_take_le _ _
  -- the window is cut at a line start, where no character is split
  obtain ⟨aligned, haligned, hwithin, hcut⟩ := tailAlignment_spec start previous
    (by omega : ((object.drop start).take length).length < u64Bound)
  refine passes_ofExcept haligned (passes_ofExcept (sliceFrom_of_le hwithin) ?_)
  obtain ⟨hopens, hwhole⟩ := hcut.opens htext.valid fun hfront => by
    rcases hfront with rfl | hboundary
    · exact Utf8.between_zero object
    · by_cases hzero : start = 0
      · exact hzero ▸ Utf8.between_zero object
      · rw [hprevious (Nat.pos_of_ne_zero hzero)] at hboundary
        exact between_of_boundary htext.valid (Nat.pos_of_ne_zero hzero) (by omega) hboundary
  refine passes_orRaise (rejectBinaryPrefix_of_opens hopens htext.noNul_slice) ?_
  refine passes_read ?_
  -- a streamed window that misses the end is smaller than the object
  by_cases hunproven : forceStream ∧ ¬ provesEof receipt
  · rw [if_pos hunproven]
    rw [heof] at hunproven
    exact passes_limit (by omega) List.mem_cons_self
  rw [if_neg hunproven]
  refine passes_ofExcept (addU64_of_lt (by omega)) ?_
  obtain ⟨selected, hparse, htexts⟩ := parseTailLinesBounded_of_opens provider.providerKind
    .tailLines (start + aligned) hn (by rw [List.length_drop]; omega) hopens
    fun hend => hwhole (heof.mp hend)
  refine passes_ofExcept hparse ?_
  by_cases hfew : selected.length < n ∧ start ≠ 0
  · -- the window has left something in front of it
    rw [if_pos hfew]
    exact passes_limit (by omega) List.mem_cons_self
  · rw [if_neg hfew]
    rw [List.length_drop] at htexts
    exact passes_reportLines (hroom₂ trivial) (by omega)

theorem passes_tailSelection (hroom : HasRoom ledger 1 0) (htext : IsText object)
    (hobject : object.length < u64Bound) (hn : 1 ≤ n) :
    Passes object wall [.pendingLineBytes] (tailSelection provider selection n forceStream)
      ledger outer := by
  refine passes_probed hroom htext fun length receipt ledger₂ outer₂ hpos _ _ _ hroom₂ => ?_
  exact passes_tailWindow hroom₂ htext hobject hpos hn

theorem passes_midWindow (hroom : HasRoom ledger 3 (1024 * 1024)) (htext : IsText object)
    (hobject : object.length < u64Bound) (hpos : 0 < object.length) :
    Passes object wall [.pendingLineBytes]
      (midWindow provider selection object.length n forceStream) ledger outer := by
  refine passes_read ?_
  rw [hroom.limits.windowLength]
  dsimp only
  generalize hlength : min object.length (1024 * 1024) = length
  generalize hstart : (if forceStream then 0 else object.length / 2 - length / 2) = start
  have hle : length ≤ object.length := by omega
  obtain ⟨-, hinside⟩ := midStart_inside hle hstart
  refine passes_ofExcept (midRequested_ok hle hstart) ?_
  have hrange : Satisfiable object start length := ⟨by omega, by omega, by omega⟩
  refine Passes.after (delivers_range hrange.1 hroom.steady (fun _ => ⟨by omega, by omega⟩)
    fun _ => hrange) ?_
  rintro ⟨bytes, receipt⟩ ledger₁ outer₁ ⟨-, hbytes, hreceipt, -, hroom₁⟩
  change bytes = _ at hbytes
  subst hbytes
  have heof := provesEof_iff hrange hreceipt (.inl trivial)
  have hshort : ((object.drop start).take length).length ≤ length := List.length_take_le _ _
  refine passes_read ?_
  -- a streamed window that misses the end is smaller than the object
  by_cases hunproven : forceStream ∧ ¬ provesEof receipt
  · rw [if_pos hunproven]
    rw [heof] at hunproven
    exact passes_limit (by omega) List.mem_cons_self
  rw [if_neg hunproven]
  refine passes_ofExcept (midpointInSlice_ok hle hstart) ?_
  -- the window is cut behind a terminator, or not at all
  obtain ⟨aligned, haligned, hwithin, hcut⟩ := midAlignment_spec (object.length / 2 - start)
    start (provesEof receipt) (by omega : ((object.drop start).take length).length < u64Bound)
  refine passes_ofExcept haligned (passes_ofExcept (sliceFrom_of_le hwithin) ?_)
  obtain ⟨hopens, hwhole⟩ := hcut.opens htext.valid fun hfront =>
    hfront ▸ Utf8.between_zero object
  refine passes_orRaise (rejectBinaryPrefix_of_opens hopens htext.noNul_slice) ?_
  refine passes_ofExcept (addU64_of_lt (by omega)) ?_
  obtain ⟨selected, hparse, htexts⟩ := parseLinesUpTo_of_opens provider.providerKind .midLines
    (start + aligned) n (by rw [List.length_drop]; omega) hopens
    fun hend => hwhole (heof.mp hend)
  refine passes_ofExcept hparse ?_
  by_cases hfew : selected.length < n ∧ ¬ provesEof receipt
  · -- the window has left something behind it
    rw [if_pos hfew]
    rw [heof] at hfew
    exact passes_limit (by omega) List.mem_cons_self
  · rw [if_neg hfew]
    rw [List.length_drop] at htexts
    exact passes_reportLines (hroom₁ trivial) (by omega)

theorem passes_midSelection (hroom : HasRoom ledger 1 0) (htext : IsText object)
    (hobject : object.length < u64Bound) :
    Passes object wall [.pendingLineBytes] (midSelection provider selection n forceStream)
      ledger outer := by
  refine passes_probed hroom htext fun length receipt ledger₂ outer₂ hpos _ _ _ hroom₂ => ?_
  exact passes_midWindow hroom₂ htext hobject hpos

theorem passes_countSelection (hroom : HasRoom ledger 1 0) (htext : IsText object)
    (hobject : object.length < u64Bound) :
    Passes object wall [.pendingLineBytes, .payloadBytes] (countSelection provider selection)
      ledger outer := by
  refine Passes.after (delivers_selectedSize (fun _ => ⟨rfl, hroom.clock⟩)
    fun _ => hroom.fits (by omega)) ?_
  rintro size ledger₁ outer₁ ⟨rfl, rfl⟩
  refine passes_read ?_
  by_cases hzero : object.length = 0
  · rw [if_pos hzero]
    exact passes_pure
  rw [if_neg hzero]
  have hpos : 0 < object.length := Nat.pos_of_ne_zero hzero
  have hpayload := hroom.limits.payload
  have hpending := hroom.limits.pending
  simp only
  by_cases hlarge : object.length > ledger.budget.payloadBytes
  · rw [if_pos hlarge]
    exact passes_limit (by omega) (List.mem_cons_of_mem _ List.mem_cons_self)
  rw [if_neg hlarge]
  by_cases hwide : object.length > ledger.budget.pendingLineBytes
  · rw [if_pos hwide]
    exact passes_limit (by omega) List.mem_cons_self
  rw [if_neg hwide]
  refine Passes.after (delivers_lineProbe hroom.limits.admitted hpos fun _ =>
    ⟨rfl, hroom.request, htext.probe _ _ _⟩) ?_
  rintro probe ledger₂ outer₂ ⟨-, -, -, hroom₂⟩
  have hrange : Satisfiable object 0 object.length := ⟨hpos, hpos, by omega⟩
  refine Passes.after (delivers_range hrange.1 (hroom₂ trivial).steady
    (fun _ => ⟨by omega, by omega⟩) fun _ => hrange) ?_
  rintro ⟨bytes, receipt⟩ ledger₃ outer₃ ⟨-, hbytes, hreceipt, -, -⟩
  change bytes = (object.drop 0).take object.length at hbytes
  rw [List.drop_zero, List.take_length] at hbytes
  subst hbytes
  refine passes_read ?_
  -- the one range is the whole object, so its receipt proves the end
  have htotal := hreceipt.totalSize_eq (.inl trivial)
  have hend := (provesEof_iff hrange hreceipt (.inl trivial)).mpr (by omega)
  rw [provesEof, decide_eq_true_eq, htotal] at hend
  rw [if_neg (by rw [not_or, not_not, not_not]; exact ⟨htotal, hend.symm⟩)]
  refine passes_orRaise (rejectBinaryPrefix_of_opens htext.valid.opens htext.noNul) ?_
  have hbound : 8 * 1024 * 1024 + 1 < u64Bound := by decide
  obtain ⟨count, hcount⟩ := countLinesBounded_of_valid provider.providerKind .countLines
    (by omega) htext.valid
  rw [hcount]
  exact passes_pure

/-! ## Every call -/

/-- The opening of a line operation leaves its body all the room. -/
theorem passes_inspectSource {α : Type} {operation : StorageOperation}
    {budget : InspectionBudget} {body : GuardedReadSelection → Inspect α}
    {dimensions : List InspectionLimitDimension} {state : Option InspectionLedger}
    (hlimits : DefaultLimits budget) (hguarded : provider.guardedReads.isSome) (hkey : key ≠ "")
    (hbody : ∀ selection ledger outer, HasRoom ledger 1 0 →
      Passes object budget.wallTime dimensions (body selection) ledger outer) :
    Passes object budget.wallTime dimensions (inspectSource provider key operation budget body)
      state outer := by
  refine Passes.after (delivers_new (fun _ => hlimits.admitted) fun _ => rfl) ?_
  rintro ledger state₁ outer₁ ⟨-, hclock, hledger⟩
  have hroom : HasRoom ledger 0 0 := by
    rw [hledger]
    exact ⟨hlimits, hclock, Nat.le_refl _, Nat.le_refl _, rfl⟩
  obtain ⟨guarded, hsome⟩ := Option.isSome_iff_exists.mp hguarded
  have hrequire : requireGuardedReads provider operation = .ok guarded := by
    rw [requireGuardedReads, hsome]
  refine ensures_withLedger (passes_orRaise hrequire ?_)
  refine Passes.after (delivers_observeAndBind (fun _ => ⟨rfl, hroom.clock⟩)
    (fun _ => hroom.fits (by omega)) fun _ => hkey) ?_
  rintro ⟨selection, receipt⟩ ledger₂ outer₂ ⟨-, rfl⟩
  exact hbody selection _ outer₂ hroom.request

/-- An accepted line budget keeps the default limits, and asks for a line. -/
theorem passes_lineBudget {α : Type} {operation : StorageOperation} {options : LineOptions}
    {dimensions : List InspectionLimitDimension} {next : InspectionBudget → Session α}
    {state : Option InspectionLedger}
    (haccepted : ∃ budget, lineBudget operation n options = .ok budget)
    (hnext : ∀ budget, DefaultLimits budget → 1 ≤ n →
      Passes object budget.wallTime dimensions (next budget) state outer) :
    Passes object InspectionBudget.default.wallTime dimensions
      (orRaise (lineBudget operation n options) >>= next) state outer := by
  obtain ⟨budget, hbudget⟩ := haccepted
  obtain ⟨rfl, hadmitted⟩ := lineBudget_ok_iff.mp hbudget
  exact passes_orRaise hbudget
    (hnext _ ⟨hadmitted, rfl, rfl, rfl, rfl⟩ hadmitted.lines_pos)

end Operations

namespace Call

/-- A line operation whose options are accepted and whose key does not name a
compressed object, unless it is to be streamed. -/
def ReadsLines : Call → Prop
  | .previewBytes _ _ _ _ => False
  | .previewBytesSelected _ _ _ _ => False
  | .headLines provider key n options =>
      Readable provider key ∧ ∃ budget, lineBudget .headLines n options = .ok budget
  | .tailLines provider key n options =>
      Readable provider key ∧ (isCompressedKey key → options.forceStream) ∧
        ∃ budget, lineBudget .tailLines n options = .ok budget
  | .midLines provider key n options =>
      Readable provider key ∧ (isCompressedKey key → options.forceStream) ∧
        ∃ budget, lineBudget .midLines n options = .ok budget
  | .countLines provider key => Readable provider key

/-- The limits a call on a large text may exceed. -/
def mayExceed : Call → List InspectionLimitDimension
  | .countLines _ _ => [.pendingLineBytes, .payloadBytes]
  | _ => [.pendingLineBytes]

theorem passes {call : Call} {object : List UInt8} {state : Option InspectionLedger}
    {outer : Serving} (hcall : call.ReadsLines) (htext : IsText object)
    (hobject : object.length < u64Bound) :
    Passes object InspectionBudget.default.wallTime call.mayExceed call.session state outer := by
  cases call with
  | previewBytes provider key length budget => exact hcall.elim
  | previewBytesSelected providerKind selection length budget => exact hcall.elim
  | headLines provider key n options =>
      obtain ⟨⟨hguarded, hnamed⟩, haccepted⟩ := hcall
      refine Passes.answer (passes_lineBudget haccepted fun budget hlimits _ => ?_)
      exact passes_inspectSource hlimits hguarded hnamed fun selection ledger outer hroom =>
        passes_headSelection hroom htext hobject
  | tailLines provider key n options =>
      obtain ⟨⟨hguarded, hnamed⟩, hplain, haccepted⟩ := hcall
      refine Passes.answer ?_
      rw [tailLinesWithOptions, if_neg fun hcompressed => hcompressed.2 (hplain hcompressed.1)]
      refine passes_lineBudget haccepted fun budget hlimits hn => ?_
      exact passes_inspectSource hlimits hguarded hnamed fun selection ledger outer hroom =>
        passes_tailSelection hroom htext hobject hn
  | midLines provider key n options =>
      obtain ⟨⟨hguarded, hnamed⟩, hplain, haccepted⟩ := hcall
      refine Passes.answer ?_
      rw [midLinesWithOptions, if_neg fun hcompressed => hcompressed.2 (hplain hcompressed.1)]
      refine passes_lineBudget haccepted fun budget hlimits _ => ?_
      exact passes_inspectSource hlimits hguarded hnamed fun selection ledger outer hroom =>
        passes_midSelection hroom htext hobject
  | countLines provider key =>
      obtain ⟨hguarded, hnamed⟩ := hcall
      refine Passes.answer (passes_inspectSource default_limits hguarded hnamed ?_)
      intro selection ledger outer hroom
      exact passes_countSelection hroom htext hobject

/-- A line operation on a text, whose calls are answered in time, finishes.  It
returns, unless the text is larger than 1 MiB and the failure says that its lines
did not fit: no text is refused as binary, and no other limit is exceeded. -/
theorem accepts_text {call : Call} {object : List UInt8} (hcall : call.ReadsLines)
    (htext : IsText object) (hobject : object.length < u64Bound) :
    (∃ start transcript result,
      Run (serves object (some InspectionBudget.default.wallTime)) start call.session transcript
        result) ∧
    ∀ start transcript result,
      Run (serves object (some InspectionBudget.default.wallTime)) start call.session transcript
        result →
      (object.length ≤ 1024 * 1024 → ∃ answer, result = .ok answer) ∧
      ∀ failure, result = .error failure → Excused object call.mayExceed failure := by
  have hwall : ∀ wall ∈ some InspectionBudget.default.wallTime, wall.nanos < instantBound := by
    intro wall h
    exact Option.some.inj h ▸ (by decide)
  refine ⟨⟨_, _, _, run_reference hobject hwall rfl⟩, fun start transcript result hrun => ?_⟩
  obtain ⟨ledger, final, htrace, haccepts⟩ := hrun.held
  have hpasses : Passes object InspectionBudget.default.wallTime call.mayExceed call.session none
      start := call.passes hcall htext hobject
  have hpost := Program.Ensures.of_finished hpasses htrace haccepts
  cases result with
  | ok answer =>
      refine ⟨fun _ => ⟨answer, rfl⟩, ?_⟩
      intro failure hfailure
      cases hfailure
  | error failure =>
      refine ⟨fun hsmall => absurd hpost.1 (Nat.not_lt.mpr hsmall), ?_⟩
      intro other hother
      cases hother
      exact hpost

/-- A byte order mark, `a LF`, and a two-byte character without a terminator. -/
theorem accepts_text_marked :
    (∃ start transcript result,
      Run (serves [0xEF, 0xBB, 0xBF, 0x61, 0x0A, 0xC3, 0xA9]
          (some InspectionBudget.default.wallTime)) start
        (Call.tailLines guardedProvider "log.txt" 1 .default).session transcript result) ∧
    ∀ start transcript result,
      Run (serves [0xEF, 0xBB, 0xBF, 0x61, 0x0A, 0xC3, 0xA9]
          (some InspectionBudget.default.wallTime)) start
        (Call.tailLines guardedProvider "log.txt" 1 .default).session transcript result →
      (7 ≤ 1024 * 1024 → ∃ answer, result = .ok answer) ∧
      ∀ failure, result = .error failure →
        Excused [0xEF, 0xBB, 0xBF, 0x61, 0x0A, 0xC3, 0xA9] [.pendingLineBytes] failure :=
  @accepts_text (.tailLines guardedProvider "log.txt" 1 .default) _
    ⟨⟨rfl, by decide⟩, by decide, _, rfl⟩ ⟨by decide, by decide⟩ (by decide)

end Call

end Storageprims

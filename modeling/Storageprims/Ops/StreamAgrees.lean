import Storageprims.Ops.LinesExact
import Storageprims.Ops.TextAccepted

/-!
# The streamed and the ranged reading agree

Tail and midpoint operations read one window.  Streamed, it starts at the front and must
reach the end of the object, so the object fits in it; then the ranged window is the
whole object as well, and both readings put the same bytes through the same checks.

`wholeTail` and `wholeMid` are those checks, on the bytes alone.  `steady` is again the
assumption under which nothing fails: none for the streamed call, which is known to have
returned, and for the ranged one that the checks pass.
-/

namespace Storageprims

open Interaction InspectionLedger
open Lines (Line split extent)

/-- The lines the tail operation takes from a window that is the whole object. -/
def wholeTail (kind : ProviderKind) (n : Nat) (object : List UInt8) :
    Except Failure (List ParsedLine) := do
  (rejectBinaryPrefix object kind .tailLines).mapError .error
  parseTailLinesBounded kind .tailLines object 0 true n

/-- The lines the midpoint operation takes from a window that is the whole object. -/
def wholeMid (kind : ProviderKind) (n : Nat) (object : List UInt8) :
    Except Failure (List ParsedLine) := do
  let aligned ← midAlignment object (object.length / 2) 0 true
  let framed ← sliceFrom object aligned
  (rejectBinaryPrefix framed kind .midLines).mapError .error
  parseLinesUpTo kind .midLines framed aligned true n

/-- The lines of `whole` are reported, of an object that fits in the pending-line budget. -/
def ReportsWhole (object : List UInt8) (whole : List UInt8 → Except Failure (List ParsedLine))
    (result : LineResult) : Prop :=
  object.length ≤ 1024 * 1024 ∧ ∃ selected strategy, whole object = .ok selected ∧
    result = buildLineResult selected object.length strategy

variable {object : List UInt8} {within : Option Duration} {steady : Prop}
variable {ledger : InspectionLedger} {outer : Serving}
variable {provider : StorageProvider} {key : String} {selection : GuardedReadSelection}
variable {n requests payload : Nat} {forceStream : Bool}

/-! ## The window -/

/-- The window at the front of the object, behind the probe. -/
theorem delivers_frontWindow (hpos : 0 < object.length)
    (hsteady : steady → within.isSome ∧ HasRoom ledger 3 (1024 * 1024)) :
    Delivers object True within steady
      (guardedRangeBytes selection 0 (min object.length (1024 * 1024)))
      (fun out ledger' _ => (object.length ≤ 1024 * 1024 → out.1 = object) ∧
        (provesEof out.2 = true ↔ object.length ≤ 1024 * 1024) ∧
        (steady → HasRoom ledger' 4 (2 * (1024 * 1024)))) ledger outer := by
  have hbound : 8 * 1024 * 1024 < u64Bound := by decide
  refine (delivers_range (by omega) hsteady (fun _ => ⟨by omega, by omega⟩)
    fun _ => ⟨by omega, hpos, by omega⟩).mono ?_
  rintro ⟨bytes, receipt⟩ ledger' outer' ⟨hrange, hbytes, hreceipt, -, hroom⟩
  refine ⟨fun hfits => ?_, (provesEof_iff hrange hreceipt (.inl trivial)).trans (by omega),
    fun hs => ?_⟩
  · rw [hbytes, List.drop_zero]
    exact List.take_of_length_le (by omega)
  · exact ⟨(hroom hs).limits, (hroom hs).clock, (hroom hs).requests_le,
      (hroom hs).payload_le.trans (by omega), (hroom hs).output_eq⟩

/-- A forced window goes on when it has proved the end of the object, and a ranged one is
known to hold it. -/
theorem delivers_proven {receipt : SourceReceipt} {error : StorageError}
    {rest : Inspect LineResult} {ok : LineResult → InspectionLedger → Serving → Prop}
    (heof : provesEof receipt = true ↔ object.length ≤ 1024 * 1024)
    (hmode : forceStream = false → object.length ≤ 1024 * 1024)
    (hsteady : steady → object.length ≤ 1024 * 1024)
    (hrest : object.length ≤ 1024 * 1024 →
      Delivers object True within steady rest ok ledger outer) :
    Delivers object True within steady
      (if forceStream ∧ ¬ provesEof receipt then raise error else rest) ok ledger outer := by
  by_cases hunproven : forceStream ∧ ¬ provesEof receipt
  · rw [if_pos hunproven]
    exact delivers_raise fun hs => hunproven.2 (heof.mpr (hsteady hs))
  · rw [if_neg hunproven]
    apply hrest
    cases forceStream with
    | false => exact hmode rfl
    | true =>
        apply heof.mp
        by_contra hnot
        exact hunproven ⟨rfl, hnot⟩

theorem inBounds (h : object.length ≤ 1024 * 1024) : 0 + object.length < u64Bound := by
  have hbound : 1024 * 1024 < u64Bound := by decide
  omega

/-! ## The checks -/

theorem wholeTail_eq (object : List UInt8) {kind : ProviderKind}
    (haccepted : rejectBinaryPrefix object kind .tailLines = .ok ()) :
    wholeTail kind n object = parseTailLinesBounded kind .tailLines object 0 true n := by
  rw [wholeTail, haccepted]
  rfl

theorem wholeTail_ok {kind : ProviderKind} {selected : List ParsedLine}
    (h : wholeTail kind n object = .ok selected) :
    rejectBinaryPrefix object kind .tailLines = .ok () ∧
      parseTailLinesBounded kind .tailLines object 0 true n = .ok selected := by
  obtain ⟨done, haccepted, hparse⟩ := except_bind_ok h
  refine ⟨?_, hparse⟩
  cases hcheck : rejectBinaryPrefix object kind .tailLines with
  | error error =>
      rw [hcheck] at haccepted
      cases haccepted
  | ok done => rfl

theorem wholeMid_ok {kind : ProviderKind} {selected : List ParsedLine}
    (h : wholeMid kind n object = .ok selected) :
    ∃ aligned framed, midAlignment object (object.length / 2) 0 true = .ok aligned ∧
      sliceFrom object aligned = .ok framed ∧
      rejectBinaryPrefix framed kind .midLines = .ok () ∧
      parseLinesUpTo kind .midLines framed aligned true n = .ok selected := by
  obtain ⟨aligned, haligned, h⟩ := except_bind_ok h
  obtain ⟨framed, hframed, h⟩ := except_bind_ok h
  obtain ⟨done, haccepted, hparse⟩ := except_bind_ok h
  refine ⟨aligned, framed, haligned, hframed, ?_, hparse⟩
  cases hcheck : rejectBinaryPrefix framed kind .midLines with
  | error error =>
      rw [hcheck] at haccepted
      cases haccepted
  | ok done => rfl

theorem wholeTail_nil (kind : ProviderKind) (n : Nat) : wholeTail kind n [] = .ok [] := rfl

theorem wholeMid_nil (kind : ProviderKind) (n : Nat) : wholeMid kind n [] = .ok [] := by
  change frameTrailing kind .midLines (fun lines => decide (lines.length < n))
    (fun lines line => lines ++ [line]) [] 0 0 [] = .ok []
  simp only [frameTrailing, List.length_nil, Nat.lt_irrefl, and_false, if_false, pure_bind]
  rfl

/-! ## The operations -/

theorem delivers_tailWindow (hlimits : DefaultLimits ledger.budget) (hpos : 0 < object.length)
    (hn : 1 ≤ n) (hmode : forceStream = false → object.length ≤ 1024 * 1024)
    (hsteady : steady → within.isSome ∧ HasRoom ledger 3 (1024 * 1024) ∧
      object.length ≤ 1024 * 1024 ∧
      ∃ selected, wholeTail provider.providerKind n object = .ok selected) :
    Delivers object True within steady (tailWindow provider selection object.length n forceStream)
      (fun result _ _ => ReportsWhole object (wholeTail provider.providerKind n) result)
      ledger outer := by
  refine delivers_read ?_
  rw [hlimits.windowLength]
  dsimp only
  -- in either mode the window starts at the front
  have hstart : (if forceStream then Except.ok 0
      else subU64 object.length (min object.length (1024 * 1024))) = .ok 0 := by
    cases forceStream with
    | true => rfl
    | false =>
        have hfits := hmode rfl
        rw [if_neg Bool.false_ne_true, Nat.min_eq_left hfits, subU64_of_le (Nat.le_refl _),
          Nat.sub_self]
  rw [hstart, Script.ofExcept_ok_bind, previousByteOf, if_pos rfl]
  have hprevious : Delivers object True within steady (pure none : Inspect (Option UInt8))
      (fun previous ledger' _ => previous = none ∧ ledger' = ledger) ledger outer :=
    delivers_pure ⟨rfl, rfl⟩
  refine hprevious.bind ?_
  rintro - ledger₁ outer₁ ⟨rfl, rfl⟩
  refine Delivers.bind (delivers_frontWindow hpos fun hs => ⟨(hsteady hs).1, (hsteady hs).2.1⟩) ?_
  rintro ⟨bytes, receipt⟩ ledger₂ outer₂ ⟨hwhole, heof, hroom₂⟩
  simp only at hwhole heof
  rw [show tailAlignment 0 none bytes = .ok 0 from if_pos rfl, Script.ofExcept_ok_bind,
    sliceFrom_of_le (Nat.zero_le _), Script.ofExcept_ok_bind, List.drop_zero]
  refine delivers_orRaise (fun hs => ?_) fun _ haccepted => delivers_read ?_
  · obtain ⟨-, -, hfits, selected, hselected⟩ := hsteady hs
    exact ⟨(), hwhole hfits ▸ (wholeTail_ok hselected).1⟩
  refine delivers_proven heof hmode (fun hs => (hsteady hs).2.2.1) fun hfits => ?_
  rw [hwhole hfits] at haccepted ⊢
  rw [heof.mpr hfits, addU64_of_lt (by decide), Script.ofExcept_ok_bind]
  refine delivers_ofExcept (fun hs => ?_) fun selected hparse => ?_
  · obtain ⟨-, -, -, selected, hselected⟩ := hsteady hs
    exact ⟨selected, (wholeTail_ok hselected).2⟩
  rw [if_neg fun h => h.2 rfl]
  refine (delivers_reportLines fun hs => (hroom₂ hs).output ?_).mono fun result _ _ hresult => ?_
  · exact (parseTailLinesBounded_textBytes_le hn (inBounds hfits) hparse).trans hfits
  · refine ⟨hfits, selected, _, ?_, hresult⟩
    rw [wholeTail_eq object haccepted]
    exact hparse

theorem delivers_midWindow (hlimits : DefaultLimits ledger.budget) (hpos : 0 < object.length)
    (hmode : forceStream = false → object.length ≤ 1024 * 1024)
    (hsteady : steady → within.isSome ∧ HasRoom ledger 3 (1024 * 1024) ∧
      object.length ≤ 1024 * 1024 ∧
      ∃ selected, wholeMid provider.providerKind n object = .ok selected) :
    Delivers object True within steady (midWindow provider selection object.length n forceStream)
      (fun result _ _ => ReportsWhole object (wholeMid provider.providerKind n) result)
      ledger outer := by
  refine delivers_read ?_
  rw [hlimits.windowLength]
  dsimp only
  -- in either mode the window starts at the front
  have hstart : (if forceStream then 0
      else object.length / 2 - min object.length (1024 * 1024) / 2) = 0 := by
    cases forceStream with
    | true => rfl
    | false =>
        have hfits := hmode rfl
        rw [if_neg Bool.false_ne_true, Nat.min_eq_left hfits, Nat.sub_self]
  have hle : min object.length (1024 * 1024) ≤ object.length := Nat.min_le_left _ _
  rw [midRequested_ok hle rfl, midpointInSlice_ok hle rfl, hstart, Script.ofExcept_ok_bind]
  refine Delivers.bind (delivers_frontWindow hpos fun hs => ⟨(hsteady hs).1, (hsteady hs).2.1⟩) ?_
  rintro ⟨bytes, receipt⟩ ledger₂ outer₂ ⟨hwhole, heof, hroom₂⟩
  simp only at hwhole heof
  refine delivers_read ?_
  refine delivers_proven heof hmode (fun hs => (hsteady hs).2.2.1) fun hfits => ?_
  rw [hwhole hfits, heof.mpr hfits, Nat.sub_zero, Script.ofExcept_ok_bind]
  dsimp only
  refine delivers_ofExcept (fun hs => ?_) fun aligned haligned => ?_
  · obtain ⟨-, -, -, selected, hselected⟩ := hsteady hs
    obtain ⟨aligned, -, haligned, -⟩ := wholeMid_ok hselected
    exact ⟨aligned, haligned⟩
  have hagain : ∀ {selected}, wholeMid provider.providerKind n object = .ok selected →
      ∃ framed, sliceFrom object aligned = .ok framed ∧
        rejectBinaryPrefix framed provider.providerKind .midLines = .ok () ∧
        parseLinesUpTo provider.providerKind .midLines framed aligned true n = .ok selected := by
    intro selected hselected
    obtain ⟨other, framed, hother, hchecks⟩ := wholeMid_ok hselected
    obtain rfl : aligned = other := Except.ok.inj (haligned.symm.trans hother)
    exact ⟨framed, hchecks⟩
  refine delivers_ofExcept (fun hs => ?_) fun framed hframed => ?_
  · obtain ⟨-, -, -, selected, hselected⟩ := hsteady hs
    obtain ⟨framed, hframed, -⟩ := hagain hselected
    exact ⟨framed, hframed⟩
  obtain ⟨hinside, rfl⟩ := sliceFrom_ok hframed
  refine delivers_orRaise (fun hs => ?_) fun _ haccepted => ?_
  · obtain ⟨-, -, -, selected, hselected⟩ := hsteady hs
    obtain ⟨framed, hsame, haccepted, -⟩ := hagain hselected
    obtain ⟨-, rfl⟩ := sliceFrom_ok hsame
    exact ⟨(), haccepted⟩
  have hbounds := inBounds hfits
  rw [addU64_of_lt (by omega), Nat.zero_add, Script.ofExcept_ok_bind]
  refine delivers_ofExcept (fun hs => ?_) fun selected hparse => ?_
  · obtain ⟨-, -, -, selected, hselected⟩ := hsteady hs
    obtain ⟨framed, hsame, -, hparse⟩ := hagain hselected
    obtain ⟨-, rfl⟩ := sliceFrom_ok hsame
    exact ⟨selected, hparse⟩
  rw [if_neg fun h => h.2 rfl]
  refine (delivers_reportLines fun hs => (hroom₂ hs).output ?_).mono fun result _ _ hresult => ?_
  · have htexts := parseLinesUpTo_textBytes_le (by rw [List.length_drop]; omega) hparse
    rw [List.length_drop] at htexts
    omega
  · refine ⟨hfits, selected, _, ?_, hresult⟩
    rw [wholeMid, haligned]
    simp only [bind, Except.bind]
    rw [hframed]
    simp only [haccepted, Except.mapError]
    exact hparse

/-! ## Opening and probing -/

/-- What the call has shown when it returns, in either mode: its arguments are accepted,
and the object fits and passes the checks of its probe and of its lines. -/
structure Streams (object : List UInt8) (provider : StorageProvider) (key : String)
    (operation : StorageOperation) (n : Nat) (options : LineOptions)
    (whole : List UInt8 → Except Failure (List ParsedLine)) : Prop where
  readable : Readable provider key
  accepted : ∃ budget, lineBudget operation n options = .ok budget
  fits : object.length ≤ 1024 * 1024
  probe : rejectBinaryPrefix (object.take options.probeSize) provider.providerKind operation =
    .ok ()
  lines : ∃ selected, whole object = .ok selected

/-- A call is opened and probed, and then reads its one window. -/
theorem delivers_oneWindow {operation : StorageOperation} {options : LineOptions}
    {whole : List UInt8 → Except Failure (List ParsedLine)} {strategy : ReadStrategy}
    {state : Option InspectionLedger} {window : GuardedReadSelection → Nat → Inspect LineResult}
    (hempty : whole [] = .ok [])
    (hsteady : steady → within = some InspectionBudget.default.wallTime ∧
      Streams object provider key operation n options whole)
    (hwindow : ∀ selection ledger outer, DefaultLimits ledger.budget → 0 < object.length →
      1 ≤ n →
      (steady → within.isSome ∧ HasRoom ledger 3 (1024 * 1024) ∧ object.length ≤ 1024 * 1024 ∧
        ∃ selected, whole object = .ok selected) →
      Delivers object True within steady (window selection object.length)
        (fun result _ _ => ReportsWhole object whole result) ledger outer) :
    Delivers object True within steady
      (orRaise (lineBudget operation n options) >>= fun budget =>
        inspectSource provider key operation budget fun selection =>
          selectedSize selection >>= fun size =>
            if size = 0 then pure (emptyResult strategy 0)
            else lineProbe selection size >>= fun _ => window selection size)
      (fun result _ _ => Streams object provider key operation n options whole ∧
        ReportsWhole object whole result) state outer := by
  refine delivers_lineBudget (fun hs => (hsteady hs).2.accepted)
    fun budget hbudget hlimits hn hwall hprobe => ?_
  refine delivers_inspectSource
    (fun hs => ⟨hwall ▸ (hsteady hs).1, hlimits, (hsteady hs).2.readable⟩) ?_
  intro selection ledger outer hsame hadmitted hkind hoperation hreadable hroom
  -- what is known when the lines have been reported
  have hshown : ∀ {result}, rejectBinaryPrefix (object.take ledger.budget.probeSize)
      ledger.provider ledger.operation = .ok () → ReportsWhole object whole result →
      Streams object provider key operation n options whole ∧ ReportsWhole object whole result := by
    intro result haccepted hwhole
    rw [hsame, hprobe, hkind, hoperation] at haccepted
    refine ⟨⟨hreadable, ⟨budget, hbudget⟩, hwhole.1, haccepted, ?_⟩, hwhole⟩
    obtain ⟨-, selected, -, hselected, -⟩ := hwhole
    exact ⟨selected, hselected⟩
  have hready : steady → within.isSome := fun hs => by
    rw [(hsteady hs).1]
    rfl
  refine delivers_probed (hsame ▸ hadmitted) ?_ (fun hs => ⟨hready hs, hroom hs, ?_⟩) ?_
  · rintro rfl
    refine hshown ?_ ⟨Nat.zero_le _, [], strategy, hempty, rfl⟩
    rw [List.take_nil]
    rfl
  · rw [hsame, hprobe, hkind, hoperation]
    exact (hsteady hs).2.probe
  · intro length receipt ledger₂ outer₂ hpos hsame₂ _ _ haccepted hroom₂
    have hlimits₂ : DefaultLimits ledger₂.budget := by
      rw [hsame₂, hsame]
      exact hlimits
    refine (hwindow selection ledger₂ outer₂ hlimits₂ hpos hn fun hs => ?_).mono
      fun result _ _ hwhole => hshown haccepted hwhole
    exact ⟨hready hs, hroom₂ hs, (hsteady hs).2.fits, (hsteady hs).2.lines⟩

/-! ## Every call -/

variable {options : LineOptions} {state : Option InspectionLedger}

theorem delivers_tailLinesWithOptions (hplain : ¬ isCompressedKey key)
    (hmode : options.forceStream = false → object.length ≤ 1024 * 1024)
    (hsteady : steady → within = some InspectionBudget.default.wallTime ∧
      Streams object provider key .tailLines n options (wholeTail provider.providerKind n)) :
    Delivers object True within steady (tailLinesWithOptions provider key n options)
      (fun result _ _ =>
        Streams object provider key .tailLines n options (wholeTail provider.providerKind n) ∧
        ReportsWhole object (wholeTail provider.providerKind n) result) state outer := by
  rw [tailLinesWithOptions, if_neg fun hcompressed => hplain hcompressed.1]
  exact delivers_oneWindow (wholeTail_nil _ n) hsteady
    fun selection ledger outer hlimits hpos hn hready =>
      delivers_tailWindow hlimits hpos hn hmode hready

theorem delivers_midLinesWithOptions (hplain : ¬ isCompressedKey key)
    (hmode : options.forceStream = false → object.length ≤ 1024 * 1024)
    (hsteady : steady → within = some InspectionBudget.default.wallTime ∧
      Streams object provider key .midLines n options (wholeMid provider.providerKind n)) :
    Delivers object True within steady (midLinesWithOptions provider key n options)
      (fun result _ _ =>
        Streams object provider key .midLines n options (wholeMid provider.providerKind n) ∧
        ReportsWhole object (wholeMid provider.providerKind n) result) state outer := by
  rw [midLinesWithOptions, if_neg fun hcompressed => hplain hcompressed.1]
  exact delivers_oneWindow (wholeMid_nil _ n) hsteady
    fun selection ledger outer hlimits hpos hn hready =>
      delivers_midWindow hlimits hpos hmode hready

/-- What a call has shown does not depend on its mode. -/
theorem Streams.unforced {operation : StorageOperation}
    {whole : List UInt8 → Except Failure (List ParsedLine)}
    (h : Streams object provider key operation n { options with forceStream := true } whole) :
    Streams object provider key operation n { options with forceStream := false } whole :=
  ⟨h.readable, h.accepted, h.fits, h.probe, h.lines⟩

/-- Two reports of one reading differ at most in the strategy they name. -/
theorem ReportsWhole.agree {whole : List UInt8 → Except Failure (List ParsedLine)}
    {result other : LineResult} (h : ReportsWhole object whole result)
    (hother : ReportsWhole object whole other) :
    other = { result with strategy := other.strategy } := by
  obtain ⟨-, selected, strategy, hselected, rfl⟩ := h
  obtain ⟨-, selected', strategy', hselected', rfl⟩ := hother
  obtain rfl : selected = selected' := Except.ok.inj (hselected.symm.trans hselected')
  unfold buildLineResult
  split <;> rfl

/-- A forced call that returned settles what the same call returns without force. -/
theorem agrees_of_delivers {operation : StorageOperation}
    {whole : List UInt8 → Except Failure (List ParsedLine)}
    {call : LineOptions → Session LineResult} {start : Serving} {transcript : Transcript}
    {result : LineResult}
    (hcall : ∀ {within : Option Duration} {steady : Prop} (options : LineOptions) (start : Serving),
      (options.forceStream = false → object.length ≤ 1024 * 1024) →
      (steady → within = some InspectionBudget.default.wallTime ∧
        Streams object provider key operation n options whole) →
      Delivers object True within steady (call options)
        (fun result _ _ => Streams object provider key operation n options whole ∧
          ReportsWhole object whole result) none start)
    (hrun : Run (serves object within) start (call { options with forceStream := true }) transcript
      (.ok result)) :
    object.length ≤ InspectionBudget.default.pendingLineBytes ∧
    (∃ start transcript ranged,
      Run (serves object (some InspectionBudget.default.wallTime)) start
        (call { options with forceStream := false }) transcript ranged) ∧
    ∀ start transcript ranged,
      Run (serves object (some InspectionBudget.default.wallTime)) start
        (call { options with forceStream := false }) transcript ranged →
      ∃ other, ranged = .ok other ∧ other = { result with strategy := other.strategy } := by
  have hwall : ∀ wall ∈ some InspectionBudget.default.wallTime, wall.nanos < instantBound := by
    intro wall h
    exact Option.some.inj h ▸ (by decide)
  have hforced : Delivers object True within False (call { options with forceStream := true }) _
      none start := hcall _ start nofun False.elim
  -- the forced run shows what the ranged one needs in order not to fail
  obtain ⟨hstreams, hreports⟩ := hforced.of_run hrun
  have hfits : object.length < u64Bound := Nat.lt_of_le_of_lt hstreams.fits (by decide)
  refine ⟨hstreams.fits, ⟨_, _, _, run_reference hfits hwall rfl⟩, ?_⟩
  intro start' transcript' ranged hranged
  obtain ⟨other, rfl, -, hother⟩ := (hcall _ start' (fun _ => hstreams.fits)
    fun _ => ⟨rfl, hstreams.unforced⟩).of_steady_run trivial hranged
  exact ⟨other, rfl, hreports.agree hother⟩

/-- The tail and midpoint operations, which a caller may force to stream. -/
def ReadsOneWindow
    (operation : StorageProvider → String → Nat → LineOptions → Session LineResult) : Prop :=
  operation = tailLinesWithOptions ∨ operation = midLinesWithOptions

/-- When a forced call returns, the object fits in the pending-line budget, and the same
call without force returns too, whenever its calls are answered in time: with the same
lines, offsets, size and terminators, and only another strategy. -/
theorem forced_agrees
    {operation : StorageProvider → String → Nat → LineOptions → Session LineResult}
    {start : Serving} {transcript : Transcript} {result : LineResult}
    (hoperation : ReadsOneWindow operation) (hplain : ¬ isCompressedKey key)
    (hrun : Run (serves object within) start
      (operation provider key n { options with forceStream := true }) transcript (.ok result)) :
    object.length ≤ InspectionBudget.default.pendingLineBytes ∧
    (∃ start transcript ranged,
      Run (serves object (some InspectionBudget.default.wallTime)) start
        (operation provider key n { options with forceStream := false }) transcript ranged) ∧
    ∀ start transcript ranged,
      Run (serves object (some InspectionBudget.default.wallTime)) start
        (operation provider key n { options with forceStream := false }) transcript ranged →
      ∃ other, ranged = .ok other ∧ other = { result with strategy := other.strategy } := by
  rcases hoperation with rfl | rfl
  · exact agrees_of_delivers (fun options start => delivers_tailLinesWithOptions hplain) hrun
  · exact agrees_of_delivers (fun options start => delivers_midLinesWithOptions hplain) hrun

/-- The last line of `a CRLF b CR c`, forced and then ranged. -/
theorem forced_agrees_mixed :
    mixedObject.length ≤ InspectionBudget.default.pendingLineBytes ∧
    (∃ start transcript ranged,
      Run (serves mixedObject (some InspectionBudget.default.wallTime)) start
        (tailLinesWithOptions guardedProvider "log.txt" 1 .default) transcript ranged) ∧
    ∀ start transcript ranged,
      Run (serves mixedObject (some InspectionBudget.default.wallTime)) start
        (tailLinesWithOptions guardedProvider "log.txt" 1 .default) transcript ranged →
      ∃ other, ranged = .ok other ∧ other = {
        lines := [⟨[0x63], by decide⟩]
        byteOffsetStart := 5
        byteOffsetEnd := 6
        totalSize := 6
        strategy := other.strategy
        lineEnding := .unknown } := by
  have hrun : Run (serves mixedObject none) ⟨fun _ => []⟩
      (tailLinesWithOptions guardedProvider "log.txt" 1
        { LineOptions.default with forceStream := true }) _
      (.ok ⟨[⟨[0x63], by decide⟩], 5, 6, 6, .forwardStream, .unknown⟩) :=
    run_reference mixedObject_lt (by simp) (by decide +kernel)
  -- the instance is fixed before its statement meets the goal
  have hagrees := forced_agrees (.inl rfl) (by decide) hrun
  exact hagrees

end Storageprims

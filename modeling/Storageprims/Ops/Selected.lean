import Storageprims.Ops.Calls

/-!
# One observation, then one selection

The requests a finished operation has made: the clock, one observation, and from
then on nothing but guarded reads of the selection that observation binds, their
bodies and the clock.
-/

namespace Storageprims

open Interaction InspectionLedger

/-- The clock. -/
def Request.IsClock (request : Request) : Prop := request = .now

theorem isClock_now : Request.IsClock .now := rfl

/-- A request an operation may make once it has bound `selection`. -/
def Request.Carries (selection : GuardedReadSelection) : Request → Prop
  | .now => True
  | .read _ _ => True
  | .guardedHead other => other = selection
  | .guardedGetRange range => range.selection = selection
  | .observeSource _ | .guardedGet _ | .head _ | .get _ | .getRange _ => False

/-- A script that makes only requests of one kind. -/
abbrev Asks {S α : Type} (allowed : Request → Prop) (script : Script Step Reply S Failure α) :
    Prop :=
  Script.Uses (fun step => allowed step.request) script

section

variable {S α : Type} {allowed : Request → Prop}

theorem asks_issue {request : Request} (h : allowed request) : Asks allowed (issue request) :=
  fun _ => ⟨h, fun _ => trivial⟩

theorem asks_raise (error : StorageError) :
    Asks allowed (raise error : Script Step Reply S Failure α) := fun _ => trivial

theorem asks_orRaise (result : Except StorageError α) :
    Asks allowed (orRaise result : Script Step Reply S Failure α) := by
  cases result with
  | ok value => exact fun _ => trivial
  | error error => exact fun _ => trivial

theorem asks_inTime (answer : Awaited α) : Asks allowed (inTime answer) := by
  cases answer with
  | elapsed => exact fun _ => trivial
  | ready value => exact fun _ => trivial

theorem asks_settle (answer : Awaited (Except StorageError α)) :
    Asks allowed (settle answer) :=
  (asks_inTime answer).bind fun result => asks_orRaise result

variable (hclock : allowed .now)
include hclock

theorem asks_checkDeadline : Asks allowed checkDeadline := by
  refine Script.uses_read.bind fun ledger => (asks_issue hclock).bind fun now => ?_
  split
  · exact asks_raise _
  · exact Script.uses_pure _

theorem asks_request : Asks allowed InspectionLedger.request := by
  refine (asks_checkDeadline hclock).bind fun _ => Script.uses_read.bind fun ledger => ?_
  dsimp only
  split
  · exact asks_raise _
  split
  · exact asks_raise _
  · exact Script.uses_write _

theorem asks_admitPayload (bytes : Nat) : Asks allowed (admitPayload bytes) := by
  refine (asks_checkDeadline hclock).bind fun _ => Script.uses_read.bind fun ledger => ?_
  split
  · exact asks_raise _
  split
  · exact asks_raise _
  · exact Script.uses_write _

theorem asks_new (provider : ProviderKind) (operation : StorageOperation)
    (budget : InspectionBudget) :
    Asks allowed (InspectionLedger.new provider operation budget) := by
  refine (asks_orRaise _).bind fun _ => Script.Uses.bind (fun _ => ⟨hclock, fun _ => trivial⟩)
    fun now => ?_
  split
  · exact asks_raise _
  · exact Script.uses_pure _

theorem asks_previewLedger (provider : ProviderKind) (length : Nat) (budget : InspectionBudget) :
    Asks allowed (previewLedger provider length budget) := by
  rw [previewLedger]
  split
  · exact asks_raise _
  · exact (asks_new hclock _ _ _).bind fun _ => (asks_orRaise _).bind fun _ => Script.uses_pure _

end

theorem asks_admitOutput {allowed : Request → Prop} (bytes : Nat) :
    Asks allowed (admitOutput bytes) := by
  refine Script.uses_read.bind fun ledger => ?_
  split
  · exact asks_raise _
  split
  · exact asks_raise _
  · exact Script.uses_write _

/-! ## Behind the observation -/

variable {selection : GuardedReadSelection}

theorem asks_readChunk (reader : ReaderId) (capacity : Nat) :
    Asks (Request.Carries selection) (readChunk reader capacity) := by
  refine Script.Uses.bind (asks_issue trivial) fun answer => (asks_inTime _).bind fun answer' => ?_
  exact Script.uses_read.bind fun ledger => (asks_orRaise _).bind fun chunk => Script.uses_pure _

theorem asks_readWindow (reader : ReaderId) (capacity scratchLen rounds : Nat)
    (bytes : List UInt8) :
    Asks (Request.Carries selection) (readWindow reader capacity scratchLen rounds bytes) := by
  induction rounds generalizing bytes with
  | zero => exact Script.uses_pure _
  | succ rounds ih =>
      rw [readWindow]
      split
      · refine (asks_checkDeadline trivial).bind fun _ => ?_
        refine (Script.uses_ofExcept _).bind fun room => ?_
        refine (Script.uses_ofExcept _).bind fun _ => (asks_readChunk _ _).bind fun chunk => ?_
        refine Script.uses_read.bind fun ledger => ?_
        split
        · exact asks_raise _
        · exact (Script.uses_ofExcept _).bind fun _ => ih _
      · exact Script.uses_pure _

theorem asks_readValidated (reader : ReaderId) (returnedLength : Nat) :
    Asks (Request.Carries selection) (readValidated reader returnedLength) := by
  refine Script.uses_read.bind fun ledger => ?_
  split
  · exact asks_raise _
  · refine (asks_readWindow _ _ _ _ _).bind fun bytes => (asks_readChunk _ _).bind fun extra => ?_
    split
    · exact asks_raise _
    · exact Script.uses_pure _

theorem asks_guardedRangeBytes (offset length : Nat) :
    Asks (Request.Carries selection) (guardedRangeBytes selection offset length) := by
  refine Script.uses_read.bind fun ledger => ?_
  split
  · exact Script.uses_pure _
  split
  · exact asks_raise _
  · refine (asks_admitPayload trivial _).bind fun _ => (asks_request trivial).bind fun _ => ?_
    refine Script.Uses.bind (asks_issue rfl) fun answer => (asks_settle _).bind fun response => ?_
    refine (Script.uses_ofExcept _).bind fun returned => ?_
    refine (asks_readValidated _ _).bind fun bytes => ?_
    exact Script.Uses.bind (Script.uses_read.bind fun _ => Script.uses_write _) fun _ =>
      Script.uses_pure _

theorem asks_selectedSize : Asks (Request.Carries selection) (selectedSize selection) := by
  refine (asks_request trivial).bind fun _ => Script.Uses.bind (asks_issue rfl) fun answer => ?_
  refine (asks_settle _).bind fun receipt => Script.uses_read.bind fun ledger => ?_
  split
  · exact Script.uses_pure _
  · exact asks_raise _

theorem asks_lineProbe (size : Nat) :
    Asks (Request.Carries selection) (lineProbe selection size) := by
  refine Script.uses_read.bind fun ledger => (asks_guardedRangeBytes _ _).bind fun out => ?_
  exact (asks_orRaise _).bind fun _ => Script.uses_pure _

theorem asks_reportLines (lines : List ParsedLine) (size : Nat) (strategy : ReadStrategy) :
    Asks (Request.Carries selection) (reportLines lines size strategy) := by
  refine Script.Uses.bind (Script.uses_read.bind fun ledger => ?_) fun _ => Script.uses_pure _
  split
  · exact asks_raise _
  · exact asks_admitOutput _

variable (provider : StorageProvider)

theorem asks_headWindow (size n : Nat) :
    Asks (Request.Carries selection) (headWindow provider selection size n) := by
  refine Script.uses_read.bind fun ledger => (asks_guardedRangeBytes _ _).bind fun out => ?_
  refine (asks_orRaise _).bind fun _ => (Script.uses_ofExcept _).bind fun selected => ?_
  refine Script.uses_read.bind fun ledger' => ?_
  split
  · exact asks_raise _
  · exact asks_reportLines _ _ _

theorem asks_headSelection (n : Nat) :
    Asks (Request.Carries selection) (headSelection provider selection n) := by
  refine asks_selectedSize.bind fun size => ?_
  split
  · exact Script.uses_pure _
  refine (asks_lineProbe _).bind fun out => (Script.uses_ofExcept _).bind fun selected => ?_
  split
  · exact asks_reportLines _ _ _
  · exact asks_headWindow provider _ _

theorem asks_previousByteOf (start : Nat) :
    Asks (Request.Carries selection) (previousByteOf selection start) := by
  rw [previousByteOf]
  split
  · exact Script.uses_pure _
  · exact (Script.uses_ofExcept _).bind fun offset =>
      (asks_guardedRangeBytes _ _).bind fun out => Script.uses_pure _

theorem asks_tailWindow (size n : Nat) (forceStream : Bool) :
    Asks (Request.Carries selection) (tailWindow provider selection size n forceStream) := by
  refine Script.uses_read.bind fun ledger => (Script.uses_ofExcept _).bind fun start => ?_
  refine (asks_previousByteOf _).bind fun previous => ?_
  refine (asks_guardedRangeBytes _ _).bind fun out => ?_
  refine (Script.uses_ofExcept _).bind fun aligned => ?_
  refine (Script.uses_ofExcept _).bind fun framed => (asks_orRaise _).bind fun _ => ?_
  refine Script.uses_read.bind fun ledger' => ?_
  split
  · exact asks_raise _
  refine (Script.uses_ofExcept _).bind fun base => (Script.uses_ofExcept _).bind fun selected => ?_
  split
  · exact asks_raise _
  · exact asks_reportLines _ _ _

theorem asks_tailSelection (n : Nat) (forceStream : Bool) :
    Asks (Request.Carries selection) (tailSelection provider selection n forceStream) := by
  refine asks_selectedSize.bind fun size => ?_
  split
  · exact Script.uses_pure _
  · exact (asks_lineProbe _).bind fun _ => asks_tailWindow provider _ _ _

theorem asks_midWindow (size n : Nat) (forceStream : Bool) :
    Asks (Request.Carries selection) (midWindow provider selection size n forceStream) := by
  refine Script.uses_read.bind fun ledger => (Script.uses_ofExcept _).bind fun requested => ?_
  refine (asks_guardedRangeBytes _ _).bind fun out => Script.uses_read.bind fun ledger' => ?_
  split
  · exact asks_raise _
  refine (Script.uses_ofExcept _).bind fun k => (Script.uses_ofExcept _).bind fun aligned => ?_
  refine (Script.uses_ofExcept _).bind fun framed => ?_
  refine (asks_orRaise _).bind fun _ => (Script.uses_ofExcept _).bind fun base => ?_
  refine (Script.uses_ofExcept _).bind fun selected => ?_
  split
  · exact asks_raise _
  · exact asks_reportLines _ _ _

theorem asks_midSelection (n : Nat) (forceStream : Bool) :
    Asks (Request.Carries selection) (midSelection provider selection n forceStream) := by
  refine asks_selectedSize.bind fun size => ?_
  split
  · exact Script.uses_pure _
  · exact (asks_lineProbe _).bind fun _ => asks_midWindow provider _ _ _

theorem asks_countSelection :
    Asks (Request.Carries selection) (countSelection provider selection) := by
  refine asks_selectedSize.bind fun size => Script.uses_read.bind fun ledger => ?_
  dsimp only
  split
  · exact Script.uses_pure _
  split
  · exact asks_raise _
  split
  · exact asks_raise _
  refine (asks_lineProbe _).bind fun _ => (asks_guardedRangeBytes _ _).bind fun out => ?_
  refine Script.uses_read.bind fun ledger' => ?_
  split
  · exact asks_raise _
  · exact (asks_orRaise _).bind fun _ => Script.uses_ofExcept _

theorem asks_previewSelection (length : Nat) :
    Asks (Request.Carries selection) (previewSelection selection length) := by
  refine (asks_request trivial).bind fun _ => Script.Uses.bind (asks_issue rfl) fun answer => ?_
  refine (asks_settle _).bind fun receipt => Script.uses_read.bind fun ledger => ?_
  split
  · exact Script.uses_pure _
  refine (asks_guardedRangeBytes _ _).bind fun out => (asks_admitOutput _).bind fun _ => ?_
  refine Script.uses_read.bind fun ledger' => ?_
  split
  · exact Script.uses_pure _
  · exact Script.uses_fail _

/-! ## Up to the observation -/

/-- How the transcript of a finished operation divides at its one observation. -/
structure Observed (key : String) (transcript : Transcript) where
  before : Transcript
  ledger : Option InspectionLedger
  observation : SourceObservation
  after : Transcript
  selection : GuardedReadSelection
  split : transcript =
    before ++ ⟨⟨ledger, .observeSource key⟩, .ready (.ok observation)⟩ :: after
  before_clock : ∀ event ∈ before, event.request.request.IsClock
  key_eq : selection.key = key
  selector_eq : observedSelector observation.receipt = some selection.selector
  after_carries : ∀ event ∈ after, event.request.request.Carries selection

/-- A script that, unless it fails, leaves a history in `ok`. -/
abbrev Leaves {S α : Type} (script : Script Step Reply S Failure α)
    (ok : α → Transcript → Prop) (state : S) (past : Transcript) : Prop :=
  Script.Ensures history (fun _ => True) script (fun value _ now => ok value now)
    (fun _ _ _ => True) state past

/-- A history that has just observed `key` and bound `selection`. -/
def Binds (key : String) (selection : GuardedReadSelection) (now : Transcript) : Prop :=
  ∃ observed : Observed key now, observed.selection = selection ∧ observed.after = []

variable {S α : Type} {state : S} {past : Transcript} {ledger : InspectionLedger}
variable {key : String}

theorem leaves_of_uses {allowed : Step → Prop} {script : Script Step Reply S Failure α}
    (h : Script.Uses allowed script) :
    Leaves script (fun _ now => Extends allowed past now) state past :=
  Script.Ensures.mono (h.ensures state past) (fun _ _ _ _ hextends => hextends)
    fun _ _ _ _ _ => trivial

theorem leaves_orRaise {β : Type} {result : Except StorageError α}
    {next : α → Script Step Reply S Failure β} {ok : β → Transcript → Prop}
    (h : ∀ value, result = .ok value → Leaves (next value) ok state past) :
    Leaves (orRaise result >>= next) ok state past :=
  ensures_bind_orRaise (fun _ _ => ⟨trivial, trivial⟩) h

/-- The clock alone stays the clock alone. -/
theorem isClock_of_extends {past now : Transcript}
    (hpast : ∀ event ∈ past, event.request.request.IsClock)
    (h : Extends (fun step => step.request.IsClock) past now) :
    ∀ event ∈ now, event.request.request.IsClock := by
  obtain ⟨extra, rfl, hextra⟩ := h
  intro event hevent
  rcases List.mem_append.mp hevent with hold | hnew
  · exact hpast event hold
  · exact hextra event hnew

theorem leaves_observeAndBind {guarded : GuardedReadProvider}
    (hpast : ∀ event ∈ past, event.request.request.IsClock) :
    Leaves (observeAndBind guarded key) (fun out now => Binds key out.1 now) ledger past := by
  refine Script.Ensures.bind (leaves_of_uses (asks_request isClock_now)) ?_
  intro _ ledger₁ now₁ _ hextends
  refine ensures_bind_issue.mpr ⟨trivial, ?_⟩
  rintro answer now₂ rfl
  rcases answer with _ | (error | observation)
  · exact ⟨trivial, trivial⟩
  · exact ⟨trivial, trivial⟩
  show Leaves (Script.read >>= _) _ _ _
  refine Script.ensures_bind_read.mpr (Script.ensures_bind_read.mpr ?_)
  cases hselector : observedSelector observation.receipt with
  | none => exact ⟨trivial, trivial⟩
  | some selector =>
      refine leaves_orRaise fun selection hbind => ⟨trivial, ?_⟩
      obtain ⟨-, hkey, hsame⟩ := GuardedReadSelection.bind_ok hbind
      exact ⟨⟨now₁, _, observation, [], selection, rfl, isClock_of_extends hpast hextends, hkey,
        hsame ▸ hselector, by simp⟩, rfl, rfl⟩

/-- From a bound selection on, a body that only carries it completes the division. -/
theorem Binds.observed {selection : GuardedReadSelection} {now : Transcript}
    (h : Binds key selection past)
    (hextends : Extends (fun step => step.request.Carries selection) past now) :
    Nonempty (Observed key now) := by
  obtain ⟨observed, rfl, hafter⟩ := h
  obtain ⟨extra, rfl, hextra⟩ := hextends
  have hsplit := congrArg (· ++ extra) observed.split
  simp only [hafter, List.append_assoc, List.cons_append, List.nil_append] at hsplit
  exact ⟨⟨observed.before, observed.ledger, observed.observation, extra, observed.selection,
    hsplit, observed.before_clock, observed.key_eq, observed.selector_eq, hextra⟩⟩

/-- A ledger, one observation, and a body on the selection it binds. -/
theorem leaves_selection {provider : StorageProvider} {operation : StorageOperation}
    {body : GuardedReadSelection → Inspect α} {state : Option InspectionLedger}
    (hbody : ∀ selection, Asks (Request.Carries selection) (body selection))
    (hpast : ∀ event ∈ past, event.request.request.IsClock) :
    Leaves (withLedger ledger do
        let guarded ← orRaise (requireGuardedReads provider operation)
        let (selection, _) ← observeAndBind guarded key
        body selection) (fun _ now => Nonempty (Observed key now)) state past := by
  refine ensures_withLedger (leaves_orRaise fun guarded _ => ?_)
  refine Script.Ensures.bind (leaves_observeAndBind hpast) ?_
  rintro ⟨selection, receipt⟩ ledger₁ now₁ - hbinds
  exact Script.Ensures.mono (leaves_of_uses (hbody selection))
    (fun _ _ _ _ hextends => hbinds.observed hextends) fun _ _ _ _ h => h

theorem leaves_inspectSource {provider : StorageProvider} {operation : StorageOperation}
    {budget : InspectionBudget} {body : GuardedReadSelection → Inspect α}
    (hbody : ∀ selection, Asks (Request.Carries selection) (body selection)) :
    Leaves (inspectSource provider key operation budget body)
      (fun _ now => Nonempty (Observed key now)) none [] := by
  refine Script.Ensures.bind (leaves_of_uses (asks_new isClock_now _ _ _)) ?_
  intro ledger state now _ hextends
  exact leaves_selection hbody (isClock_of_extends (by simp) hextends)

/-! ## Operations -/

theorem Leaves.map {β : Type} {session : Session α} {f : α → β} {ok : Transcript → Prop}
    {state : Option InspectionLedger} (h : Leaves session (fun _ now => ok now) state past) :
    Leaves (do return f (← session)) (fun _ now => ok now) state past :=
  Script.Ensures.bind h fun _ _ _ _ hok => ⟨trivial, hok⟩

theorem Call.leaves {call : Call} (hkey : call.key = some key) :
    Leaves call.session (fun _ now => Nonempty (Observed key now)) none [] := by
  cases call with
  | previewBytes provider key' length budget =>
      obtain rfl := Option.some.inj hkey
      refine Leaves.map (Script.Ensures.bind
        (leaves_of_uses (asks_previewLedger isClock_now _ _ _)) ?_)
      intro ledger state now _ hextends
      exact leaves_selection (fun _ => asks_previewSelection _)
        (isClock_of_extends (by simp) hextends)
  | previewBytesSelected providerKind selection length budget => cases hkey
  | headLines provider key' n options =>
      obtain rfl := Option.some.inj hkey
      exact Leaves.map (leaves_orRaise fun budget _ =>
        leaves_inspectSource fun _ => asks_headSelection provider _)
  | tailLines provider key' n options =>
      obtain rfl := Option.some.inj hkey
      refine Leaves.map ?_
      rw [tailLinesWithOptions]
      split
      · exact ⟨trivial, trivial⟩
      · exact leaves_orRaise fun budget _ =>
          leaves_inspectSource fun _ => asks_tailSelection provider _ _
  | midLines provider key' n options =>
      obtain rfl := Option.some.inj hkey
      refine Leaves.map ?_
      rw [midLinesWithOptions]
      split
      · exact ⟨trivial, trivial⟩
      · exact leaves_orRaise fun budget _ =>
          leaves_inspectSource fun _ => asks_midSelection provider _ _
  | countLines provider key' =>
      obtain rfl := Option.some.inj hkey
      exact Leaves.map (leaves_inspectSource fun _ => asks_countSelection provider)

/-- Every finished call that binds its own selection has observed its key once. -/
theorem Call.observed {call : Call} {transcript : Transcript} {answer : Answer}
    {final : Option InspectionLedger} (hkey : call.key = some key)
    (htrace : Trace (call.session none) transcript (.ret (.ok answer, final))) :
    Nonempty (Observed key transcript) :=
  Program.Ensures.of_finished (Call.leaves hkey) htrace (accepts_history [] transcript)

end Storageprims

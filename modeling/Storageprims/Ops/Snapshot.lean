import Mathlib.Logic.Function.Basic
import Mathlib.Logic.Relation
import Storageprims.Ops.LinesExact
import Storageprims.Ops.PreviewFulfilled
import Storageprims.Ops.Selected

/-!
# Snapshot consistency

A store other clients write to between any two requests, and a guarded provider
that enforces selections.  Every finished operation has seen one version only,
the one it observed: its transcript is also a run against a provider that holds
nothing else.  A receipt need not state the total size of its source.
-/

namespace Storageprims

open Interaction
open Lines (split)

/-- One content an object has had, with the names a provider gives it. -/
structure Version where
  native : Option String
  validator : Option String
  bytes : List UInt8
  bytes_lt : bytes.length < u64Bound

/-- A receipt carries the names of this version. -/
def Version.Names (version : Version) (receipt : SourceReceipt) : Prop :=
  receipt.nativeVersion = version.native ∧ receipt.validator = version.validator

/-- The versions ever written under each key, the current ones, and the bodies
in transit.  A native version, and likewise a validator, names one content. -/
structure Store where
  written : String → List Version
  current : String → Option Version
  serving : Serving
  current_written : ∀ key, ∀ version ∈ current key, version ∈ written key
  native_names : ∀ key, ∀ first ∈ written key, ∀ second ∈ written key,
    first.native.isSome → first.native = second.native → first.bytes = second.bytes
  validator_names : ∀ key, ∀ first ∈ written key, ∀ second ∈ written key,
    first.validator.isSome → first.validator = second.validator → first.bytes = second.bytes

/-- What another client can do: put a version, or delete the object. -/
inductive Store.Writes : Store → Store → Prop
  | put (before after : Store) (key : String) (version : Version)
      (hwritten : after.written =
        Function.update before.written key (version :: before.written key))
      (hcurrent : after.current = Function.update before.current key (some version))
      (hserving : after.serving = before.serving) : Writes before after
  | delete (before after : Store) (key : String)
      (hwritten : after.written = before.written)
      (hcurrent : after.current = Function.update before.current key none)
      (hserving : after.serving = before.serving) : Writes before after

/-- The version a selection may be answered from: the one of that native version,
or the current one if it has that validator. -/
def Store.Enforces (store : Store) (selection : GuardedReadSelection) (version : Version) : Prop :=
  match selection.selector with
  | .nativeVersion token =>
      version ∈ store.written selection.key ∧ version.native = some token
  | .validatorMatch token =>
      store.current selection.key = some version ∧ version.validator = some token

def Store.withServing (store : Store) (serving : Serving) : Store :=
  { store with serving := serving }

/-- What a store keeps of the versions of one key. -/
structure Keeps (written : List Version) (current : Option Version) : Prop where
  current_written : ∀ version ∈ current, version ∈ written
  native_names : ∀ first ∈ written, ∀ second ∈ written,
    first.native.isSome → first.native = second.native → first.bytes = second.bytes
  validator_names : ∀ first ∈ written, ∀ second ∈ written,
    first.validator.isSome → first.validator = second.validator → first.bytes = second.bytes

theorem Store.keeps (store : Store) (key : String) :
    Keeps (store.written key) (store.current key) :=
  ⟨store.current_written key, store.native_names key, store.validator_names key⟩

/-- A store with other versions of one key, which may be any that a store keeps. -/
def Store.replace (store : Store) (key : String) (written : List Version)
    (current : Option Version) (serving : Serving) (hkeeps : Keeps written current) : Store :=
  have hall : ∀ other, Keeps (Function.update store.written key written other)
      (Function.update store.current key current other) := by
    intro other
    by_cases hkey : other = key
    · subst hkey
      rwa [Function.update_self, Function.update_self]
    · rw [Function.update_of_ne hkey, Function.update_of_ne hkey]
      exact store.keeps other
  { written := Function.update store.written key written
    current := Function.update store.current key current
    serving := serving
    current_written := fun other => (hall other).current_written
    native_names := fun other => (hall other).native_names
    validator_names := fun other => (hall other).validator_names }

/-- The answers of the guarded provider, from the store as it stands.  Any call may
fail or run into the deadline, a receipt may leave the total size open, and a body
arrives in pieces of any size. -/
def Store.answers : Environment Step Reply Store := fun store step reply store' =>
  match step, reply with
  | ⟨_, .now⟩, _ => store' = store
  | ⟨_, .read reader capacity⟩, answer =>
      (∃ (chunk : Chunk capacity) (rest : List UInt8), answer = .ready (.ok chunk) ∧
        store.serving.bodies reader = chunk.val ++ rest ∧
        (chunk.val = [] → 0 < capacity → rest = []) ∧
        store' = store.withServing (store.serving.set reader rest)) ∨
      (Fault answer ∧ store' = store)
  | ⟨_, .observeSource key⟩, answer =>
      store' = store ∧ ((∃ observation version, answer = .ready (.ok observation) ∧
        store.current key = some version ∧ version.Names observation.receipt) ∨ Fault answer)
  | ⟨_, .guardedHead selection⟩, answer =>
      store' = store ∧ ((∃ receipt version, answer = .ready (.ok receipt) ∧
        store.Enforces selection version ∧
        DescribesSize version.bytes False receipt) ∨ Fault answer)
  | ⟨_, .guardedGetRange range⟩, answer =>
      (∃ response version, answer = .ready (.ok response) ∧
        store.Enforces range.selection version ∧
        Satisfiable version.bytes range.offset range.length ∧
        DescribesWindow version.bytes False range.offset range.length response.receipt ∧
        store' = store.withServing (store.serving.set response.reader
          ((version.bytes.drop range.offset).take range.length))) ∨
      (Fault answer ∧ store' = store)
  | ⟨_, .guardedGet _⟩, _ => store' = store
  | ⟨_, .head _⟩, _ => store' = store
  | ⟨_, .get _⟩, _ => store' = store
  | ⟨_, .getRange _⟩, _ => store' = store

/-- Between any two answers other clients write as often as they like. -/
def shared : Environment Step Reply Store := fun store step reply store' =>
  ∃ middle, Relation.ReflTransGen Store.Writes store middle ∧
    middle.answers step reply store'

/-! ## Writers -/

theorem Store.Writes.keeps {before after : Store} (h : before.Writes after) :
    after.serving = before.serving ∧
      ∀ key, ∀ version ∈ before.written key, version ∈ after.written key := by
  cases h with
  | put key version hwritten hcurrent hserving =>
      refine ⟨hserving, fun other old hold => ?_⟩
      rw [hwritten]
      by_cases hkey : other = key
      · subst hkey
        rw [Function.update_self]
        exact List.mem_cons_of_mem version hold
      · rwa [Function.update_of_ne hkey]
  | delete key hwritten hcurrent hserving =>
      exact ⟨hserving, fun other old hold => by rwa [hwritten]⟩

/-- Writers leave the bodies alone, and no version is forgotten. -/
theorem Store.keeps_of_writes {before after : Store}
    (h : Relation.ReflTransGen Store.Writes before after) :
    after.serving = before.serving ∧
      ∀ key, ∀ version ∈ before.written key, version ∈ after.written key := by
  induction h with
  | refl => exact ⟨rfl, fun _ _ hmem => hmem⟩
  | tail _ hwrite ih =>
      obtain ⟨hserving, hmem⟩ := hwrite.keeps
      exact ⟨hserving.trans ih.1, fun key version hold => hmem key version (ih.2 key version hold)⟩

/-- An enforced selection is answered with the bytes that were observed. -/
theorem Store.Enforces.same_bytes {store : Store} {selection : GuardedReadSelection}
    {version other : Version} {receipt : SourceReceipt} (hnames : version.Names receipt)
    (hselector : observedSelector receipt = some selection.selector)
    (hmem : version ∈ store.written selection.key) (h : store.Enforces selection other) :
    other.bytes = version.bytes := by
  rw [observedSelector, hnames.1, hnames.2] at hselector
  -- the native version takes precedence; only without one is the validator matched
  cases hnative : version.native with
  | some token =>
      rw [hnative, Option.some.injEq] at hselector
      rw [Enforces, ← hselector] at h
      refine store.native_names _ other h.1 version hmem ?_ (h.2.trans hnative.symm)
      rw [h.2]
      rfl
  | none =>
      rw [hnative] at hselector
      cases hvalidator : version.validator with
      | none =>
          rw [hvalidator] at hselector
          cases hselector
      | some token =>
          rw [hvalidator, Option.some.injEq] at hselector
          rw [Enforces, ← hselector] at h
          refine store.validator_names _ other (store.current_written _ other h.1) version hmem ?_
            (h.2.trans hvalidator.symm)
          rw [h.2]
          rfl

/-! ## The store, seen through one selection -/

/-- Every reply to a range request states the total size of its source. -/
def StatesTotals (transcript : Transcript) : Prop :=
  ∀ ledger range response, (⟨⟨ledger, .guardedGetRange range⟩, .ready (.ok response)⟩ :
    Event Step Reply) ∈ transcript → response.receipt.totalSize.isSome

/-- The bodies agree, and the observed version is still known under its key. -/
structure Mirrors (key : String) (version : Version) (store : Store) (serving : Serving) :
    Prop where
  serving_eq : store.serving = serving
  known : version ∈ store.written key

variable {key : String} {version : Version} {selection : GuardedReadSelection}

/-- The clock does not tell the two apart. -/
theorem mirror_clock {object : List UInt8} {stated : Prop} {store next : Store}
    {serving : Serving} {event : Event Step Reply} (hclock : event.request.request.IsClock)
    (hserving : store.serving = serving)
    (h : shared store event.request event.response next) :
    ∃ serving', holds object stated none serving event.request event.response serving' ∧
      next.serving = serving' := by
  obtain ⟨⟨ledger, request⟩, reply⟩ := event
  obtain rfl : request = .now := hclock
  obtain ⟨middle, hwrites, rfl⟩ := h
  exact ⟨serving, ⟨rfl, trivial⟩, (Store.keeps_of_writes hwrites).1.trans hserving⟩

/-- Nor does a request of the transcript that carries the selection of the observed
version. -/
theorem mirror_carries {transcript : Transcript} {receipt : SourceReceipt} {store next : Store}
    {serving : Serving} {event : Event Step Reply} (hevent : event ∈ transcript)
    (hnames : version.Names receipt)
    (hselector : observedSelector receipt = some selection.selector)
    (hcarries : event.request.request.Carries selection)
    (hmirrors : Mirrors selection.key version store serving)
    (h : shared store event.request event.response next) :
    ∃ serving', holds version.bytes (StatesTotals transcript) none serving event.request
        event.response serving' ∧
      Mirrors selection.key version next serving' := by
  obtain ⟨⟨ledger, request⟩, reply⟩ := event
  obtain ⟨middle, hwrites, hanswer⟩ := h
  obtain ⟨hkept, hknown⟩ := Store.keeps_of_writes hwrites
  have hserving : middle.serving = serving := hkept.trans hmirrors.serving_eq
  have hmem : version ∈ middle.written selection.key := hknown _ _ hmirrors.known
  -- only guarded requests of the selection and the reads of their bodies are left
  cases request with
  | now =>
      obtain rfl := hanswer
      exact ⟨serving, ⟨rfl, trivial⟩, hserving, hmem⟩
  | read reader capacity =>
      rcases hanswer with ⟨chunk, rest, hchunk, hbody, hend, rfl⟩ | ⟨hfault, rfl⟩
      · rw [hserving] at hbody
        exact ⟨_, .inl ⟨chunk, rest, hchunk, hbody, hend, rfl⟩,
          by rw [← hserving]; rfl, hmem⟩
      · exact ⟨serving, .inr ⟨rfl, hfault, rfl⟩, hserving, hmem⟩
  | guardedHead other =>
      obtain rfl : other = selection := hcarries
      obtain ⟨rfl, ⟨head, found, hready, henforces, hsize⟩ | hfault⟩ := hanswer
      · rw [henforces.same_bytes hnames hselector hmem] at hsize
        exact ⟨serving, ⟨rfl, .inl ⟨head, hready, hsize.total, nofun⟩⟩, hserving, hmem⟩
      · exact ⟨serving, ⟨rfl, .inr ⟨rfl, hfault⟩⟩, hserving, hmem⟩
  | guardedGetRange range =>
      obtain rfl : range.selection = selection := hcarries
      rcases hanswer with ⟨response, found, rfl, henforces, hsatisfiable, hdescribes, rfl⟩ |
        ⟨hfault, rfl⟩
      · rw [henforces.same_bytes hnames hselector hmem] at hsatisfiable hdescribes ⊢
        refine ⟨_, .inl ⟨response, rfl, hsatisfiable, ⟨⟨hdescribes.total, fun hstated => ?_⟩,
          hdescribes.requested, hdescribes.returned, hdescribes.object_lt⟩, rfl⟩,
          by rw [← hserving]; rfl, hmem⟩
        exact hstated.resolve_right nofun ledger range response hevent
      · exact ⟨serving, .inr ⟨.inl rfl, hfault, rfl⟩, hserving, hmem⟩
  | observeSource other => exact hcarries.elim
  | guardedGet other => exact hcarries.elim
  | head other => exact hcarries.elim
  | get other => exact hcarries.elim
  | getRange other => exact hcarries.elim

/-- What the store held at the observation of a run, and the same transcript against
that version. -/
theorem Observed.mirrored_from {transcript : Transcript} {start store final : Store}
    (observed : Observed key transcript)
    (hopening : Accepts shared start (observed.before ++ [⟨⟨observed.ledger, .observeSource key⟩,
      .ready (.ok observed.observation)⟩]) store)
    (hafter : Accepts shared store observed.after final) :
    ∃ (version : Version) (serving : Serving),
      store.current key = some version ∧ version.Names observed.observation.receipt ∧
      Accepts (holds version.bytes (StatesTotals transcript) none) start.serving transcript
        serving := by
  obtain ⟨middle, hbefore, hobserve⟩ := accepts_append_iff.mp hopening
  obtain ⟨next, hobserve, hnil⟩ := accepts_cons_iff.mp hobserve
  cases hnil
  obtain ⟨written, hwrites, hanswer⟩ := hobserve
  obtain ⟨rfl, ⟨observation, version, hready, hcurrent, hnames⟩ | hfault⟩ := hanswer
  · -- before the observation only the clock is read, and behind it every request
    -- carries the selection, so both parts are mirrored event by event
    obtain rfl : observed.observation = observation := Except.ok.inj (Awaited.ready.inj hready)
    have hstart : start.serving = start.serving := rfl
    have hclock : ∀ event ∈ observed.before, ∀ (store next : Store) (serving : Serving),
        store.serving = serving → shared store event.request event.response next →
        ∃ serving', holds version.bytes (StatesTotals transcript) none serving event.request
            event.response serving' ∧
          next.serving = serving' :=
      fun event hevent _ _ _ => mirror_clock (observed.before_clock event hevent)
    obtain ⟨serving₁, hserves₁, hsame₁⟩ := hbefore.simulate hclock hstart
    obtain ⟨hkept, hknown⟩ := Store.keeps_of_writes hwrites
    have hmirrors : Mirrors observed.selection.key version store serving₁ := by
      refine ⟨hkept.trans hsame₁, ?_⟩
      rw [observed.key_eq]
      exact store.current_written key version hcurrent
    have hpart : ∀ event ∈ observed.after, event ∈ transcript := fun event hevent => by
      rw [observed.split]
      exact List.mem_append_right _ (List.mem_cons_of_mem _ hevent)
    obtain ⟨serving₂, hserves₂, -⟩ := hafter.simulate
      (fun event hevent _ _ _ => mirror_carries (hpart event hevent) hnames observed.selector_eq
        (observed.after_carries event hevent)) hmirrors
    have hserves : Accepts (holds version.bytes (StatesTotals transcript) none) start.serving
        (observed.before ++ ⟨⟨observed.ledger, .observeSource key⟩,
          .ready (.ok observed.observation)⟩ :: observed.after) serving₂ :=
      accepts_append_iff.mpr
        ⟨serving₁, hserves₁, accepts_cons_iff.mpr ⟨serving₁, ⟨rfl, nofun⟩, hserves₂⟩⟩
    rw [← observed.split] at hserves
    exact ⟨version, serving₂, hcurrent, hnames, hserves⟩
  · rcases hfault with h | ⟨error, h⟩
    · cases h
    · cases h

theorem Observed.split_opening {transcript : Transcript} (observed : Observed key transcript) :
    transcript = (observed.before ++ [⟨⟨observed.ledger, .observeSource key⟩,
      .ready (.ok observed.observation)⟩]) ++ observed.after := by
  rw [List.append_assoc, List.singleton_append]
  exact observed.split

/-- The transcript of a run that observed a key in the shared store: what the
store held at the observation, and the same transcript against that version. -/
theorem Observed.mirrored {transcript : Transcript} {start final : Store}
    (observed : Observed key transcript) (haccepts : Accepts shared start transcript final) :
    ∃ (store : Store) (version : Version) (serving : Serving),
      Accepts shared start (observed.before ++ [⟨⟨observed.ledger, .observeSource key⟩,
        .ready (.ok observed.observation)⟩]) store ∧
      store.current key = some version ∧ version.Names observed.observation.receipt ∧
      Accepts (holds version.bytes (StatesTotals transcript) none) start.serving transcript
        serving := by
  rw [observed.split_opening] at haccepts
  obtain ⟨store, hopening, hafter⟩ := accepts_append_iff.mp haccepts
  obtain ⟨version, serving, hcurrent, hnames, hserves⟩ := observed.mirrored_from hopening hafter
  exact ⟨store, version, serving, hopening, hcurrent, hnames, hserves⟩

/-! ## Results -/

/-- What a call is to return about an object, if it returns.  Only the tail operation
returns without having seen the end of its source, where a range left the total open. -/
def Call.Computes (object : List UInt8) (stated : Prop) : Call → Answer → Prop
  | .previewBytes _ _ length _, .preview result => PreviewOf object length result
  | .headLines _ _ n _, .lines result => Reports object [] ((split object).take n) result
  | .tailLines _ _ n _, .lines result => TailSample object stated n result
  | .midLines _ _ n _, .lines result => MidSample object n result
  | .countLines _ _, .count count => count = (split object).length
  | _, _ => False

variable {object : List UInt8} {stated : Prop} {outer : Serving}
variable {state : Option InspectionLedger}

theorem Yields.map {α β : Type} {session : Session α} {f : α → β} {ok : α → Prop}
    {ok' : β → Prop} {within : Option Duration}
    (h : Yields object stated within session (fun value _ _ => ok value) state outer)
    (himp : ∀ value, ok value → ok' (f value)) :
    Yields object stated within (do return f (← session)) (fun value _ _ => ok' value) state
      outer :=
  Delivers.bind h fun value _ _ hok => delivers_pure (himp value hok)

theorem Call.yields {call : Call} (hkey : call.key = some key) :
    Yields object stated none call.session
      (fun answer _ _ => call.Computes object stated answer) none outer := by
  cases call with
  | previewBytes provider key' length budget =>
      exact (delivers_previewBytes False.elim False.elim).bind fun _ _ _ hok => delivers_pure hok.1
  | previewBytesSelected providerKind selection length budget => cases hkey
  | headLines provider key' n options =>
      exact Yields.map yields_headLinesWithOptions fun _ hok => hok.1
  | tailLines provider key' n options =>
      exact Yields.map yields_tailLinesWithOptions fun _ hok => hok
  | midLines provider key' n options =>
      exact Yields.map yields_midLinesWithOptions fun _ hok => hok.2
  | countLines provider key' => exact Yields.map yields_countLines fun _ hok => hok.lines

/-- However other clients write in between, a finished call has made one
observation and then only carried the selection it bound (`Observed`), and its
answer is the one computed from the version that was current at the observation: the
transcript is a run against that version alone, which may leave total sizes open where
the transcript does. -/
theorem Call.snapshot {call : Call} {start : Store} {transcript : Transcript} {answer : Answer}
    (hkey : call.key = some key) (hrun : Run shared start call.session transcript (.ok answer)) :
    ∃ (observed : Observed key transcript) (store : Store) (version : Version),
      Accepts shared start (observed.before ++ [⟨⟨observed.ledger, .observeSource key⟩,
        .ready (.ok observed.observation)⟩]) store ∧
      store.current key = some version ∧ version.Names observed.observation.receipt ∧
      Run (holds version.bytes (StatesTotals transcript) none) start.serving call.session
        transcript (.ok answer) ∧
      call.Computes version.bytes (StatesTotals transcript) answer := by
  obtain ⟨ledger, final, htrace, haccepts⟩ := hrun
  obtain ⟨observed⟩ := Call.observed hkey htrace
  obtain ⟨store, version, serving, hopening, hcurrent, hnames, hserves⟩ :=
    observed.mirrored haccepts
  have hheld : Run (holds version.bytes (StatesTotals transcript) none) start.serving
      call.session transcript (.ok answer) := ⟨ledger, serving, htrace, hserves⟩
  exact ⟨observed, store, version, hopening, hcurrent, hnames, hheld,
    (Call.yields hkey).of_held_run hheld⟩

/-! ## A race -/

/-- A nameless version another client may put at any time. -/
def junk : Version := ⟨none, none, [0x0A, 0x0A], by decide⟩

/-- A version without names can stand beside any other. -/
theorem Keeps.junk {written : List Version} {current : Option Version}
    (h : Keeps written current) : Keeps (junk :: written) (some junk) where
  current_written := by
    intro version hcurrent
    rw [Option.some.inj hcurrent]
    exact List.mem_cons_self
  native_names := by
    intro first hfirst second hsecond hsome hnames
    rcases List.mem_cons.mp hfirst with rfl | hfirst
    · cases hsome
    rcases List.mem_cons.mp hsecond with rfl | hsecond
    · rw [hnames] at hsome
      cases hsome
    · exact h.native_names first hfirst second hsecond hsome hnames
  validator_names := by
    intro first hfirst second hsecond hsome hnames
    rcases List.mem_cons.mp hfirst with rfl | hfirst
    · cases hsome
    rcases List.mem_cons.mp hsecond with rfl | hsecond
    · rw [hnames] at hsome
      cases hsome
    · exact h.validator_names first hfirst second hsecond hsome hnames

/-- The store after another client has put `junk`. -/
def Store.junked (store : Store) (key : String) : Store :=
  store.replace key (junk :: store.written key) (some junk) store.serving (store.keeps key).junk

theorem Store.writes_junked (store : Store) (key : String) :
    Relation.ReflTransGen Store.Writes store (store.junked key) :=
  .single (.put store _ key junk rfl rfl rfl)

/-- The version of a selection by native version. -/
def Store.select (store : Store) (selection : GuardedReadSelection) : Option Version :=
  match selection.selector with
  | .nativeVersion token =>
      (store.written selection.key).find? fun version => version.native = some token
  | .validatorMatch _ => none

theorem Store.enforces_of_select {store : Store} {selection : GuardedReadSelection}
    {version : Version} (h : store.select selection = some version) :
    store.Enforces selection version := by
  rw [select] at h
  rw [Enforces]
  cases hselector : selection.selector with
  | nativeVersion token =>
      rw [hselector] at h
      exact ⟨List.mem_of_find?_eq_some h, by simpa using List.find?_some h⟩
  | validatorMatch token =>
      rw [hselector] at h
      cases h

/-- A provider of native versions, with another client that overwrites the object
before every guarded read. -/
def raced (store : Store) (step : Step) : Reply step × Store :=
  match step with
  | ⟨_, .now⟩ => ((0 : Instant), store)
  | ⟨_, .read reader capacity⟩ =>
      let body := store.serving.bodies reader
      (.ready (.ok ⟨body.take capacity, List.length_take_le _ _⟩),
        store.withServing (store.serving.set reader (body.drop capacity)))
  | ⟨_, .observeSource key⟩ =>
      match store.current key with
      | some version =>
          (.ready (.ok ⟨{ plainReceipt key version.bytes.length version.bytes_lt with
            nativeVersion := version.native
            validator := version.validator }, none, none, []⟩), store)
      | none => (.elapsed, store)
  | ⟨_, .guardedHead selection⟩ =>
      match (store.junked selection.key).select selection with
      | some version =>
          (.ready (.ok (plainReceipt selection.key version.bytes.length version.bytes_lt)),
            store.junked selection.key)
      | none => (.elapsed, store)
  | ⟨_, .guardedGetRange range⟩ =>
      match (store.junked range.selection.key).select range.selection with
      | some version =>
          if hrange : Satisfiable version.bytes range.offset range.length then
            (.ready (.ok ⟨rangeReceipt version.bytes range.selection.key range.offset
              range.length version.bytes_lt hrange, 0⟩),
              (store.junked range.selection.key).withServing (store.serving.set 0
                ((version.bytes.drop range.offset).take range.length)))
          else (.elapsed, store)
      | none => (.elapsed, store)
  | ⟨_, .guardedGet _⟩ => (.elapsed, store)
  | ⟨_, .head _⟩ => (.elapsed, store)
  | ⟨_, .get _⟩ => (.elapsed, store)
  | ⟨_, .getRange _⟩ => (.elapsed, store)

theorem shared_raced (store : Store) (step : Step) :
    shared store step (raced store step).1 (raced store step).2 := by
  obtain ⟨ledger, request⟩ := step
  cases request with
  | now => exact ⟨store, .refl, rfl⟩
  | read reader capacity =>
      refine ⟨store, .refl, .inl ⟨_, _, rfl, (List.take_append_drop _ _).symm, ?_, rfl⟩⟩
      intro hnil hcapacity
      rcases List.take_eq_nil_iff.mp hnil with h | h
      · omega
      · rw [h, List.drop_nil]
  | observeSource key =>
      refine ⟨store, .refl, ?_⟩
      rw [raced]
      cases hcurrent : store.current key with
      | none => exact ⟨rfl, .inr (.inl rfl)⟩
      | some version => exact ⟨rfl, .inl ⟨_, version, rfl, hcurrent, rfl, rfl⟩⟩
  -- another client has written in between, and the selection still finds its version
  | guardedHead selection =>
      rw [raced]
      cases hselect : (store.junked selection.key).select selection with
      | none => exact ⟨store, .refl, rfl, .inr (.inl rfl)⟩
      | some version =>
          exact ⟨_, store.writes_junked selection.key, rfl,
            .inl ⟨_, version, rfl, Store.enforces_of_select hselect,
              fun total htotal => (Option.some.inj htotal).symm, False.elim⟩⟩
  | guardedGetRange range =>
      rw [raced]
      cases hselect : (store.junked range.selection.key).select range.selection with
      | none => exact ⟨store, .refl, .inr ⟨.inl rfl, rfl⟩⟩
      | some version =>
          by_cases hrange : Satisfiable version.bytes range.offset range.length
          · simp only [dif_pos hrange]
            have hdescribes : DescribesRange version.bytes range.offset range.length
                (rangeReceipt version.bytes range.selection.key range.offset range.length
                  version.bytes_lt hrange) := ⟨rfl, ⟨_, rfl, rfl, rfl⟩, ⟨_, rfl, rfl, rfl⟩⟩
            exact ⟨_, store.writes_junked range.selection.key, .inl ⟨_, version, rfl,
              Store.enforces_of_select hselect, hrange, hdescribes.window False, rfl⟩⟩
          · simp only [dif_neg hrange]
            exact ⟨store, .refl, .inr ⟨.inl rfl, rfl⟩⟩
  | guardedGet selection => exact ⟨store, .refl, rfl⟩
  | head key => exact ⟨store, .refl, rfl⟩
  | get key => exact ⟨store, .refl, rfl⟩
  | getRange range => exact ⟨store, .refl, rfl⟩

def letter : Version := ⟨some "v1", none, [0x61], by decide⟩

/-- The same one-byte object under every key. -/
def letterStore : Store where
  written := fun _ => [letter]
  current := fun _ => some letter
  serving := ⟨fun _ => []⟩
  current_written := by simp
  native_names := by simp
  validator_names := by simp

/-- The one line of the observed version is counted, although the object is
overwritten before each guarded read. -/
theorem Call.snapshot_raced :
    ∃ (transcript : Transcript) (version : Version),
      Run (holds version.bytes (StatesTotals transcript) none) ⟨fun _ => []⟩
        (Call.countLines guardedProvider "log.txt").session transcript (.ok (.count 1)) ∧
      1 = (split version.bytes).length := by
  have hrun : Run shared letterStore (Call.countLines guardedProvider "log.txt").session _
      (.ok (.count 1)) :=
    ⟨_, _, trace_handled raced _ letterStore (by decide +kernel),
      Program.accepts_runWith shared_raced _ _⟩
  obtain ⟨_, _, version, -, -, -, hheld, hcomputes⟩ := Call.snapshot rfl hrun
  exact ⟨_, version, hheld, hcomputes⟩

end Storageprims

import Storageprims.Ffi.Control
import Storageprims.Ffi.Interleaving
import Storageprims.Interaction.Threads

/-!
# Providers and their ids

Threads create providers, call them and destroy them, and their steps come in any order.  An
id stands for the one provider that was made from the configuration it was created with, and
for none as soon as a thread has destroyed it.
-/

namespace Storageprims

open Interaction

variable {Thread : Type}

abbrev ControlTurn (Thread : Type) := Turn Thread ControlRequest ControlResponse

/-- One step of one thread.  Only an access to the registries changes them. -/
def SharedRuntime.control [DecidableEq Thread] : Environment (Thread × ControlRequest)
    (fun request => ControlResponse request.2) (SharedRuntime Thread)
  | shared, (thread, .registry request), response, shared' =>
      serve shared (thread, request) response shared'
  | shared, _, _, shared' => shared' = shared

/-! ## What a history does to the providers -/

def ControlTurn.registry : ControlTurn Thread → Option (ThreadEvent Thread)
  | ⟨(thread, .registry request), response⟩ => some ⟨(thread, request), response⟩
  | _ => none

def controlHistory (history : List (ControlTurn Thread)) :
    List (RegistryEvent Thread UInt64 StorageProvider) :=
  providerHistory (history.filterMap ControlTurn.registry)

/-- A request that goes to a provider or makes one. -/
def ControlRequest.Outside : ControlRequest → Prop
  | .registry _ => False
  | _ => True

section Histories

variable {history past rest : List (ControlTurn Thread)} {thread : Thread} {id : UInt64}
variable {provider : StorageProvider}

theorem controlHistory_split {answer : Except StorageError StorageProvider} :
    controlHistory (past ++ Turn.of thread ⟨.registry (.provider id), answer⟩ :: rest) =
      controlHistory past ++
        ⟨(thread, .find id), Except.toOption answer⟩ :: controlHistory rest := by
  simp only [controlHistory, providerHistory, List.filterMap_append, List.filterMap_cons,
    Turn.of, ControlTurn.registry, ThreadEvent.provider]

theorem store_mem (h : Turn.of thread ⟨.registry (.storeProvider id provider), ()⟩ ∈ history) :
    ⟨(thread, .store id provider), ()⟩ ∈ controlHistory history :=
  List.mem_filterMap.mpr ⟨_, List.mem_filterMap.mpr ⟨_, h, rfl⟩, rfl⟩

/-- What has been withdrawn was removed: providers are never taken. -/
theorem withdrawn_iff : id ∈ Registry.withdrawnIds (controlHistory history) ↔
    ∃ thread, Turn.of thread ⟨.registry (.removeProvider id), true⟩ ∈ history := by
  constructor
  · intro h
    obtain ⟨event, hevent, hid⟩ := List.mem_filterMap.mp h
    obtain ⟨⟨⟨thread, request⟩, response⟩, hturn, hshown⟩ := List.mem_filterMap.mp hevent
    obtain ⟨⟨⟨other, asked⟩, answer⟩, hmem, hregistry⟩ := List.mem_filterMap.mp hturn
    cases asked with
    | registry asked =>
        cases hregistry
        cases request with
        | removeProvider other =>
            cases hshown
            cases response with
            | false => cases hid
            | true =>
                cases hid
                exact ⟨thread, hmem⟩
        | reserveProvider => cases hshown; cases hid
        | storeProvider other provider => cases hshown; cases hid
        | provider other => cases hshown; cases hid
        | _ => cases hshown
    | _ => cases hregistry
  · rintro ⟨thread, hmem⟩
    exact List.mem_filterMap.mpr
      ⟨_, List.mem_filterMap.mpr ⟨_, List.mem_filterMap.mpr ⟨_, hmem, rfl⟩, rfl⟩, rfl⟩

variable [DecidableEq Thread] {shared : SharedRuntime Thread}

/-- The providers of a shared runtime are kept faithfully, whatever else the threads do. -/
theorem SharedRuntime.control_faithful (hrun : Accepts control .new history shared)
    (hbound : (Registry.reservedIds (controlHistory history)).length < 2 ^ 64) :
    Registry.Faithful (controlHistory history) shared.runtime.providers := by
  have hregistry : Accepts serve .new (history.filterMap ControlTurn.registry) shared := by
    refine Accepts.project ControlTurn.registry id ?_ ?_ hrun
    · rintro ⟨⟨thread, request⟩, response⟩ before next hstep hview
      cases request with
      | registry request => cases hview
      | _ => exact hstep
    · rintro ⟨⟨thread, request⟩, response⟩ before next hstep image hview
      cases request with
      | registry request =>
          cases hview
          exact hstep
      | _ => cases hview
  exact (faithful_of_counted (accepts_providers hregistry) hbound).1

end Histories

/-! ## Creation and destruction -/

section Rules

variable {json : ControlJson} {handle providerId : UInt64} {configJson : CStr} {out : OutId}

/-- A provider has been made from the configuration and stored under the id that the caller
gets. -/
def Created (json : ControlJson) (handle : UInt64) (configJson : CStr)
    (events : List ControlEvent) (out : OutId) : Prop :=
  ∃ config provider id,
    events = [⟨.registry (.getRuntime handle), .ok ()⟩, ⟨.fromConfig config, .ok provider⟩,
      ⟨.registry .reserveProvider, id⟩, ⟨.registry (.storeProvider id provider), ()⟩] ∧
    parseJson json.config configJson "config_json" = .ok config ∧ out = some id

/-- Nothing has been stored so far. -/
def Unstored (past : List ControlEvent) : Prop :=
  ∀ id provider, (⟨.registry (.storeProvider id provider), ()⟩ : ControlEvent) ∉ past

/-- A provider is only made for a kind that the interface knows. -/
theorem buildProvider_ensures {config : ProviderConfig} {past : List ControlEvent}
    {ok : StorageProvider → OutId → List ControlEvent → Prop} {cell : OutId}
    (hpast : Unstored past)
    (hok : ∀ provider, ok provider cell (past ++ [⟨.fromConfig config, .ok provider⟩])) :
    Script.Ensures history (fun _ => True) (buildProvider config) ok
      (fun _ cell' past => cell' = cell ∧ Unstored past) cell past := by
  unfold buildProvider
  cases config.provider with
  | s3 =>
      refine ⟨trivial, fun answer past' hpast' => ?_⟩
      cases hpast'
      cases answer with
      | error failure =>
          refine ⟨trivial, rfl, fun id provider hmem => ?_⟩
          rcases List.mem_append.mp hmem with hmem | hmem
          · exact hpast id provider hmem
          · cases List.mem_singleton.mp hmem
      | ok provider => exact ⟨trivial, hok provider⟩
  | gcs => exact ⟨trivial, rfl, hpast⟩
  | azureBlob => exact ⟨trivial, rfl, hpast⟩
  | «local» => exact ⟨trivial, rfl, hpast⟩

/-- Whatever goes wrong, goes wrong before anything is stored. -/
theorem storageprimsProviderCreate_ensures :
    Script.Ensures history (fun _ => True) (storageprimsProviderCreate json handle configJson)
      (fun _ out' past => Created json handle configJson past out')
      (fun _ out' past => out' = out.map (fun _ => 0) ∧ Unstored past) out [] := by
  have hnothing : Unstored [] := fun _ _ => List.not_mem_nil
  cases out with
  | none => exact ⟨trivial, rfl, hnothing⟩
  | some cell =>
      refine ⟨trivial, fun runtime past hpast => ?_⟩
      subst hpast
      have hlooked : Unstored [⟨.registry (.getRuntime handle), runtime⟩] := by
        intro id provider hmem
        cases List.mem_singleton.mp hmem
      cases runtime with
      | error error => exact ⟨trivial, rfl, hlooked⟩
      | ok done =>
          refine Script.ensures_bind_ofExcept (fun _ _ => ⟨trivial, rfl, hlooked⟩)
            fun config hconfig => ?_
          have hbuild : Script.Ensures history (fun _ => True) (buildProvider config)
              (fun provider cell' past => cell' = some 0 ∧ past =
                [⟨.registry (.getRuntime handle), .ok ()⟩, ⟨.fromConfig config, .ok provider⟩])
              (fun _ cell' past => cell' = some 0 ∧ Unstored past)
              (some 0) [⟨.registry (.getRuntime handle), .ok done⟩] :=
            buildProvider_ensures hlooked fun provider => ⟨rfl, rfl⟩
          refine hbuild.bind ?_
          rintro provider cell' past - ⟨rfl, rfl⟩
          refine ⟨trivial, fun id past hpast => ?_⟩
          subst hpast
          refine ⟨trivial, fun stored past hpast => ?_⟩
          subst hpast
          refine ⟨trivial, config, provider, id, rfl, ?_, rfl⟩
          cases hparsed : parseJson json.config configJson "config_json" with
          | error error =>
              rw [hparsed] at hconfig
              cases hconfig
          | ok other =>
              rw [hparsed] at hconfig
              cases hconfig
              rfl

theorem storageprimsProviderDestroy_ensures :
    Script.Ensures history (fun _ => True) (storageprimsProviderDestroy handle providerId)
      (fun _ _ past => ⟨.registry (.removeProvider providerId), true⟩ ∈ past)
      (fun _ _ _ => True) () [] := by
  refine ⟨trivial, fun runtime past hpast => ?_⟩
  subst hpast
  cases runtime with
  | error error => exact ⟨trivial, trivial⟩
  | ok done =>
      refine ⟨trivial, fun removed past hpast => ?_⟩
      subst hpast
      cases removed with
      | false => exact ⟨trivial, trivial⟩
      | true => exact ⟨trivial, List.mem_append_right _ (List.mem_singleton_self _)⟩

end Rules

/-! ## Lifetimes -/

section Lifetimes

variable {history : List (ControlTurn Thread)} {id : UInt64} {provider other : StorageProvider}

variable [DecidableEq Thread] {shared : SharedRuntime Thread} {json : ControlJson}
variable {creator caller destroyer : Thread} {handle : UInt64} {configJson : CStr}
variable {cell : OutId} {call : ControlCall} {out : OutPointer} {events : List ControlEvent}
variable {rest : Program ControlRequest ControlResponse (StorageprimsErrorCode × OutPointer)}

/-- A call asks nothing outside the registries before it has found its provider. -/
theorem Staged.outside (h : Staged json call handle id events) {event : ControlEvent}
    (hevent : event ∈ events) (houtside : event.request.Outside) :
    ∃ provider, ⟨.registry (.provider id), .ok provider⟩ ∈ events ∧
      call.Asks json provider event.request := by
  cases h with
  | start => cases hevent
  | runtime answer =>
      rw [List.mem_singleton.mp hevent] at houtside
      exact houtside.elim
  | lookup answer =>
      rcases List.mem_pair.mp hevent with rfl | rfl
      · exact houtside.elim
      · exact houtside.elim
  | asked provider asked hasks =>
      refine ⟨provider, by simp, ?_⟩
      simp only [List.mem_cons, List.not_mem_nil, or_false] at hevent
      rcases hevent with rfl | rfl | rfl
      · exact houtside.elim
      · exact houtside.elim
      · exact hasks

omit [DecidableEq Thread] in
/-- A lookup finds what is live. -/
theorem lookup_iff (h : Registry.Faithful (controlHistory history) shared.runtime.providers)
    {past after : List (ControlTurn Thread)} {answer : Except StorageError StorageProvider}
    (hsplit : history = past ++ Turn.of caller ⟨.registry (.provider id), answer⟩ :: after) :
    answer = .ok provider ↔ Registry.Live (controlHistory past) id provider := by
  rw [hsplit, controlHistory_split] at h
  rw [← h.found rfl provider]
  cases answer with
  | error error => simp [Except.toOption]
  | ok found => simp [Except.toOption]

/-- Whatever a call asks outside the registries, it asks of the provider that was made from the
configuration when its id was created; and it finds that provider as long as nobody has
removed it. -/
theorem provider_call_reaches_created (hrun : Accepts SharedRuntime.control .new history shared)
    (hbound : (Registry.reservedIds (controlHistory history)).length < 2 ^ 64)
    (creation : Stretch creator (returning (storageprimsProviderCreate json handle configJson) cell)
      (.ret (.ok, some id)) history)
    (later : Stretch caller (call.run json handle id out) rest history) :
    ∃ config provider, parseJson json.config configJson "config_json" = .ok config ∧
      ⟨.fromConfig config, .ok provider⟩ ∈ creation.events ∧
      (∀ event ∈ later.events, event.request.Outside → call.Asks json provider event.request) ∧
      (creation.before ++ creation.segment <+: later.before →
        (∀ thread, Turn.of thread ⟨.registry (.removeProvider id), true⟩ ∉
          later.before ++ later.segment) →
        ∀ answer, ⟨.registry (.provider id), answer⟩ ∈ later.events → answer = .ok provider) := by
  have hfaithful := SharedRuntime.control_faithful hrun hbound
  have hmade : Created json handle configJson creation.events (some id) :=
    ((returning_ensures storageprimsProviderCreate_ensures).of_finished creation.trace
      (accepts_history [] _)).1 rfl
  obtain ⟨config, provider, id, hevents, hparsed, hid⟩ := hmade
  cases hid
  have hstored : ⟨.registry (.storeProvider id provider), ()⟩ ∈ creation.events := by
    rw [hevents]
    exact .tail _ (.tail _ (.tail _ (.head _)))
  have hcreated : Turn.of creator ⟨.registry (.storeProvider id provider), ()⟩ ∈ history := by
    rw [creation.split]
    exact List.mem_append_left _ (creation.turn_mem hstored (List.prefix_refl _))
  refine ⟨config, provider, hparsed, ?_, ?_, ?_⟩
  · rw [hevents]
    exact .tail _ (.head _)
  · intro event hevent houtside
    obtain ⟨hstaged, -⟩ := (call.run_ensures json handle id out).of_trace later.trace
      (accepts_history [] _)
    obtain ⟨found, hlookup, hasks⟩ := hstaged.outside hevent houtside
    -- what was found is live, and so it was stored
    obtain ⟨past, after, hsplit, -⟩ := later.turn_of_event hlookup
    obtain ⟨⟨thread, hlive⟩, -⟩ := (lookup_iff hfaithful hsplit).mp rfl
    have hmem : ⟨(thread, .store id found), ()⟩ ∈ controlHistory history := by
      rw [hsplit, controlHistory_split]
      exact List.mem_append_left _ hlive
    obtain rfl := Registry.stored_unique hfaithful.once hmem (store_mem hcreated)
    exact hasks
  · intro hbefore hkept answer hlookup
    obtain ⟨past, after, hsplit, hpast, hwithin⟩ := later.turn_of_event hlookup
    refine (lookup_iff hfaithful hsplit).mpr ⟨⟨creator, store_mem ?_⟩, fun hwithdrawn => ?_⟩
    · exact creation.turn_mem hstored (hbefore.trans hpast)
    · obtain ⟨thread, hremoved⟩ := withdrawn_iff.mp hwithdrawn
      exact hkept thread (hwithin.subset hremoved)

/-- Once a thread has destroyed a provider, no call that begins later asks anything under its
id, and no such call returns `Ok`. -/
theorem destroyed_provider_unreachable
    (hrun : Accepts SharedRuntime.control .new history shared)
    (hbound : (Registry.reservedIds (controlHistory history)).length < 2 ^ 64)
    (destruction : Stretch destroyer (returning (storageprimsProviderDestroy handle id) ())
      (.ret (.ok, ())) history)
    (later : Stretch caller (call.run json handle id out) rest history)
    (hafter : destruction.before ++ destruction.segment <+: later.before) :
    (∀ event ∈ later.events, ¬ event.request.Outside) ∧
      ∀ code out', rest = .ret (code, out') → code ≠ .ok ∧ out' = out.map fun _ => none := by
  have hfaithful := SharedRuntime.control_faithful hrun hbound
  have hremoved : ⟨.registry (.removeProvider id), true⟩ ∈ destruction.events :=
    ((returning_ensures storageprimsProviderDestroy_ensures).of_finished destruction.trace
      (accepts_history [] _)).1 rfl
  have hlost : ∀ provider, ⟨.registry (.provider id), .ok provider⟩ ∉ later.events := by
    intro provider hlookup
    obtain ⟨past, after, hsplit, hpast, -⟩ := later.turn_of_event hlookup
    obtain ⟨-, hlive⟩ := (lookup_iff hfaithful hsplit).mp (rfl : _ = Except.ok provider)
    exact hlive (withdrawn_iff.mpr
      ⟨destroyer, destruction.turn_mem hremoved (hafter.trans hpast)⟩)
  obtain ⟨hstaged, hrest⟩ := (call.run_ensures json handle id out).of_trace later.trace
    (accepts_history [] _)
  constructor
  · intro event hevent houtside
    obtain ⟨provider, hlookup, -⟩ := hstaged.outside hevent houtside
    exact hlost provider hlookup
  · rintro code out' rfl
    have hcode : code ≠ .ok := by
      intro hok
      have hanswered : Answered json call handle id later.events out' := hrest.2.1 hok
      obtain ⟨provider, event, value, text, hevents, -⟩ := hanswered
      refine hlost provider ?_
      rw [hevents]
      exact .tail _ (.head _)
    exact ⟨hcode, hrest.2.2 hcode⟩

end Lifetimes

/-! ## One lifetime -/

def s3Config : ProviderConfig :=
  ⟨.s3, ⟨none, some "bucket", none, none, none, none, []⟩, .defaultChain⟩

/-- A JSON library that reads every text as `s3Config`. -/
def s3Json : ControlJson := { emptyJson with config := fun _ => .ok s3Config }

def listCall : ControlCall := .list (some (.ok "{}"))

/-- One thread creates a provider and destroys it, and another lists with it before and
after. -/
def oneLifetime : List (ControlTurn Bool) :=
  [Turn.of true ⟨.registry (.getRuntime 1), .ok ()⟩,
    Turn.of true ⟨.fromConfig s3Config, .ok plainProvider⟩,
    Turn.of true ⟨.registry .reserveProvider, (1 : UInt64)⟩,
    Turn.of true ⟨.registry (.storeProvider 1 plainProvider), ()⟩,
    Turn.of false ⟨.registry (.getRuntime 1), .ok ()⟩,
    Turn.of false ⟨.registry (.provider 1), .ok plainProvider⟩,
    Turn.of true ⟨.registry (.getRuntime 1), .ok ()⟩,
    Turn.of true ⟨.registry (.removeProvider 1), true⟩,
    Turn.of false ⟨.list plainProvider ⟨none, none, none⟩, .ok ⟨[], none, false⟩⟩,
    Turn.of false ⟨.registry (.getRuntime 1), .ok ()⟩,
    Turn.of false ⟨.registry (.provider 1), .error (.invalidArgument none "provider_id"
      "unknown provider id 1")⟩]

theorem accepts_oneLifetime :
    ∃ shared, Accepts SharedRuntime.control .new oneLifetime shared :=
  ⟨_, .cons _ _ _ _ _ _ rfl <| .cons _ _ _ _ _ _ rfl <| .cons _ _ _ _ _ _ ⟨rfl, rfl, rfl⟩ <|
    .cons _ _ _ _ _ _ ⟨rfl, rfl⟩ <| .cons _ _ _ _ _ _ rfl <| .cons _ _ _ _ _ _ ⟨rfl, rfl⟩ <|
    .cons _ _ _ _ _ _ rfl <| .cons _ _ _ _ _ _ ⟨rfl, rfl⟩ <| .cons _ _ _ _ _ _ rfl <|
    .cons _ _ _ _ _ _ rfl <| .cons _ _ _ _ _ _ ⟨rfl, rfl⟩ <| .nil _⟩

/-- The list call asked the provider that the configuration has led to, although the provider
was removed meanwhile. -/
theorem provider_call_reaches_created_once :
    listCall.Asks s3Json plainProvider (.list plainProvider ⟨none, none, none⟩) := by
  obtain ⟨shared, hrun⟩ := accepts_oneLifetime
  have hcreation : Trace (returning (storageprimsProviderCreate s3Json 1 (some (.ok "\x7b\x7d")))
      (some 7)) (turnsOf true (oneLifetime.take 4)) (.ret (.ok, some 1)) :=
    .step _ _ _ _ _ (.step _ _ _ _ _ (.step _ _ _ _ _ (.step _ _ _ _ _ (.refl _))))
  have hlater : Trace (listCall.run s3Json 1 1 (some none))
      (turnsOf false ((oneLifetime.drop 4).take 5)) (.ret (.ok, some (some "\x7b\x7d"))) := by
    refine .step _ _ _ _ _ (.step _ _ _ _ _ (.step _ _ _ _ _ ?_))
    exact Trace.bind (@trace_writeOutput s3Json (.listed ⟨[], none, false⟩) _ _
      writeJson_emptyObject) (.refl _)
  obtain ⟨config, provider, -, hmade, hasks, -⟩ := provider_call_reaches_created hrun (by decide)
    ⟨[], _, oneLifetime.drop 4, rfl, hcreation⟩
    ⟨oneLifetime.take 4, _, oneLifetime.drop 9, rfl, hlater⟩
  have hplain : provider = plainProvider := by
    rcases List.mem_cons.mp hmade with heq | hmade
    · cases heq
    · rcases List.mem_cons.mp hmade with heq | hmade
      · cases heq
        rfl
      · rcases List.mem_pair.mp hmade with heq | heq
        · cases heq
        · cases heq
  rw [hplain] at hasks
  exact hasks ⟨.list plainProvider ⟨none, none, none⟩, .ok ⟨[], none, false⟩⟩
    (.tail _ (.tail _ (.head _))) trivial

/-- The list call that came too late has returned an error and a null pointer. -/
theorem destroyed_provider_unreachable_late : StorageprimsErrorCode.invalidArgument ≠ .ok ∧
    (some none : OutPointer) = (some none : OutPointer).map fun _ => none := by
  obtain ⟨shared, hrun⟩ := accepts_oneLifetime
  have hdestruction : Trace (returning (storageprimsProviderDestroy 1 1) ())
      (turnsOf true ((oneLifetime.drop 6).take 2)) (.ret (.ok, ())) :=
    .step _ _ _ _ _ (.step _ _ _ _ _ (.refl _))
  have hlater : Trace (listCall.run s3Json 1 1 (some none)) (turnsOf false (oneLifetime.drop 9))
      (.ret (.invalidArgument, some none)) :=
    .step _ _ _ _ _ (.step _ _ _ _ _ (.refl _))
  exact (destroyed_provider_unreachable hrun (by decide)
    ⟨oneLifetime.take 6, _, oneLifetime.drop 8, rfl, hdestruction⟩
    ⟨oneLifetime.take 9, _, [], rfl, hlater⟩ ⟨[oneLifetime.get ⟨8, by decide⟩], rfl⟩).2 _ _ rfl

end Storageprims

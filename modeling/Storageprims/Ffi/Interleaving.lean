import Storageprims.Ffi.Open
import Storageprims.Interaction.Registry

/-!
# Threads on one runtime

Any number of threads use one runtime at once.  Every access to its counters and
maps is one step, the steps of all threads come in some order, and an insertion is
two steps of its thread with anything in between.  Seen on its own, each of the
two maps is a registry of the library.
-/

namespace Storageprims

open Interaction

variable {Thread : Type}

/-- A runtime, and for each thread the id it has drawn from a counter and not yet
inserted under. -/
structure SharedRuntime (Thread : Type) where
  runtime : FfiRuntime StorageProvider
  insertingProvider : Thread → Option UInt64
  insertingStream : Thread → Option UInt64

/-- An answered request of one thread. -/
abbrev ThreadEvent (Thread : Type) :=
  Event (Thread × FfiRequest) fun request => FfiResponse request.2

namespace SharedRuntime

def new : SharedRuntime Thread := ⟨.new, fun _ => none, fun _ => none⟩

/-- One step of one thread.  What is no access to the registries leaves them alone,
whatever it answers. -/
def serve [DecidableEq Thread] : Environment (Thread × FfiRequest)
    (fun request => FfiResponse request.2) (SharedRuntime Thread)
  | shared, (thread, .reserveProvider), id, shared' =>
      shared.insertingProvider thread = none ∧ id = shared.runtime.reserveProvider.1 ∧
        shared' = { shared with
          runtime := shared.runtime.reserveProvider.2
          insertingProvider := Function.update shared.insertingProvider thread (some id) }
  | shared, (thread, .storeProvider id provider), _, shared' =>
      shared.insertingProvider thread = some id ∧
        shared' = { shared with
          runtime := shared.runtime.storeProvider id provider
          insertingProvider := Function.update shared.insertingProvider thread none }
  | shared, (_, .provider id), answer, shared' =>
      answer = shared.runtime.provider id ∧ shared' = shared
  | shared, (_, .removeProvider id), present, shared' =>
      present = (shared.runtime.removeProvider id).1 ∧
        shared' = { shared with runtime := (shared.runtime.removeProvider id).2 }
  | shared, (thread, .reserveStream), id, shared' =>
      shared.insertingStream thread = none ∧ id = shared.runtime.reserveStream.1 ∧
        shared' = { shared with
          runtime := shared.runtime.reserveStream.2
          insertingStream := Function.update shared.insertingStream thread (some id) }
  | shared, (thread, .storeStream id stream), _, shared' =>
      shared.insertingStream thread = some id ∧
        shared' = { shared with
          runtime := shared.runtime.storeStream id stream
          insertingStream := Function.update shared.insertingStream thread none }
  | shared, (_, .takeStream id), answer, shared' =>
      answer = (shared.runtime.takeStream id).1 ∧
        shared' = { shared with runtime := (shared.runtime.takeStream id).2 }
  | shared, (_, .removeStream id), present, shared' =>
      present = (shared.runtime.removeStream id).1 ∧
        shared' = { shared with runtime := (shared.runtime.removeStream id).2 }
  | shared, _, _, shared' => shared' = shared

/-! ## The two registries -/

def providerRegistry (shared : SharedRuntime Thread) :
    Registry Thread UInt64 StorageProvider where
  nextId := shared.runtime.nextProviderId
  entries := shared.runtime.providers
  inserting := shared.insertingProvider

def streamRegistry (shared : SharedRuntime Thread) : Registry Thread UInt64 StreamState where
  nextId := shared.runtime.nextStreamId
  entries := shared.runtime.streams
  inserting := shared.insertingStream

end SharedRuntime

namespace ThreadEvent

/-- What an event is to the providers. -/
def provider : ThreadEvent Thread → Option (RegistryEvent Thread UInt64 StorageProvider)
  | ⟨(thread, .reserveProvider), id⟩ => some ⟨(thread, .reserve), id⟩
  | ⟨(thread, .storeProvider id provider), done⟩ => some ⟨(thread, .store id provider), done⟩
  | ⟨(thread, .provider id), answer⟩ => some ⟨(thread, .find id), Except.toOption answer⟩
  | ⟨(thread, .removeProvider id), present⟩ => some ⟨(thread, .remove id), present⟩
  | _ => none

/-- What an event is to the streams. -/
def stream : ThreadEvent Thread → Option (RegistryEvent Thread UInt64 StreamState)
  | ⟨(thread, .reserveStream), id⟩ => some ⟨(thread, .reserve), id⟩
  | ⟨(thread, .storeStream id stream), done⟩ => some ⟨(thread, .store id stream), done⟩
  | ⟨(thread, .takeStream id), answer⟩ => some ⟨(thread, .take id), Except.toOption answer⟩
  | ⟨(thread, .removeStream id), present⟩ => some ⟨(thread, .remove id), present⟩
  | _ => none

end ThreadEvent

def providerHistory (history : List (ThreadEvent Thread)) :
    List (RegistryEvent Thread UInt64 StorageProvider) :=
  history.filterMap ThreadEvent.provider

def streamHistory (history : List (ThreadEvent Thread)) :
    List (RegistryEvent Thread UInt64 StreamState) :=
  history.filterMap ThreadEvent.stream

/-- The events of one thread, as the thread sees them. -/
def ownEvents [DecidableEq Thread] (thread : Thread) (history : List (ThreadEvent Thread)) :
    List FfiEvent :=
  history.filterMap fun event =>
    if event.request.1 = thread then some ⟨event.request.2, event.response⟩ else none

theorem toOption_provider (runtime : FfiRuntime StorageProvider) (id : UInt64) :
    (runtime.provider id).toOption = runtime.providers id := by
  unfold FfiRuntime.provider
  cases runtime.providers id <;> rfl

theorem toOption_takeStream (runtime : FfiRuntime StorageProvider) (id : UInt64) :
    (runtime.takeStream id).1.toOption = runtime.streams id := by
  unfold FfiRuntime.takeStream
  cases runtime.streams id <;> rfl

namespace SharedRuntime

variable [DecidableEq Thread] {history : List (ThreadEvent Thread)}
variable {shared : SharedRuntime Thread}

/-- The providers of a shared runtime are a registry. -/
theorem accepts_providers (h : Accepts serve new history shared) :
    Accepts (Registry.serve (· + 1)) (Registry.new 1) (providerHistory history)
      shared.providerRegistry := by
  refine Accepts.project ThreadEvent.provider providerRegistry ?_ ?_ h
  · rintro ⟨⟨thread, request⟩, response⟩ before next hserve hview
    cases request with
    | reserveProvider => cases hview
    | storeProvider id provider => cases hview
    | provider id => cases hview
    | removeProvider id => cases hview
    | reserveStream => obtain ⟨-, -, rfl⟩ := hserve; rfl
    | storeStream id stream => obtain ⟨-, rfl⟩ := hserve; rfl
    | takeStream id => obtain ⟨-, rfl⟩ := hserve; rfl
    | removeStream id => obtain ⟨-, rfl⟩ := hserve; rfl
    | _ => cases hserve; rfl
  · rintro ⟨⟨thread, request⟩, response⟩ before next hserve image hview
    cases request with
    | reserveProvider =>
        cases hview
        obtain ⟨hidle, rfl, rfl⟩ := hserve
        exact ⟨hidle, rfl, rfl⟩
    | storeProvider id provider =>
        cases hview
        obtain ⟨hholds, rfl⟩ := hserve
        exact ⟨hholds, rfl⟩
    | provider id =>
        cases hview
        obtain ⟨rfl, rfl⟩ := hserve
        exact ⟨toOption_provider _ id, rfl⟩
    | removeProvider id =>
        cases hview
        obtain ⟨rfl, rfl⟩ := hserve
        exact ⟨rfl, rfl⟩
    | _ => cases hview

/-- So are its streams. -/
theorem accepts_streams (h : Accepts serve new history shared) :
    Accepts (Registry.serve (· + 1)) (Registry.new 1) (streamHistory history)
      shared.streamRegistry := by
  refine Accepts.project ThreadEvent.stream streamRegistry ?_ ?_ h
  · rintro ⟨⟨thread, request⟩, response⟩ before next hserve hview
    cases request with
    | reserveProvider => obtain ⟨-, -, rfl⟩ := hserve; rfl
    | storeProvider id provider => obtain ⟨-, rfl⟩ := hserve; rfl
    | provider id => obtain ⟨-, rfl⟩ := hserve; rfl
    | removeProvider id => obtain ⟨-, rfl⟩ := hserve; rfl
    | reserveStream => cases hview
    | storeStream id stream => cases hview
    | takeStream id => cases hview
    | removeStream id => cases hview
    | _ => cases hserve; rfl
  · rintro ⟨⟨thread, request⟩, response⟩ before next hserve image hview
    cases request with
    | reserveStream =>
        cases hview
        obtain ⟨hidle, rfl, rfl⟩ := hserve
        exact ⟨hidle, rfl, rfl⟩
    | storeStream id stream =>
        cases hview
        obtain ⟨hholds, rfl⟩ := hserve
        exact ⟨hholds, rfl⟩
    | takeStream id =>
        cases hview
        obtain ⟨rfl, rfl⟩ := hserve
        exact ⟨toOption_takeStream _ id, rfl⟩
    | removeStream id =>
        cases hview
        obtain ⟨rfl, rfl⟩ := hserve
        exact ⟨rfl, rfl⟩
    | _ => cases hview

/-! ## Fewer than 2^64 insertions -/

theorem iterate_succ_one (k : Nat) : (· + 1 : UInt64 → UInt64)^[k] 1 = UInt64.ofNat (k + 1) := by
  induction k with
  | zero => rfl
  | succ k ih =>
      rw [Function.iterate_succ_apply', ih]
      simp

/-- A counter that has not come round has given every id once, and never zero. -/
theorem distinct_ids {n : Nat} (hbound : n < 2 ^ 64) :
    ((List.range n).map fun k => (· + 1 : UInt64 → UInt64)^[k] 1).Nodup ∧
      ∀ id ∈ (List.range n).map fun k => (· + 1 : UInt64 → UInt64)^[k] 1, id ≠ 0 := by
  have htoNat : ∀ k < n, ((· + 1 : UInt64 → UInt64)^[k] 1).toNat = k + 1 := by
    intro k hk
    rw [iterate_succ_one, UInt64.toNat_ofNat']
    exact Nat.mod_eq_of_lt (by omega)
  constructor
  · refine List.Nodup.map_on ?_ List.nodup_range
    intro first hfirst second hsecond heq
    have hnat := congrArg UInt64.toNat heq
    rw [htoNat _ (List.mem_range.mp hfirst), htoNat _ (List.mem_range.mp hsecond)] at hnat
    omega
  · intro id hid hzero
    obtain ⟨k, hk, rfl⟩ := List.mem_map.mp hid
    have hnat := htoNat k (List.mem_range.mp hk)
    rw [hzero] at hnat
    exact absurd hnat (by simp)

/-- A registry that is counted from one is faithful while its counter lasts. -/
theorem faithful_of_counted {Value : Type} {events : List (RegistryEvent Thread UInt64 Value)}
    {registry : Registry Thread UInt64 Value}
    (h : Accepts (Registry.serve (· + 1)) (Registry.new 1) events registry)
    (hbound : (Registry.reservedIds events).length < 2 ^ 64) :
    Registry.Faithful events registry.entries ∧ ∀ id ∈ Registry.reservedIds events, id ≠ 0 := by
  obtain ⟨hids, -⟩ := Registry.reservedIds_of_accepts h
  obtain ⟨hdistinct, hzero⟩ := distinct_ids hbound
  rw [← hids] at hdistinct hzero
  exact ⟨Registry.faithful_of_accepts h hdistinct, hzero⟩

/-! ## Calls among the threads -/

theorem ownEvent_eq_some_iff {thread : Thread} {event : ThreadEvent Thread} {own : FfiEvent} :
    (if event.request.1 = thread then some (⟨event.request.2, event.response⟩ : FfiEvent)
      else none) = some own ↔ event = ⟨(thread, own.request), own.response⟩ := by
  obtain ⟨⟨other, request⟩, response⟩ := event
  by_cases hthread : other = thread
  · subst hthread
    rw [if_pos rfl, Option.some.injEq]
    constructor
    · intro heq
      subst heq
      rfl
    · intro heq
      cases heq
      rfl
  · rw [if_neg hthread]
    constructor
    · nofun
    · intro heq
      cases heq
      exact absurd rfl hthread

theorem mem_ownEvents_iff {thread : Thread} {own : FfiEvent} :
    own ∈ ownEvents thread history ↔ ⟨(thread, own.request), own.response⟩ ∈ history := by
  rw [ownEvents, List.mem_filterMap]
  constructor
  · rintro ⟨event, hmem, hown⟩
    rwa [← ownEvent_eq_some_iff.mp hown]
  · intro hmem
    exact ⟨_, hmem, ownEvent_eq_some_iff.mpr rfl⟩

/-- Where a thread has come to is where the interleaving has come to. -/
theorem ownEvents_eq_append {thread : Thread} {first second : List FfiEvent} {own : FfiEvent}
    (h : ownEvents thread history = first ++ own :: second) :
    ∃ before after, history = before ++ ⟨(thread, own.request), own.response⟩ :: after ∧
      ownEvents thread before = first := by
  obtain ⟨before, rest, rfl, hbefore, hrest⟩ := List.filterMap_eq_append_iff.mp h
  obtain ⟨others, event, after, rfl, hothers, hevent, -⟩ := List.filterMap_eq_cons_iff.mp hrest
  rw [ownEvent_eq_some_iff.mp hevent]
  refine ⟨before ++ others, after, by rw [List.append_assoc], ?_⟩
  rw [ownEvents, List.filterMap_append, hbefore, List.filterMap_eq_nil_iff.mpr hothers,
    List.append_nil]

/-- A stream that a thread stored and then removed is in nobody's registry. -/
theorem absent_of_retracted {thread : Thread} {before segment after : List (ThreadEvent Thread)}
    (h : Accepts serve new (before ++ segment ++ after) shared)
    (hbound : (Registry.reservedIds (streamHistory (before ++ segment ++ after))).length < 2 ^ 64)
    (hretracted : Retracted (ownEvents thread segment)) {id : UInt64} {stream : StreamState}
    (hstored : ⟨.storeStream id stream, ()⟩ ∈ ownEvents thread segment) :
    shared.runtime.streams id = none := by
  obtain ⟨first, present, second, hown, hfirst⟩ := hretracted id stream hstored
  obtain ⟨early, late, rfl, hearly⟩ := ownEvents_eq_append hown
  have hdistinct := (faithful_of_counted (accepts_streams h) hbound).1.distinct
  have hsplit : streamHistory (before ++ (early ++ ⟨(thread, .removeStream id), present⟩ :: late)
      ++ after) = streamHistory (before ++ early) ++ ⟨(thread, .remove id), present⟩
        :: streamHistory (late ++ after) := by
    simp only [streamHistory, List.filterMap_append, List.append_assoc, List.cons_append,
      List.filterMap_cons, ThreadEvent.stream]
  have haccepts := accepts_streams h
  rw [hsplit] at haccepts hdistinct
  refine Registry.absent_of_removed haccepts hdistinct (Registry.mem_storedIds_iff.mpr ?_)
  rw [← hearly] at hfirst
  refine ⟨thread, stream, List.mem_filterMap.mpr
    ⟨_, List.mem_append_right before (mem_ownEvents_iff.mp hfirst), rfl⟩⟩

end SharedRuntime

/-- In every interleaving of any threads, as long as neither counter has come round:
no id is given twice or is zero, no insertion meets an entry, what is looked up,
taken or removed is exactly what was inserted under the id and is still live, and
each entry goes once; a call that returns an error leaves a null pointer and no
entry of its own. -/
theorem registries_faithful [DecidableEq Thread] (toJson : StreamDescriptor → Except String String)
    (fromJson : String → Except String PutOptions) {history : List (ThreadEvent Thread)}
    {shared : SharedRuntime Thread} (hrun : Accepts SharedRuntime.serve .new history shared)
    (hproviders : (Registry.reservedIds (providerHistory history)).length < 2 ^ 64)
    (hstreams : (Registry.reservedIds (streamHistory history)).length < 2 ^ 64) :
    (Registry.Faithful (providerHistory history) shared.runtime.providers ∧
      ∀ id ∈ Registry.reservedIds (providerHistory history), id ≠ 0) ∧
    (Registry.Faithful (streamHistory history) shared.runtime.streams ∧
      ∀ id ∈ Registry.reservedIds (streamHistory history), id ≠ 0) ∧
    ∀ (call : OpenCall) (thread : Thread) (out : OutPointer) (before segment after)
      (code : StorageprimsErrorCode) (out' : OutPointer),
      history = before ++ segment ++ after →
      Trace (call.run toJson fromJson out) (ownEvents thread segment) (.ret (code, out')) →
      code ≠ .ok →
        out' = out.map (fun _ => none) ∧
        (∀ id stream, ⟨.storeStream id stream, ()⟩ ∈ ownEvents thread segment →
          shared.runtime.streams id = none) ∧
        ∀ id provider, ⟨.storeProvider id provider, ()⟩ ∉ ownEvents thread segment := by
  -- both registries are one, at two types of entries
  refine ⟨SharedRuntime.faithful_of_counted (SharedRuntime.accepts_providers hrun) hproviders,
    SharedRuntime.faithful_of_counted (SharedRuntime.accepts_streams hrun) hstreams, ?_⟩
  rintro call thread out before segment after code out' rfl htrace hcode
  obtain ⟨hout, hretracted⟩ := OpenCall.refused htrace hcode
  refine ⟨hout, ?_, ?_⟩
  · intro id stream hstored
    exact SharedRuntime.absent_of_retracted hrun hstreams hretracted hstored
  · intro id provider hstored
    exact (OpenCall.inOrder htrace).no_provider hstored

/-- The serializer's text of a descriptor. -/
def descriptorJson (descriptor : StreamDescriptor) : Except String String :=
  .ok ("\x7b\"stream_id\":" ++ (descriptor.streamId.elim "null" toString) ++ ",\"fd\":"
    ++ toString descriptor.fd ++ ",\"mode\":\"" ++ descriptor.mode ++ "\"\x7d")

def emptyOptions (json : String) : Except String PutOptions :=
  if json = "\x7b\x7d" then .ok .default else .error "expected value at line 1 column 1"

/-- Two insertions cross, one thread takes the other's stream, and a read of an
unknown provider is refused in between. -/
def crossedHistory : List (ThreadEvent Bool) :=
  [⟨(false, .reserveStream), (1 : UInt64)⟩,
    ⟨(true, .reserveStream), (2 : UInt64)⟩,
    ⟨(true, .storeStream 2 (.pendingRead none .get)), ()⟩,
    ⟨(false, .storeStream 1 (.pendingPut none)), ()⟩,
    ⟨(true, .getRuntime 9), Except.ok ()⟩,
    ⟨(false, .takeStream 2), Except.ok (.pendingRead none .get)⟩,
    ⟨(true, .provider 7), Except.error (.invalidArgument none "provider_id"
      "unknown provider id 7")⟩]

def crossedRuntime : SharedRuntime Bool where
  runtime := ((((((FfiRuntime.new.reserveStream).2.reserveStream).2.storeStream 2
    (.pendingRead none .get)).storeStream 1 (.pendingPut none)).takeStream 2).2)
  insertingProvider := fun _ => none
  insertingStream := Function.update (Function.update (Function.update (Function.update
    (fun _ => none) false (some 1)) true (some 2)) true none) false none

theorem registries_faithful_crossed :
    (∀ id stream, crossedRuntime.runtime.streams id = some stream ↔
      Registry.Live (streamHistory crossedHistory) id stream) ∧
    ∀ id stream, ⟨.storeStream id stream, ()⟩ ∈ ownEvents true (crossedHistory.drop 4) →
      crossedRuntime.runtime.streams id = none := by
  have hrun : Accepts SharedRuntime.serve .new crossedHistory crossedRuntime := by
    refine .cons _ _ _ _ _ _ ⟨rfl, rfl, rfl⟩ ?_
    refine .cons _ _ _ _ _ _ ⟨rfl, rfl, rfl⟩ ?_
    refine .cons _ _ _ _ _ _ ⟨rfl, rfl⟩ ?_
    refine .cons _ _ _ _ _ _ ⟨rfl, rfl⟩ ?_
    refine .cons _ _ _ _ _ _ rfl ?_
    refine .cons _ _ _ _ _ _ ⟨rfl, rfl⟩ ?_
    refine .cons _ _ _ _ _ _ ⟨rfl, rfl⟩ ?_
    exact .nil _
  have htrace : Trace ((OpenCall.get 9 7 (some (.ok "notes.txt"))).run descriptorJson emptyOptions
      (some (some "stale"))) (ownEvents true (crossedHistory.drop 4))
      (.ret (.invalidArgument, some none)) :=
    .step _ _ _ _ _ (.step _ _ _ _ _ (.refl _))
  obtain ⟨-, ⟨hstreams, -⟩, hcalls⟩ :=
    registries_faithful descriptorJson emptyOptions hrun (by decide) (by decide)
  exact ⟨hstreams.present,
    (hcalls _ true _ (crossedHistory.take 4) (crossedHistory.drop 4) [] _ _ (by simp) htrace
      (by decide)).2.1⟩

end Storageprims

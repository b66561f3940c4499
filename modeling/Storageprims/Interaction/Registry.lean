import Storageprims.Interaction.Program
import Mathlib.Data.List.Nodup
import Mathlib.Data.List.Range
import Mathlib.Logic.Function.Iterate

/-!
# Registries shared by threads

A registry hands out ids from a counter and keeps one value under each.  Every
access is one step under its lock, but to insert takes two of them: a thread
reserves the next id, and stores its value under that id later.  Between the two
any other thread may step.

Everything is said about the history of a run, the answered requests of all
threads in the order of their steps: which ids it reserved, stored and withdrew,
and which values are therefore live.
-/

namespace Interaction

inductive RegistryRequest (Id Value : Type) where
  | reserve
  | store (id : Id) (value : Value)
  | find (id : Id)
  | take (id : Id)
  | remove (id : Id)

variable {Thread Id Value : Type}

def RegistryResponse : RegistryRequest Id Value → Type
  | .reserve => Id
  | .store _ _ => Unit
  | .find _ => Option Value
  | .take _ => Option Value
  | .remove _ => Bool

/-- An answered request of one thread. -/
abbrev RegistryEvent (Thread Id Value : Type) :=
  Event (Thread × RegistryRequest Id Value) fun request => RegistryResponse request.2

/-- The registry, and for each thread the id it has reserved and not yet stored. -/
structure Registry (Thread Id Value : Type) where
  nextId : Id
  entries : Id → Option Value
  inserting : Thread → Option Id

namespace RegistryEvent

def reservedId : RegistryEvent Thread Id Value → Option Id
  | ⟨(_, .reserve), id⟩ => some id
  | _ => none

def storedId : RegistryEvent Thread Id Value → Option Id
  | ⟨(_, .store id _), _⟩ => some id
  | _ => none

/-- The id whose value the event took out of the registry. -/
def withdrawnId : RegistryEvent Thread Id Value → Option Id
  | ⟨(_, .take id), some _⟩ => some id
  | ⟨(_, .remove id), true⟩ => some id
  | _ => none

end RegistryEvent

namespace Registry

/-- Nothing is stored and nobody is inserting. -/
def new (first : Id) : Registry Thread Id Value := ⟨first, fun _ => none, fun _ => none⟩

section Serve

variable [DecidableEq Thread] [DecidableEq Id]

/-- A reservation opens an insertion of its thread, and a store closes it: a
thread stores only under the id it holds. -/
def serve (next : Id → Id) : Environment (Thread × RegistryRequest Id Value)
    (fun request => RegistryResponse request.2) (Registry Thread Id Value)
  | registry, (thread, .reserve), id, registry' =>
      registry.inserting thread = none ∧ id = registry.nextId ∧
        registry' = { registry with
          nextId := next registry.nextId
          inserting := Function.update registry.inserting thread (some id) }
  | registry, (thread, .store id value), _, registry' =>
      registry.inserting thread = some id ∧
        registry' = { registry with
          entries := Function.update registry.entries id (some value)
          inserting := Function.update registry.inserting thread none }
  | registry, (_, .find id), answer, registry' =>
      answer = registry.entries id ∧ registry' = registry
  | registry, (_, .take id), answer, registry' =>
      answer = registry.entries id ∧
        registry' = { registry with entries := Function.update registry.entries id none }
  | registry, (_, .remove id), present, registry' =>
      present = (registry.entries id).isSome ∧
        registry' = { registry with entries := Function.update registry.entries id none }

end Serve

/-! ## What a history did -/

def reservedIds (history : List (RegistryEvent Thread Id Value)) : List Id :=
  history.filterMap RegistryEvent.reservedId

def storedIds (history : List (RegistryEvent Thread Id Value)) : List Id :=
  history.filterMap RegistryEvent.storedId

def withdrawnIds (history : List (RegistryEvent Thread Id Value)) : List Id :=
  history.filterMap RegistryEvent.withdrawnId

/-- The value was stored under the id and has not been withdrawn. -/
def Live (history : List (RegistryEvent Thread Id Value)) (id : Id) (value : Value) : Prop :=
  (∃ thread, ⟨(thread, .store id value), ()⟩ ∈ history) ∧ id ∉ withdrawnIds history

/-- A history in which no entry is confused, lost or duplicated, and the entries
it leads to. -/
structure Faithful (history : List (RegistryEvent Thread Id Value)) (entries : Id → Option Value) :
    Prop where
  distinct : (reservedIds history).Nodup
  once : (storedIds history).Nodup
  vacant : ∀ {before after thread id value},
    history = before ++ ⟨(thread, .store id value), ()⟩ :: after →
      id ∈ reservedIds before ∧ ∀ other, ¬ Live before id other
  found : ∀ {before after thread id answer},
    history = before ++ ⟨(thread, .find id), answer⟩ :: after →
      ∀ value, answer = some value ↔ Live before id value
  taken : ∀ {before after thread id answer},
    history = before ++ ⟨(thread, .take id), answer⟩ :: after →
      ∀ value, answer = some value ↔ Live before id value
  removed : ∀ {before after thread id present},
    history = before ++ ⟨(thread, .remove id), present⟩ :: after →
      (present = true ↔ ∃ value, Live before id value)
  withdrawn : (withdrawnIds history).Nodup
  present : ∀ id value, entries id = some value ↔ Live history id value

section Histories

variable {history : List (RegistryEvent Thread Id Value)} {event : RegistryEvent Thread Id Value}

@[simp] theorem reservedIds_append (first second : List (RegistryEvent Thread Id Value)) :
    reservedIds (first ++ second) = reservedIds first ++ reservedIds second :=
  List.filterMap_append

@[simp] theorem storedIds_append (first second : List (RegistryEvent Thread Id Value)) :
    storedIds (first ++ second) = storedIds first ++ storedIds second :=
  List.filterMap_append

@[simp] theorem withdrawnIds_append (first second : List (RegistryEvent Thread Id Value)) :
    withdrawnIds (first ++ second) = withdrawnIds first ++ withdrawnIds second :=
  List.filterMap_append

@[simp] theorem reservedIds_singleton (event : RegistryEvent Thread Id Value) :
    reservedIds [event] = event.reservedId.toList := by
  simp only [reservedIds, List.filterMap_cons, List.filterMap_nil]
  cases event.reservedId <;> rfl

@[simp] theorem storedIds_singleton (event : RegistryEvent Thread Id Value) :
    storedIds [event] = event.storedId.toList := by
  simp only [storedIds, List.filterMap_cons, List.filterMap_nil]
  cases event.storedId <;> rfl

@[simp] theorem withdrawnIds_singleton (event : RegistryEvent Thread Id Value) :
    withdrawnIds [event] = event.withdrawnId.toList := by
  simp only [withdrawnIds, List.filterMap_cons, List.filterMap_nil]
  cases event.withdrawnId <;> rfl

theorem reservedIds_snoc_of_none {event : RegistryEvent Thread Id Value}
    (hevent : event.reservedId = none) :
    reservedIds (history ++ [event]) = reservedIds history := by
  rw [reservedIds_append, reservedIds_singleton, hevent, Option.toList_none, List.append_nil]

theorem storedIds_snoc_of_none {event : RegistryEvent Thread Id Value}
    (hevent : event.storedId = none) : storedIds (history ++ [event]) = storedIds history := by
  rw [storedIds_append, storedIds_singleton, hevent, Option.toList_none, List.append_nil]

theorem withdrawnIds_snoc_of_none {event : RegistryEvent Thread Id Value}
    (hevent : event.withdrawnId = none) :
    withdrawnIds (history ++ [event]) = withdrawnIds history := by
  rw [withdrawnIds_append, withdrawnIds_singleton, hevent, Option.toList_none, List.append_nil]

theorem storedId_eq_some_iff {id : Id} :
    event.storedId = some id ↔ ∃ thread value, event = ⟨(thread, .store id value), ()⟩ := by
  constructor
  · intro h
    obtain ⟨⟨thread, request⟩, response⟩ := event
    cases request with
    | store other value =>
        cases h
        exact ⟨thread, value, rfl⟩
    | reserve => cases h
    | find other => cases h
    | take other => cases h
    | remove other => cases h
  · rintro ⟨thread, value, rfl⟩
    rfl

theorem mem_storedIds_iff {id : Id} :
    id ∈ storedIds history ↔ ∃ thread value, ⟨(thread, .store id value), ()⟩ ∈ history := by
  rw [storedIds, List.mem_filterMap]
  constructor
  · rintro ⟨event, hmem, hid⟩
    obtain ⟨thread, value, rfl⟩ := storedId_eq_some_iff.mp hid
    exact ⟨thread, value, hmem⟩
  · rintro ⟨thread, value, hmem⟩
    exact ⟨_, hmem, rfl⟩

/-- What is stored once under an id is one value. -/
theorem stored_unique (h : (storedIds history).Nodup) {thread other : Thread} {id : Id}
    {value found : Value} (hfirst : ⟨(thread, .store id value), ()⟩ ∈ history)
    (hsecond : ⟨(other, .store id found), ()⟩ ∈ history) : value = found := by
  obtain ⟨before, after, rfl⟩ := List.append_of_mem hfirst
  simp only [storedIds, List.filterMap_append, List.filterMap_cons, RegistryEvent.storedId] at h
  obtain ⟨-, hafter, hbefore⟩ := List.nodup_append.mp h
  rcases List.mem_append.mp hsecond with hmem | hmem
  · exact absurd rfl (hbefore id (mem_storedIds_iff.mpr ⟨other, found, hmem⟩) id List.mem_cons_self)
  · rcases List.mem_cons.mp hmem with heq | hmem
    · cases heq
      rfl
    · exact absurd (mem_storedIds_iff.mpr ⟨other, found, hmem⟩) (List.nodup_cons.mp hafter).1

theorem Live.stored {id : Id} {value : Value} (h : Live history id value) :
    id ∈ storedIds history := by
  obtain ⟨⟨thread, hmem⟩, -⟩ := h
  exact mem_storedIds_iff.mpr ⟨thread, value, hmem⟩

/-- An event that stores nothing changes what is live only by what it withdraws. -/
theorem live_append_iff (hstored : event.storedId = none) {id : Id} {value : Value} :
    Live (history ++ [event]) id value ↔ Live history id value ∧ event.withdrawnId ≠ some id := by
  have hmem : (∃ thread, ⟨(thread, .store id value), ()⟩ ∈ history ++ [event]) ↔
      ∃ thread, ⟨(thread, .store id value), ()⟩ ∈ history := by
    refine exists_congr fun thread => ?_
    rw [List.mem_append, List.mem_singleton, or_iff_left]
    intro heq
    rw [← heq] at hstored
    cases hstored
  unfold Live
  rw [hmem, withdrawnIds_append, withdrawnIds_singleton, List.mem_append, Option.mem_toList,
    not_or, and_assoc]

/-- A store under an id that was never stored makes its value live, and no other. -/
theorem live_append_store_iff {thread : Thread} {id : Id} {value : Value}
    (hstored : id ∉ storedIds history) (hwithdrawn : id ∉ withdrawnIds history) {other : Id}
    {found : Value} :
    Live (history ++ [⟨(thread, .store id value), ()⟩]) other found ↔
      (other = id ∧ found = value) ∨ Live history other found := by
  unfold Live
  simp only [List.mem_append, List.mem_singleton, withdrawnIds_append, withdrawnIds_singleton,
    RegistryEvent.withdrawnId, Option.toList_none, List.append_nil]
  constructor
  · intro h
    obtain ⟨⟨other', hmem | hmem⟩, hnot⟩ := h
    · exact .inr ⟨⟨other', hmem⟩, hnot⟩
    · cases hmem
      exact .inl ⟨rfl, rfl⟩
  · intro h
    rcases h with ⟨rfl, rfl⟩ | ⟨⟨other', hmem⟩, hnot⟩
    · exact ⟨⟨thread, .inr rfl⟩, hwithdrawn⟩
    · exact ⟨⟨other', .inl hmem⟩, hnot⟩

end Histories

/-! ## The invariant -/

section Invariant

variable {history : List (RegistryEvent Thread Id Value)} {event : RegistryEvent Thread Id Value}
variable {registry registry' : Registry Thread Id Value}

/-- An id is with the thread that reserved it, then it is stored, and then it may
be withdrawn, each once; the entries are what is live. -/
structure Kept (history : List (RegistryEvent Thread Id Value))
    (registry : Registry Thread Id Value) : Prop where
  inserting : ∀ {thread id}, registry.inserting thread = some id →
    id ∈ reservedIds history ∧ id ∉ storedIds history
  exclusive : ∀ {thread other id}, registry.inserting thread = some id →
    registry.inserting other = some id → thread = other
  reserved : storedIds history ⊆ reservedIds history
  once : (storedIds history).Nodup
  stored : withdrawnIds history ⊆ storedIds history
  withdrawn : (withdrawnIds history).Nodup
  present : ∀ id value, registry.entries id = some value ↔ Live history id value

theorem kept_new (first : Id) :
    Kept ([] : List (RegistryEvent Thread Id Value)) (Registry.new first) where
  inserting h := nomatch h
  exclusive h := nomatch h
  reserved := List.Subset.refl _
  once := List.nodup_nil
  stored := List.Subset.refl _
  withdrawn := List.nodup_nil
  present id value := by simp [Registry.new, Live]

/-- An id without an entry was never stored or has been withdrawn. -/
theorem Kept.vacant (h : Kept history registry) {id : Id} :
    registry.entries id = none ↔ ∀ value, ¬ Live history id value := by
  rw [Option.eq_none_iff_forall_ne_some]
  exact forall_congr' fun value => not_congr (h.present id value)

theorem Kept.reserve [DecidableEq Thread] {thread : Thread} {id : Id} (h : Kept history registry)
    (hfresh : id ∉ reservedIds history) (nextId : Id) :
    Kept (history ++ [⟨(thread, .reserve), id⟩]) { registry with
      nextId := nextId
      inserting := Function.update registry.inserting thread (some id) } := by
  have hstored : storedIds (history ++ [⟨(thread, .reserve), id⟩]) = storedIds history :=
    storedIds_snoc_of_none rfl
  have hwithdrawn : withdrawnIds (history ++ [⟨(thread, .reserve), id⟩])
      = withdrawnIds history := withdrawnIds_snoc_of_none rfl
  have hreserved : reservedIds (history ++ [⟨(thread, .reserve), id⟩])
      = reservedIds history ++ [id] := by
    simp [RegistryEvent.reservedId]
  -- the fresh id is nobody else's, since what others hold was reserved before
  have hother : ∀ {other held}, Function.update registry.inserting thread (some id) other
      = some held → (other = thread ∧ held = id) ∨
        (other ≠ thread ∧ registry.inserting other = some held) := by
    intro other held hheld
    by_cases hsame : other = thread
    · rw [hsame, Function.update_self] at hheld
      exact .inl ⟨hsame, (Option.some.inj hheld).symm⟩
    · rw [Function.update_of_ne hsame] at hheld
      exact .inr ⟨hsame, hheld⟩
  refine ⟨?_, ?_, ?_, ?_, ?_, ?_, ?_⟩
  · intro other held hheld
    rw [hstored, hreserved, List.mem_append]
    rcases hother hheld with ⟨-, rfl⟩ | ⟨-, hold⟩
    · exact ⟨.inr (List.mem_singleton_self _), fun hmem => hfresh (h.reserved hmem)⟩
    · exact ⟨.inl (h.inserting hold).1, (h.inserting hold).2⟩
  · intro first second held hfirst hsecond
    rcases hother hfirst with ⟨hthread, rfl⟩ | ⟨-, hold⟩
    · rcases hother hsecond with ⟨hthread', -⟩ | ⟨-, hold'⟩
      · rw [hthread, hthread']
      · exact absurd (h.inserting hold').1 hfresh
    · rcases hother hsecond with ⟨-, rfl⟩ | ⟨-, hold'⟩
      · exact absurd (h.inserting hold).1 hfresh
      · exact h.exclusive hold hold'
  · rw [hstored, hreserved]
    exact fun _ hmem => List.mem_append_left _ (h.reserved hmem)
  · rw [hstored]
    exact h.once
  · rw [hstored, hwithdrawn]
    exact h.stored
  · rw [hwithdrawn]
    exact h.withdrawn
  · intro other value
    rw [live_append_iff rfl]
    exact (h.present other value).trans (and_iff_left nofun).symm

theorem Kept.store [DecidableEq Thread] [DecidableEq Id] {thread : Thread} {id : Id} {value : Value}
    (h : Kept history registry) (hholds : registry.inserting thread = some id) :
    Kept (history ++ [⟨(thread, .store id value), ()⟩]) { registry with
      entries := Function.update registry.entries id (some value)
      inserting := Function.update registry.inserting thread none } := by
  obtain ⟨hreserved, hunstored⟩ := h.inserting hholds
  have hids : storedIds (history ++ [⟨(thread, .store id value), ()⟩])
      = storedIds history ++ [id] := by
    simp [RegistryEvent.storedId]
  have hwithdrawn : withdrawnIds (history ++ [⟨(thread, .store id value), ()⟩])
      = withdrawnIds history := withdrawnIds_snoc_of_none rfl
  have hsame : reservedIds (history ++ [⟨(thread, .store id value), ()⟩])
      = reservedIds history := reservedIds_snoc_of_none rfl
  have hother : ∀ {other held}, Function.update registry.inserting thread none other = some held →
      other ≠ thread ∧ registry.inserting other = some held := by
    intro other held hheld
    by_cases hthread : other = thread
    · rw [hthread, Function.update_self] at hheld
      cases hheld
    · rw [Function.update_of_ne hthread] at hheld
      exact ⟨hthread, hheld⟩
  -- the stored id leaves the insertions and joins the stored ones, and nothing else moves
  refine ⟨?_, ?_, ?_, ?_, ?_, ?_, ?_⟩
  · intro other held hheld
    obtain ⟨hne, hold⟩ := hother hheld
    rw [hids, hsame, List.mem_append, List.mem_singleton, not_or]
    refine ⟨(h.inserting hold).1, (h.inserting hold).2, ?_⟩
    rintro rfl
    exact hne (h.exclusive hold hholds)
  · intro first second held hfirst hsecond
    exact h.exclusive (hother hfirst).2 (hother hsecond).2
  · rw [hids, hsame]
    refine List.append_subset.mpr ⟨h.reserved, ?_⟩
    intro other hmem
    rwa [List.mem_singleton.mp hmem]
  · rw [hids]
    exact List.nodup_append.mpr ⟨h.once, List.nodup_singleton id, fun a ha b hb hab =>
      hunstored (by rw [← List.mem_singleton.mp hb, ← hab]; exact ha)⟩
  · rw [hids, hwithdrawn]
    exact fun _ hmem => List.mem_append_left _ (h.stored hmem)
  · rw [hwithdrawn]
    exact h.withdrawn
  · intro other found
    rw [live_append_store_iff hunstored fun hmem => hunstored (h.stored hmem)]
    show Function.update registry.entries id (some value) other = some found ↔ _
    by_cases heq : other = id
    · subst heq
      have hnone : ¬ Live history other found := fun hlive => hunstored hlive.stored
      simp [hnone, eq_comm]
    · rw [Function.update_of_ne heq, h.present]
      simp [heq]

/-- An event that neither reserves nor stores, and takes away at most the entry of
an id. -/
theorem Kept.access (h : Kept history registry) (hreserved : event.reservedId = none)
    (hstored : event.storedId = none) {entries : Id → Option Value}
    (hwithdrawn : ∀ id, event.withdrawnId = some id → ∃ value, registry.entries id = some value)
    (hentries : ∀ id value, entries id = some value ↔
      registry.entries id = some value ∧ event.withdrawnId ≠ some id) :
    Kept (history ++ [event]) { registry with entries := entries } := by
  have hids : storedIds (history ++ [event]) = storedIds history :=
    storedIds_snoc_of_none hstored
  have hsame : reservedIds (history ++ [event]) = reservedIds history :=
    reservedIds_snoc_of_none hreserved
  have hlive : ∀ id ∈ withdrawnIds [event], ∃ value, Live history id value := by
    intro id hid
    rw [withdrawnIds_singleton, Option.mem_toList] at hid
    obtain ⟨value, hvalue⟩ := hwithdrawn id hid
    exact ⟨value, (h.present id value).mp hvalue⟩
  refine ⟨?_, h.exclusive, ?_, ?_, ?_, ?_, ?_⟩
  · rw [hids, hsame]
    exact h.inserting
  · rw [hids, hsame]
    exact h.reserved
  · rw [hids]
    exact h.once
  · rw [hids, withdrawnIds_append]
    refine List.append_subset.mpr ⟨h.stored, ?_⟩
    intro id hid
    obtain ⟨value, hvalue⟩ := hlive id hid
    exact hvalue.stored
  · rw [withdrawnIds_append]
    refine List.nodup_append.mpr ⟨h.withdrawn, ?_, ?_⟩
    · rw [withdrawnIds_singleton]
      cases event.withdrawnId <;> simp
    · rintro id hid other hother rfl
      obtain ⟨value, hvalue⟩ := hlive id hother
      exact hvalue.2 hid
  · intro id value
    rw [live_append_iff hstored, ← h.present]
    exact hentries id value

/-- An event that empties an id, whether or not it had an entry. -/
theorem Kept.withdraw [DecidableEq Id] {id : Id} (h : Kept history registry)
    (hreserved : event.reservedId = none) (hstored : event.storedId = none)
    (hwithdrawn : event.withdrawnId = if (registry.entries id).isSome then some id else none) :
    Kept (history ++ [event])
      { registry with entries := Function.update registry.entries id none } := by
  refine h.access hreserved hstored ?_ ?_
  · intro other hother
    rw [hwithdrawn] at hother
    split at hother
    · rename_i hsome
      rw [← Option.some.inj hother]
      exact Option.isSome_iff_exists.mp hsome
    · cases hother
  · intro other value
    rw [hwithdrawn]
    by_cases heq : other = id
    · subst heq
      rw [Function.update_self]
      cases registry.entries other with
      | none => simp
      | some found => simp
    · rw [Function.update_of_ne heq]
      refine (and_iff_left ?_).symm
      split
      · exact fun hsome => heq (Option.some.inj hsome).symm
      · nofun

variable [DecidableEq Thread] [DecidableEq Id] {next : Id → Id}

/-- One answered request keeps the invariant while no id is reserved twice. -/
theorem Kept.step (h : Kept history registry)
    (hserve : serve next registry event.request event.response registry')
    (hdistinct : (reservedIds (history ++ [event])).Nodup) :
    Kept (history ++ [event]) registry' := by
  obtain ⟨⟨thread, request⟩, response⟩ := event
  cases request with
  | reserve =>
      obtain ⟨-, rfl, rfl⟩ := hserve
      refine h.reserve ?_ _
      rw [reservedIds_append, reservedIds_singleton] at hdistinct
      intro hmem
      exact (List.nodup_append.mp hdistinct).2.2 _ hmem _ (List.mem_singleton_self _) rfl
  | store id value =>
      obtain ⟨hholds, rfl⟩ := hserve
      exact h.store hholds
  | find id =>
      obtain ⟨-, rfl⟩ := hserve
      exact h.access rfl rfl nofun fun other value => (and_iff_left nofun).symm
  | take id =>
      obtain ⟨rfl, rfl⟩ := hserve
      refine h.withdraw rfl rfl ?_
      cases hentry : registry.entries id with
      | none => rfl
      | some value => rfl
  | remove id =>
      obtain ⟨rfl, rfl⟩ := hserve
      refine h.withdraw rfl rfl ?_
      cases hentry : registry.entries id with
      | none => rfl
      | some value => rfl

/-- The ids reserved so far are those the counter went through, in order. -/
theorem reservedIds_of_accepts {first : Id}
    (h : Accepts (serve next) (Registry.new first) history registry) :
    reservedIds history = (List.range (reservedIds history).length).map (next^[·] first) ∧
      registry.nextId = next^[(reservedIds history).length] first := by
  induction history using List.reverseRecOn generalizing registry with
  | nil =>
      cases h
      exact ⟨rfl, rfl⟩
  | append_singleton history event ih =>
      obtain ⟨middle, hhistory, hlast⟩ := accepts_append_iff.mp h
      obtain ⟨registry', hserve, hend⟩ := accepts_cons_iff.mp hlast
      cases hend
      obtain ⟨hids, hnext⟩ := ih hhistory
      obtain ⟨⟨thread, request⟩, response⟩ := event
      cases request with
      | reserve =>
          obtain ⟨-, rfl, rfl⟩ := hserve
          have hnew : reservedIds (history ++ [⟨(thread, .reserve), middle.nextId⟩])
              = reservedIds history ++ [middle.nextId] := by
            simp [RegistryEvent.reservedId]
          rw [hnew, List.length_append, List.length_singleton, List.range_succ, List.map_append,
            ← hids, List.map_singleton, ← hnext, Function.iterate_succ_apply', ← hnext]
          exact ⟨rfl, rfl⟩
      | store id value =>
          obtain ⟨-, rfl⟩ := hserve
          rw [reservedIds_snoc_of_none rfl]
          exact ⟨hids, hnext⟩
      | find id =>
          obtain ⟨-, rfl⟩ := hserve
          rw [reservedIds_snoc_of_none rfl]
          exact ⟨hids, hnext⟩
      | take id =>
          obtain ⟨-, rfl⟩ := hserve
          rw [reservedIds_snoc_of_none rfl]
          exact ⟨hids, hnext⟩
      | remove id =>
          obtain ⟨-, rfl⟩ := hserve
          rw [reservedIds_snoc_of_none rfl]
          exact ⟨hids, hnext⟩

/-- Every run in which no id is reserved twice keeps the invariant. -/
theorem kept_of_accepts {first : Id}
    (h : Accepts (serve next) (Registry.new first) history registry)
    (hdistinct : (reservedIds history).Nodup) : Kept history registry := by
  induction history using List.reverseRecOn generalizing registry with
  | nil =>
      cases h
      exact kept_new first
  | append_singleton history event ih =>
      obtain ⟨middle, hhistory, hlast⟩ := accepts_append_iff.mp h
      obtain ⟨registry', hserve, hend⟩ := accepts_cons_iff.mp hlast
      cases hend
      have hbefore : (reservedIds history).Nodup := by
        rw [reservedIds_append] at hdistinct
        exact (List.nodup_append.mp hdistinct).1
      exact (ih hhistory hbefore).step hserve hdistinct

/-- The registry in the middle of a run, and its answer there. -/
theorem kept_before {first : Id} {before after : List (RegistryEvent Thread Id Value)}
    (h : Accepts (serve next) (Registry.new first) (before ++ event :: after) registry)
    (hdistinct : (reservedIds (before ++ event :: after)).Nodup) :
    ∃ middle middle', Kept before middle ∧
      serve next middle event.request event.response middle' := by
  obtain ⟨middle, hbefore, hlater⟩ := accepts_append_iff.mp h
  obtain ⟨middle', hserve, -⟩ := accepts_cons_iff.mp hlater
  rw [reservedIds_append] at hdistinct
  exact ⟨middle, middle', kept_of_accepts hbefore (List.nodup_append.mp hdistinct).1, hserve⟩

/-- A run in which no id is reserved twice is faithful. -/
theorem faithful_of_accepts {first : Id}
    (h : Accepts (serve next) (Registry.new first) history registry)
    (hdistinct : (reservedIds history).Nodup) : Faithful history registry.entries := by
  have hkept := kept_of_accepts h hdistinct
  refine ⟨hdistinct, hkept.once, ?_, ?_, ?_, ?_, hkept.withdrawn, hkept.present⟩
  · rintro before after thread id value rfl
    obtain ⟨middle, -, hbefore, hholds, -⟩ := kept_before h hdistinct
    obtain ⟨hreserved, hunstored⟩ := hbefore.inserting hholds
    exact ⟨hreserved, fun other hlive => hunstored hlive.stored⟩
  · rintro before after thread id answer rfl value
    obtain ⟨middle, -, hbefore, rfl, -⟩ := kept_before h hdistinct
    exact hbefore.present id value
  · rintro before after thread id answer rfl value
    obtain ⟨middle, -, hbefore, rfl, -⟩ := kept_before h hdistinct
    exact hbefore.present id value
  · rintro before after thread id present rfl
    obtain ⟨middle, -, hbefore, rfl, -⟩ := kept_before h hdistinct
    exact Option.isSome_iff_exists.trans (exists_congr fun value => hbefore.present id value)

/-- An id that is removed after its value was stored has no entry any more. -/
theorem absent_of_removed {first : Id} {before after : List (RegistryEvent Thread Id Value)}
    {thread : Thread} {id : Id} {present : Bool}
    (h : Accepts (serve next) (Registry.new first)
      (before ++ ⟨(thread, .remove id), present⟩ :: after) registry)
    (hdistinct : (reservedIds (before ++ ⟨(thread, .remove id), present⟩ :: after)).Nodup)
    (hstored : id ∈ storedIds before) : registry.entries id = none := by
  have hkept := kept_of_accepts h hdistinct
  obtain ⟨middle, -, hbefore, hanswer, -⟩ := kept_before h hdistinct
  have honce := hkept.once
  rw [storedIds_append] at honce
  rw [Option.eq_none_iff_forall_ne_some]
  intro value hvalue
  obtain ⟨⟨writer, hmem⟩, hnot⟩ := (hkept.present id value).mp hvalue
  rw [withdrawnIds_append, List.mem_append, not_or] at hnot
  -- what is live at the end was stored before the removal, as nothing is stored twice
  have hearly : (⟨(writer, .store id value), ()⟩ : RegistryEvent Thread Id Value) ∈ before := by
    rcases List.mem_append.mp hmem with hbefore | hlater
    · exact hbefore
    · exact absurd rfl
        ((List.nodup_append.mp honce).2.2 id hstored id (mem_storedIds_iff.mpr ⟨_, _, hlater⟩))
  have hentry := (hbefore.present id value).mpr ⟨⟨writer, hearly⟩, hnot.1⟩
  have hpresent : present = true := hanswer.trans (Option.isSome_iff_exists.mpr ⟨value, hentry⟩)
  refine hnot.2 (List.mem_filterMap.mpr ⟨_, List.mem_cons_self, ?_⟩)
  rw [hpresent]
  rfl

end Invariant

end Registry

end Interaction

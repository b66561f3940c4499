import Storageprims.S3.Wire

/-!
# The provider refines the guarded store

Each reader that the provider has handed out owes its caller the bytes of one window, and
its stream conveys them.  With that invariant every answer about a key is one that the
guarded store of the key could give, whatever other clients write; so what holds of every
run against that store holds of every run over the service.
-/

namespace Storageprims

open Interaction
open DeclaredLengthRead (pollRead)

/-! ## Reading a body -/

/-- A reader waits for exactly these bytes, and its stream conveys them. -/
structure Awaiting (this : DeclaredLengthRead) (streams : Serving) (bytes : List UInt8) :
    Prop where
  remaining : this.remaining = some bytes.length
  conveys : Conveys bytes (streams.bodies this.reader)

/-- What is left of the awaited bytes behind a poll: it hands out the front of them, and
nothing only to an empty buffer or at their end; or it hands out nothing. -/
def Takes (capacity : Nat) (bytes : List UInt8) (out : Poll (Except IoError (List UInt8)))
    (rest : List UInt8) : Prop :=
  (∃ chunk, out = .ready (.ok chunk) ∧ chunk.length ≤ capacity ∧ bytes = chunk ++ rest ∧
    (chunk = [] → 0 < capacity → rest = [])) ∨
  ((out = .pending ∨ ∃ error, out = .ready (.error error)) ∧ rest = bytes)

/-- Only the stream of one reader has moved. -/
def OnlyMoves (reader : ReaderId) (streams streams' : Serving) : Prop :=
  ∀ other, other ≠ reader → streams'.bodies other = streams.bodies other

theorem onlyMoves_set (reader : ReaderId) (streams : Serving) (rest : List UInt8) :
    OnlyMoves reader streams (streams.set reader rest) :=
  fun _ hother => if_neg hother

/-- A read that returned took the front of its stream. -/
theorem transport_ok {streams streams' : Serving} {request : InnerRead}
    {chunk : Chunk request.capacity}
    (h : transport streams request (.ready (.ok chunk)) streams') :
    ∃ rest, streams.bodies request.reader = chunk.val ++ rest ∧
      (chunk.val = [] → 0 < request.capacity → rest = []) ∧
      streams' = streams.set request.reader rest := by
  rcases h with ⟨other, rest, hready, hstream, hend, rfl⟩ | ⟨hpending | ⟨error, herror⟩, -⟩
  · cases hready
    exact ⟨rest, hstream, hend, rfl⟩
  · cases hpending
  · cases herror

/-- A read that did not return left its stream alone. -/
theorem transport_quiet {streams streams' : Serving} {request : InnerRead}
    {answer : InnerAnswer request} (hnone : filled answer = none)
    (h : transport streams request answer streams') : streams' = streams := by
  rcases h with ⟨chunk, rest, rfl, -⟩ | ⟨-, hsame⟩
  · cases hnone
  · exact hsame

theorem Serving.set_self (serving : Serving) (reader : ReaderId) :
    serving.set reader (serving.bodies reader) = serving := by
  unfold set
  congr 1
  funext other
  by_cases hother : other = reader
  · rw [if_pos hother, hother]
  · rw [if_neg hother]

theorem bytesOf_ok {capacity : Nat} {answer : Awaited (Except IoError (Chunk capacity))}
    {bytes : List UInt8} (h : bytesOf answer = .ready (.ok bytes)) :
    ∃ chunk, answer = .ready (.ok chunk) ∧ chunk.val = bytes := by
  cases answer with
  | elapsed => cases h
  | ready result =>
      cases result with
      | error error => cases h
      | ok chunk =>
          cases h
          exact ⟨chunk, rfl, rfl⟩

theorem fault_of_bytesOf {capacity : Nat} {answer : Awaited (Except IoError (Chunk capacity))}
    (h : Fault (bytesOf answer)) : Fault answer := by
  cases answer with
  | elapsed => exact .inl rfl
  | ready result =>
      cases result with
      | error error => exact .inr ⟨error, rfl⟩
      | ok chunk =>
          rcases h with helapsed | ⟨error, herror⟩
          · cases helapsed
          · cases herror

section Reads

variable {this this' : DeclaredLengthRead} {streams streams' : Serving} {bytes : List UInt8}
variable {capacity : Nat} {events : List (Event InnerRead InnerAnswer)}

/-- A poll takes the awaited bytes from their front, whatever the stream carries. -/
theorem Awaiting.poll {result : Except Failure (Poll (Except IoError (List UInt8)))}
    (h : Awaiting this streams bytes)
    (hpoll : Trace (pollRead capacity this) events (.ret (result, this')))
    (haccepts : Accepts transport streams events streams') :
    ∃ out rest, result = .ok out ∧ Takes capacity bytes out rest ∧
      Awaiting this' streams' rest ∧ this'.reader = this.reader ∧
      OnlyMoves this.reader streams streams' := by
  obtain ⟨out, rfl, hstep⟩ := pollRead_step h.remaining hpoll
  cases hstep with
  | idle hnothing =>
      cases haccepts
      refine ⟨_, bytes, rfl, .inl ⟨[], rfl, Nat.zero_le _, rfl, fun _ hroom => ?_⟩, h, rfl,
        fun _ _ => rfl⟩
      rcases hnothing with ⟨hlast, -⟩ | ⟨-, hnone⟩
      · exact List.length_eq_zero_iff.mp hlast
      · omega
  | pending room =>
      obtain rfl := transport_quiet rfl (accepts_single_iff.mp haccepts)
      exact ⟨_, bytes, rfl, .inr ⟨.inl rfl, rfl⟩, h, rfl, fun _ _ => rfl⟩
  | failed room error =>
      obtain rfl := transport_quiet rfl (accepts_single_iff.mp haccepts)
      exact ⟨_, bytes, rfl, .inr ⟨.inr ⟨error, rfl⟩, rfl⟩, h, rfl, fun _ _ => rfl⟩
  | ended hlast probe hprobe =>
      obtain rfl := List.length_eq_zero_iff.mp hlast
      obtain ⟨rest, -, -, rfl⟩ := transport_ok (accepts_single_iff.mp haccepts)
      exact ⟨_, [], rfl, .inl ⟨[], rfl, Nat.zero_le _, rfl, fun _ _ => rfl⟩,
        ⟨h.remaining, .inr List.nil_prefix⟩, rfl, onlyMoves_set _ _ _⟩
  -- the stream runs on behind the awaited bytes, which have all been handed out
  | overrun hlast hopen probe hprobe =>
      obtain rfl := List.length_eq_zero_iff.mp hlast
      obtain ⟨rest, -, -, rfl⟩ := transport_ok (accepts_single_iff.mp haccepts)
      exact ⟨_, [], rfl, .inr ⟨.inr ⟨_, rfl⟩, rfl⟩, ⟨h.remaining, .inr List.nil_prefix⟩, rfl,
        onlyMoves_set _ _ _⟩
  | truncated hmore hroom temporary htemporary =>
      obtain ⟨rest, -, hend, rfl⟩ := transport_ok (accepts_single_iff.mp haccepts)
      have hrest : rest = [] := hend htemporary (by show 0 < min _ _; omega)
      refine ⟨_, bytes, rfl, .inr ⟨.inr ⟨_, rfl⟩, rfl⟩, ⟨h.remaining, .inl ?_⟩, rfl,
        onlyMoves_set _ _ _⟩
      rw [Serving.bodies_set, hrest]
      exact List.nil_prefix
  | passed hmore temporary htemporary =>
      obtain ⟨rest, hstream, -, rfl⟩ := transport_ok (accepts_single_iff.mp haccepts)
      have hshort : temporary.val.length ≤ min capacity bytes.length := temporary.property
      have hconveys := h.conveys
      rw [hstream] at hconveys
      obtain ⟨left, hbytes, hleft⟩ := hconveys.advance (by omega)
      have hlength := congrArg List.length hbytes
      rw [List.length_append] at hlength
      refine ⟨_, left, rfl, .inl ⟨_, rfl, by omega, hbytes, fun hnil => absurd hnil htemporary⟩,
        ⟨congrArg some (by omega), ?_⟩, rfl, onlyMoves_set _ _ _⟩
      show Conveys left ((streams.set this.reader rest).bodies this.reader)
      rwa [Serving.bodies_set]

/-- So does a read, however often it has to poll. -/
theorem Awaiting.read {answer : Awaited (Except IoError (List UInt8))}
    (h : Awaiting this streams bytes)
    (hread : ReadsUntil capacity this streams answer this' streams') :
    ∃ rest, ((∃ chunk, answer = .ready (.ok chunk) ∧ chunk.length ≤ capacity ∧
          bytes = chunk ++ rest ∧ (chunk = [] → 0 < capacity → rest = [])) ∨
        (Fault answer ∧ rest = bytes)) ∧
      Awaiting this' streams' rest ∧ this'.reader = this.reader ∧
      OnlyMoves this.reader streams streams' := by
  induction hread with
  | elapsed this streams => exact ⟨bytes, .inr ⟨.inl rfl, rfl⟩, h, rfl, fun _ _ => rfl⟩
  | again this middle final streams streams₁ streams₂ events answer hpoll hstreams hrest ih =>
      obtain ⟨out, rest, hout, htakes, hawaiting, hreader, hmoves⟩ := h.poll hpoll hstreams
      cases hout
      -- a poll that is pending has taken nothing
      obtain rfl : rest = bytes := by
        rcases htakes with ⟨_, hready, -⟩ | ⟨-, hsame⟩
        · cases hready
        · exact hsame
      obtain ⟨left, hleft, hawaiting', hreader', hmoves'⟩ := ih hawaiting
      refine ⟨left, hleft, hawaiting', hreader'.trans hreader, fun other hother => ?_⟩
      rw [hmoves' other (hreader ▸ hother), hmoves other hother]
  | ready this final streams streams₁ events result hpoll hstreams =>
      obtain ⟨out, rest, hout, htakes, hawaiting, hreader, hmoves⟩ := h.poll hpoll hstreams
      cases hout
      refine ⟨rest, ?_, hawaiting, hreader, hmoves⟩
      rcases htakes with ⟨chunk, hchunk, hshort, hbytes, hend⟩ | ⟨hnothing, rfl⟩
      · cases hchunk
        exact .inl ⟨chunk, rfl, hshort, hbytes, hend⟩
      · rcases hnothing with hpending | ⟨error, herror⟩
        · cases hpending
        · cases herror
          exact .inr ⟨.inr ⟨error, rfl⟩, rfl⟩

end Reads

/-! ## One key of the bucket -/

/-- A store without objects. -/
def Store.empty (serving : Serving) : Store where
  written := fun _ => []
  current := fun _ => none
  serving := serving
  current_written := nofun
  native_names := nofun
  validator_names := nofun

/-- The object of one full key on its own, under the key of a caller. -/
def Store.under (store : Store) (full key : String) (serving : Serving) : Store :=
  (Store.empty serving).replace key (store.written full) (store.current full) serving
    (store.keeps full)

@[simp] theorem Store.under_written (store : Store) (full key : String) (serving : Serving) :
    (store.under full key serving).written =
      Function.update (fun _ => []) key (store.written full) := rfl

@[simp] theorem Store.under_current (store : Store) (full key : String) (serving : Serving) :
    (store.under full key serving).current =
      Function.update (fun _ => none) key (store.current full) := rfl

/-- The bodies that the readers handed out still owe their callers. -/
def Wire.Owes (wire : Wire) (serving : Serving) : Prop :=
  ∀ reader this, wire.readers reader = some this →
    this.reader = reader ∧ Awaiting this wire.store.serving (serving.bodies reader)

/-- The store that a caller of one key sees. -/
def S3Provider.Shows (provider : S3Provider) (key : String) (wire : Wire) (store : Store) : Prop :=
  ∃ serving, wire.Owes serving ∧
    store = wire.store.under (joinKey provider.rootPrefix key) key serving

/-- The request concerns no key but this one. -/
def Request.Concerns (key : String) : Request → Prop
  | .now => True
  | .read _ _ => True
  | .observeSource other => other = key
  | .guardedHead selection => selection.key = key
  | .guardedGetRange range => range.selection.key = key
  | _ => False

section View

variable {store before after : Store} {full key : String} {serving : Serving}
variable {selection : GuardedReadSelection} {version : Version}

theorem Store.under_congr (hwritten : before.written full = after.written full)
    (hcurrent : before.current full = after.current full) :
    before.under full key serving = after.under full key serving := by
  simp only [under, hwritten, hcurrent]

/-- A write to the key is seen there, and any other write is not. -/
theorem Store.Writes.under (h : before.Writes after) :
    Relation.ReflTransGen Store.Writes (before.under full key serving)
      (after.under full key serving) := by
  cases h with
  | put other version hwritten hcurrent hserving =>
      by_cases hkey : full = other
      · subst hkey
        refine .single (.put _ _ key version ?_ ?_ rfl)
        · simp [hwritten]
        · simp [hcurrent]
      · have hsame : before.under full key serving = after.under full key serving := by
          apply Store.under_congr
          · rw [hwritten, Function.update_of_ne hkey]
          · rw [hcurrent, Function.update_of_ne hkey]
        rw [hsame]
  | delete other hwritten hcurrent hserving =>
      by_cases hkey : full = other
      · subst hkey
        refine .single (.delete _ _ key ?_ ?_ rfl)
        · simp [hwritten]
        · simp [hcurrent]
      · have hsame : before.under full key serving = after.under full key serving := by
          apply Store.under_congr
          · rw [hwritten]
          · rw [hcurrent, Function.update_of_ne hkey]
        rw [hsame]

theorem Store.writes_under (h : Relation.ReflTransGen Store.Writes before after) :
    Relation.ReflTransGen Store.Writes (before.under full key serving)
      (after.under full key serving) := by
  induction h with
  | refl => exact .refl
  | tail _ hwrite ih => exact ih.trans hwrite.under

theorem Store.enforces_under (h : store.Selects full (some selection.selector) version) :
    (store.under full selection.key serving).Enforces selection version := by
  rw [Enforces]
  cases hselector : selection.selector with
  | nativeVersion token =>
      rw [hselector] at h
      obtain ⟨hwritten, hnative⟩ := h
      exact ⟨by simpa using hwritten, hnative⟩
  | validatorMatch token =>
      rw [hselector] at h
      obtain ⟨hcurrent, hvalidator⟩ := h
      exact ⟨by simpa using hcurrent, hvalidator⟩

/-- One reader moves on, and its caller is owed what it awaits. -/
theorem Wire.Owes.update {wire : Wire} {streams : Serving} {this : DeclaredLengthRead}
    {rest : List UInt8} (h : wire.Owes serving)
    (hmoves : OnlyMoves this.reader wire.store.serving streams)
    (hawaiting : Awaiting this streams rest) :
    Wire.Owes ⟨wire.store.withServing streams,
      Function.update wire.readers this.reader (some this)⟩ (serving.set this.reader rest) := by
  intro other found hfound
  by_cases hother : other = this.reader
  · subst hother
    obtain rfl : this = found := Option.some.inj (by simpa using hfound)
    refine ⟨rfl, ?_⟩
    rw [Serving.bodies_set]
    exact hawaiting
  · obtain ⟨rfl, howed⟩ := h other found (by simpa [Function.update_of_ne hother] using hfound)
    refine ⟨rfl, ?_⟩
    rw [onlyMoves_set this.reader serving rest found.reader hother]
    refine ⟨howed.remaining, ?_⟩
    show Conveys _ (streams.bodies found.reader)
    rw [hmoves found.reader hother]
    exact howed.conveys

end View

theorem Request.Carries.concerns {selection : GuardedReadSelection} {request : Request}
    (h : request.Carries selection) : request.Concerns selection.key := by
  cases request with
  | now => trivial
  | read reader capacity => trivial
  | guardedHead other => exact congrArg GuardedReadSelection.key h
  | guardedGetRange range => exact congrArg GuardedReadSelection.key h
  | observeSource other => exact h.elim
  | guardedGet other => exact h.elim
  | head other => exact h.elim
  | get other => exact h.elim
  | getRange range => exact h.elim

/-- A run that observes a key concerns no other. -/
theorem Observed.concerns {key : String} {transcript : Transcript}
    (observed : Observed key transcript) :
    ∀ event ∈ transcript, event.request.request.Concerns key := by
  intro event hevent
  rw [observed.split] at hevent
  rcases List.mem_append.mp hevent with hclock | hrest
  · rw [show event.request.request = .now from observed.before_clock event hclock]
    trivial
  rcases List.mem_cons.mp hrest with rfl | hafter
  · exact rfl
  · rw [← observed.key_eq]
    exact (observed.after_carries event hafter).concerns

namespace S3Provider

variable {provider : S3Provider} {key : String} {wire wire' : Wire} {store : Store}

/-- Writers do not touch what the readers owe. -/
theorem Shows.writes {written : Store} (h : provider.Shows key wire store)
    (hwrites : Relation.ReflTransGen Store.Writes wire.store written) :
    ∃ store', Relation.ReflTransGen Store.Writes store store' ∧
      provider.Shows key ⟨written, wire.readers⟩ store' := by
  obtain ⟨serving, howes, rfl⟩ := h
  refine ⟨_, Store.writes_under hwrites, serving, fun reader this hreader => ?_, rfl⟩
  rw [(Store.keeps_of_writes hwrites).1]
  exact howes reader this hreader

section Requests

variable {ledger : Option InspectionLedger} {selection : GuardedReadSelection}
variable {range : GuardedRangeRequest}

/-- A poll of a reader takes off what it owes. -/
theorem Shows.read {reader : ReaderId} {capacity : Nat}
    {answer : Reply ⟨ledger, .read reader capacity⟩} (h : provider.Shows key wire store)
    (hanswer : provider.answers wire ⟨ledger, .read reader capacity⟩ answer wire') :
    ∃ store', store.answers ⟨ledger, .read reader capacity⟩ answer store' ∧
      provider.Shows key wire' store' := by
  obtain ⟨serving, howes, rfl⟩ := h
  rcases hanswer with ⟨helapsed, rfl⟩ | ⟨this, this', streams, hreader, hread, rfl⟩
  · exact ⟨_, .inr ⟨.inl helapsed, rfl⟩, serving, howes, rfl⟩
  obtain ⟨rfl, hawaiting⟩ := howes reader this hreader
  obtain ⟨rest, htaken, hawaiting', hsame, hmoves⟩ := hawaiting.read hread
  have howes' := howes.update (hsame ▸ hmoves) hawaiting'
  rw [hsame] at howes'
  refine ⟨(wire.store.under (joinKey provider.rootPrefix key) key serving).withServing
    (serving.set this.reader rest), ?_, _, howes', rfl⟩
  rcases htaken with ⟨bytes, hbytes, hshort, howed, hend⟩ | ⟨hfault, rfl⟩
  · obtain ⟨chunk, hready, rfl⟩ := bytesOf_ok hbytes
    exact .inl ⟨chunk, rest, hready, howed, hend, rfl⟩
  · refine .inr ⟨fault_of_bytesOf hfault, ?_⟩
    rw [Serving.set_self]
    rfl

/-- An observation names the version that is current under the key. -/
theorem Shows.observeSource {answer : Reply ⟨ledger, .observeSource key⟩}
    (h : provider.Shows key wire store)
    (hanswer : provider.answers wire ⟨ledger, .observeSource key⟩ answer wire') :
    ∃ store', store.answers ⟨ledger, .observeSource key⟩ answer store' ∧
      provider.Shows key wire' store' := by
  obtain ⟨serving, howes, rfl⟩ := h
  obtain ⟨rfl, helapsed | ⟨service, htruthful, hready⟩⟩ := hanswer
  · exact ⟨_, ⟨rfl, .inr (.inl helapsed)⟩, serving, howes, rfl⟩
  refine ⟨_, ⟨rfl, ?_⟩, serving, howes, rfl⟩
  cases hobserved : provider.observeSource service.reply key with
  | error error => exact .inr (.inr ⟨error, by rw [← hobserved]; exact hready⟩)
  | ok observation =>
      obtain ⟨version, hcurrent, hnames⟩ := observeSource_names htruthful hobserved
      refine .inl ⟨observation, version, by rw [← hobserved]; exact hready, ?_, hnames⟩
      simpa using hcurrent

/-- A guarded head states no size but that of a version that the selection enforces. -/
theorem Shows.guardedHead {answer : Reply ⟨ledger, .guardedHead selection⟩}
    (h : provider.Shows selection.key wire store)
    (hanswer : provider.answers wire ⟨ledger, .guardedHead selection⟩ answer wire') :
    ∃ store', store.answers ⟨ledger, .guardedHead selection⟩ answer store' ∧
      provider.Shows selection.key wire' store' := by
  obtain ⟨serving, howes, rfl⟩ := h
  obtain ⟨rfl, helapsed | ⟨service, htruthful, hready⟩⟩ := hanswer
  · exact ⟨_, ⟨rfl, .inr (.inl helapsed)⟩, serving, howes, rfl⟩
  refine ⟨_, ⟨rfl, ?_⟩, serving, howes, rfl⟩
  cases hhead : provider.guardedHead service.reply selection with
  | error error => exact .inr (.inr ⟨error, by rw [← hhead]; exact hready⟩)
  | ok receipt =>
      obtain ⟨version, hselects, hsize⟩ := guardedHead_sizes htruthful hhead
      exact .inl ⟨receipt, version, by rw [← hhead]; exact hready,
        Store.enforces_under hselects, hsize⟩

/-- A new reader owes the requested window of a version that the selection enforces. -/
theorem Shows.guardedGetRange {answer : Reply ⟨ledger, .guardedGetRange range⟩}
    (h : provider.Shows range.selection.key wire store)
    (hanswer : provider.answers wire ⟨ledger, .guardedGetRange range⟩ answer wire') :
    ∃ store', store.answers ⟨ledger, .guardedGetRange range⟩ answer store' ∧
      provider.Shows range.selection.key wire' store' := by
  obtain ⟨serving, howes, rfl⟩ := h
  rcases hanswer with ⟨helapsed, rfl⟩ | ⟨service, htruthful, hconcludes⟩
  · exact ⟨_, .inr ⟨.inl helapsed, rfl⟩, serving, howes, rfl⟩
  cases hget : provider.guardedGetRange service.reply range with
  | error error =>
      rw [hget] at hconcludes
      obtain ⟨hready, rfl⟩ := hconcludes
      exact ⟨_, .inr ⟨.inr ⟨error, hready⟩, rfl⟩, serving, howes, rfl⟩
  | ok accepted =>
      rw [hget] at hconcludes
      obtain ⟨hready, rfl⟩ := hconcludes
      obtain ⟨version, hselects, hsatisfiable, hdescribes, hremaining, hconveys⟩ :=
        guardedGetRange_describes htruthful hget
      have hawaiting : Awaiting accepted.reader
          (wire.store.serving.set accepted.reader.reader
            (service.stream accepted.reader.reader))
          ((version.bytes.drop range.offset).take range.length) :=
        ⟨hremaining, by rwa [Serving.bodies_set]⟩
      exact ⟨_, .inl ⟨_, version, hready, Store.enforces_under hselects, hsatisfiable,
        hdescribes, rfl⟩, _, howes.update (onlyMoves_set _ _ _) hawaiting, rfl⟩

end Requests

/-- One answer of the provider is one answer of the store that the key shows. -/
theorem Shows.answer {event : Event Step Reply} (h : provider.Shows key wire store)
    (hconcerns : event.request.request.Concerns key)
    (hanswer : provider.answers wire event.request event.response wire') :
    ∃ store', store.answers event.request event.response store' ∧
      provider.Shows key wire' store' := by
  obtain ⟨⟨ledger, request⟩, reply⟩ := event
  cases request with
  | now =>
      obtain rfl := hanswer
      exact ⟨_, rfl, h⟩
  | read reader capacity => exact h.read hanswer
  | observeSource other =>
      obtain rfl : other = key := hconcerns
      exact h.observeSource hanswer
  | guardedHead selection =>
      obtain rfl : selection.key = key := hconcerns
      exact h.guardedHead hanswer
  | guardedGetRange range =>
      obtain rfl : range.selection.key = key := hconcerns
      exact h.guardedGetRange hanswer
  | guardedGet selection => exact hconcerns.elim
  | head other => exact hconcerns.elim
  | get other => exact hconcerns.elim
  | getRange range => exact hconcerns.elim

theorem Shows.step {event : Event Step Reply} (h : provider.Shows key wire store)
    (hconcerns : event.request.request.Concerns key)
    (hstep : provider.overBucket wire event.request event.response wire') :
    ∃ store', shared store event.request event.response store' ∧
      provider.Shows key wire' store' := by
  obtain ⟨written, hwrites, hanswer⟩ := hstep
  obtain ⟨middle, hseen, hmiddle⟩ := h.writes hwrites
  obtain ⟨store', hanswer', hshows⟩ := hmiddle.answer hconcerns hanswer
  exact ⟨store', ⟨middle, hseen, hanswer'⟩, hshows⟩

/-- Over any truthful service, and however other clients write to the bucket, the provider
gives no answers about a key that the guarded store of that key would not give. -/
theorem refines_shared {transcript : Transcript} (hshows : provider.Shows key wire store)
    (hconcerns : ∀ event ∈ transcript, event.request.request.Concerns key)
    (haccepts : Accepts provider.overBucket wire transcript wire') :
    ∃ store', Accepts shared store transcript store' ∧ provider.Shows key wire' store' :=
  haccepts.simulate
    (fun event hevent _ _ _ hshown hstep => hshown.step (hconcerns event hevent) hstep) hshows

/-- A bucket whose bodies have all been dropped shows every key. -/
theorem shows_of_fresh (hfresh : ∀ reader, wire.readers reader = none) (key : String) :
    ∃ store, provider.Shows key wire store := by
  refine ⟨_, ⟨fun _ => []⟩, fun reader this hreader => ?_, rfl⟩
  rw [hfresh reader] at hreader
  cases hreader

/-- What the bucket held under the key when the source was observed, and the same transcript
against that version. -/
theorem mirrored_over_bucket {transcript : Transcript} (observed : Observed key transcript)
    (hfresh : ∀ reader, wire.readers reader = none)
    (haccepts : Accepts provider.overBucket wire transcript wire') :
    ∃ (seen : Wire) (version : Version) (start serving : Serving),
      Accepts provider.overBucket wire
        (observed.before ++ [⟨⟨observed.ledger, .observeSource key⟩,
          .ready (.ok observed.observation)⟩]) seen ∧
      seen.store.current (joinKey provider.rootPrefix key) = some version ∧
      version.Names observed.observation.receipt ∧
      Accepts (holds version.bytes (StatesTotals transcript) none) start transcript serving := by
  have hconcerns := observed.concerns
  rw [observed.split_opening, List.forall_mem_append] at hconcerns
  rw [observed.split_opening] at haccepts
  obtain ⟨seen, hopening, hafter⟩ := accepts_append_iff.mp haccepts
  obtain ⟨store, hshows⟩ := provider.shows_of_fresh hfresh key
  obtain ⟨store₁, hopening₁, hshows₁⟩ := hopening.simulate
    (fun event hevent _ _ _ hshown hstep => hshown.step (hconcerns.1 event hevent) hstep) hshows
  obtain ⟨store₂, hafter₂, -⟩ := hafter.simulate
    (fun event hevent _ _ _ hshown hstep => hshown.step (hconcerns.2 event hevent) hstep) hshows₁
  obtain ⟨version, serving, hcurrent, hnames, hserves⟩ :=
    observed.mirrored_from hopening₁ hafter₂
  refine ⟨seen, version, store.serving, serving, hopening, ?_, hnames, hserves⟩
  obtain ⟨_, -, rfl⟩ := hshows₁
  simpa using hcurrent

/-- A run of a bounded operation over the service computes its answer from one version:
the one that was current under the resolved key when the source was observed, although
other clients may write, and streams break off or run on, at any later time.  Where the
service states every total, the answer is exact. -/
theorem answers_from_observed {call : Call} {transcript : Transcript} {answer : Answer}
    (hkey : call.key = some key) (hfresh : ∀ reader, wire.readers reader = none)
    (hrun : Run provider.overBucket wire call.session transcript (.ok answer)) :
    ∃ (observed : Observed key transcript) (seen : Wire) (version : Version),
      Accepts provider.overBucket wire
        (observed.before ++ [⟨⟨observed.ledger, .observeSource key⟩,
          .ready (.ok observed.observation)⟩]) seen ∧
      seen.store.current (joinKey provider.rootPrefix key) = some version ∧
      version.Names observed.observation.receipt ∧
      call.Computes version.bytes (StatesTotals transcript) answer := by
  obtain ⟨ledger, final, htrace, haccepts⟩ := hrun
  obtain ⟨observed⟩ := Call.observed hkey htrace
  obtain ⟨seen, version, start, serving, hopening, hcurrent, hnames, hserves⟩ :=
    mirrored_over_bucket observed hfresh haccepts
  exact ⟨observed, seen, version, hopening, hcurrent, hnames,
    (Call.yields hkey).of_held_run ⟨ledger, serving, htrace, hserves⟩⟩

end S3Provider

/-! ## A race -/

def Version.isLetter (version : Version) : Bool :=
  version.native = some "v1" && version.validator = none && version.bytes = letter.bytes

def letterResponse (contentRange : Option String) : ServiceResponse :=
  ⟨some 206, none, some "v1", none, some 1, contentRange, none, none, none, 0⟩

/-- A service that answers from one-byte versions named `v1`, and fails otherwise. -/
def letters (store : Store) : Service where
  reply call :=
    let absent : Except StorageError ServiceResponse :=
      .error (.other (some .s3) none "S3 request failed")
    match call with
    | .headObject target none =>
        if (store.current target.location.key).any Version.isLetter then .ok (letterResponse none)
        else absent
    | .headObject target (some (.nativeVersion token)) =>
        if token = "v1" ∧ (store.written target.location.key).any Version.isLetter then
          .ok (letterResponse none)
        else absent
    | .getObject target _ (some (.nativeVersion token)) =>
        if token = "v1" ∧ (store.written target.location.key).any Version.isLetter then
          .ok (letterResponse (some "bytes 0-0/1"))
        else absent
    | _ => absent
  stream _ := letter.bytes

/-- What the service says of a letter is true of it. -/
theorem Version.describes_letter {version : Version} (h : version.isLetter) :
    version.Signs (letterResponse none) ∧ version.Signs (letterResponse (some "bytes 0-0/1")) ∧
      version.native = some "v1" ∧
      (∀ length ∈ (letterResponse none).contentLength, length.toInt = version.bytes.length) ∧
      DescribesBody version.bytes (letterResponse (some "bytes 0-0/1")) letter.bytes := by
  simp only [isLetter, Bool.and_eq_true, decide_eq_true_eq] at h
  obtain ⟨⟨hnative, hvalidator⟩, hbytes⟩ := h
  refine ⟨⟨?_, hvalidator.symm⟩, ⟨?_, hvalidator.symm⟩, hnative, ?_, 0, 0, some 1, ?_, ?_, ?_, ?_⟩
  · rw [hnative]
    rfl
  · rw [hnative]
    rfl
  · rintro length hlength
    rw [hbytes, ← Option.some.inj hlength]
    rfl
  · have hzero : Str.Denotes "0" 0 := ⟨by decide, List.forall_mem_singleton.mpr rfl, rfl⟩
    have hone : Str.Denotes "1" 1 := ⟨by decide, List.forall_mem_singleton.mpr rfl, rfl⟩
    exact ⟨"0", "0", "1", rfl,
      ⟨hzero, hzero, Nat.le_refl 0, by decide, ⟨hone, by decide, by decide⟩⟩⟩
  · rw [hbytes]
    exact Nat.one_pos
  · rintro size hsize
    rw [hbytes, ← Option.some.inj hsize]
    rfl
  · rw [hbytes]
    exact .inl (List.prefix_refl _)

/-- A letter among the versions of a key is what its name selects. -/
theorem selects_letter {store : Store} {key token : String}
    (h : token = "v1" ∧ (store.written key).any Version.isLetter) :
    ∃ version, store.Selects key (some (.nativeVersion token)) version ∧ version.isLetter := by
  obtain ⟨rfl, hany⟩ := h
  obtain ⟨version, hwritten, hletter⟩ := List.any_eq_true.mp hany
  obtain ⟨-, -, hnative, -⟩ := Version.describes_letter hletter
  exact ⟨version, ⟨hwritten, hnative⟩, hletter⟩

theorem letters_truthful (store : Store) : (letters store).Truthful store := by
  intro call response hreply
  cases call with
  | headObject target selector =>
      intro _
      cases selector with
      | none =>
          dsimp only [letters] at hreply
          split at hreply
          · rename_i hany
            cases hreply
            obtain ⟨version, hcurrent, hletter⟩ := Option.any_eq_true _ _ |>.mp hany
            obtain ⟨hsigns, -, -, hlength, -⟩ := Version.describes_letter hletter
            exact ⟨version, hcurrent, hsigns, hlength⟩
          · cases hreply
      | some selector =>
          cases selector with
          | validatorMatch token => cases hreply
          | nativeVersion token =>
              dsimp only [letters] at hreply
              split at hreply
              · rename_i hany
                cases hreply
                obtain ⟨version, hselects, hletter⟩ := selects_letter hany
                obtain ⟨hsigns, -, -, hlength, -⟩ := Version.describes_letter hletter
                exact ⟨version, hselects, hsigns, hlength⟩
              · cases hreply
  | getObject target range selector =>
      intro _
      cases selector with
      | none => cases hreply
      | some selector =>
          cases selector with
          | validatorMatch token => cases hreply
          | nativeVersion token =>
              dsimp only [letters] at hreply
              split at hreply
              · rename_i hany
                cases hreply
                obtain ⟨version, hselects, hletter⟩ := selects_letter hany
                obtain ⟨-, hsigns, -, -, hbody⟩ := Version.describes_letter hletter
                exact ⟨version, hselects, hsigns, hbody⟩
              · cases hreply
  | putObject target contentLength contentType metadata ifMatch ifNoneMatch => trivial
  | deleteObject target => trivial
  | copyObject source destination => trivial

/-- A transport that fills every buffer. -/
def fullReads (streams : Serving) (request : InnerRead) : InnerAnswer request × Serving :=
  let stream := streams.bodies request.reader
  (.ready (.ok ⟨stream.take request.capacity, List.length_take_le _ _⟩),
    streams.set request.reader (stream.drop request.capacity))

theorem transport_fullReads (streams : Serving) (request : InnerRead) :
    transport streams request (fullReads streams request).1 (fullReads streams request).2 := by
  refine .inl ⟨_, _, rfl, (List.take_append_drop _ _).symm, fun hnil hroom => ?_, rfl⟩
  rcases List.take_eq_nil_iff.mp hnil with hzero | hempty
  · omega
  · rw [hempty, List.drop_nil]

/-- Another client overwrites the object before every guarded read of it. -/
def S3Provider.overwritten (provider : S3Provider) (wire : Wire) (key : String) : Wire :=
  ⟨wire.store.junked (joinKey provider.rootPrefix key), wire.readers⟩

/-- The provider over `letters`, with the other client. -/
def S3Provider.raced (provider : S3Provider) (wire : Wire) (step : Step) : Reply step × Wire :=
  match step with
  | ⟨_, .now⟩ => ((0 : Instant), wire)
  | ⟨_, .read reader capacity⟩ =>
      match wire.readers reader with
      | none => (.elapsed, wire)
      | some this =>
          let poll := (pollRead capacity this).runWith fullReads wire.store.serving
          match poll.1.1 with
          | .ok (.ready (.ok bytes)) =>
              if hfits : bytes.length ≤ capacity then
                (.ready (.ok ⟨bytes, hfits⟩), ⟨wire.store.withServing poll.2.2,
                  Function.update wire.readers reader (some poll.1.2)⟩)
              else (.elapsed, wire)
          | _ => (.elapsed, wire)
  | ⟨_, .observeSource key⟩ =>
      (.ready (provider.observeSource (letters wire.store).reply key), wire)
  | ⟨_, .guardedHead selection⟩ =>
      let wire := provider.overwritten wire selection.key
      (.ready (provider.guardedHead (letters wire.store).reply selection), wire)
  | ⟨_, .guardedGetRange request⟩ =>
      let wire := provider.overwritten wire request.selection.key
      match provider.guardedGetRange (letters wire.store).reply request with
      | .error error => (.ready (.error error), wire)
      | .ok accepted => (.ready (.ok ⟨accepted.receipt, accepted.reader.reader⟩),
          wire.opened (letters wire.store) accepted.reader)
  | ⟨_, .guardedGet _⟩ => (.elapsed, wire)
  | ⟨_, .head _⟩ => (.elapsed, wire)
  | ⟨_, .get _⟩ => (.elapsed, wire)
  | ⟨_, .getRange _⟩ => (.elapsed, wire)

theorem S3Provider.overBucket_raced (provider : S3Provider) (wire : Wire) (step : Step) :
    provider.overBucket wire step (provider.raced wire step).1 (provider.raced wire step).2 := by
  obtain ⟨ledger, request⟩ := step
  cases request with
  | now => exact ⟨wire.store, .refl, rfl⟩
  | read reader capacity =>
      refine ⟨wire.store, .refl, ?_⟩
      rw [raced]
      cases hreader : wire.readers reader with
      | none => exact .inl ⟨rfl, rfl⟩
      | some this =>
          have hpoll := Program.trace_runWith fullReads (pollRead capacity this) wire.store.serving
          have hstreams := Program.accepts_runWith transport_fullReads (pollRead capacity this)
            wire.store.serving
          simp only
          split
          · rename_i bytes hready
            split
            · refine .inr ⟨this, _, _, hreader, ?_, rfl⟩
              refine .ready _ _ _ _ _ (.ok bytes) ?_ hstreams
              rw [← hready]
              exact hpoll
            · exact .inl ⟨rfl, rfl⟩
          · exact .inl ⟨rfl, rfl⟩
  | observeSource key =>
      exact ⟨wire.store, .refl, rfl, .inr ⟨_, letters_truthful wire.store, rfl⟩⟩
  | guardedHead selection =>
      exact ⟨_, wire.store.writes_junked _, rfl, .inr ⟨_, letters_truthful _, rfl⟩⟩
  | guardedGetRange request =>
      refine ⟨_, wire.store.writes_junked (joinKey provider.rootPrefix request.selection.key),
        .inr ⟨_, letters_truthful _, ?_⟩⟩
      rw [raced]
      simp only [overwritten]
      cases provider.guardedGetRange
          (letters (wire.store.junked (joinKey provider.rootPrefix request.selection.key))).reply
          request with
      | error error => exact ⟨rfl, rfl⟩
      | ok accepted => exact ⟨rfl, rfl⟩
  | guardedGet selection => exact ⟨wire.store, .refl, .inl ⟨rfl, rfl⟩⟩
  | head key => exact ⟨wire.store, .refl, rfl⟩
  | get key => exact ⟨wire.store, .refl, rfl⟩
  | getRange range => exact ⟨wire.store, .refl, rfl⟩

/-- The provider of the bucket, as the bounded operations see it. -/
def S3Provider.storageProvider (provider : S3Provider) : StorageProvider :=
  ⟨.s3, some ⟨provider.guardedTargetIdentity⟩⟩

def rooted : S3Provider := ⟨"bucket", some "logs", none, by decide⟩

/-- The letter under every key, and no body in transit. -/
def letterWire : Wire := ⟨letterStore, fun _ => none⟩

theorem countLines_raced : ∃ transcript, Run rooted.overBucket letterWire
    (Call.countLines rooted.storageProvider "log.txt").session transcript (.ok (.count 1)) :=
  ⟨_, _, _, trace_handled rooted.raced _ letterWire (by decide +kernel),
    Program.accepts_runWith rooted.overBucket_raced _ _⟩

/-- The transcript of that run is one of the store that the key shows. -/
theorem S3Provider.refines_shared_raced :
    ∃ (transcript : Transcript) (store store' : Store),
      Nonempty (Observed "log.txt" transcript) ∧ Accepts shared store transcript store' := by
  obtain ⟨transcript, ledger, final, htrace, haccepts⟩ := countLines_raced
  obtain ⟨observed⟩ := Call.observed rfl htrace
  have hfresh : ∀ reader, letterWire.readers reader = none := fun _ => rfl
  obtain ⟨store, hshows⟩ := rooted.shows_of_fresh hfresh "log.txt"
  obtain ⟨store', hshared, -⟩ := S3Provider.refines_shared hshows observed.concerns haccepts
  exact ⟨transcript, store, store', ⟨observed⟩, hshared⟩

/-- The one line of the observed version is counted, although the object is overwritten
before each guarded request. -/
theorem S3Provider.answers_from_observed_raced :
    ∃ (seen : Wire) (version : Version),
      seen.store.current (joinKey (some "logs") "log.txt") = some version ∧
      1 = (Lines.split version.bytes).length := by
  obtain ⟨transcript, hrun⟩ := countLines_raced
  obtain ⟨observed, seen, version, -, hcurrent, -, hcomputes⟩ :=
    S3Provider.answers_from_observed rfl (fun _ => rfl) hrun
  exact ⟨seen, version, hcurrent, hcomputes⟩

end Storageprims

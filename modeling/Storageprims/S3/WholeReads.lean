import Storageprims.S3.GuardedStore

/-!
# Reading a guarded body to its end

Whoever polls the reader of an accepted response, with whatever buffers and for as long as
it likes, is handed the front of one version's bytes and can tell when it has them all.
The one exception is a whole read whose response states no length: nothing tells its caller
a stream that broke off from one that ended.
-/

namespace Storageprims

open Interaction
open DeclaredLengthRead (pollRead)

/-- A reader owes these bytes: it waits for exactly them, or it has no length to wait for
and they are what its stream carries. -/
def Owing (this : DeclaredLengthRead) (streams : Serving) (bytes : List UInt8) : Prop :=
  Awaiting this streams bytes ∨ (this.remaining = none ∧ streams.bodies this.reader = bytes)

/-- What a history of polls has handed out of the bytes that were owed. -/
structure HandsOut (bytes : List UInt8) (calls : List ReadCall) (this : DeclaredLengthRead)
    (streams : Serving) : Prop where
  owes : ∃ rest, bytes = handedOut calls ++ rest ∧ Owing this streams rest
  clean : (∃ call ∈ calls, EndsCleanly call) → handedOut calls = bytes
  noPanic : ∀ call ∈ calls, ∃ out, call.result = .ok out

section

variable {bytes : List UInt8} {past calls : List ReadCall} {this this' final : DeclaredLengthRead}
variable {streams streams' : Serving} {capacity : Nat}
variable {events : List (Event InnerRead InnerAnswer)}
variable {result : Except Failure (Poll (Except IoError (List UInt8)))}

/-- Without a length, a poll hands its caller what the stream gives. -/
theorem passes_through (hopen : this.remaining = none)
    (hpoll : Trace (pollRead capacity this) events (.ret (result, this')))
    (haccepts : Accepts transport streams events streams') :
    ∃ out rest, result = .ok out ∧
      Takes capacity (streams.bodies this.reader) out rest ∧
      this'.remaining = none ∧ streams'.bodies this'.reader = rest := by
  rw [pollRead, Script.read_bind_apply] at hpoll
  simp only [hopen] at hpoll
  rw [pollInner_bind_apply] at hpoll
  obtain ⟨answer, rest, rfl, htail⟩ := trace_call_iff.mp hpoll
  cases answer with
  | pending =>
      obtain ⟨rfl, hret⟩ := trace_ret_iff.mp htail
      cases hret
      obtain rfl := transport_quiet rfl (accepts_single_iff.mp haccepts)
      exact ⟨_, _, rfl, .inr ⟨.inl rfl, rfl⟩, hopen, rfl⟩
  | ready answer =>
      obtain ⟨rfl, hret⟩ := trace_ret_iff.mp htail
      cases hret
      cases answer with
      | error error =>
          obtain rfl := transport_quiet rfl (accepts_single_iff.mp haccepts)
          exact ⟨_, _, rfl, .inr ⟨.inr ⟨error, rfl⟩, rfl⟩, hopen, rfl⟩
      | ok chunk =>
          obtain ⟨left, hstream, hend, rfl⟩ := transport_ok (accepts_single_iff.mp haccepts)
          exact ⟨_, left, rfl, .inl ⟨_, rfl, chunk.property, hstream, hend⟩, hopen,
            Serving.bodies_set _ _ _⟩

/-- A poll takes the owed bytes from their front. -/
theorem Owing.poll (h : Owing this streams bytes)
    (hpoll : Trace (pollRead capacity this) events (.ret (result, this')))
    (haccepts : Accepts transport streams events streams') :
    ∃ out rest, result = .ok out ∧ Takes capacity bytes out rest ∧ Owing this' streams' rest := by
  rcases h with hawaiting | ⟨hopen, rfl⟩
  · obtain ⟨out, rest, hout, htakes, hawaiting', -, -⟩ := hawaiting.poll hpoll haccepts
    exact ⟨out, rest, hout, htakes, .inl hawaiting'⟩
  · obtain ⟨out, rest, hout, htakes, hopen', hrest⟩ := passes_through hopen hpoll haccepts
    exact ⟨out, rest, hout, htakes, .inr ⟨hopen', hrest⟩⟩

theorem HandsOut.step (h : HandsOut bytes past this streams)
    (hpoll : Trace (pollRead capacity this) events (.ret (result, this')))
    (haccepts : Accepts transport streams events streams') :
    HandsOut bytes (past ++ [⟨capacity, events, result⟩]) this' streams' := by
  obtain ⟨rest, hbytes, howing⟩ := h.owes
  obtain ⟨out, left, rfl, htakes, howing'⟩ := howing.poll hpoll haccepts
  -- the call hands out what it takes, and a clean end takes the last of it
  have hstep : ∃ chunk, bytesHandedOut ⟨capacity, events, .ok out⟩ = chunk ∧
      rest = chunk ++ left ∧
        (EndsCleanly ⟨capacity, events, .ok out⟩ → left = [] ∧ chunk = []) := by
    rcases htakes with ⟨chunk, rfl, -, hrest, hend⟩ | ⟨hnothing, rfl⟩
    · refine ⟨chunk, rfl, hrest, fun ⟨hroom, hclean⟩ => ?_⟩
      obtain rfl : chunk = [] := by
        cases hclean
        rfl
      exact ⟨hend rfl hroom, rfl⟩
    · refine ⟨[], ?_, rfl, fun ⟨_, hclean⟩ => ?_⟩
      · rcases hnothing with rfl | ⟨error, rfl⟩
        · rfl
        · rfl
      · rcases hnothing with rfl | ⟨error, rfl⟩
        · cases hclean
        · cases hclean
  obtain ⟨chunk, hchunk, rfl, hclean⟩ := hstep
  refine ⟨⟨left, ?_, howing'⟩, ?_, noPanic_snoc h.noPanic ⟨out, rfl⟩⟩
  · rw [handedOut_snoc, hchunk, List.append_assoc]
    exact hbytes
  · rintro ⟨call, hcall, hends⟩
    rw [handedOut_snoc, hchunk]
    rcases List.mem_append.mp hcall with hpast | hlast
    · -- behind an earlier clean end nothing was left to take
      have hall := h.clean ⟨call, hpast, hends⟩
      rw [hall] at hbytes
      have hnothing : chunk = [] := by
        have hnil : chunk ++ left = [] := List.append_right_eq_self.mp hbytes.symm
        exact (List.append_eq_nil_iff.mp hnil).1
      rw [hnothing, List.append_nil, hall]
    · rw [List.mem_singleton.mp hlast] at hends
      obtain ⟨rfl, rfl⟩ := hclean hends
      simpa using hbytes.symm

/-- Along every history the reader hands out the front of the bytes it owes. -/
theorem Owing.history (h : Owing this streams bytes)
    (hcalls : Invocations pollRead this calls final)
    (haccepts : Accepts transport streams (calls.flatMap Invocation.events) streams') :
    HandsOut bytes calls final streams' := by
  have hstart : HandsOut bytes [] this streams :=
    ⟨⟨bytes, rfl, h⟩, fun ⟨_, hcall, _⟩ => absurd hcall List.not_mem_nil,
      fun _ hcall => absurd hcall List.not_mem_nil⟩
  have hkept := @Invocations.keeps_in _ _ _ _ _ _ _ pollRead transport (fun _ => True)
    (HandsOut bytes) (fun past state outer argument events result state' outer' _ hinv htrace
      hevents => hinv.step htrace hevents) [] calls this final streams streams' hstart hcalls
    haccepts fun _ _ => trivial
  rwa [List.nil_append] at hkept

end

namespace S3Provider

variable {provider : S3Provider} {service : Service} {store : Store}

/-- The request behind an accepted whole read, the stream its reader was put before, and
the length it waits for. -/
theorem guardedGet_sent {selection : GuardedReadSelection} {accepted : DeclaredResponse}
    (h : provider.guardedGet service.reply selection = .ok accepted) :
    ∃ target response, target.location.key = joinKey provider.rootPrefix selection.key ∧
      provider.guardedGetCalls selection
        = .ok [.getObject target none (some selection.selector)] ∧
      service.reply (.getObject target none (some selection.selector)) = .ok response ∧
      accepted.reader.reader = response.body ∧
      accepted.reader.remaining = accepted.receipt.totalSize := by
  obtain ⟨target, htarget, h⟩ := except_bind_ok h
  obtain ⟨response, hresponse, h⟩ := except_bind_ok h
  obtain ⟨_, -, h⟩ := except_bind_ok h
  obtain ⟨contentLength, hlength, h⟩ := except_bind_ok h
  obtain ⟨status, -, h⟩ := except_bind_ok h
  obtain ⟨window, -, h⟩ := except_bind_ok h
  obtain ⟨receipt, hreceipt, h⟩ := except_bind_ok h
  cases h
  obtain ⟨-, totalSize, htotal, -, -, -, hsize, -⟩ := checkedReceipt_ok hreceipt
  obtain rfl : totalSize = contentLength := Except.ok.inj (htotal.symm.trans hlength)
  refine ⟨target, response, selectedTarget_location htarget, ?_, hresponse, rfl, hsize.symm⟩
  unfold guardedGetCalls
  rw [htarget]
  rfl

/-- The stream of an accepted whole read conveys all of a version that the selection
enforces, and a stated size is the size of that version. -/
theorem guardedGet_describes {selection : GuardedReadSelection} {accepted : DeclaredResponse}
    (htruthful : service.Truthful store)
    (h : provider.guardedGet service.reply selection = .ok accepted) :
    ∃ version,
      store.Selects (joinKey provider.rootPrefix selection.key) (some selection.selector) version ∧
      (∀ total ∈ accepted.receipt.totalSize, total = version.bytes.length) ∧
      Conveys version.bytes (service.stream accepted.reader.reader) := by
  obtain ⟨target, response, htarget, hcalls, hresponse, hbody, -⟩ := guardedGet_sent h
  obtain ⟨call, response', hcalls', hresponse', haccepted⟩ := guardedGet_ok h
  rw [hcalls] at hcalls'
  cases hcalls'
  obtain rfl : response = response' := Except.ok.inj (hresponse.symm.trans hresponse')
  obtain ⟨version, hselects, -, hdescribes⟩ := htruthful _ response hresponse haccepted.identity.1
  rw [htarget] at hselects
  refine ⟨version, hselects, ?_⟩
  rw [hbody]
  cases hrange : response.contentRange with
  | none =>
      rw [DescribesBody, hrange] at hdescribes
      obtain ⟨hconveys, hsize⟩ := hdescribes
      refine ⟨fun total htotal => ?_, hconveys⟩
      have hlength := haccepted.total
      rw [Option.mem_def.mp htotal, Option.map_some] at hlength
      obtain ⟨length, hstated, hvalue⟩ := Option.map_eq_some_iff.mp hlength.symm
      exact Int.ofNat_inj.mp (hvalue.symm.trans (hsize length hstated))
  | some text =>
      rw [DescribesBody, hrange] at hdescribes
      obtain ⟨first, last, total, hgrammar, -, hversion, hconveys⟩ := hdescribes
      obtain ⟨size, hsize, hpositive, hnames⟩ := haccepted.range text hrange
      -- the content range names the whole version from its first byte
      obtain ⟨rfl, rfl, rfl⟩ := hgrammar.unique hnames (Nat.zero_le _) (by
        intro other hother
        obtain rfl := Option.some.inj hother
        omega)
      obtain rfl := hversion size rfl
      rw [List.drop_zero, List.take_of_length_le (by omega)] at hconveys
      exact ⟨fun other hother => Option.some.inj (hother.symm.trans hsize), hconveys⟩

/-- An accepted guarded read, with the bytes that its reader owes for those of the source:
all of them, or the part that was asked for.  A whole read whose response states no length
owes what the stream carries, which may break off in the source, or run on behind it. -/
inductive Opens (provider : S3Provider) (service : Service) (selection : GuardedReadSelection)
    (accepted : DeclaredResponse) : (List UInt8 → List UInt8 → Prop) → Prop
  | whole (total : Nat) (h : provider.guardedGet service.reply selection = .ok accepted)
      (htotal : accepted.receipt.totalSize = some total) :
      Opens provider service selection accepted fun bytes owed => owed = bytes
  | unsized (h : provider.guardedGet service.reply selection = .ok accepted)
      (hopen : accepted.receipt.totalSize = none) :
      Opens provider service selection accepted fun bytes owed =>
        owed = service.stream accepted.reader.reader ∧ Conveys bytes owed
  | range (offset length : Nat)
      (h : provider.guardedGetRange service.reply ⟨selection, offset, length⟩ = .ok accepted) :
      Opens provider service selection accepted fun bytes owed =>
        owed = (bytes.drop offset).take length

theorem Opens.owing {selection : GuardedReadSelection} {accepted : DeclaredResponse}
    {owes : List UInt8 → List UInt8 → Prop} {streams : Serving}
    (h : Opens provider service selection accepted owes) (htruthful : service.Truthful store)
    (hstream : streams.bodies accepted.reader.reader = service.stream accepted.reader.reader) :
    ∃ version owed,
      store.Selects (joinKey provider.rootPrefix selection.key) (some selection.selector) version ∧
      (∀ total ∈ accepted.receipt.totalSize, total = version.bytes.length) ∧
      owes version.bytes owed ∧ Owing accepted.reader streams owed := by
  cases h with
  | whole total h htotal =>
      obtain ⟨version, hselects, hsize, hconveys⟩ := guardedGet_describes htruthful h
      obtain ⟨_, _, -, -, -, -, hremaining⟩ := guardedGet_sent h
      obtain rfl := hsize total htotal
      exact ⟨version, _, hselects, hsize, rfl, .inl ⟨hremaining.trans htotal, hstream ▸ hconveys⟩⟩
  | unsized h hopen =>
      obtain ⟨version, hselects, hsize, hconveys⟩ := guardedGet_describes htruthful h
      obtain ⟨_, _, -, -, -, -, hremaining⟩ := guardedGet_sent h
      exact ⟨version, _, hselects, hsize, ⟨rfl, hconveys⟩, .inr ⟨hremaining.trans hopen, hstream⟩⟩
  | range offset length h =>
      obtain ⟨version, hselects, -, hdescribes, hremaining, hconveys⟩ :=
        guardedGetRange_describes htruthful h
      exact ⟨version, _, hselects, hdescribes.total, rfl, .inl ⟨hremaining, hstream ▸ hconveys⟩⟩

/-- Reading a guarded body, with any buffers and through any failure of the transport,
hands out the front of the bytes that its reader owes, from one version that the selection
enforces.  The end is reported cleanly behind the last of them only, and no poll panics. -/
theorem guarded_body_exact {selection : GuardedReadSelection} {accepted : DeclaredResponse}
    {owes : List UInt8 → List UInt8 → Prop} {streams streams' : Serving} {calls : List ReadCall}
    {final : DeclaredLengthRead} (htruthful : service.Truthful store)
    (hopens : provider.Opens service selection accepted owes)
    (hstream : streams.bodies accepted.reader.reader = service.stream accepted.reader.reader)
    (hcalls : Invocations pollRead accepted.reader calls final)
    (haccepts : Accepts transport streams (calls.flatMap Invocation.events) streams') :
    ∃ version owed,
      store.Selects (joinKey provider.rootPrefix selection.key) (some selection.selector) version ∧
      (∀ total ∈ accepted.receipt.totalSize, total = version.bytes.length) ∧
      owes version.bytes owed ∧ handedOut calls <+: owed ∧
      ((∃ call ∈ calls, EndsCleanly call) → handedOut calls = owed) ∧
      ∀ call ∈ calls, call.result ≠ .error .panic := by
  obtain ⟨version, owed, hselects, hsize, howes, howing⟩ := hopens.owing htruthful hstream
  have hhands := howing.history hcalls haccepts
  obtain ⟨rest, hbytes, -⟩ := hhands.owes
  refine ⟨version, owed, hselects, hsize, howes, ⟨rest, hbytes.symm⟩, hhands.clean,
    fun call hcall => ?_⟩
  obtain ⟨out, hout⟩ := hhands.noPanic call hcall
  rw [hout]
  intro hpanic
  cases hpanic

/-- A letter is read in one poll behind a pause, and its end in the next. -/
theorem guarded_body_exact_letter :
    let calls : List ReadCall :=
      [⟨4, [⟨⟨0, 1⟩, .pending⟩], .ok .pending⟩,
        ⟨4, [⟨⟨0, 1⟩, .ready (.ok ⟨[0x61], by decide⟩)⟩], .ok (.ready (.ok [0x61]))⟩,
        ⟨4, [⟨⟨0, 1⟩, .ready (.ok nothingRead)⟩], .ok (.ready (.ok []))⟩]
    ∃ version : Version, handedOut calls = (version.bytes.drop 0).take 5 := by
  intro calls
  let selection : GuardedReadSelection :=
    ⟨rooted.guardedTargetIdentity, "log.txt", .nativeVersion "v1", rfl, by decide⟩
  have hcalls : Invocations pollRead (.new 0 (some 1)) calls ⟨0, some 0, true⟩ := by
    refine .cons _ ⟨0, some 1, false⟩ _ 4 _ _ _ (.step _ _ _ _ _ (.refl _)) ?_
    refine .cons _ ⟨0, some 0, false⟩ _ 4 _ _ _ (.step _ _ _ _ _ (.refl _)) ?_
    exact .cons _ ⟨0, some 0, true⟩ _ 4 _ _ _ (.step _ _ _ _ _ (.refl _)) (.nil _)
  let receipt : SourceReceipt := {
    path := "log.txt"
    nativeVersion := some "v1"
    validator := none
    totalSize := some 1
    requestedWindow := some ⟨0, 4, by decide, by decide⟩
    returnedWindow := some ⟨0, 0, by decide, by decide⟩
    totalSize_lt := by decide }
  have hopens : rooted.Opens (letters letterStore) selection ⟨receipt, .new 0 (some 1)⟩
      fun bytes owed => owed = (bytes.drop 0).take 5 := .range 0 5 (by decide +kernel)
  have haccepts : Accepts transport ⟨fun _ => [0x61]⟩ (calls.flatMap Invocation.events)
      (((⟨fun _ => [0x61]⟩ : Serving).set 0 []).set 0 []) := by
    refine .cons _ _ _ _ _ _ (.inr ⟨.inl rfl, rfl⟩) ?_
    refine .cons _ _ _ _ _ _ (.inl ⟨_, [], rfl, rfl, fun hnil => ?_, rfl⟩) ?_
    · cases hnil
    · exact .cons _ _ _ _ _ _ (.inl ⟨nothingRead, [], rfl, rfl, fun _ _ => rfl, rfl⟩) (.nil _)
  obtain ⟨version, _, -, -, rfl, -, hclean, -⟩ :=
    guarded_body_exact (letters_truthful letterStore) hopens rfl hcalls haccepts
  exact ⟨version, hclean ⟨_,
    List.mem_cons_of_mem _ (List.mem_cons_of_mem _ List.mem_cons_self), by decide, rfl⟩⟩

end S3Provider

end Storageprims

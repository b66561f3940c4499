import Storageprims.S3.PolledReaders

/-!
# Upload bodies

A PUT sends its body through `AsyncReadBody`, which emits the reader's bytes as data
frames of at most 8 KiB.  The body is over once it has ended or failed: it ends behind
exactly the declared number of bytes and the reader's end, and fails otherwise.
-/

namespace Storageprims

open Interaction

structure AsyncReadBody where
  reader : ReaderId
  finished : Bool
  remaining : Nat
  deriving DecidableEq

namespace AsyncReadBody

def new (reader : ReaderId) (contentLength : Nat) : AsyncReadBody where
  reader := reader
  finished := false
  remaining := contentLength

def pollFrame : PollMethod AsyncReadBody (Poll (Option (Except IoError (List UInt8)))) := do
  let this ← Script.read
  if this.finished then return .ready none
  else if this.remaining = 0 then do
    match ← pollInner this.reader 1 with
    | .ready (.ok probe) => do
        Script.write { this with finished := true }
        if probe.val = [] then return .ready none
        else
          return .ready (some (.error
            ⟨.invalidData, "stream exceeded declared content length"⟩))
    | .ready (.error error) => do
        Script.write { this with finished := true }
        return .ready (some (.error error))
    | .pending => return .pending
  else do
    match ← pollInner this.reader (min this.remaining (8 * 1024)) with
    | .ready (.ok filled) =>
        if filled.val = [] then do
          Script.write { this with finished := true }
          return .ready (some (.error ⟨.unexpectedEof,
            "stream ended before declared content length; " ++ toString this.remaining
              ++ " bytes remaining"⟩))
        else do
          let remaining ← Script.ofExcept (subU64 this.remaining filled.val.length)
          Script.write { this with remaining := remaining }
          return .ready (some (.ok filled.val))
    | .ready (.error error) => do
        Script.write { this with finished := true }
        return .ready (some (.error error))
    | .pending => return .pending

def isEndStream (this : AsyncReadBody) : Bool := this.finished

/-- `size_hint`, which is exact. -/
def sizeHint (this : AsyncReadBody) : Nat := this.remaining

end AsyncReadBody

open AsyncReadBody (pollFrame)

def byteStreamFromReader (reader : ReaderId) (contentLength : Nat) : AsyncReadBody :=
  .new reader contentLength

/-- What a poll of the body can do. -/
inductive FrameStep (this : AsyncReadBody) : List (Event InnerRead InnerAnswer) →
    Poll (Option (Except IoError (List UInt8))) → AsyncReadBody → Prop
  | closed (hover : this.finished = true) : FrameStep this [] (.ready none) this
  | pending (hopen : this.finished = false) (room : Nat) :
      FrameStep this [⟨⟨this.reader, room⟩, .pending⟩] .pending this
  | failed (hopen : this.finished = false) (room : Nat) (error : IoError) :
      FrameStep this [⟨⟨this.reader, room⟩, .ready (.error error)⟩]
        (.ready (some (.error error))) { this with finished := true }
  | ended (hopen : this.finished = false) (hlast : this.remaining = 0) (probe : Chunk 1)
      (hprobe : probe.val = []) :
      FrameStep this [⟨⟨this.reader, 1⟩, .ready (.ok probe)⟩] (.ready none)
        { this with finished := true }
  | overrun (hopen : this.finished = false) (hlast : this.remaining = 0) (probe : Chunk 1)
      (hprobe : probe.val ≠ []) (error : IoError) (herror : error.kind = .invalidData) :
      FrameStep this [⟨⟨this.reader, 1⟩, .ready (.ok probe)⟩] (.ready (some (.error error)))
        { this with finished := true }
  | truncated (hopen : this.finished = false) (hmore : 0 < this.remaining)
      (filled : Chunk (min this.remaining (8 * 1024))) (hfilled : filled.val = [])
      (error : IoError) (herror : error.kind = .unexpectedEof) :
      FrameStep this
        [⟨⟨this.reader, min this.remaining (8 * 1024)⟩, .ready (.ok filled)⟩]
        (.ready (some (.error error))) { this with finished := true }
  | frame (hopen : this.finished = false) (hmore : 0 < this.remaining)
      (filled : Chunk (min this.remaining (8 * 1024))) (hfilled : filled.val ≠ []) :
      FrameStep this
        [⟨⟨this.reader, min this.remaining (8 * 1024)⟩, .ready (.ok filled)⟩]
        (.ready (some (.ok filled.val)))
        { this with remaining := this.remaining - filled.val.length }

theorem pollFrame_step {this this' : AsyncReadBody} {events : List (Event InnerRead InnerAnswer)}
    {result : Except Failure (Poll (Option (Except IoError (List UInt8))))}
    (htrace : Trace (pollFrame this) events (.ret (result, this'))) :
    ∃ out, result = .ok out ∧ FrameStep this events out this' := by
  obtain ⟨reader, finished, remaining⟩ := this
  rw [pollFrame, Script.read_bind_apply] at htrace
  dsimp only at htrace
  cases finished with
  | true =>
      rw [if_pos rfl] at htrace
      exact does_of_ret htrace (.closed rfl)
  | false =>
      rw [if_neg Bool.false_ne_true] at htrace
      -- behind the last declared byte the reader is asked for one more
      by_cases hlast : remaining = 0
      · rw [if_pos hlast, pollInner_bind_apply] at htrace
        obtain ⟨answer, rest, rfl, htail⟩ := trace_call_iff.mp htrace
        rcases answer with _ | (error | probe)
        · exact does_of_answer htail (.pending rfl 1)
        · exact does_of_answer htail (.failed rfl 1 error)
        · dsimp only at htail
          rw [Script.write_bind_apply] at htail
          by_cases hprobe : probe.val = []
          · rw [if_pos hprobe] at htail
            exact does_of_answer htail (.ended rfl hlast probe hprobe)
          · rw [if_neg hprobe] at htail
            exact does_of_answer htail (.overrun rfl hlast probe hprobe _ rfl)
      · have hmore : 0 < remaining := Nat.pos_of_ne_zero hlast
        rw [if_neg hlast, pollInner_bind_apply] at htrace
        obtain ⟨answer, rest, rfl, htail⟩ := trace_call_iff.mp htrace
        rcases answer with _ | (error | filled)
        · exact does_of_answer htail (.pending rfl _)
        · exact does_of_answer htail (.failed rfl _ error)
        · dsimp only at htail
          by_cases hfilled : filled.val = []
          · rw [if_pos hfilled] at htail
            have hstep := @FrameStep.truncated ⟨reader, false, remaining⟩ rfl hmore filled hfilled
            exact does_of_answer htail (hstep _ rfl)
          · have hshort : filled.val.length ≤ min remaining (8 * 1024) := filled.property
            rw [if_neg hfilled, subU64_of_le (by omega), Script.ofExcept_ok_bind] at htail
            have hstep := @FrameStep.frame ⟨reader, false, remaining⟩ rfl hmore filled hfilled
            exact does_of_answer htail hstep

/-! ## Every history -/

abbrev FrameCall := PollCall Unit (Option (Except IoError (List UInt8)))

def dataFrame (call : FrameCall) : Option (List UInt8) :=
  match call.result with
  | .ok (.ready (some (.ok frame))) => some frame
  | _ => none

def errorFrame (call : FrameCall) : Option IoError :=
  match call.result with
  | .ok (.ready (some (.error error))) => some error
  | _ => none

def frames (calls : List FrameCall) : List (List UInt8) := calls.filterMap dataFrame

def errorFrames (calls : List FrameCall) : List IoError := calls.filterMap errorFrame

/-- The call ended the body, or reported its failure. -/
def Final (call : FrameCall) : Prop :=
  call.result = .ok (.ready none) ∨ (errorFrame call).isSome

/-- How the reader's behaviour makes a body end, with or without an error. -/
inductive Ending (length : Nat) (calls : List FrameCall) : Option IoError → Prop
  | complete (hend : SawEnd calls) (hnone : ∀ error, ¬ SawError calls error)
      (hexact : (received calls).length = length) : Ending length calls none
  | short (hend : SawEnd calls) (hnone : ∀ error, ¬ SawError calls error)
      (hshort : (received calls).length < length) (error : IoError)
      (hkind : error.kind = .unexpectedEof) : Ending length calls (some error)
  | long (hend : ¬ SawEnd calls) (hnone : ∀ error, ¬ SawError calls error)
      (hlong : length < (received calls).length) (error : IoError)
      (hkind : error.kind = .invalidData) : Ending length calls (some error)
  | failed (hend : ¬ SawEnd calls) (error : IoError) (herror : SawError calls error)
      (hfits : (received calls).length ≤ length) : Ending length calls (some error)

/-- Nothing has gone wrong with the reader yet, and it has not ended. -/
structure StillOpen (length : Nat) (calls : List FrameCall) : Prop where
  fits : (received calls).length ≤ length
  noEnd : ¬ SawEnd calls
  noError : ∀ error, ¬ SawError calls error
  noFinal : ∀ call ∈ calls, ¬ Final call
  noErrorFrame : errorFrames calls = []

/-- What holds between the polls of a body. -/
structure Uploads (length : Nat) (calls : List FrameCall) (this : AsyncReadBody) : Prop where
  hint : this.remaining = length - (frames calls).flatten.length
  taken : (frames calls).flatten = (received calls).take length
  sized : ∀ frame ∈ frames calls, frame ≠ [] ∧ frame.length ≤ 8 * 1024
  noPanic : ∀ call ∈ calls, ∃ out, call.result = .ok out
  opened : this.finished = false → StillOpen length calls
  closed : this.finished = true → (∃ call ∈ calls, Final call) ∧
    ∃ ending, Ending length calls ending ∧ errorFrames calls = ending.toList
  latched : calls.Pairwise fun earlier later => Final earlier → later.result = .ok (.ready none)

section Histories

variable {length : Nat} {past : List FrameCall} {call : FrameCall}
variable {this this' : AsyncReadBody}

@[simp] theorem frames_snoc :
    frames (past ++ [call]) = frames past ++ (dataFrame call).toList := by
  cases hframe : dataFrame call with
  | none => simp [frames, hframe]
  | some frame => simp [frames, hframe]

@[simp] theorem errorFrames_snoc :
    errorFrames (past ++ [call]) = errorFrames past ++ (errorFrame call).toList := by
  cases herror : errorFrame call with
  | none => simp [errorFrames, herror]
  | some error => simp [errorFrames, herror]

theorem StillOpen.latched (h : StillOpen length past) :
    (past ++ [call]).Pairwise fun earlier later =>
      Final earlier → later.result = .ok (.ready none) := by
  refine List.pairwise_append.mpr ⟨?_, List.pairwise_singleton _ _, ?_⟩
  · exact List.pairwise_of_forall_mem_list fun earlier hearlier _ _ hfinal =>
      absurd hfinal (h.noFinal earlier hearlier)
  · intro earlier hearlier _ _ hfinal
    exact absurd hfinal (h.noFinal earlier hearlier)

/-- A poll that closes the body emits no data. -/
theorem Uploads.close {out : Poll (Option (Except IoError (List UInt8)))}
    {ending : Option IoError} (h : Uploads length past this)
    (hopen : this.finished = false) (hclosed : this' = { this with finished := true })
    (hout : call.result = .ok out) (hdata : dataFrame call = none)
    (hread : call.events.flatMap bytesRead = [] ∨ length ≤ (received past).length)
    (hfinal : Final call) (hframe : errorFrame call = ending)
    (hending : Ending length (past ++ [call]) ending) :
    Uploads length (past ++ [call]) this' := by
  have hstill := h.opened hopen
  subst hclosed
  have hframes : frames (past ++ [call]) = frames past := by
    rw [frames_snoc, hdata, Option.toList_none, List.append_nil]
  refine ⟨?_, ?_, ?_, noPanic_snoc h.noPanic ⟨_, hout⟩, nofun, fun _ => ⟨?_, ending, hending, ?_⟩,
    hstill.latched⟩
  · rw [hframes]
    exact h.hint
  · rw [hframes, h.taken, received_snoc]
    rcases hread with hread | hfull
    · rw [hread, List.append_nil]
    · rw [List.take_append_of_le_length hfull]
  · rw [hframes]
    exact h.sized
  · exact ⟨call, List.mem_append_right _ (List.mem_singleton_self _), hfinal⟩
  · rw [errorFrames_snoc, hstill.noErrorFrame, List.nil_append, hframe]

/-- A poll that does not ask the reader changes nothing about its behaviour. -/
theorem Ending.quiet {ending : Option IoError} (h : Ending length past ending)
    (hevents : call.events = []) : Ending length (past ++ [call]) ending := by
  have hend : SawEnd (past ++ [call]) ↔ SawEnd past := by simp [sawEnd_snoc_iff, hevents]
  have herror : ∀ error, SawError (past ++ [call]) error ↔ SawError past error := by
    simp [sawError_snoc_iff, hevents]
  have hreceived : received (past ++ [call]) = received past := by simp [hevents]
  cases h with
  | complete hsaw hnone hexact =>
      exact .complete (hend.mpr hsaw) (fun error h => hnone error ((herror error).mp h))
        (hreceived ▸ hexact)
  | short hsaw hnone hshort error hkind =>
      exact .short (hend.mpr hsaw) (fun error h => hnone error ((herror error).mp h))
        (hreceived ▸ hshort) error hkind
  | long hsaw hnone hlong error hkind =>
      exact .long (mt hend.mp hsaw) (fun error h => hnone error ((herror error).mp h))
        (hreceived ▸ hlong) error hkind
  | failed hsaw error hfailed hfits =>
      exact .failed (mt hend.mp hsaw) error ((herror error).mpr hfailed) (hreceived ▸ hfits)

/-- The reader's bytes so far have all been emitted. -/
theorem Uploads.all (h : Uploads length past this) (hopen : this.finished = false) :
    (frames past).flatten = received past := by
  rw [h.taken, List.take_of_length_le (h.opened hopen).fits]

/-- A poll that leaves the body open emits what it took from the reader, if anything. -/
theorem Uploads.goOn {out : Poll (Option (Except IoError (List UInt8)))}
    (h : Uploads length past this) (emitted : List UInt8) (hopen : this.finished = false)
    (hthis : this' = { this with remaining := this.remaining - emitted.length })
    (hout : call.result = .ok out) (hfinal : ¬ Final call)
    (hdata : (dataFrame call).toList = if emitted = [] then [] else [emitted])
    (hread : call.events.flatMap bytesRead = emitted)
    (hshort : emitted.length ≤ min this.remaining (8 * 1024))
    (hend : ¬ ∃ event ∈ call.events, ReportsEnd event)
    (herror : ∀ error, ¬ ∃ event ∈ call.events, event.response = .ready (.error error)) :
    Uploads length (past ++ [call]) this' := by
  have hstill := h.opened hopen
  have hhint := h.hint
  have hall := h.all hopen
  have hlength := congrArg List.length hall
  subst hthis
  -- what the reader supplied and what was emitted grow by the same bytes
  have hframes : (frames (past ++ [call])).flatten = received past ++ emitted := by
    rw [frames_snoc, hdata, List.flatten_append, hall]
    split
    · next hnone => rw [hnone]; rfl
    · rw [List.flatten_singleton]
  have hreceived : received (past ++ [call]) = received past ++ emitted := by
    rw [received_snoc, hread]
  have hfits : (received past ++ emitted).length ≤ length := by
    have hbefore := hstill.fits
    rw [List.length_append]
    omega
  refine ⟨?_, ?_, ?_, noPanic_snoc h.noPanic ⟨_, hout⟩, fun _ => ⟨?_, ?_, ?_, ?_, ?_⟩, ?_,
    hstill.latched⟩
  · rw [hframes, List.length_append]
    show this.remaining - emitted.length = _
    omega
  · rw [hframes, hreceived, List.take_of_length_le hfits]
  · intro frame hframe
    rw [frames_snoc, hdata] at hframe
    rcases List.mem_append.mp hframe with hpast | hlast
    · exact h.sized frame hpast
    · split at hlast
      · cases hlast
      · next hne =>
          rw [List.mem_singleton.mp hlast]
          exact ⟨hne, by omega⟩
  · rw [hreceived]
    exact hfits
  · rw [sawEnd_snoc_iff, not_or]
    exact ⟨hstill.noEnd, hend⟩
  · intro error
    rw [sawError_snoc_iff, not_or]
    exact ⟨hstill.noError error, herror error⟩
  · intro other hother
    rcases List.mem_append.mp hother with hpast | hlast
    · exact hstill.noFinal other hpast
    · rwa [List.mem_singleton.mp hlast]
  · have hnone : errorFrame call = none :=
      Option.not_isSome_iff_eq_none.mp fun hsome => hfinal (.inr hsome)
    rw [errorFrames_snoc, hstill.noErrorFrame, hnone]
    rfl
  · intro hover
    change this.finished = true at hover
    rw [hopen] at hover
    cases hover

theorem Uploads.step {events : List (Event InnerRead InnerAnswer)} {argument : Unit}
    {out : Poll (Option (Except IoError (List UInt8)))} (h : Uploads length past this)
    (hstep : FrameStep this events out this') :
    Uploads length (past ++ [⟨argument, events, .ok out⟩]) this' := by
  cases hstep with
  | closed hover =>
      -- the body was over before, and the poll asked nobody
      obtain ⟨⟨final, hmem, hfinal⟩, ending, hending, herrors⟩ := h.closed hover
      refine ⟨?_, ?_, ?_, noPanic_snoc h.noPanic ⟨_, rfl⟩, ?_,
        fun _ => ⟨?_, ending, hending.quiet rfl, ?_⟩, ?_⟩
      · simpa [dataFrame] using h.hint
      · simpa [dataFrame] using h.taken
      · simpa [dataFrame] using h.sized
      · intro hopen
        rw [hover] at hopen
        cases hopen
      · exact ⟨final, List.mem_append_left _ hmem, hfinal⟩
      · simpa [errorFrame] using herrors
      · refine List.pairwise_append.mpr ⟨h.latched, List.pairwise_singleton _ _, ?_⟩
        intro earlier _ later hlater _
        rw [List.mem_singleton.mp hlater]
  | pending hopen room =>
      refine h.goOn [] hopen rfl rfl ?_ rfl rfl (Nat.zero_le _) ?_ ?_
      · simp [Final, errorFrame]
      · simp [ReportsEnd, filled]
      · simp
  | failed hopen room error =>
      have hstill := h.opened hopen
      refine h.close hopen rfl rfl rfl (.inl rfl) (.inr rfl) rfl (.failed ?_ error ?_ ?_)
      · simpa [sawEnd_snoc_iff, ReportsEnd, filled] using hstill.noEnd
      · simp [sawError_snoc_iff]
      · simpa [bytesRead, filled] using hstill.fits
  | ended hopen hlast probe hprobe =>
      have hstill := h.opened hopen
      have hall := congrArg List.length (h.all hopen)
      have hhint := h.hint
      refine h.close hopen rfl rfl rfl (.inl ?_) (.inl rfl) rfl (.complete ?_ ?_ ?_)
      · simpa [bytesRead, filled] using hprobe
      · simp [sawEnd_snoc_iff, ReportsEnd, filled, hprobe]
      · simpa [sawError_snoc_iff] using hstill.noError
      · have hfits := hstill.fits
        simp [bytesRead, filled, hprobe]
        omega
  | overrun hopen hlast probe hprobe error herror =>
      have hstill := h.opened hopen
      have hall := congrArg List.length (h.all hopen)
      have hhint := h.hint
      have hpos := List.length_pos_iff.mpr hprobe
      refine h.close hopen rfl rfl rfl (.inr (by omega)) (.inr rfl) rfl
        (.long ?_ ?_ ?_ error herror)
      · simpa [sawEnd_snoc_iff, ReportsEnd, filled, hprobe] using hstill.noEnd
      · simpa [sawError_snoc_iff] using hstill.noError
      · simp [bytesRead, filled]
        omega
  | truncated hopen hmore filled' hfilled error herror =>
      have hstill := h.opened hopen
      have hall := congrArg List.length (h.all hopen)
      have hhint := h.hint
      refine h.close hopen rfl rfl rfl (.inl ?_) (.inr rfl) rfl (.short ?_ ?_ ?_ error herror)
      · simpa [bytesRead, filled] using hfilled
      · simp [sawEnd_snoc_iff, ReportsEnd, filled, hfilled]
        omega
      · simpa [sawError_snoc_iff] using hstill.noError
      · simp [bytesRead, filled, hfilled]
        omega
  | frame hopen hmore filled' hfilled =>
      refine h.goOn filled'.val hopen rfl rfl ?_ ?_ ?_ filled'.property ?_ ?_
      · simp [Final, errorFrame]
      · rw [if_neg hfilled]
        rfl
      · rw [List.flatMap_singleton]
        rfl
      · simp [ReportsEnd, filled, hfilled]
      · simp

end Histories

/-- A body emits the reader's bytes up to the declared length, in frames of at most
8 KiB, and says exactly how many are missing.  It is over when a poll has ended it or
reported its failure: without an error frame exactly when the reader supplied the
declared number of bytes and then its end, and else with one, for the reason it names.
From then on every poll returns nothing. -/
theorem upload_exact {reader : ReaderId} {length : Nat} {calls : List FrameCall}
    {final : AsyncReadBody}
    (hcalls : Invocations (fun _ => pollFrame) (byteStreamFromReader reader length) calls final) :
    (frames calls).flatten = (received calls).take length ∧
    (frames calls).flatten.length ≤ length ∧
    (∀ frame ∈ frames calls, frame ≠ [] ∧ frame.length ≤ 8192) ∧
    final.sizeHint = length - (frames calls).flatten.length ∧
    (∀ call ∈ calls, call.result ≠ .error .panic) ∧
    (final.isEndStream = true ↔ ∃ call ∈ calls, Final call) ∧
    (final.isEndStream = true →
      (errorFrames calls = [] ↔ (received calls).length = length ∧ SawEnd calls) ∧
      ∃ ending, Ending length calls ending ∧ errorFrames calls = ending.toList) ∧
    ∀ past call rest, calls = past ++ call :: rest → Final call →
      ∀ later ∈ rest, later.result = .ok (.ready none) := by
  have hnew : Uploads length [] (byteStreamFromReader reader length) := by
    refine ⟨rfl, List.take_nil.symm, by simp [frames], by simp, fun _ => ?_,
      fun hover => Bool.noConfusion hover, .nil⟩
    exact ⟨Nat.zero_le _, by simp [SawEnd], by simp [SawError], by simp, rfl⟩
  have h : Uploads length calls final := by
    refine Invocations.keeps ?_ hnew hcalls
    intro past state argument events result state' h htrace
    obtain ⟨out, rfl, hstep⟩ := pollFrame_step htrace
    exact h.step hstep
  refine ⟨h.taken, ?_, h.sized, h.hint, ?_, ⟨fun hover => (h.closed hover).1, ?_⟩, ?_, ?_⟩
  · rw [h.taken]
    exact List.length_take_le _ _
  · intro call hcall
    obtain ⟨out, hout⟩ := h.noPanic call hcall
    rw [hout]
    intro hpanic
    cases hpanic
  · rintro ⟨call, hcall, hfinal⟩
    by_contra hopen
    exact (h.opened (Bool.eq_false_iff.mpr hopen)).noFinal call hcall hfinal
  · intro hover
    obtain ⟨-, ending, hending, herrors⟩ := h.closed hover
    refine ⟨?_, ending, hending, herrors⟩
    rw [herrors]
    cases hending with
    | complete hend hnone hexact => exact ⟨fun _ => ⟨hexact, hend⟩, fun _ => rfl⟩
    | short hend hnone hshort error hkind =>
        exact ⟨fun hnil => absurd hnil (List.cons_ne_nil _ _),
          fun hexact => absurd hexact.1 (Nat.ne_of_lt hshort)⟩
    | long hend hnone hlong error hkind =>
        exact ⟨fun hnil => absurd hnil (List.cons_ne_nil _ _),
          fun hexact => absurd hexact.2 hend⟩
    | failed hend error herror hfits =>
        exact ⟨fun hnil => absurd hnil (List.cons_ne_nil _ _),
          fun hexact => absurd hexact.2 hend⟩
  · rintro past call rest rfl hfinal later hlater
    have hbehind := (List.pairwise_append.mp h.latched).2.1
    exact List.rel_of_pairwise_cons hbehind hlater hfinal

/-- Two declared bytes behind a pause, then the end, and a poll after it. -/
def declaredPolls : List FrameCall :=
  [⟨(), [⟨⟨0, 2⟩, .pending⟩], .ok .pending⟩,
    ⟨(), [⟨⟨0, 2⟩, .ready (.ok ⟨[0x61, 0x62], by decide⟩)⟩],
      .ok (.ready (some (.ok [0x61, 0x62])))⟩,
    ⟨(), [⟨⟨0, 1⟩, .ready (.ok nothingRead)⟩], .ok (.ready none)⟩,
    ⟨(), [], .ok (.ready none)⟩]

theorem declaredPolls_calls :
    Invocations (fun _ => pollFrame) (byteStreamFromReader 0 2) declaredPolls ⟨0, true, 0⟩ := by
  refine .cons _ ⟨0, false, 2⟩ _ () _ _ _ (.step _ _ _ _ _ (.refl _)) ?_
  refine .cons _ ⟨0, false, 0⟩ _ () _ _ _ (.step _ _ _ _ _ (.refl _)) ?_
  refine .cons _ ⟨0, true, 0⟩ _ () _ _ _ (.step _ _ _ _ _ (.refl _)) ?_
  exact .cons _ ⟨0, true, 0⟩ _ () _ _ _ (.refl _) (.nil _)

theorem upload_exact_declared :
    (frames declaredPolls).flatten = (received declaredPolls).take 2 ∧
    (frames declaredPolls).flatten.length ≤ 2 ∧
    (∀ frame ∈ frames declaredPolls, frame ≠ [] ∧ frame.length ≤ 8192) ∧
    0 = 2 - (frames declaredPolls).flatten.length ∧
    (∀ call ∈ declaredPolls, call.result ≠ .error .panic) ∧
    (true = true ↔ ∃ call ∈ declaredPolls, Final call) ∧
    (true = true →
      (errorFrames declaredPolls = [] ↔
        (received declaredPolls).length = 2 ∧ SawEnd declaredPolls) ∧
      ∃ ending, Ending 2 declaredPolls ending ∧ errorFrames declaredPolls = ending.toList) ∧
    ∀ past call rest, declaredPolls = past ++ call :: rest → Final call →
      ∀ later ∈ rest, later.result = .ok (.ready none) :=
  upload_exact declaredPolls_calls

end Storageprims

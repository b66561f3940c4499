import Mathlib.Logic.Relation
import Storageprims.Ffi.Open
import Storageprims.Interaction.Polling

/-!
# The worker of a read

The worker copies the provider's stream into the pipe, buffer by buffer, until the stream
ends or the promised number of bytes has been written.  The loop of the source is run for
a number of rounds; `Copies` is a run that returned within some number of them, and on a
finite stream every run does.

The worker writes through a file of its runtime, which takes a buffer and writes it to the
pipe in the background.  Whether that has gone well is told by the next write, and there is
none behind the last one.
-/

namespace Storageprims

open Interaction

inductive WorkerRequest where
  | read (stream : ReaderId) (capacity : Nat)
  | writeAll (bytes : List UInt8)

def WorkerAnswer : WorkerRequest → Type
  | .read _ capacity => Except IoError (Chunk capacity)
  | .writeAll _ => Except IoError Unit

abbrev WorkerScript := Script WorkerRequest WorkerAnswer Unit StorageError

abbrev WorkerScript.ask (request : WorkerRequest) : WorkerScript (WorkerAnswer request) :=
  Script.ask request

open Script (orReturn)

/-- The length of the worker's buffer. -/
def bufferLen : Nat := 8192

/-- How much the next read may take. -/
def readLimit (remaining : Option Nat) : Nat :=
  (remaining.map fun value => (tryUsize (min value bufferLen)).getD bufferLen).getD bufferLen

/-- One round of the loop: `none` when it returns `Ok`, else the bytes still to come. -/
def copyRound (stream : ReaderId) (operation : StorageOperation) (remaining : Option Nat) :
    WorkerScript (Option (Option Nat)) := do
  if readLimit remaining = 0 then return none
  else do
    let answer ← WorkerScript.ask (.read stream (readLimit remaining))
    let read ← orReturn (.io (some operation)) answer
    if read.val.length = 0 then
      match remaining with
      | some remaining => Script.fail (.io (some operation) ⟨.unexpectedEof,
          "stream ended with " ++ toString remaining ++ " bytes remaining"⟩)
      | none => return none
    else do
      let answer ← WorkerScript.ask (.writeAll read.val)
      let _ ← orReturn (.io (some operation)) answer
      match remaining with
      | some remaining =>
          let remaining := remaining - read.val.length
          if remaining = 0 then return none else return some (some remaining)
      | none => return some none

/-- The loop for a number of rounds, which returns `none` when they are used up. -/
def copyStreamToPipe (stream : ReaderId) (operation : StorageOperation) :
    Nat → Option Nat → WorkerScript (Option Unit)
  | 0, _ => return none
  | rounds + 1, remaining => do
      match ← copyRound stream operation remaining with
      | none => return some ()
      | some remaining => copyStreamToPipe stream operation rounds remaining

/-- A run of the loop that returned. -/
def Copies (stream : ReaderId) (operation : StorageOperation) (expectedBytes : Option Nat)
    (result : Except StorageError Unit) (events : List (Event WorkerRequest WorkerAnswer)) : Prop :=
  ∃ rounds, Trace (copyStreamToPipe stream operation rounds expectedBytes ()) events
    (.ret (result.map some, ()))

/-! ## The pipe -/

/-- What the stream has supplied, what the file has taken and not written yet, what the pipe
has taken, and how the calls went.  It is broken when a write in the background has failed. -/
structure Piped where
  supplied : List UInt8
  queued : List UInt8
  pipe : List UInt8
  ended : Bool
  failed : Bool
  broken : Bool

namespace Piped

def start : Piped := ⟨[], [], [], false, false, false⟩

/-- A step of the background: the pipe takes bytes in order, or the rest of the buffer is
lost. -/
inductive Drains : Piped → Piped → Prop
  | write (piped : Piped) (front rest : List UInt8) (hqueued : piped.queued = front ++ rest) :
      Drains piped { piped with queued := rest, pipe := piped.pipe ++ front }
  | fail (piped : Piped) (hqueued : piped.queued ≠ []) :
      Drains piped { piped with queued := [], broken := true }

/-- The same file and pipe at a later moment. -/
def Later : Piped → Piped → Prop := Relation.ReflTransGen Drains

/-- The stream answers as it likes.  The file takes the next buffer when it is done with the
last one, or hands on that the last one has failed. -/
def Answers : Environment WorkerRequest WorkerAnswer Piped := fun piped request answer piped' =>
  match request, answer with
  | .read _ capacity, .ok chunk =>
      piped' = { piped with
        supplied := piped.supplied ++ chunk.val
        ended := piped.ended || (chunk.val.isEmpty && decide (0 < capacity)) }
  | .read _ _, .error _ => piped' = { piped with failed := true }
  | .writeAll bytes, .ok _ =>
      piped.queued = [] ∧ piped.broken = false ∧ piped' = { piped with queued := bytes }
  | .writeAll _, .error _ => piped.queued = [] ∧ piped' = { piped with failed := true }

/-- How far the file has come with some bytes that it was given: it still has the rest of
them, or has lost some. -/
def Carries (piped : Piped) (bytes : List UInt8) : Prop :=
  (piped.broken = false ∧ piped.pipe ++ piped.queued = bytes) ∨
    (piped.broken = true ∧ piped.queued = [] ∧ piped.pipe <+: bytes ∧ piped.pipe ≠ bytes)

variable {piped after : Piped} {bytes : List UInt8}

theorem Carries.drains (h : piped.Carries bytes) (hdrains : Drains piped after) :
    after.Carries bytes := by
  cases hdrains with
  | write front rest hqueued =>
      rcases h with ⟨hwhole, rfl⟩ | ⟨hbroken, hnone, hfront⟩
      · refine .inl ⟨hwhole, ?_⟩
        show piped.pipe ++ front ++ rest = piped.pipe ++ piped.queued
        rw [hqueued, List.append_assoc]
      · obtain ⟨rfl, rfl⟩ := List.append_eq_nil_iff.mp (hqueued.symm.trans hnone)
        refine .inr ⟨hbroken, rfl, ?_⟩
        show piped.pipe ++ [] <+: bytes ∧ piped.pipe ++ [] ≠ bytes
        rwa [List.append_nil]
  | fail hqueued =>
      rcases h with ⟨hwhole, rfl⟩ | ⟨hbroken, hnone, hfront⟩
      · refine .inr ⟨rfl, rfl, List.prefix_append _ _, fun hall => hqueued ?_⟩
        exact List.append_right_eq_self.mp hall.symm
      · exact absurd hnone hqueued

theorem Carries.later (h : piped.Carries bytes) (hlater : Later piped after) :
    after.Carries bytes := by
  induction hlater with
  | refl => exact h
  | tail _ hdrains ih => exact ih.drains hdrains

/-- The background does nothing to the stream, and no call is answered there. -/
theorem Later.same (hlater : Later piped after) : after.supplied = piped.supplied ∧
    after.ended = piped.ended ∧ after.failed = piped.failed := by
  induction hlater with
  | refl => exact ⟨rfl, rfl, rfl⟩
  | tail _ hdrains ih =>
      cases hdrains with
      | write front rest hqueued => exact ih
      | fail hqueued => exact ih

theorem Carries.pipe_isFront (h : piped.Carries bytes) : piped.pipe <+: bytes := by
  rcases h with ⟨-, rfl⟩ | ⟨-, -, hfront, -⟩
  · exact List.prefix_append _ _
  · exact hfront

/-- The pipe has got everything when nothing was lost and nothing is left. -/
theorem Carries.pipe_eq_iff (h : piped.Carries bytes) :
    piped.pipe = bytes ↔ piped.broken = false ∧ piped.queued = [] := by
  rcases h with ⟨hwhole, rfl⟩ | ⟨hbroken, -, -, hmissing⟩
  · refine ⟨fun hall => ⟨hwhole, List.append_right_eq_self.mp hall.symm⟩, fun ⟨_, hnone⟩ => ?_⟩
    rw [hnone, List.append_nil]
  · refine ⟨fun hall => absurd hall hmissing, fun ⟨hwhole, _⟩ => ?_⟩
    rw [hbroken] at hwhole
    cases hwhole

end Piped

/-- The worker's calls, and the background between them. -/
def piping : Environment WorkerRequest WorkerAnswer Piped := fun piped request answer piped' =>
  ∃ now, piped.Later now ∧ Piped.Answers now request answer piped'

/-- A stream with this content left, which may also fail. -/
def streaming : Environment WorkerRequest WorkerAnswer (List UInt8) :=
  fun content request answer content' =>
    match request, answer with
    | .read _ capacity, .ok chunk => content = chunk.val ++ content' ∧
        (chunk.val = [] → 0 < capacity → content = [])
    | .read _ _, .error _ => content' = content
    | .writeAll _, _ => content' = content

/-! ## One round -/

section Rounds

variable {stream : ReaderId} {operation : StorageOperation} {expectedBytes remaining : Option Nat}
variable {piped after : Piped}

theorem readLimit_some (value : Nat) : readLimit (some value) = min value bufferLen := by
  have hbound : bufferLen < u64Bound := by decide
  have hfits : tryUsize (min value bufferLen) = some (min value bufferLen) :=
    if_pos (by omega)
  rw [readLimit, Option.map_some, hfits]
  rfl

/-- What holds at every point: the file has only got what the stream supplied, in order, and
no more than was promised has been read. -/
def Forwards (expectedBytes : Option Nat) (piped : Piped) : Prop :=
  (∃ handed, handed <+: piped.supplied ∧ piped.Carries handed) ∧
    ∀ promised ∈ expectedBytes, piped.supplied.length ≤ promised

/-- What holds at the head of a round. -/
structure AtHead (expectedBytes remaining : Option Nat) (piped : Piped) : Prop where
  carries : piped.Carries piped.supplied
  going : piped.ended = false ∧ piped.failed = false
  left : remaining = expectedBytes.map (· - piped.supplied.length)
  within : ∀ promised ∈ expectedBytes, piped.supplied.length ≤ promised

theorem AtHead.forwards (h : AtHead expectedBytes remaining piped) :
    Forwards expectedBytes piped :=
  ⟨⟨piped.supplied, List.prefix_rfl, h.carries⟩, h.within⟩

theorem AtHead.later (h : AtHead expectedBytes remaining piped) (hlater : piped.Later after) :
    AtHead expectedBytes remaining after := by
  obtain ⟨hsupplied, hended, hfailed⟩ := hlater.same
  refine ⟨?_, ?_, ?_, ?_⟩
  · rw [hsupplied]
    exact h.carries.later hlater
  · rw [hended, hfailed]
    exact h.going
  · rw [hsupplied]
    exact h.left
  · rw [hsupplied]
    exact h.within

/-- The stream has supplied all that was promised, or has ended. -/
def Complete (expectedBytes : Option Nat) (piped : Piped) : Prop :=
  match expectedBytes with
  | some promised => piped.supplied.length = promised
  | none => piped.ended = true

/-- The state in which the loop may return `Ok`. -/
def Fulfilled (expectedBytes : Option Nat) (piped : Piped) : Prop :=
  piped.Carries piped.supplied ∧ piped.failed = false ∧ Complete expectedBytes piped

/-- The state in which the loop fails, and the error: a call has failed, or the stream
has ended too early. -/
def Refuses (operation : StorageOperation) (expectedBytes : Option Nat) (error : StorageError)
    (piped : Piped) : Prop :=
  (piped.failed = true ∧ piped.ended = false) ∨ piped.ended = true ∧
    piped.failed = false ∧ piped.Carries piped.supplied ∧
    (∃ promised ∈ expectedBytes, piped.supplied.length < promised) ∧
    ∃ detail, error = .io (some operation) ⟨.unexpectedEof, detail⟩

/-- A read that takes no more than is still to come. -/
theorem AtHead.within_read {chunk : List UInt8} (h : AtHead expectedBytes remaining piped)
    (hfits : ∀ left ∈ remaining, chunk.length ≤ left) :
    ∀ promised ∈ expectedBytes, (piped.supplied ++ chunk).length ≤ promised := by
  intro promised hpromised
  have hwithin := h.within promised hpromised
  have hleft := h.left
  rw [Option.mem_def.mp hpromised, Option.map_some] at hleft
  have hchunk := hfits _ (Option.mem_def.mpr hleft)
  rw [List.length_append]
  omega

/-- The round behind a write. -/
theorem AtHead.write {chunk : List UInt8} (h : AtHead expectedBytes remaining piped)
    (hfits : ∀ left ∈ remaining, chunk.length ≤ left)
    (hsupplied : after.supplied = piped.supplied ++ chunk)
    (hgoing : after.ended = false ∧ after.failed = false)
    (hcarries : after.Carries (piped.supplied ++ chunk)) :
    AtHead expectedBytes (remaining.map (· - chunk.length)) after := by
  refine ⟨hsupplied ▸ hcarries, hgoing, ?_, hsupplied ▸ h.within_read hfits⟩
  rw [hsupplied, h.left, Option.map_map]
  congr 1
  funext promised
  simp only [Function.comp, List.length_append]
  omega

/-- With nothing left to come, every promised byte has been written. -/
theorem AtHead.fulfilled (h : AtHead expectedBytes (some 0) piped) :
    Fulfilled expectedBytes piped := by
  refine ⟨h.carries, h.going.2, ?_⟩
  obtain ⟨promised, hpromised, hleft⟩ := Option.map_eq_some_iff.mp h.left.symm
  have hwithin := h.within promised hpromised
  rw [hpromised]
  show piped.supplied.length = promised
  omega

/-- A stream that has ended behind the last write. -/
theorem AtHead.ended (operation : StorageOperation) (h : AtHead expectedBytes remaining piped) :
    match remaining with
    | none => Fulfilled expectedBytes { piped with ended := true }
    | some left => 0 < left → ∀ detail,
        Refuses operation expectedBytes (.io (some operation) ⟨.unexpectedEof, detail⟩)
          { piped with ended := true } := by
  have hleft := h.left
  cases remaining with
  | none =>
      obtain rfl : expectedBytes = none := Option.map_eq_none_iff.mp hleft.symm
      exact ⟨h.carries, h.going.2, rfl⟩
  | some left =>
      intro hmore detail
      obtain ⟨promised, hpromised, hrest⟩ := Option.map_eq_some_iff.mp hleft.symm
      refine .inr ⟨rfl, h.going.2, h.carries, ⟨promised, hpromised, ?_⟩, detail, rfl⟩
      show piped.supplied.length < promised
      omega

theorem copyRound_ensures (h : AtHead expectedBytes remaining piped) :
    Script.Ensures piping (Forwards expectedBytes) (copyRound stream operation remaining)
      (fun next _ piped' => match next with
        | none => Fulfilled expectedBytes piped'
        | some remaining' => AtHead expectedBytes remaining' piped')
      (fun error _ piped' => Refuses operation expectedBytes error piped') () piped := by
  unfold copyRound
  have hcapacity : ∀ left ∈ remaining, readLimit remaining ≤ left := by
    rintro left rfl
    rw [readLimit_some]
    exact Nat.min_le_left _ _
  -- no room in the read means that nothing was promised, or nothing more
  by_cases hlimit : readLimit remaining = 0
  · rw [if_pos hlimit]
    cases remaining with
    | none => exact absurd hlimit (by decide)
    | some left =>
        obtain rfl : left = 0 := by
          rw [readLimit_some, bufferLen] at hlimit
          omega
        exact ⟨h.forwards, h.fulfilled⟩
  rw [if_neg hlimit]
  have hpos : 0 < readLimit remaining := Nat.pos_of_ne_zero hlimit
  generalize readLimit remaining = limit at hcapacity hpos
  refine Script.ensures_bind_ask h.forwards ?_
  rintro answer read ⟨now, hnow, hanswer⟩
  replace h := h.later hnow
  rcases answer with error | ⟨chunk, hshort⟩
  · obtain rfl : read = _ := hanswer
    exact ⟨h.forwards, .inl ⟨rfl, h.going.1⟩⟩
  change chunk.length ≤ limit at hshort
  obtain rfl : read = _ := hanswer
  have hfits : ∀ left ∈ remaining, chunk.length ≤ left := fun left hleft =>
    hshort.trans (hcapacity left hleft)
  change Script.Ensures piping (Forwards expectedBytes)
    (if chunk.length = 0 then _ else _) _ _ () _
  -- an empty read into a buffer with room is the end of the stream
  by_cases hempty : chunk.length = 0
  · obtain rfl : chunk = [] := List.length_eq_zero_iff.mp hempty
    have hafter : ({ now with
        supplied := now.supplied ++ []
        ended := now.ended || (List.isEmpty ([] : List UInt8) && decide (0 < limit)) } : Piped)
        = { now with ended := true } := by
      rw [List.append_nil, decide_eq_true hpos, List.isEmpty_nil, Bool.and_self, Bool.or_true]
    rw [if_pos hempty]
    simp only [hafter]
    have hended := h.ended operation
    cases remaining with
    | none => exact ⟨h.forwards, hended⟩
    | some left => exact ⟨h.forwards, hended (hpos.trans_le (hcapacity left rfl)) _⟩
  · have hopen : (now.ended || (chunk.isEmpty && decide (0 < limit))) = false := by
      cases chunk with
      | nil => exact absurd rfl hempty
      | cons byte bytes => rw [h.going.1]; rfl
    have hforwards : Forwards expectedBytes { now with
        supplied := now.supplied ++ chunk
        ended := now.ended || (chunk.isEmpty && decide (0 < limit)) } :=
      ⟨⟨now.supplied, List.prefix_append _ _, h.carries⟩, h.within_read hfits⟩
    rw [if_neg hempty]
    refine Script.ensures_bind_ask hforwards ?_
    rintro answer written ⟨idle, hidle, hanswer⟩
    -- the file has written or lost everything before it takes the next buffer
    obtain ⟨hsupplied, hended, hfailed⟩ := hidle.same
    have hcarries : idle.Carries now.supplied :=
      Piped.Carries.later (by exact h.carries) hidle
    cases answer with
    | error error =>
        obtain ⟨-, rfl⟩ := hanswer
        refine ⟨⟨⟨now.supplied, ?_, hcarries⟩, ?_⟩, .inl ⟨rfl, hended.trans hopen⟩⟩
        · show now.supplied <+: idle.supplied
          rw [hsupplied]
          exact List.prefix_append _ _
        · show ∀ promised ∈ expectedBytes, idle.supplied.length ≤ promised
          rw [hsupplied]
          exact h.within_read hfits
    | ok done =>
        obtain ⟨hdone, hwhole, rfl⟩ := hanswer
        have hpipe : idle.pipe = now.supplied := hcarries.pipe_eq_iff.mpr ⟨hwhole, hdone⟩
        have hhead : AtHead expectedBytes (remaining.map (· - chunk.length))
            { idle with queued := chunk } :=
          h.write hfits hsupplied ⟨hended.trans hopen, hfailed.trans h.going.2⟩
            (.inl ⟨hwhole, congrArg (· ++ chunk) hpipe⟩)
        cases remaining with
        | none => exact ⟨hhead.forwards, hhead⟩
        | some left =>
            change Script.Ensures piping (Forwards expectedBytes)
              (if left - chunk.length = 0 then _ else _) _ _ () _
            by_cases hlast : left - chunk.length = 0
            · rw [if_pos hlast]
              rw [Option.map_some, hlast] at hhead
              exact ⟨hhead.forwards, hhead.fulfilled⟩
            · rw [if_neg hlast]
              exact ⟨hhead.forwards, hhead⟩

theorem copyStreamToPipe_ensures (rounds : Nat) (h : AtHead expectedBytes remaining piped) :
    Script.Ensures piping (Forwards expectedBytes)
      (copyStreamToPipe stream operation rounds remaining)
      (fun done _ piped' => done = some () → Fulfilled expectedBytes piped')
      (fun error _ piped' => Refuses operation expectedBytes error piped') () piped := by
  induction rounds generalizing remaining piped with
  | zero => exact ⟨h.forwards, nofun⟩
  | succ rounds ih =>
      refine Script.Ensures.bind (copyRound_ensures h) ?_
      rintro (_ | remaining') state piped' hforwards hnext
      · exact ⟨hforwards, fun _ => hnext⟩
      · exact ih hnext

/-! ## Finite streams -/

theorem copyRound_streaming (content : List UInt8) :
    Script.Ensures streaming (fun _ => True) (copyRound stream operation remaining)
      (fun next _ content' => next.isSome → content'.length < content.length)
      (fun _ _ _ => True) () content := by
  unfold copyRound
  by_cases hlimit : readLimit remaining = 0
  · rw [if_pos hlimit]
    exact ⟨trivial, nofun⟩
  rw [if_neg hlimit]
  refine Script.ensures_bind_ask trivial ?_
  rintro (error | chunk) content₁ hread
  · exact ⟨trivial, trivial⟩
  obtain ⟨hsplit, -⟩ : content = chunk.val ++ content₁ ∧ _ := hread
  change Script.Ensures streaming (fun _ => True) (if chunk.val.length = 0 then _ else _) _ _ () _
  by_cases hempty : chunk.val.length = 0
  · rw [if_pos hempty]
    cases remaining with
    | none => exact ⟨trivial, nofun⟩
    | some left => exact ⟨trivial, trivial⟩
  · rw [if_neg hempty]
    refine Script.ensures_bind_ask trivial ?_
    rintro (error | done) content₂ (rfl : content₂ = content₁)
    · exact ⟨trivial, trivial⟩
    have hshorter : content₂.length < content.length := by
      rw [hsplit, List.length_append]
      omega
    cases remaining with
    | none => exact ⟨trivial, fun _ => hshorter⟩
    | some left =>
        change Script.Ensures streaming (fun _ => True)
          (if left - chunk.val.length = 0 then _ else _) _ _ () _
        split
        · exact ⟨trivial, nofun⟩
        · exact ⟨trivial, fun _ => hshorter⟩

/-- More rounds than bytes are enough. -/
theorem copyStreamToPipe_streaming (rounds : Nat) {content : List UInt8}
    (hrounds : content.length < rounds) :
    Script.Ensures streaming (fun _ => True)
      (copyStreamToPipe stream operation rounds remaining)
      (fun done _ _ => done = some ()) (fun _ _ _ => True) () content := by
  induction rounds generalizing remaining content with
  | zero => exact absurd hrounds (Nat.not_lt_zero _)
  | succ rounds ih =>
      refine Script.Ensures.bind (copyRound_streaming content) ?_
      rintro (_ | remaining') state content' - hnext
      · exact ⟨trivial, rfl⟩
      · have hshorter := hnext rfl
        exact ih (by omega)

end Rounds

/-- The stream has supplied the front of the whole, and all of it when it has ended. -/
def Sourced (whole content : List UInt8) (piped : Piped) : Prop :=
  whole = piped.supplied ++ content ∧ (piped.ended = true → content = [])

theorem Sourced.step {whole content content' : List UInt8} {piped piped' : Piped}
    {request : WorkerRequest} {answer : WorkerAnswer request} (h : Sourced whole content piped)
    (hstream : streaming content request answer content')
    (hpiped : piping piped request answer piped') : Sourced whole content' piped' := by
  obtain ⟨now, hnow, hanswer⟩ := hpiped
  obtain ⟨hsupplied, hover, -⟩ := hnow.same
  obtain ⟨hwhole, hended⟩ : Sourced whole content now := by
    rw [Sourced, hsupplied, hover]
    exact h
  cases request with
  | read stream capacity =>
      cases answer with
      | error error =>
          obtain rfl : content' = content := hstream
          obtain rfl : piped' = _ := hanswer
          exact ⟨hwhole, hended⟩
      | ok chunk =>
          obtain ⟨hsplit, hnothing⟩ : content = chunk.val ++ content' ∧
            (chunk.val = [] → 0 < capacity → content = []) := hstream
          obtain rfl : piped' = _ := hanswer
          refine ⟨?_, fun hlast => ?_⟩
          · rw [hwhole, hsplit, List.append_assoc]
          · rcases Bool.or_eq_true_iff.mp hlast with hlast | hlast
            · exact (List.append_eq_nil_iff.mp (hsplit.symm.trans (hended hlast))).2
            · rw [Bool.and_eq_true, List.isEmpty_iff, decide_eq_true_eq] at hlast
              exact (List.append_eq_nil_iff.mp (hsplit.symm.trans (hnothing hlast.1 hlast.2))).2
  | writeAll bytes =>
      obtain rfl : content' = content := hstream
      cases answer with
      | error error =>
          obtain ⟨-, rfl⟩ := hanswer
          exact ⟨hwhole, hended⟩
      | ok done =>
          obtain ⟨-, -, rfl⟩ := hanswer
          exact ⟨hwhole, hended⟩

theorem Sourced.run {whole content rest : List UInt8} {piped piped' : Piped}
    {events : List (Event WorkerRequest WorkerAnswer)} (h : Sourced whole content piped)
    (hstream : Accepts streaming content events rest)
    (hpiped : Accepts piping piped events piped') : Sourced whole rest piped' := by
  induction events generalizing content piped with
  | nil =>
      cases hstream
      cases hpiped
      exact h
  | cons event events ih =>
      obtain ⟨content₁, hfirst, hstream⟩ := accepts_cons_iff.mp hstream
      obtain ⟨piped₁, hsecond, hpiped⟩ := accepts_cons_iff.mp hpiped
      exact ih (h.step hfirst hsecond) hstream hpiped

theorem sourced_start (whole : List UInt8) : Sourced whole whole .start :=
  ⟨rfl, fun hended => absurd hended Bool.false_ne_true⟩

/-! ## The worker of a ranged read -/

/-- A ranged read has been opened: one worker was spawned, for the length that the
provider's response promises, and the receiver of its result was stored. -/
def OpenedRange (events : List FfiEvent) : Prop :=
  ∃ before guarded request response receiver streamId writer promised,
    events = before ++ [⟨.guardedGetRange guarded request, .ok response⟩,
      ⟨.readChannel, receiver⟩, ⟨.reserveStream, streamId⟩,
      ⟨.storeStream streamId (.pendingRead receiver .getRange), ()⟩,
      ⟨.spawnRead response.reader writer .getRange (some promised), ()⟩] ∧
    promisedLength response.receipt = .ok promised

section Opened

variable {α β : Type} {past : List FfiEvent} {out : OutPointer}
variable {toJson : StreamDescriptor → Except String String}
variable {ok : β → OutPointer → List FfiEvent → Prop}

/-- What a script has asked, and been answered, when it returns. -/
def Records (script : FfiScript β) (ok : β → OutPointer → List FfiEvent → Prop) (out : OutPointer)
    (past : List FfiEvent) : Prop :=
  Script.Ensures history (fun _ => True) script ok (fun _ _ _ => True) out past

theorem records_ask {request : FfiRequest} {next : FfiResponse request → FfiScript β}
    (hnext : ∀ response, Records (next response) ok out (past ++ [⟨request, response⟩])) :
    Records (FfiScript.ask request >>= next) ok out past :=
  Script.ensures_bind_ask trivial fun response _ hpast => hpast ▸ hnext response

theorem records_settle {result : Except Failure α} {next : α → FfiScript β}
    (hnext : ∀ value, result = .ok value → Records (next value) ok out past) :
    Records (Script.ofExcept result >>= next) ok out past :=
  Script.ensures_bind_ofExcept (fun _ _ => ⟨trivial, trivial⟩) hnext

theorem records_orReturn {result : Except StorageError α} {next : α → FfiScript β}
    (hnext : ∀ value, result = .ok value → Records (next value) ok out past) :
    Records (orReturn Failure.error result >>= next) ok out past :=
  Script.ensures_bind_orReturn (fun _ _ => ⟨trivial, trivial⟩) hnext

theorem records_initializeOut {field : String} {operation : StorageOperation}
    {next : Unit → FfiScript β} (hnext : Records (next ()) ok (some none) past) :
    Records (initializeOut field operation >>= next) ok out past := by
  cases out with
  | none => exact ⟨trivial, trivial⟩
  | some cell => exact hnext

theorem records_insertStream (stream : StreamState) :
    Records (insertStream stream) (fun streamId out' now => out' = out ∧ now = past ++
      [⟨.reserveStream, streamId⟩, ⟨.storeStream streamId stream, ()⟩]) out past := by
  refine records_ask fun streamId => records_ask fun done => ⟨trivial, rfl, ?_⟩
  rw [List.append_assoc, List.singleton_append]
  rfl

theorem records_describeStream {stream : StreamState} {fd : Int32} {mode : String}
    {next : Unit → FfiScript β}
    (hnext : ∀ streamId out', Records (next ()) ok out'
      (past ++ [⟨.reserveStream, streamId⟩, ⟨.storeStream streamId stream, ()⟩])) :
    Records (describeStream toJson stream fd mode >>= next) ok out past := by
  have hstored : Records (describeStream toJson stream fd mode) (fun _ _ now => ∃ streamId,
      now = past ++ [⟨.reserveStream, streamId⟩, ⟨.storeStream streamId stream, ()⟩])
      out past := by
    refine Script.Ensures.bind (records_insertStream stream) ?_
    rintro streamId _ _ - ⟨rfl, rfl⟩
    refine Script.ensures_bind_read.mpr ?_
    cases writeJson (toJson ⟨some streamId, fd, mode⟩) _ with
    | ok out' => exact ⟨trivial, streamId, rfl⟩
    | error error => exact ⟨trivial, fun present past₃ _ => ⟨trivial, trivial⟩⟩
  refine Script.Ensures.bind hstored ?_
  rintro _ out' _ - ⟨streamId, rfl⟩
  exact hnext streamId out'

theorem getRange_records (handle providerId : UInt64) (key : CStr) (offset length : UInt64)
    (out : OutPointer) :
    Records (storageprimsGetRange toJson handle providerId key offset length)
      (fun _ _ past => OpenedRange past) out [] := by
  refine records_initializeOut (records_ask fun runtime => records_orReturn fun _ _ => ?_)
  refine records_ask fun answer => records_orReturn fun provider _ => ?_
  refine records_orReturn fun key _ => records_orReturn fun _ _ => ?_
  refine records_ask fun answer => records_orReturn fun pipe _ => ?_
  refine records_orReturn fun guarded _ => records_ask fun answer => ?_
  refine records_settle fun observation _ => records_orReturn fun selector _ => ?_
  refine records_orReturn fun selection _ => records_ask fun answer => ?_
  refine records_settle fun response hresponse => records_orReturn fun promised hpromised => ?_
  refine records_ask fun receiver => records_describeStream fun streamId out' => ?_
  refine ⟨trivial, fun done past' hpast => ⟨trivial, ?_⟩⟩
  subst hpast hresponse
  exact ⟨[_, _, _, _], guarded, _, response, receiver, streamId, pipe.writer, promised, rfl,
    hpromised⟩

end Opened

/-- The receiver of a stream holds the result of its worker, unless it was dropped; the
worker left the pipe as it is. -/
def HoldsResult (receiver : Receiver Unit) (stream : ReaderId) (operation : StorageOperation)
    (expectedBytes : Option Nat) (piped : Piped) : Prop :=
  ∀ result, receiver = some result → ∃ events,
    Copies stream operation expectedBytes result events ∧ Accepts piping .start events piped

theorem getFinalize_ok {Provider : Type} {process : Runtimes Provider} {handle streamId : UInt64}
    {receiver : Receiver Unit} {operation : StorageOperation}
    (hstream : process.stream handle streamId = some (.pendingRead receiver operation))
    (hcode : (storageprimsGetFinalize process handle streamId).1.code = .ok) :
    receiver = some (.ok ()) := by
  have hreply : (storageprimsGetFinalize process handle streamId).1 =
      (StreamState.pendingRead receiver operation).outcome fun _ => .error "" :=
    FinalizeCall.proper_run hstream
  rw [hreply] at hcode
  cases receiver with
  | none => cases hcode
  | some result =>
      cases result with
      | ok done => rfl
      | error error =>
          change StorageprimsErrorCode.ofCode error.code = .ok at hcode
          cases hkind : error.code with
          | _ =>
              rw [hkind] at hcode
              cases hcode

/-! ## The worker -/

theorem atHead_start (expectedBytes : Option Nat) : AtHead expectedBytes expectedBytes .start := by
  refine ⟨.inl ⟨rfl, rfl⟩, ⟨rfl, rfl⟩, ?_, fun promised _ => Nat.zero_le _⟩
  cases expectedBytes with
  | none => rfl
  | some promised => rfl

/-- A run that returned: `Ok` is for what was promised, and a stream that ends too early
is an unexpected end. -/
theorem copies_result {stream : ReaderId} {operation : StorageOperation}
    {expectedBytes : Option Nat} {result : Except StorageError Unit}
    {events : List (Event WorkerRequest WorkerAnswer)} {piped : Piped}
    (hcopies : Copies stream operation expectedBytes result events)
    (haccepts : Accepts piping .start events piped) :
    (result = .ok () → Fulfilled expectedBytes piped) ∧
    (piped.failed = false → Complete expectedBytes piped → result = .ok ()) ∧
    (piped.ended = true → ∀ promised ∈ expectedBytes, piped.supplied.length < promised →
      ∃ detail, result = .error (.io (some operation) ⟨.unexpectedEof, detail⟩)) := by
  obtain ⟨rounds, htrace⟩ := hcopies
  have hpost := Program.Ensures.of_finished
    (copyStreamToPipe_ensures rounds (atHead_start expectedBytes)) htrace haccepts
  -- what holds at the end of the run decides the result, in both directions
  cases result with
  | ok done =>
      have hfulfilled : Fulfilled expectedBytes piped := hpost rfl
      refine ⟨fun _ => hfulfilled, fun _ _ => rfl, fun _ promised hpromised hshort => ?_⟩
      obtain rfl := Option.mem_def.mp hpromised
      exact absurd hfulfilled.2.2 (Nat.ne_of_lt hshort)
  | error error =>
      have hrefuses : Refuses operation expectedBytes error piped := hpost
      rcases hrefuses with ⟨hfailed, hopen⟩ | ⟨-, -, -, ⟨promised, rfl, hshort⟩, detail, rfl⟩
      · refine ⟨nofun, fun hnone => ?_, fun hended => ?_⟩
        · rw [hfailed] at hnone
          cases hnone
        · rw [hopen] at hended
          cases hended
      · exact ⟨nofun, fun _ hcomplete => absurd hcomplete (Nat.ne_of_lt hshort),
          fun _ _ _ _ => ⟨detail, rfl⟩⟩

/-- With more rounds than the stream has bytes, the loop has returned. -/
theorem copies_of_finite {stream : ReaderId} {operation : StorageOperation}
    {expectedBytes : Option Nat} {content rest : List UInt8} {rounds : Nat}
    {events : List (Event WorkerRequest WorkerAnswer)}
    {out : Except StorageError (Option Unit) × Unit} (hrounds : content.length < rounds)
    (htrace : Trace (copyStreamToPipe stream operation rounds expectedBytes ()) events (.ret out))
    (haccepts : Accepts streaming content events rest) :
    ∃ result, Copies stream operation expectedBytes result events := by
  have hfinite : Script.Ensures streaming (fun _ => True)
      (copyStreamToPipe stream operation rounds expectedBytes) _ _ () content :=
    copyStreamToPipe_streaming rounds hrounds
  have hpost := Program.Ensures.of_finished hfinite htrace haccepts
  obtain ⟨result, ⟨⟩⟩ := out
  cases result with
  | ok done =>
      obtain rfl : done = some () := hpost
      exact ⟨.ok (), rounds, htrace⟩
  | error error => exact ⟨.error error, rounds, htrace⟩

/-- What a copy of the whole stream looks like when no call fails and nothing is lost. -/
def CopiesAll (operation : StorageOperation) (expectedBytes : Option Nat) (content : List UInt8)
    (result : Except StorageError Unit) (pipe : List UInt8) : Prop :=
  match expectedBytes with
  | none => result = .ok () ∧ pipe = content
  | some promised =>
      if promised ≤ content.length then result = .ok () ∧ pipe = content.take promised
      else (∃ detail, result = .error (.io (some operation) ⟨.unexpectedEof, detail⟩)) ∧
        pipe = content

theorem copies_all {stream : ReaderId} {operation : StorageOperation}
    {expectedBytes : Option Nat} {result : Except StorageError Unit} {content rest : List UInt8}
    {events : List (Event WorkerRequest WorkerAnswer)} {piped after : Piped}
    (hcopies : Copies stream operation expectedBytes result events)
    (hstream : Accepts streaming content events rest)
    (haccepts : Accepts piping .start events piped) (hlater : piped.Later after)
    (hfailed : after.failed = false) (hwhole : after.broken = false) (hnone : after.queued = []) :
    CopiesAll operation expectedBytes content result after.pipe := by
  obtain ⟨rounds, htrace⟩ := hcopies
  have hpost := Program.Ensures.of_finished
    (copyStreamToPipe_ensures rounds (atHead_start expectedBytes)) htrace haccepts
  obtain ⟨hcontent, hended⟩ := (sourced_start content).run hstream haccepts
  rw [hlater.same.2.2] at hfailed
  have hpipe : piped.Carries piped.supplied → after.pipe = piped.supplied := fun hcarries =>
    (hcarries.later hlater).pipe_eq_iff.mpr ⟨hwhole, hnone⟩
  cases result with
  | ok done =>
      have hfulfilled : Fulfilled expectedBytes piped := hpost rfl
      obtain ⟨hcarries, -, hcomplete⟩ := hfulfilled
      rw [hpipe hcarries]
      cases expectedBytes with
      | none =>
          rw [hended hcomplete, List.append_nil] at hcontent
          exact ⟨rfl, hcontent.symm⟩
      | some promised =>
          obtain rfl : piped.supplied.length = promised := hcomplete
          rw [CopiesAll, hcontent, if_pos (by simp), List.take_left]
          exact ⟨rfl, rfl⟩
  | error error =>
      have hrefuses : Refuses operation expectedBytes error piped := hpost
      rcases hrefuses with ⟨hfails, -⟩ | ⟨hover, -, hcarries, ⟨promised, rfl, hshort⟩, detail, rfl⟩
      · rw [hfailed] at hfails
        cases hfails
      · rw [hended hover, List.append_nil] at hcontent
        rw [CopiesAll, hpipe hcarries, hcontent, if_neg (by omega)]
        exact ⟨⟨detail, rfl⟩, rfl⟩

/-- The stream has supplied all that was to be forwarded, no call has failed, and the last
write is not in the pipe: it has failed in the background, or has not been carried out yet. -/
def LacksLast (expectedBytes : Option Nat) (piped : Piped) : Prop :=
  piped.failed = false ∧ Complete expectedBytes piped ∧
    (piped.broken = true ∨ piped.queued ≠ [])

/-- `Ok` is for what was promised. -/
def ReportsWritten (expectedBytes : Option Nat) (result : Except StorageError Unit)
    (piped : Piped) : Prop :=
  result = .ok () ↔
    piped.pipe = piped.supplied ∧ piped.failed = false ∧ Complete expectedBytes piped

theorem Fulfilled.later {expectedBytes : Option Nat} {piped after : Piped}
    (h : Fulfilled expectedBytes piped) (hlater : piped.Later after) :
    Fulfilled expectedBytes after := by
  obtain ⟨hsupplied, hended, hfailed⟩ := hlater.same
  obtain ⟨hcarries, hgoing, hcomplete⟩ := h
  refine ⟨hsupplied ▸ hcarries.later hlater, hfailed.trans hgoing, ?_⟩
  cases expectedBytes with
  | none => exact hended.trans hcomplete
  | some promised => exact (congrArg List.length hsupplied).trans hcomplete

theorem reportsWritten_iff {expectedBytes : Option Nat} {result : Except StorageError Unit}
    {piped : Piped} (hfulfilled : result = .ok () → Fulfilled expectedBytes piped)
    (hcomplete : piped.failed = false → Complete expectedBytes piped → result = .ok ()) :
    ReportsWritten expectedBytes result piped ↔ ¬ LacksLast expectedBytes piped := by
  constructor
  · rintro hreports ⟨hfailed, hall, hlacks⟩
    have hok := hcomplete hfailed hall
    obtain ⟨hwhole, hnone⟩ := (hfulfilled hok).1.pipe_eq_iff.mp (hreports.mp hok).1
    rcases hlacks with hbroken | hqueued
    · rw [hwhole] at hbroken
      cases hbroken
    · exact hqueued hnone
  · intro hlacks
    refine ⟨fun hok => ?_, fun ⟨_, hfailed, hall⟩ => hcomplete hfailed hall⟩
    obtain ⟨hcarries, hfailed, hall⟩ := hfulfilled hok
    refine ⟨hcarries.pipe_eq_iff.mpr ⟨?_, ?_⟩, hfailed, hall⟩
    · exact Bool.eq_false_iff.mpr fun hbroken => hlacks ⟨hfailed, hall, .inl hbroken⟩
    · exact not_not.mp fun hqueued => hlacks ⟨hfailed, hall, .inr hqueued⟩

/-- At every moment the pipe has a prefix of the stream, and no more than was promised has
been read; and a run that has returned says of the last write what is so, unless that one has
failed, or is still to be carried out, behind its back.  A stream that ends too early is an
unexpected end.  On a finite stream the loop returns, and when no call fails and no byte is
lost the pipe gets all that was promised.  So a ranged read that is finalized with `Ok` has put
as many bytes into the pipe as the window of its receipt is long exactly when the last write
has come through. -/
theorem worker_forwards_iff (stream : ReaderId) (operation : StorageOperation)
    (expectedBytes : Option Nat) :
    (∀ rounds events rest piped after,
      Trace (copyStreamToPipe stream operation rounds expectedBytes ()) events rest →
      Accepts piping .start events piped → piped.Later after →
      after.pipe <+: after.supplied ∧
        ∀ promised ∈ expectedBytes, after.supplied.length ≤ promised) ∧
    (∀ result events piped after, Copies stream operation expectedBytes result events →
      Accepts piping .start events piped → piped.Later after →
      (ReportsWritten expectedBytes result after ↔ ¬ LacksLast expectedBytes after) ∧
      (after.ended = true → ∀ promised ∈ expectedBytes, after.supplied.length < promised →
        ∃ detail, result = .error (.io (some operation) ⟨.unexpectedEof, detail⟩))) ∧
    (∀ content rounds events out rest, content.length < rounds →
      Trace (copyStreamToPipe stream operation rounds expectedBytes ()) events (.ret out) →
      Accepts streaming content events rest →
      ∃ result, Copies stream operation expectedBytes result events ∧
        ∀ piped after, Accepts piping .start events piped → piped.Later after →
          after.failed = false → after.broken = false → after.queued = [] →
          CopiesAll operation expectedBytes content result after.pipe) ∧
    ∀ toJson handle providerId key offset length out events out',
      Trace (storageprimsGetRange toJson handle providerId key offset length out) events
        (.ret (.ok (), out')) →
      ∃ guarded request response window promised receiver streamId writer,
        ⟨.guardedGetRange guarded request, .ok response⟩ ∈ events ∧
        response.receipt.returnedWindow = some window ∧ window.checkedLen = some promised ∧
        ⟨.storeStream streamId (.pendingRead receiver .getRange), ()⟩ ∈ events ∧
        ⟨.spawnRead response.reader writer .getRange (some promised), ()⟩ ∈ events ∧
        ∀ (process : Runtimes StorageProvider) piped after,
          process.stream handle streamId = some (.pendingRead receiver .getRange) →
          HoldsResult receiver response.reader .getRange (some promised) piped →
          piped.Later after → (storageprimsGetFinalize process handle streamId).1.code = .ok →
          (after.pipe.length = promised ↔ after.broken = false ∧ after.queued = []) := by
  refine ⟨fun rounds events rest piped after htrace haccepts hlater => ?_,
    fun result events piped after hcopies haccepts hlater => ?_,
    fun content rounds events out rest hrounds htrace hstream => ?_, ?_⟩
  · obtain ⟨⟨handed, hhanded, hcarries⟩, hwithin⟩ := (Program.Ensures.of_trace
      (copyStreamToPipe_ensures rounds (atHead_start expectedBytes)) htrace haccepts).1
    rw [hlater.same.1]
    exact ⟨(hcarries.later hlater).pipe_isFront.trans hhanded, hwithin⟩
  · obtain ⟨hfulfilled, hcomplete, hshort⟩ := copies_result hcopies haccepts
    obtain ⟨hsupplied, hended, hfailed⟩ := hlater.same
    refine ⟨reportsWritten_iff (fun hok => (hfulfilled hok).later hlater) fun hnone hall => ?_, ?_⟩
    · refine hcomplete (hfailed.symm.trans hnone) ?_
      cases expectedBytes with
      | none => exact hended.symm.trans hall
      | some promised => exact (congrArg List.length hsupplied).symm.trans hall
    · rw [hended, hsupplied]
      exact hshort
  · obtain ⟨result, hcopies⟩ := copies_of_finite hrounds htrace hstream
    exact ⟨result, hcopies, fun piped after haccepts => copies_all hcopies hstream haccepts⟩
  · intro toJson handle providerId key offset length out events out' htrace
    -- the worker was promised the length of the window its receipt names
    have hopened : OpenedRange events := Program.Ensures.of_finished
      (getRange_records handle providerId key offset length out) htrace (accepts_history [] events)
    obtain ⟨before, guarded, request, response, receiver, streamId, writer, promised, rfl,
      hpromised⟩ := hopened
    obtain ⟨window, hwindow, hlength⟩ : ∃ window, response.receipt.returnedWindow = some window ∧
        window.checkedLen = some promised := by
      rw [promisedLength] at hpromised
      split at hpromised
      · next found hfound =>
          obtain rfl := Except.ok.inj hpromised
          exact Option.bind_eq_some_iff.mp hfound
      · cases hpromised
    refine ⟨guarded, request, response, window, promised, receiver, streamId, writer, ?_, hwindow,
      hlength, ?_, ?_, ?_⟩
    · simp
    · simp
    · simp
    · intro process piped after hstream hholds hlater hcode
      obtain ⟨copied, hcopies, haccepts⟩ := hholds _ (getFinalize_ok hstream hcode)
      obtain ⟨hcarries, -, hall⟩ := ((copies_result hcopies haccepts).1 rfl).later hlater
      obtain rfl : after.supplied.length = promised := hall
      rw [← hcarries.pipe_eq_iff]
      exact ⟨hcarries.pipe_isFront.eq_of_length, congrArg List.length⟩

section Runs

/-- Two promised bytes of a stream that could supply more. -/
def twoCopied : List (Event WorkerRequest WorkerAnswer) :=
  [⟨.read 0 2, .ok ⟨[0x61, 0x62], by decide⟩⟩, ⟨.writeAll [0x61, 0x62], .ok ()⟩]

/-- The worker has returned, and its file has not written yet. -/
def twoQueued : Piped := ⟨[0x61, 0x62], [0x61, 0x62], [], false, false, false⟩

theorem twoCopied_copies : Copies 0 .getRange (some 2) (.ok ()) twoCopied :=
  ⟨1, .step _ _ _ _ _ (.step _ _ _ _ _ (.refl _))⟩

theorem twoCopied_streaming : Accepts streaming [0x61, 0x62, 0x63] twoCopied [0x63] :=
  .cons _ [0x63] _ _ _ _ ⟨rfl, fun hnil => absurd hnil (by decide)⟩ (.cons _ _ _ _ _ _ rfl (.nil _))

theorem twoCopied_piping : Accepts piping .start twoCopied twoQueued := by
  let read : Piped := ⟨[0x61, 0x62], [], [], false, false, false⟩
  refine .cons _ read _ _ _ _ ⟨.start, .refl, rfl⟩ ?_
  exact .cons _ twoQueued _ _ _ _ ⟨read, .refl, rfl, rfl, rfl⟩ (.nil _)

/-- Once the pipe has taken both bytes, the report is right. -/
theorem worker_forwards_iff_two :
    let after : Piped := ⟨[0x61, 0x62], [], [0x61, 0x62], false, false, false⟩
    ReportsWritten (some 2) (.ok ()) after ∧
      CopiesAll .getRange (some 2) [0x61, 0x62, 0x63] (.ok ()) after.pipe := by
  have hlater : twoQueued.Later ⟨[0x61, 0x62], [], [0x61, 0x62], false, false, false⟩ :=
    .single (.write twoQueued [0x61, 0x62] [] rfl)
  have htrace : Trace (copyStreamToPipe 0 .getRange 4 (some 2) ()) twoCopied
      (.ret (.ok (some ()), ())) :=
    .step _ _ _ _ _ (.step _ _ _ _ _ (.refl _))
  obtain ⟨-, hreturned, hfinite, -⟩ := worker_forwards_iff 0 .getRange (some 2)
  obtain ⟨result, hcopies, hall⟩ := hfinite _ 4 _ _ _ (by decide) htrace twoCopied_streaming
  have hok : result = .ok () := (copies_result hcopies twoCopied_piping).2.1 rfl rfl
  subst hok
  refine ⟨(hreturned _ _ _ _ hcopies twoCopied_piping hlater).1.mpr ?_,
    hall _ _ twoCopied_piping hlater rfl rfl rfl⟩
  rintro ⟨-, -, hbroken | hqueued⟩
  · cases hbroken
  · exact hqueued rfl

/-- The read end of the pipe has been closed: the worker returns `Ok`, and then its one write
fails. -/
theorem worker_loses_last :
    Copies 0 .getRange (some 2) (.ok ()) twoCopied ∧
    Accepts streaming [0x61, 0x62, 0x63] twoCopied [0x63] ∧
    ∃ piped after, Accepts piping .start twoCopied piped ∧ piped.Later after ∧
      after.pipe = [] ∧ after.queued = [] ∧ ¬ ReportsWritten (some 2) (.ok ()) after := by
  refine ⟨twoCopied_copies, twoCopied_streaming, twoQueued,
    ⟨[0x61, 0x62], [], [], false, false, true⟩, twoCopied_piping, ?_, rfl, rfl, fun hreports => ?_⟩
  · exact .single (.fail twoQueued (by decide))
  · exact absurd (hreports.mp rfl).1 (by decide)

end Runs

end Storageprims

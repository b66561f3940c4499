import Storageprims.S3.GuardedReads
import Storageprims.S3.PolledReaders

/-!
# Bodies of declared length

A guarded response declares how long its body is, and `DeclaredLengthRead` holds the
body to it: it never hands out more, asks the inner reader for one byte behind the last
one before it reports the end, and fails when the body is too short or too long.
-/

namespace Storageprims

open Interaction

namespace DeclaredLengthRead

/-- `poll_read`, into a buffer with room for `capacity` bytes. -/
def pollRead (capacity : Nat) :
    PollMethod DeclaredLengthRead (Poll (Except IoError (List UInt8))) := do
  let this ← Script.read
  match this.remaining with
  | none =>
      match ← pollInner this.reader capacity with
      | .pending => return .pending
      | .ready result => return .ready (result.map (·.val))
  | some remaining =>
      if remaining = 0 then
        if this.checkedEnd then return .ready (.ok [])
        else do
          match ← pollInner this.reader 1 with
          | .pending => return .pending
          | .ready (.ok probe) =>
              if probe.val = [] then do
                Script.write { this with checkedEnd := true }
                return .ready (.ok [])
              else
                return .ready (.error
                  ⟨.invalidData, "stream exceeded declared response length"⟩)
          | .ready (.error error) => return .ready (.error error)
      else if min capacity remaining = 0 then return .ready (.ok [])
      else do
        match ← pollInner this.reader (min capacity remaining) with
        | .pending => return .pending
        | .ready (.ok temporary) =>
            if temporary.val = [] then
              return .ready (.error
                ⟨.unexpectedEof, "stream ended before declared response length"⟩)
            else do
              let rest ← Script.ofExcept (subU64 remaining temporary.val.length)
              Script.write { this with remaining := some rest }
              let bytes ← Script.ofExcept (putSlice capacity temporary.val)
              return .ready (.ok bytes)
        | .ready (.error error) => return .ready (.error error)

end DeclaredLengthRead

open DeclaredLengthRead (pollRead)

/-- What a call can do while `remaining` bytes of the declared length are left. -/
inductive ReadStep (this : DeclaredLengthRead) (remaining capacity : Nat) :
    List (Event InnerRead InnerAnswer) → Poll (Except IoError (List UInt8)) →
      DeclaredLengthRead → Prop
  | idle (hnothing : remaining = 0 ∧ this.checkedEnd ∨ 0 < remaining ∧ capacity = 0) :
      ReadStep this remaining capacity [] (.ready (.ok [])) this
  | pending (room : Nat) :
      ReadStep this remaining capacity [⟨⟨this.reader, room⟩, .pending⟩] .pending this
  | failed (room : Nat) (error : IoError) :
      ReadStep this remaining capacity [⟨⟨this.reader, room⟩, .ready (.error error)⟩]
        (.ready (.error error)) this
  | ended (hlast : remaining = 0) (probe : Chunk 1) (hprobe : probe.val = []) :
      ReadStep this remaining capacity [⟨⟨this.reader, 1⟩, .ready (.ok probe)⟩]
        (.ready (.ok [])) { this with checkedEnd := true }
  | overrun (hlast : remaining = 0) (hopen : this.checkedEnd = false) (probe : Chunk 1)
      (hprobe : probe.val ≠ []) :
      ReadStep this remaining capacity [⟨⟨this.reader, 1⟩, .ready (.ok probe)⟩]
        (.ready (.error ⟨.invalidData, "stream exceeded declared response length"⟩)) this
  | truncated (hmore : 0 < remaining) (hroom : 0 < capacity)
      (temporary : Chunk (min capacity remaining)) (htemporary : temporary.val = []) :
      ReadStep this remaining capacity
        [⟨⟨this.reader, min capacity remaining⟩, .ready (.ok temporary)⟩]
        (.ready (.error ⟨.unexpectedEof, "stream ended before declared response length"⟩)) this
  | passed (hmore : 0 < remaining) (temporary : Chunk (min capacity remaining))
      (htemporary : temporary.val ≠ []) :
      ReadStep this remaining capacity
        [⟨⟨this.reader, min capacity remaining⟩, .ready (.ok temporary)⟩]
        (.ready (.ok temporary.val))
        { this with remaining := some (remaining - temporary.val.length) }

section Calls

variable {this this' : DeclaredLengthRead} {remaining capacity : Nat}
variable {events : List (Event InnerRead InnerAnswer)}
variable {result : Except Failure (Poll (Except IoError (List UInt8)))}

theorem pollRead_step (hremaining : this.remaining = some remaining)
    (htrace : Trace (pollRead capacity this) events (.ret (result, this'))) :
    ∃ out, result = .ok out ∧ ReadStep this remaining capacity events out this' := by
  obtain ⟨reader, left, checkedEnd⟩ := this
  obtain rfl : left = some remaining := hremaining
  rw [pollRead, Script.read_bind_apply] at htrace
  dsimp only at htrace
  -- behind the last declared byte the call probes for the end, once
  by_cases hlast : remaining = 0
  · rw [if_pos hlast] at htrace
    cases checkedEnd with
    | true =>
        rw [if_pos rfl] at htrace
        exact does_of_ret htrace (.idle (.inl ⟨hlast, rfl⟩))
    | false =>
        rw [if_neg Bool.false_ne_true, pollInner_bind_apply] at htrace
        obtain ⟨answer, rest, rfl, htail⟩ := trace_call_iff.mp htrace
        cases answer with
        | pending =>
            exact does_of_answer htail (.pending 1)
        | ready answer =>
            cases answer with
            | error error =>
                exact does_of_answer htail (.failed 1 error)
            | ok probe =>
                dsimp only at htail
                by_cases hprobe : probe.val = []
                · rw [if_pos hprobe] at htail
                  exact does_of_answer htail (.ended hlast probe hprobe)
                · rw [if_neg hprobe] at htail
                  exact does_of_answer htail (.overrun hlast rfl probe hprobe)
  · rw [if_neg hlast] at htrace
    have hmore : 0 < remaining := Nat.pos_of_ne_zero hlast
    by_cases hroom : min capacity remaining = 0
    · rw [if_pos hroom] at htrace
      exact does_of_ret htrace (.idle (.inr ⟨hmore, by omega⟩))
    · rw [if_neg hroom, pollInner_bind_apply] at htrace
      obtain ⟨answer, rest, rfl, htail⟩ := trace_call_iff.mp htrace
      cases answer with
      | pending =>
          exact does_of_answer htail (.pending _)
      | ready answer =>
          cases answer with
          | error error =>
              exact does_of_answer htail (.failed _ error)
          | ok temporary =>
              dsimp only at htail
              by_cases htemporary : temporary.val = []
              · rw [if_pos htemporary] at htail
                exact does_of_answer htail (.truncated hmore (by omega) temporary htemporary)
              · -- neither the subtraction nor the copy can panic
                have hshort : temporary.val.length ≤ min capacity remaining :=
                  temporary.property
                rw [if_neg htemporary, subU64_of_le (by omega), Script.ofExcept_ok_bind,
                  Script.write_bind_apply, putSlice_of_le (by omega),
                  Script.ofExcept_ok_bind] at htail
                exact does_of_answer htail (.passed hmore temporary htemporary)

end Calls

/-! ## Every history -/

abbrev ReadCall := PollCall Nat (Except IoError (List UInt8))

/-- The bytes a call added to the caller's buffer. -/
def bytesHandedOut (call : ReadCall) : List UInt8 :=
  match call.result with
  | .ok (.ready (.ok bytes)) => bytes
  | _ => []

def handedOut (calls : List ReadCall) : List UInt8 := calls.flatMap bytesHandedOut

@[simp] theorem handedOut_snoc {past : List ReadCall} {call : ReadCall} :
    handedOut (past ++ [call]) = handedOut past ++ bytesHandedOut call := by
  simp [handedOut]

/-- The call returned `Ok` and added nothing to a buffer that had room. -/
def EndsCleanly (call : ReadCall) : Prop :=
  0 < call.argument ∧ call.result = .ok (.ready (.ok []))

def FailsWith (call : ReadCall) (kind : IoErrorKind) : Prop :=
  ∃ error, call.result = .ok (.ready (.error error)) ∧ error.kind = kind

/-- What holds between the calls: the bytes still allowed are those not delivered, and
what was delivered is the front of what the inner reader supplied. -/
structure Measured (length : Nat) (calls : List ReadCall) (this : DeclaredLengthRead) :
    Prop where
  left : this.remaining = some (length - (handedOut calls).length)
  taken : handedOut calls = (received calls).take length
  ended : this.checkedEnd → (handedOut calls).length = length ∧ SawEnd calls
  noPanic : ∀ call ∈ calls, ∃ out, call.result = .ok out

section Histories

variable {length : Nat} {past : List ReadCall} {this this' : DeclaredLengthRead}
variable {call : ReadCall}

theorem Measured.le (h : Measured length past this) : (handedOut past).length ≤ length := by
  rw [h.taken]
  exact List.length_take_le _ _

/-- While bytes are missing, everything supplied has been delivered. -/
theorem Measured.all (h : Measured length past this) (hmore : (handedOut past).length < length) :
    received past = handedOut past := by
  rw [h.taken, List.take_of_length_le]
  have htaken := congrArg List.length h.taken
  rw [List.length_take] at htaken
  omega

/-- A call that delivers nothing, and reads nothing that counts, keeps the measure. -/
theorem Measured.quiet (h : Measured length past this)
    (hreader : this'.remaining = this.remaining) (hnone : bytesHandedOut call = [])
    (hread : call.events.flatMap bytesRead = [] ∨ (handedOut past).length = length)
    (hended : this'.checkedEnd → this.checkedEnd ∨
      (handedOut past).length = length ∧ ∃ event ∈ call.events, ReportsEnd event)
    (hresult : ∃ out, call.result = .ok out) :
    Measured length (past ++ [call]) this' := by
  refine ⟨?_, ?_, ?_, ?_⟩
  · rw [handedOut_snoc, hnone, List.append_nil, hreader]
    exact h.left
  · rw [handedOut_snoc, hnone, List.append_nil, received_snoc]
    rcases hread with hread | hfull
    · rw [hread, List.append_nil]
      exact h.taken
    · have htaken := congrArg List.length h.taken
      rw [List.length_take] at htaken
      rw [List.take_append_of_le_length (by omega)]
      exact h.taken
  · intro hchecked
    rw [handedOut_snoc, hnone, List.append_nil, sawEnd_snoc_iff]
    rcases hended hchecked with hbefore | ⟨hfull, hevent⟩
    · exact ⟨(h.ended hbefore).1, .inl (h.ended hbefore).2⟩
    · exact ⟨hfull, .inr hevent⟩
  · exact noPanic_snoc h.noPanic hresult

theorem Measured.step {capacity remaining : Nat} {events : List (Event InnerRead InnerAnswer)}
    {out : Poll (Except IoError (List UInt8))} (h : Measured length past this)
    (hremaining : remaining = length - (handedOut past).length)
    (hstep : ReadStep this remaining capacity events out this') :
    Measured length (past ++ [⟨capacity, events, .ok out⟩]) this' := by
  have hle := h.le
  cases hstep with
  | idle hnothing => exact h.quiet rfl rfl (.inl rfl) .inl ⟨_, rfl⟩
  | pending room => exact h.quiet rfl rfl (.inl rfl) .inl ⟨_, rfl⟩
  | failed room error => exact h.quiet rfl rfl (.inl rfl) .inl ⟨_, rfl⟩
  | ended hlast probe hprobe =>
      have hfull : (handedOut past).length = length := by omega
      have hend : ReportsEnd ⟨⟨this.reader, 1⟩, .ready (.ok probe)⟩ :=
        ⟨Nat.one_pos, congrArg some hprobe⟩
      exact h.quiet rfl rfl (.inr hfull)
        (fun _ => .inr ⟨hfull, _, List.mem_singleton_self _, hend⟩) ⟨_, rfl⟩
  | overrun hlast hopen probe hprobe =>
      exact h.quiet rfl rfl (.inr (by omega)) .inl ⟨_, rfl⟩
  | truncated hmore hroom temporary htemporary =>
      refine h.quiet rfl rfl (.inl ?_) .inl ⟨_, rfl⟩
      rw [List.flatMap_singleton]
      exact htemporary
  -- bytes were missing, so all of what was supplied is handed out
  | passed hmore temporary htemporary =>
      have hshort : temporary.val.length ≤ min capacity remaining := temporary.property
      refine ⟨?_, ?_, ?_, ?_⟩
      · rw [handedOut_snoc, List.length_append]
        exact congrArg some (by rw [Nat.sub_add_eq, ← hremaining]; rfl)
      · rw [handedOut_snoc, received_snoc, h.all (by omega)]
        show _ ++ temporary.val = (_ ++ [_].flatMap bytesRead).take length
        rw [List.flatMap_singleton]
        show _ ++ temporary.val = (_ ++ temporary.val).take length
        rw [List.take_of_length_le]
        rw [List.length_append]
        omega
      · intro hchecked
        have hfull := (h.ended hchecked).1
        omega
      · exact noPanic_snoc h.noPanic ⟨_, rfl⟩

/-- The length is enforced along every history of calls on a new reader. -/
theorem Measured.of_calls {reader : ReaderId} {calls : List ReadCall}
    {final : DeclaredLengthRead}
    (hcalls : Invocations pollRead (.new reader (some length)) calls final) :
    Measured length calls final := by
  have hnew : Measured length [] (.new reader (some length)) := by
    refine ⟨rfl, List.take_nil.symm, fun hchecked => Bool.noConfusion hchecked, ?_⟩
    intro call hcall
    cases hcall
  refine Invocations.keeps ?_ hnew hcalls
  intro past state capacity events result state' h htrace
  obtain ⟨out, rfl, hstep⟩ := pollRead_step h.left htrace
  exact h.step rfl hstep

/-- What a call behind `past` says about the declared length. -/
structure Judges (length : Nat) (past : List ReadCall) (call : ReadCall) : Prop where
  /-- A clean end comes behind the whole body and the reader's end. -/
  cleanEnd : EndsCleanly call →
    (handedOut past).length = length ∧ SawEnd (past ++ [call])
  truncated : (handedOut past).length < length → ∀ event ∈ call.events, ReportsEnd event →
    FailsWith call .unexpectedEof
  overrun : (handedOut past).length = length → ∀ event ∈ call.events, bytesRead event ≠ [] →
    FailsWith call .invalidData

theorem ReadStep.judges {capacity remaining : Nat} {events : List (Event InnerRead InnerAnswer)}
    {out : Poll (Except IoError (List UInt8))} (h : Measured length past this)
    (hremaining : remaining = length - (handedOut past).length)
    (hstep : ReadStep this remaining capacity events out this') :
    Judges length past ⟨capacity, events, .ok out⟩ := by
  have hle := h.le
  cases hstep with
  | idle hnothing =>
      refine ⟨fun hclean => ?_, nofun, nofun⟩
      obtain ⟨hroom, -⟩ : 0 < capacity ∧ _ := hclean
      -- a caller's buffer with room leaves only the end that was found before
      rcases hnothing with ⟨-, hchecked⟩ | ⟨-, hnone⟩
      · exact ⟨(h.ended hchecked).1, sawEnd_snoc_iff.mpr (.inl (h.ended hchecked).2)⟩
      · omega
  | pending room =>
      refine ⟨fun hclean => (nomatch hclean.2), fun _ event hevent hend => ?_,
        fun _ event hevent hread => ?_⟩
      · obtain rfl := List.mem_singleton.mp hevent
        exact nomatch hend.2
      · obtain rfl := List.mem_singleton.mp hevent
        exact absurd rfl hread
  | failed room error =>
      refine ⟨fun hclean => (nomatch hclean.2), fun _ event hevent hend => ?_,
        fun _ event hevent hread => ?_⟩
      · obtain rfl := List.mem_singleton.mp hevent
        exact nomatch hend.2
      · obtain rfl := List.mem_singleton.mp hevent
        exact absurd rfl hread
  | ended hlast probe hprobe =>
      have hend : ReportsEnd ⟨⟨this.reader, 1⟩, .ready (.ok probe)⟩ :=
        ⟨Nat.one_pos, congrArg some hprobe⟩
      refine ⟨fun _ => ⟨by omega, sawEnd_snoc_iff.mpr (.inr ⟨_, List.mem_singleton_self _, hend⟩)⟩,
        fun hshort => by omega, fun _ event hevent hread => ?_⟩
      obtain rfl := List.mem_singleton.mp hevent
      exact absurd hprobe hread
  | overrun hlast hopen probe hprobe =>
      exact ⟨fun hclean => (nomatch hclean.2), fun hshort => by omega,
        fun _ _ _ _ => ⟨_, rfl, rfl⟩⟩
  | truncated hmore hroom temporary htemporary =>
      exact ⟨fun hclean => (nomatch hclean.2), fun _ _ _ _ => ⟨_, rfl, rfl⟩,
        fun hfull => by omega⟩
  | passed hmore temporary htemporary =>
      refine ⟨fun hclean => ?_, fun _ event hevent hend => ?_, fun hfull => by omega⟩
      · obtain ⟨-, hresult⟩ : _ ∧ Except.ok (Poll.ready (Except.ok temporary.val)) = _ := hclean
        cases hchunk : temporary.val with
        | nil => exact absurd hchunk htemporary
        | cons byte bytes =>
            rw [hchunk] at hresult
            cases hresult
      · obtain rfl := List.mem_singleton.mp hevent
        exact absurd (Option.some.inj hend.2) htemporary

end Histories

/-- The declared length is enforced under any schedule, with buffers of any size: what
was delivered is the front of what the inner reader supplied, at most the declared
length; no call panics; and the end, a truncation and an overrun are told apart. -/
theorem declaredLength_enforced {reader : ReaderId} {length : Nat} {calls : List ReadCall}
    {final : DeclaredLengthRead}
    (hcalls : Invocations pollRead (.new reader (some length)) calls final) :
    handedOut calls = (received calls).take length ∧ (handedOut calls).length ≤ length ∧
    final.remaining = some (length - (handedOut calls).length) ∧
    (∀ call ∈ calls, call.result ≠ .error .panic) ∧
    ∀ past call rest, calls = past ++ call :: rest → Judges length past call := by
  have hfinal := Measured.of_calls hcalls
  refine ⟨hfinal.taken, hfinal.le, hfinal.left, fun call hcall => ?_, ?_⟩
  · obtain ⟨out, hout⟩ := hfinal.noPanic call hcall
    rw [hout]
    exact nofun
  · rintro past ⟨capacity, events, result⟩ rest rfl
    obtain ⟨before, after, hpast, hcall, -⟩ := hcalls.point
    have hbefore := Measured.of_calls hpast
    obtain ⟨out, rfl, hstep⟩ := pollRead_step hbefore.left hcall
    exact hstep.judges hbefore rfl

/-- Two declared bytes in two chunks behind a pause, then an empty buffer, then the end. -/
def chunkedReads : List ReadCall :=
  [⟨4, [⟨⟨0, 2⟩, .pending⟩], .ok .pending⟩,
    ⟨4, [⟨⟨0, 2⟩, .ready (.ok ⟨[0x61], by decide⟩)⟩], .ok (.ready (.ok [0x61]))⟩,
    ⟨0, [], .ok (.ready (.ok []))⟩,
    ⟨4, [⟨⟨0, 1⟩, .ready (.ok ⟨[0x62], by decide⟩)⟩], .ok (.ready (.ok [0x62]))⟩,
    ⟨4, [⟨⟨0, 1⟩, .ready (.ok nothingRead)⟩], .ok (.ready (.ok []))⟩]

theorem chunkedReads_calls :
    Invocations pollRead (.new 0 (some 2)) chunkedReads ⟨0, some 0, true⟩ := by
  refine .cons _ ⟨0, some 2, false⟩ _ 4 _ _ _ (.step _ _ _ _ _ (.refl _)) ?_
  refine .cons _ ⟨0, some 1, false⟩ _ 4 _ _ _ (.step _ _ _ _ _ (.refl _)) ?_
  refine .cons _ ⟨0, some 1, false⟩ _ 0 _ _ _ (.refl _) ?_
  refine .cons _ ⟨0, some 0, false⟩ _ 4 _ _ _ (.step _ _ _ _ _ (.refl _)) ?_
  exact .cons _ ⟨0, some 0, true⟩ _ 4 _ _ _ (.step _ _ _ _ _ (.refl _)) (.nil _)

theorem declaredLength_enforced_chunked :
    handedOut chunkedReads = (received chunkedReads).take 2 ∧
    (handedOut chunkedReads).length ≤ 2 ∧
    some 0 = some (2 - (handedOut chunkedReads).length) ∧
    (∀ call ∈ chunkedReads, call.result ≠ .error .panic) ∧
    ∀ past call rest, chunkedReads = past ++ call :: rest → Judges 2 past call :=
  declaredLength_enforced chunkedReads_calls

end Storageprims

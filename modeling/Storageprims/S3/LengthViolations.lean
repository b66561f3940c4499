import Storageprims.S3.DeclaredLength

/-!
# Length violations after the first report

A caller may poll a body again after it has failed.  A truncated body then fails again,
whenever it is polled.  An overlong one does not keep its failure: every further poll
takes one more byte of the excess from the inner reader, and when the excess is used up
the next poll finds the reader's end and reports a clean one.
-/

namespace Storageprims

open Interaction
open DeclaredLengthRead (pollRead)

/-- An inner reader with this content left: it pauses and splits as it likes, and
reports its end from then on. -/
def yieldsContent : Environment InnerRead InnerAnswer (List UInt8) :=
  fun content request answer content' =>
    (answer = .pending ∧ content' = content) ∨
      ∃ chunk : Chunk request.capacity, answer = .ready (.ok chunk) ∧
        content = chunk.val ++ content' ∧
        (chunk.val = [] → 0 < request.capacity → content = [])

/-- The call reported that the body is too short or too long. -/
def ReportsViolation (call : ReadCall) : Prop :=
  FailsWith call .unexpectedEof ∨ FailsWith call .invalidData

/-- Behind a reported violation no call returns `Ok`: with room in the buffer that would
be a clean end, or more data. -/
def StaysVisible (calls : List ReadCall) : Prop :=
  calls.Pairwise fun earlier later => ReportsViolation earlier →
    ∀ bytes, later.result ≠ .ok (.ready (.ok bytes))

/-- A history of a body that is declared to be `length` bytes long and has this content,
with buffers that have room. -/
def ReadsBody (length : Nat) (content : List UInt8) (calls : List ReadCall) : Prop :=
  ∃ reader final rest, Invocations pollRead (.new reader (some length)) calls final ∧
    Accepts yieldsContent content (calls.flatMap Invocation.events) rest ∧
    ∀ call ∈ calls, 0 < call.argument

section

variable {length : Nat} {content content' : List UInt8} {calls past : List ReadCall}
variable {this this' : DeclaredLengthRead} {call : ReadCall}

/-! ## Truncated bodies -/

/-- What holds between the calls on a truncated body: less content is left than is still
allowed, and none behind a violation. -/
structure Truncated (past : List ReadCall) (this : DeclaredLengthRead)
    (content : List UInt8) : Prop where
  missing : ∃ remaining, this.remaining = some remaining ∧ content.length < remaining
  exhausted : ∀ call ∈ past, ReportsViolation call → content = []
  visible : StaysVisible past

theorem Truncated.snoc (h : Truncated past this content)
    (hmissing : ∃ remaining, this'.remaining = some remaining ∧ content'.length < remaining)
    (hviolates : ReportsViolation call → content' = [])
    (hshrinks : content = [] → content' = [])
    (hok : ∀ bytes, call.result = .ok (.ready (.ok bytes)) → content ≠ []) :
    Truncated (past ++ [call]) this' content' := by
  refine ⟨hmissing, ?_, ?_⟩
  · intro other hother hviolation
    rcases List.mem_append.mp hother with hpast | hcall
    · exact hshrinks (h.exhausted other hpast hviolation)
    · exact hviolates (List.mem_singleton.mp hcall ▸ hviolation)
  · refine List.pairwise_append.mpr ⟨h.visible, List.pairwise_singleton _ _, ?_⟩
    intro earlier hearlier later hlater hviolation bytes hbytes
    obtain rfl := List.mem_singleton.mp hlater
    exact hok bytes hbytes (h.exhausted earlier hearlier hviolation)

/-- The answer to a single read. -/
theorem yieldsContent_single {request : InnerRead} {answer : InnerAnswer request}
    (h : Accepts yieldsContent content [⟨request, answer⟩] content') :
    yieldsContent content request answer content' := by
  obtain ⟨middle, hstep, hrest⟩ := accepts_cons_iff.mp h
  cases hrest
  exact hstep

theorem yieldsContent_ok {request : InnerRead} {chunk : Chunk request.capacity}
    (h : yieldsContent content request (.ready (.ok chunk)) content') :
    content = chunk.val ++ content' ∧ (chunk.val = [] → 0 < request.capacity → content = []) := by
  rcases h with ⟨hpending, -⟩ | ⟨chunk', hanswer, hsplit⟩
  · cases hpending
  · cases hanswer
    exact hsplit

theorem Truncated.step {capacity : Nat} {events : List (Event InnerRead InnerAnswer)}
    {result : Except Failure (Poll (Except IoError (List UInt8)))} (hcapacity : 0 < capacity)
    (h : Truncated past this content)
    (htrace : Trace (pollRead capacity this) events (.ret (result, this')))
    (haccepts : Accepts yieldsContent content events content') :
    Truncated (past ++ [⟨capacity, events, result⟩]) this' content' := by
  obtain ⟨remaining, hremaining, hfewer⟩ := h.missing
  obtain ⟨out, rfl, hstep⟩ := pollRead_step hremaining htrace
  cases hstep with
  -- bytes are missing, so the branches of a full body are closed
  | idle hnothing => omega
  | pending room =>
      rcases yieldsContent_single haccepts with ⟨-, rfl⟩ | ⟨chunk, hanswer, -⟩
      · refine h.snoc h.missing ?_ id nofun
        rintro (⟨error, hresult, -⟩ | ⟨error, hresult, -⟩)
        · cases hresult
        · cases hresult
      · cases hanswer
  | failed room error =>
      rcases yieldsContent_single haccepts with ⟨hanswer, -⟩ | ⟨chunk, hanswer, -⟩
      · cases hanswer
      · cases hanswer
  | ended hlast probe hprobe => omega
  | overrun hlast hopen probe hprobe => omega
  -- the reader has ended, so every later poll finds its end again
  | truncated hmore hroom temporary htemporary =>
      obtain ⟨hsplit, hend⟩ := yieldsContent_ok (yieldsContent_single haccepts)
      have hnil : content = [] := hend htemporary (Nat.lt_min.mpr ⟨hroom, hmore⟩)
      rw [htemporary, List.nil_append] at hsplit
      subst hsplit
      exact h.snoc h.missing (fun _ => hnil) id nofun
  | passed hmore temporary htemporary =>
      obtain ⟨hsplit, -⟩ := yieldsContent_ok (yieldsContent_single haccepts)
      have hlength := congrArg List.length hsplit
      rw [List.length_append] at hlength
      refine h.snoc ⟨_, rfl, by omega⟩ ?_ ?_ ?_
      · rintro (⟨error, hresult, -⟩ | ⟨error, hresult, -⟩)
        · cases hresult
        · cases hresult
      · rintro rfl
        exact absurd (List.append_eq_nil_iff.mp hsplit.symm).1 htemporary
      · rintro bytes - rfl
        exact htemporary (List.append_eq_nil_iff.mp hsplit.symm).1

/-- A truncated body fails again whenever it is polled after its failure. -/
theorem truncated_staysVisible (hshort : content.length < length)
    (hbody : ReadsBody length content calls) : StaysVisible calls := by
  obtain ⟨reader, final, rest, hcalls, haccepts, hroom⟩ := hbody
  have hnew : Truncated [] (.new reader (some length)) content := by
    refine ⟨⟨length, rfl, hshort⟩, ?_, List.Pairwise.nil⟩
    intro call hcall
    cases hcall
  have hfinal : Truncated ([] ++ calls) final rest :=
    Invocations.keeps_in (fun _ _ _ _ _ _ _ _ hargument h => h.step hargument) hnew hcalls
      haccepts hroom
  exact hfinal.visible

/-! ## Overlong bodies -/

/-- A poll that fills the buffer, as far as the declared length allows. -/
theorem pollRead_passes (reader : ReaderId) {capacity remaining rest : Nat}
    (hmore : 0 < remaining) (temporary : Chunk (min capacity remaining))
    (htemporary : temporary.val ≠ []) (hrest : remaining - temporary.val.length = rest) :
    Trace (pollRead capacity ⟨reader, some remaining, false⟩)
      [⟨⟨reader, min capacity remaining⟩, .ready (.ok temporary)⟩]
      (.ret (.ok (.ready (.ok temporary.val)), ⟨reader, some rest, false⟩)) := by
  have hshort : temporary.val.length ≤ min capacity remaining := temporary.property
  have hpos : 0 < temporary.val.length := List.length_pos_iff.mpr htemporary
  rw [pollRead, Script.read_bind_apply]
  dsimp only
  rw [if_neg (by omega), if_neg (by omega), pollInner_bind_apply]
  refine .step _ _ _ _ _ ?_
  dsimp only
  rw [if_neg htemporary, subU64_of_le (by omega), Script.ofExcept_ok_bind,
    Script.write_bind_apply, putSlice_of_le (by omega), Script.ofExcept_ok_bind, hrest]
  exact .refl _

/-- The poll that takes one byte of the excess, and the one that finds none left. -/
def excessCall (reader : ReaderId) (byte : UInt8) : ReadCall where
  argument := 1
  events := [⟨⟨reader, 1⟩, .ready (.ok ⟨[byte], Nat.le_refl 1⟩)⟩]
  result := .ok (.ready (.error ⟨.invalidData, "stream exceeded declared response length"⟩))

def endCall (reader : ReaderId) : ReadCall where
  argument := 1
  events := [⟨⟨reader, 1⟩, .ready (.ok ⟨[], Nat.zero_le 1⟩)⟩]
  result := .ok (.ready (.ok []))

/-- Polled often enough, an overlong body ends cleanly. -/
theorem excess_calls (reader : ReaderId) (excess : List UInt8) :
    Invocations pollRead ⟨reader, some 0, false⟩
        (excess.map (excessCall reader) ++ [endCall reader]) ⟨reader, some 0, true⟩ ∧
      Accepts yieldsContent excess
        ((excess.map (excessCall reader) ++ [endCall reader]).flatMap Invocation.events) [] ∧
      ∀ call ∈ excess.map (excessCall reader) ++ [endCall reader], 0 < call.argument := by
  induction excess with
  | nil =>
      refine ⟨.cons _ _ _ _ _ _ _ (.step _ _ _ _ _ (.refl _)) (.nil _), ?_, ?_⟩
      · exact .cons _ [] _ _ _ _ (.inr ⟨_, rfl, rfl, fun _ _ => rfl⟩) (.nil _)
      · intro call hcall
        rw [List.mem_singleton.mp hcall]
        exact Nat.one_pos
  | cons byte rest ih =>
      obtain ⟨hcalls, haccepts, hroom⟩ := ih
      refine ⟨.cons _ _ _ _ _ _ _ (.step _ _ _ _ _ (.refl _)) hcalls, ?_, ?_⟩
      · exact .cons _ rest _ _ _ _ (.inr ⟨_, rfl, rfl, nofun⟩) haccepts
      · rw [List.map_cons, List.cons_append]
        exact List.forall_mem_cons.mpr ⟨Nat.one_pos, hroom⟩

/-- The declared bytes in one read, if there are any, and then the excess. -/
theorem overlong_body (hlong : length < content.length) :
    ∃ calls, ReadsBody length content calls ∧ ¬ StaysVisible calls := by
  obtain ⟨byte, rest, hexcess⟩ : ∃ byte rest, content.drop length = byte :: rest := by
    cases hdrop : content.drop length with
    | nil =>
        have hnone := congrArg List.length hdrop
        rw [List.length_drop, List.length_nil] at hnone
        omega
    | cons byte rest => exact ⟨byte, rest, rfl⟩
  obtain ⟨hcalls, haccepts, hroom⟩ := excess_calls 0 (content.drop length)
  have hhidden : ¬ StaysVisible
      ((content.drop length).map (excessCall 0) ++ [endCall 0]) := by
    intro hvisible
    rw [hexcess, List.map_cons, List.cons_append] at hvisible
    refine List.rel_of_pairwise_cons hvisible (List.mem_append_right _ (List.mem_singleton_self _))
      (.inr ⟨_, rfl, rfl⟩) [] rfl
  by_cases hzero : length = 0
  · subst hzero
    rw [List.drop_zero] at hcalls haccepts hroom hhidden
    exact ⟨_, ⟨0, _, _, hcalls, haccepts, hroom⟩, hhidden⟩
  · have hpos : 0 < length := Nat.pos_of_ne_zero hzero
    have hfront : (content.take length).length = length :=
      List.length_take_of_le (Nat.le_of_lt hlong)
    have hsome : content.take length ≠ [] := fun hnil => by
      rw [hnil] at hfront
      exact hzero hfront.symm
    have hfill := pollRead_passes 0 hpos ⟨content.take length, by rw [hfront, Nat.min_self]⟩
      hsome (by rw [hfront, Nat.sub_self])
    refine ⟨⟨length, _, _⟩ :: _, ⟨0, _, [], .cons _ _ _ _ _ _ _ hfill hcalls, ?_, ?_⟩, ?_⟩
    · refine .cons _ (content.drop length) _ _ _ _ (.inr ⟨_, rfl, ?_, ?_⟩) haccepts
      · exact (List.take_append_drop length content).symm
      · exact fun hnil => absurd hnil hsome
    · exact List.forall_mem_cons.mpr ⟨hpos, hroom⟩
    · exact fun hvisible => hhidden (List.Pairwise.of_cons hvisible)

/-- A length violation stays visible exactly for truncated bodies. -/
theorem lengthViolation_staysVisible_iff (hwrong : content.length ≠ length) :
    (∀ calls, ReadsBody length content calls → StaysVisible calls) ↔ content.length < length := by
  constructor
  · intro hvisible
    by_contra hnot
    obtain ⟨calls, hbody, hhidden⟩ := overlong_body (by omega : length < content.length)
    exact hhidden (hvisible calls hbody)
  · intro hshort calls hbody
    exact truncated_staysVisible hshort hbody

end

/-- The three bytes `abc` declared as two. -/
theorem lengthViolation_staysVisible_iff_overlong :
    (∀ calls, ReadsBody 2 [0x61, 0x62, 0x63] calls → StaysVisible calls) ↔
      [0x61, 0x62, 0x63].length < 2 :=
  lengthViolation_staysVisible_iff (by decide)

/-- They are read, refused as too long, and then end cleanly. -/
def overlongReads : List ReadCall :=
  [⟨2, [⟨⟨0, 2⟩, .ready (.ok ⟨[0x61, 0x62], Nat.le_refl 2⟩)⟩], .ok (.ready (.ok [0x61, 0x62]))⟩,
    excessCall 0 0x63, endCall 0]

theorem overlongReads_body : ReadsBody 2 [0x61, 0x62, 0x63] overlongReads := by
  obtain ⟨hcalls, haccepts, hroom⟩ := excess_calls 0 [0x63]
  refine ⟨0, _, [], .cons _ _ _ _ _ _ _ (.step _ _ _ _ _ (.refl _)) hcalls, ?_, ?_⟩
  · exact .cons _ [0x63] _ _ _ _ (.inr ⟨_, rfl, rfl, nofun⟩) haccepts
  · exact List.forall_mem_cons.mpr ⟨Nat.two_pos, hroom⟩

theorem overlong_recovers :
    ReadsBody 2 [0x61, 0x62, 0x63] overlongReads ∧
      ¬ ∀ calls, ReadsBody 2 [0x61, 0x62, 0x63] calls → StaysVisible calls := by
  refine ⟨overlongReads_body, fun hvisible => ?_⟩
  have hlater := List.rel_of_pairwise_cons
    (List.Pairwise.of_cons (hvisible _ overlongReads_body)) (List.mem_singleton_self _)
  exact hlater (.inr ⟨_, rfl, rfl⟩) [] rfl

end Storageprims

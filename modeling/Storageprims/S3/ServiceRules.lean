import Storageprims.S3.ObjectService

/-!
# Reasoning about one request

The rules from which the results about the object operations are put together: what an
upload that was sent whole is, how an operation ends that sends a request or refuses its
arguments, and which errors promise that the request was not done.
-/

namespace Storageprims

open Interaction
open AsyncReadBody (pollFrame)

/-! ## Sending an upload -/

section Uploads

variable {streams streams' : Serving} {reader : ReaderId} {length : Nat}
variable {calls : List FrameCall} {final : AsyncReadBody}

/-- What was read from a stream and what is left of it make up the stream. -/
theorem transport_drains {events : List (Event InnerRead InnerAnswer)}
    (hreader : ∀ event ∈ events, event.request.reader = reader)
    (h : Accepts transport streams events streams') :
    events.flatMap bytesRead ++ streams'.bodies reader = streams.bodies reader ∧
      ((∃ event ∈ events, ReportsEnd event) → streams'.bodies reader = []) := by
  induction events generalizing streams with
  | nil =>
      cases h
      exact ⟨rfl, fun ⟨_, hmem, _⟩ => absurd hmem List.not_mem_nil⟩
  | cons event events ih =>
      obtain ⟨middle, hstep, hrest⟩ := accepts_cons_iff.mp h
      obtain ⟨hfirst, hreaders⟩ := List.forall_mem_cons.mp hreader
      obtain ⟨hleft, hend⟩ := ih hreaders hrest
      -- one read takes a chunk off the stream, or leaves it alone
      have hone : bytesRead event ++ middle.bodies reader = streams.bodies reader ∧
          (ReportsEnd event → middle.bodies reader = []) := by
        obtain ⟨⟨other, capacity⟩, answer⟩ := event
        obtain rfl : other = reader := hfirst
        cases hfilled : filled answer with
        | none =>
            obtain rfl := transport_quiet hfilled hstep
            refine ⟨?_, fun hreports => ?_⟩
            · rw [bytesRead, hfilled]
              rfl
            · rw [ReportsEnd, hfilled] at hreports
              cases hreports.2
        | some bytes =>
            rcases answer with _ | (error | chunk)
            · cases hfilled
            · cases hfilled
            · obtain ⟨rest, hstream, hnothing, rfl⟩ := transport_ok hstep
              refine ⟨?_, fun hreports => ?_⟩
              · rw [Serving.bodies_set]
                exact hstream.symm
              · rw [Serving.bodies_set]
                exact hnothing (Option.some.inj hreports.2) hreports.1
      refine ⟨?_, ?_⟩
      · rw [List.flatMap_cons, List.append_assoc, hleft, hone.1]
      · rintro ⟨found, hfound, hreports⟩
        rcases List.mem_cons.mp hfound with rfl | hlater
        · -- an empty stream stays empty
          rw [hone.2 hreports] at hleft
          exact (List.append_eq_nil_iff.mp hleft).2
        · exact hend ⟨found, hlater, hreports⟩

theorem Uploads.of_calls
    (hcalls : Invocations (fun _ => pollFrame) (byteStreamFromReader reader length) calls final) :
    Uploads length calls final ∧ final.reader = reader ∧
      ∀ event ∈ calls.flatMap Invocation.events, event.request.reader = reader := by
  have hnew : Uploads length [] (byteStreamFromReader reader length) := by
    refine ⟨rfl, List.take_nil.symm, by simp [frames], by simp, fun _ => ?_,
      fun hover => Bool.noConfusion hover, .nil⟩
    exact ⟨Nat.zero_le _, by simp [SawEnd], by simp [SawError], by simp, rfl⟩
  have hstart : Uploads length [] (byteStreamFromReader reader length) ∧
      (byteStreamFromReader reader length).reader = reader ∧
      ∀ event ∈ ([] : List FrameCall).flatMap Invocation.events, event.request.reader = reader :=
    ⟨hnew, rfl, by simp⟩
  refine @Invocations.keeps _ _ _ _ _ _ _ (fun past this => Uploads length past this ∧
    this.reader = reader ∧
    ∀ event ∈ past.flatMap Invocation.events, event.request.reader = reader) ?_ _ _ _ hstart hcalls
  rintro past state argument events result state' ⟨h, hreader, hevents⟩ htrace
  obtain ⟨out, rfl, hstep⟩ := pollFrame_step htrace
  -- a poll asks its own reader, and no other
  have hpoll : state'.reader = state.reader ∧
      ∀ event ∈ events, event.request.reader = state.reader := by
    cases hstep <;> simp
  refine ⟨h.step hstep, hpoll.1.trans hreader, fun event hevent => ?_⟩
  rw [List.flatMap_append, List.mem_append, List.flatMap_singleton] at hevent
  rcases hevent with hpast | hlast
  · exact hevents event hpast
  · exact (hpoll.2 event hlast).trans hreader

/-- An upload that was sent whole is all that its reader supplied, and of the declared
length. -/
theorem sent_upload {bytes : List UInt8}
    (h : Sent streams (.upload (byteStreamFromReader reader length)) bytes streams') :
    bytes = streams.bodies reader ∧ bytes.length = length := by
  obtain ⟨calls, final, hcalls, haccepts, hover, herrors, rfl⟩ := h
  obtain ⟨huploads, -, hevents⟩ := Uploads.of_calls hcalls
  obtain ⟨-, ending, hending, hframes⟩ := huploads.closed hover
  rw [herrors] at hframes
  cases hending with
  | complete hend hnone hexact =>
      obtain ⟨hdrained, hempty⟩ := transport_drains hevents haccepts
      have hsupplied : (calls.flatMap Invocation.events).flatMap bytesRead = received calls :=
        List.flatMap_assoc ..
      have hexhausted : streams'.bodies reader = [] := by
        obtain ⟨call, hcall, event, hevent, hreports⟩ := hend
        exact hempty ⟨event, List.mem_flatMap.mpr ⟨call, hcall, hevent⟩, hreports⟩
      rw [hsupplied, hexhausted, List.append_nil] at hdrained
      rw [huploads.taken, List.take_of_length_le (Nat.le_of_eq hexact)]
      exact ⟨hdrained, hexact⟩
  | short hend hnone hshort error hkind => cases hframes
  | long hend hnone hlong error hkind => cases hframes
  | failed hend error hfailed hfits => cases hframes

end Uploads

/-! ## One request -/

/-- An operation over the service, with other clients at work: what holds of its outcome
when it is over. -/
abbrev S3Script.Ends {α : Type} (others : Objects → Objects → Prop) (script : S3Script α)
    (start : Cloud) (post : Except StorageError α → Cloud → Prop) : Prop :=
  Script.Ensures (amid others) (fun _ => True) script (fun value _ final => post (.ok value) final)
    (fun error _ final => post (.error error) final) () start

section Requests

variable {α β : Type} {others : Objects → Objects → Prop} {start : Cloud}

theorem Cloud.Later.refl (others : Objects → Objects → Prop) (cloud : Cloud) :
    cloud.Later others cloud := ⟨.refl, rfl⟩

/-- A run that is over. -/
theorem S3Script.Ends.of_run {script : S3Script α} {post : Except StorageError α → Cloud → Prop}
    (h : S3Script.Ends others script start post) {events : List (Event SdkRequest SdkReply)}
    {result : Except StorageError α} {final : Cloud}
    (htrace : Trace (script ()) events (.ret (result, ())))
    (haccepts : Accepts (amid others) start events final) : post result final := by
  have hexit := Program.Ensures.of_finished h htrace haccepts
  cases result with
  | ok value => exact hexit
  | error error => exact hexit

/-- A request, and what follows when it has been done. -/
theorem ends_send {call : ServiceCall} {body : SentBody}
    {failed : SdkError → StorageError} {next : ServiceResponse → S3Script α}
    {post : Except StorageError α → Cloud → Prop}
    (hok : ∀ before response final, start.Later others before →
      before.Does ⟨call, body⟩ response final → S3Script.Ends others (next response) final post)
    (hfails : ∀ before error final, start.Later others before →
      service before ⟨call, body⟩ (.error error) final → post (.error (failed error)) final) :
    S3Script.Ends others (send call body failed >>= next) start post := by
  refine ⟨trivial, fun reply final hstep => ?_⟩
  obtain ⟨before, hlater, hservice⟩ := hstep
  cases reply with
  | ok response => exact hok before response final hlater hservice
  | error error => exact ⟨trivial, hfails before error final hlater hservice⟩

/-- A check that refuses the arguments has sent nothing. -/
theorem ends_check {check : Except StorageError α} {next : α → S3Script β}
    {post : Except StorageError β → Cloud → Prop}
    (hfails : ∀ error, check = .error error → post (.error error) start)
    (hok : ∀ value, check = .ok value → S3Script.Ends others (next value) start post) :
    S3Script.Ends others (Script.ofExcept check >>= next) start post :=
  Script.ensures_bind_ofExcept (fun error herror => ⟨trivial, hfails error herror⟩) hok

/-- A pure step behind an operation. -/
theorem S3Script.Ends.map {script : S3Script α} {f : α → β}
    {post : Except StorageError α → Cloud → Prop} {post' : Except StorageError β → Cloud → Prop}
    (h : S3Script.Ends others script start post)
    (himp : ∀ result final, post result final → post' (result.map f) final) :
    S3Script.Ends others (script >>= fun value => pure (f value)) start post' :=
  Script.Ensures.bind
    (Script.Ensures.mono h (fun _ _ _ _ hpost => hpost)
      (fun error _ final _ hpost => himp (.error error) final hpost))
    fun value _ final _ hpost => ⟨trivial, himp (.ok value) final hpost⟩

end Requests

/-- The class of this error says that the request was not done. -/
def StorageError.Definite : StorageError → Prop
  | .providerUnavailable .. => False
  | .other .. => False
  | _ => True

theorem definite_of_notFound {error : StorageError} (h : error.code = .notFound) :
    error.Definite := by
  cases error with
  | notFound => trivial
  | _ => cases h

/-- Every failure that is mapped to a definite class is a refusal. -/
theorem SdkError.refuses_of_definite {error : SdkError} {operation : StorageOperation}
    {target container : Option String}
    (h : (mapSdkError .s3 operation target container error).Definite) : error.Refuses := by
  cases error with
  | constructionFailure debug => trivial
  | timeoutError => exact h.elim
  | dispatchFailure => exact h.elim
  | responseError => exact h.elim
  | other => exact h.elim
  | serviceError context =>
      show context.errorCode ∈ refusalCodes
      rw [mapSdkError] at h
      split at h
      case h_15 => exact h.elim
      all_goals
        rename_i hcode
        rw [hcode]
        decide

theorem SdkError.refuses_of_definite_put {error : SdkError} {target container : Option String}
    {precondition : PutPreconditionKind}
    (h : (mapPutError target container precondition error).Definite) : error.Refuses := by
  cases error with
  | constructionFailure debug => trivial
  | timeoutError => exact h.elim
  | dispatchFailure => exact h.elim
  | responseError => exact h.elim
  | other => exact h.elim
  | serviceError context =>
      show context.errorCode ∈ refusalCodes
      rw [mapPutError] at h
      split at h
      case h_15 => exact h.elim
      all_goals
        rename_i hcode
        rw [hcode]
        decide

/-- A missing object is reported for two codes, and for nothing else. -/
theorem mapSdkError_notFound {error : SdkError} {operation : StorageOperation}
    {target container : Option String}
    (h : (mapSdkError .s3 operation target container error).code = .notFound) :
    ∃ context, error = .serviceError context ∧
      (context.errorCode = "NoSuchKey" ∨ context.errorCode = "NotFound") := by
  cases error with
  | serviceError context =>
      refine ⟨context, rfl, ?_⟩
      rw [mapSdkError] at h
      split at h
      case h_1 hcode => exact .inl hcode
      case h_2 hcode => exact .inr hcode
      all_goals cases h
  | constructionFailure debug => cases h
  | timeoutError => cases h
  | dispatchFailure => cases h
  | responseError => cases h
  | other => cases h

/-- A put reports a conflict of a kind only for its own condition. -/
theorem mapPutError_conflict {error : SdkError} {target container place : Option String}
    {precondition : PutPreconditionKind} {provider : ProviderKind} {operation : StorageOperation}
    {kind : ConflictKind} {detail : String}
    (h : mapPutError target container precondition error
      = .conflict provider operation place kind detail) (hkind : kind ≠ .other) :
    kind = precondition.conflict ∧
      ∃ context, error = .serviceError context ∧ context.errorCode = "PreconditionFailed" := by
  cases error with
  | serviceError context =>
      rw [mapPutError] at h
      split at h
      case h_1 hcode =>
        cases h
        exact ⟨rfl, context, rfl, hcode⟩
      case h_2 =>
        cases h
        exact absurd rfl hkind
      all_goals cases h
  | constructionFailure debug => cases h
  | timeoutError => cases h
  | dispatchFailure => cases h
  | responseError => cases h
  | other => cases h

end Storageprims

import Storageprims.Interaction.Retries
import Storageprims.S3.ObjectEffects

/-!
# Operations whose requests are sent again

The service client of the plain operations may send a request again when an attempt at it has
failed.  It cannot do so with a request that carries a stream: a put, and the write of a
relayed copy, are sent once.  A failed attempt may have been done and its reply lost, so that
an operation ends on top of what it has done before.  It does then what it would do if
somebody else had made the earlier attempts.
-/

namespace Storageprims

open Interaction

/-- A failed attempt at a request that carries no stream. -/
def Resendable (event : Event SdkRequest SdkReply) : Prop :=
  event.request.body = .empty ∧ ∃ error, event.response = .error error

/-! ## What an operation asks for -/

/-- The requests of a call. -/
inductive ObjectCall.Issues (provider : S3Provider) : ObjectCall → SdkRequest → Prop
  | head (key : String) : Issues provider (.head key)
      ⟨.headObject ⟨.key key, provider.locate key⟩ none, .empty⟩
  | get (key : String) : Issues provider (.get key)
      ⟨.getObject ⟨.key key, provider.locate key⟩ none none, .empty⟩
  | getRange (request : GetRangeRequest) (range : String) : Issues provider (.getRange request)
      ⟨.getObject ⟨.key request.key, provider.locate request.key⟩ (some range) none, .empty⟩
  | put (key : String) (body : ReaderId) (options : PutOptions) (length : Nat)
      (ifMatch ifNoneMatch : Option String) : Issues provider (.put key body options)
      ⟨.putObject ⟨.key key, provider.locate key⟩ (some length) options.contentType
        (some options.metadata) ifMatch ifNoneMatch, .upload (byteStreamFromReader body length)⟩
  | delete (key : String) : Issues provider (.delete key)
      ⟨.deleteObject ⟨.key key, provider.locate key⟩, .empty⟩
  | native (request : CopyRequest) (source destination : Target)
      (hsource : provider.resolveCopyLocation request.source "source" = .ok source.location)
      (hdestination : provider.resolveCopyLocation request.destination "destination"
        = .ok destination.location)
      (hbucket : source.location.bucket = destination.location.bucket) :
      Issues provider (.copy request) ⟨.copyObject source destination, .empty⟩
  | fetch (request : CopyRequest) (source : Target)
      (hsource : provider.resolveCopyLocation request.source "source" = .ok source.location) :
      Issues provider (.copy request) ⟨.getObject source none none, .empty⟩
  | relay (request : CopyRequest) (destination : Target) (length : Option Int) (body : ReaderId)
      (hdestination : provider.resolveCopyLocation request.destination "destination"
        = .ok destination.location) :
      Issues provider (.copy request)
        ⟨.putObject destination length none none none none, .relayed body⟩

theorem uses_send {allowed : SdkRequest → Prop} {call : ServiceCall} {body : SentBody}
    {failed : SdkError → StorageError} (h : allowed ⟨call, body⟩) :
    Script.Uses allowed (send call body failed) := fun _ => ⟨h, fun _ => trivial⟩

namespace S3Provider

variable {provider : S3Provider}

theorem copy_issues (request : CopyRequest) :
    Script.Uses ((ObjectCall.copy request).Issues provider) (provider.copy request) := by
  refine Script.uses_bind_ofExcept fun source hsource =>
    Script.uses_bind_ofExcept fun destination hdestination => ?_
  have hfrom := copyTarget_location hsource
  have hto := copyTarget_location hdestination
  by_cases hbucket : source.location.bucket = destination.location.bucket
  · rw [if_pos hbucket]
    exact .bind (uses_send (.native request source destination hfrom hto hbucket))
      fun _ => by simp
  · -- a relayed copy reads the one and writes the other
    rw [if_neg hbucket]
    refine .bind (uses_send (.fetch request source hfrom)) fun object => ?_
    exact .bind (uses_send (.relay request destination _ _ hto)) fun _ => by simp

/-- An operation that begins with the target of its key. -/
theorem uses_bind_keyTarget {allowed : SdkRequest → Prop} {key : String} {α : Type}
    {next : Target → S3Script α} (h : Script.Uses allowed (next ⟨.key key, provider.locate key⟩)) :
    Script.Uses allowed (Script.ofExcept (provider.keyTarget key) >>= next) := by
  refine Script.uses_bind_ofExcept fun target htarget => ?_
  obtain ⟨-, rfl⟩ := keyTarget_ok_iff.mp htarget
  exact h

theorem get_issues (key : String) :
    Script.Uses ((ObjectCall.get key).Issues provider) (provider.get key) :=
  uses_bind_keyTarget (.bind (uses_send (.get key)) fun _ => by simp)

theorem put_issues (key : String) (body : ReaderId) (options : PutOptions) :
    Script.Uses ((ObjectCall.put key body options).Issues provider)
      (provider.put key body options) := by
  refine uses_bind_keyTarget (.bind (by simp) fun length => .bind (by simp) fun conditions => ?_)
  refine .bind (by simp) fun _ => .bind (uses_send (.put key body options length _ _)) fun _ => ?_
  simp

theorem perform_issues (call : ObjectCall) :
    Script.Uses (call.Issues provider) (provider.perform call) := by
  cases call with
  | head key =>
      refine .bind (uses_bind_keyTarget ?_) fun _ => by simp
      exact .bind (uses_send (.head key)) fun _ => by simp
  | get key => exact .bind (get_issues key) fun _ => by simp
  | getRange request =>
      refine .bind (.bind (by simp) fun _ => uses_bind_keyTarget ?_) fun _ => by simp
      refine .bind (by simp) fun range => ?_
      exact .bind (uses_send (.getRange request range)) fun _ => by simp
  | put key body options => exact .bind (put_issues key body options) fun _ => by simp
  | delete key =>
      refine .bind (uses_bind_keyTarget ?_) fun _ => by simp
      exact .bind (uses_send (.delete key)) fun _ => by simp
  | copy request => exact .bind (copy_issues request) fun _ => by simp

end S3Provider

/-! ## Attempts -/

/-- What an attempt at the call may have done, whose reply was lost. -/
def ObjectCall.Repeats (provider : S3Provider) (before after : Objects) : ObjectCall → Prop
  | .delete key => after = Function.update before (provider.locate key) none
  | .copy request => ∃ result, result.strategy = .native ∧
      Duplicates (fun _ _ => False) provider request before result after
  | _ => False

/-- Others at work, and the call itself in its earlier attempts. -/
def ObjectCall.Amends (others : Objects → Objects → Prop) (provider : S3Provider)
    (call : ObjectCall) (before after : Objects) : Prop :=
  others before after ∨ call.Repeats provider before after

section Attempts

variable {provider : S3Provider} {others : Objects → Objects → Prop} {call : ObjectCall}
variable {start final : Cloud} {events : List (Event SdkRequest SdkReply)} {α : Type}

theorem ObjectCall.Repeats.copied {request : CopyRequest} {before after : Objects}
    (h : (ObjectCall.copy request).Repeats provider before after) :
    ∃ source destination entry duplicate,
      provider.resolveCopyLocation request.source "source" = .ok source ∧
      provider.resolveCopyLocation request.destination "destination" = .ok destination ∧
      source.bucket = destination.bucket ∧ before source = some entry ∧
      duplicate.bytes = entry.bytes ∧ duplicate.contentType = entry.contentType ∧
      duplicate.metadata = entry.metadata ∧
      after = Function.update before destination (some duplicate) := by
  obtain ⟨result, hstrategy, hduplicates⟩ := h
  cases hduplicates with
  | native source destination reached entry duplicate hsource hdestination hbucket hbefore hentry
      hbytes htype hmetadata =>
      rcases hbefore.cases_tail with rfl | ⟨_, _, hnobody⟩
      · exact ⟨source, destination, entry, duplicate, hsource, hdestination, hbucket, hentry,
          hbytes, htype, hmetadata, rfl⟩
      · exact hnobody.elim
  | relay => cases hstrategy

/-- An attempt writes what the call does. -/
theorem ObjectCall.Repeats.elsewhere {before after : Objects} {location : S3Location}
    (h : call.Repeats provider before after) (hother : call.destination provider ≠ some location) :
    after location = before location := by
  cases call with
  | delete key =>
      obtain rfl := h
      exact Function.update_of_ne (fun hsame => hother (congrArg some hsame.symm)) _ _
  | copy request =>
      obtain ⟨_, _, _, _, -, hdestination, -, -, -, -, -, rfl⟩ := h.copied
      rw [ObjectCall.destination, hdestination] at hother
      exact Function.update_of_ne (fun hsame => hother (congrArg some hsame.symm)) _ _
  | head key => exact h.elim
  | get key => exact h.elim
  | getRange request => exact h.elim
  | put key body options => exact h.elim

theorem Cloud.Later.mono {wider : Objects → Objects → Prop} {cloud : Cloud}
    (h : start.Later others cloud)
    (hsub : ∀ before after, others before after → wider before after) :
    start.Later wider cloud :=
  ⟨Relation.ReflTransGen.mono hsub _ _ h.1, h.2⟩

/-- Whatever a request does that carries no stream, it changes no object or does what the call
would do. -/
theorem ObjectCall.Issues.repeats {request : SdkRequest} {response : ServiceResponse}
    {cloud cloud' : Cloud} (h : call.Issues provider request) (hbody : request.body = .empty)
    (hdoes : cloud.Does request response cloud') :
    cloud'.objects = cloud.objects ∨ call.Repeats provider cloud.objects cloud'.objects := by
  cases h with
  | head key =>
      obtain ⟨rfl, -⟩ := hdoes
      exact .inl rfl
  | get key =>
      obtain ⟨entry, part, -, -, -, -, rfl⟩ := hdoes
      exact .inl rfl
  | getRange request range =>
      obtain ⟨entry, part, -, -, -, -, rfl⟩ := hdoes
      exact .inl rfl
  | put key body options length ifMatch ifNoneMatch => cases hbody
  | delete key =>
      obtain rfl := hdoes
      exact .inr rfl
  | native request source destination hsource hdestination hbucket =>
      obtain ⟨entry, duplicate, hentry, hbytes, htype, hmetadata, -, rfl⟩ := hdoes
      exact .inr ⟨_, rfl, .native source.location destination.location cloud.objects entry duplicate
        hsource hdestination hbucket .refl hentry hbytes htype hmetadata⟩
  | fetch request source hsource =>
      obtain ⟨entry, part, -, -, -, -, rfl⟩ := hdoes
      exact .inl rfl
  | relay request destination length body hdestination => cases hbody

/-- A failed attempt has moved no stream, and done nothing or what the call would do. -/
theorem later_of_attempt {request : SdkRequest} {error : SdkError} {cloud cloud' : Cloud}
    (h : call.Issues provider request) (hbody : request.body = .empty)
    (hstep : amid others cloud request (.error error) cloud') :
    cloud.Later (call.Amends others provider) cloud' := by
  obtain ⟨before, hothers, hfailed⟩ := hstep
  obtain ⟨hbefore, hstreams⟩ : cloud.Later (call.Amends others provider) before :=
    hothers.mono fun _ _ => .inl
  have hleaves : before.LeavesStreams request cloud' → cloud'.streams = cloud.streams := by
    intro hleaves
    rw [← hstreams]
    exact congrArg Serving.mk (funext fun other => hleaves other (by simp [hbody, SentBody.reader]))
  rcases hfailed with ⟨-, hsame, hleft⟩ | ⟨-, ⟨response, done, hdoes, hsame⟩, hleft⟩
  · exact ⟨hsame ▸ hbefore, hleaves hleft⟩
  · refine ⟨?_, hleaves hleft⟩
    rw [hsame]
    rcases h.repeats hbody hdoes with hnothing | hrepeats
    · rwa [hnothing]
    · exact hbefore.tail (.inr hrepeats)

/-- With all its attempts, a request is one that is sent once while others make them. -/
theorem amid_of_retried {request : SdkRequest} {reply : SdkReply request}
    (h : call.Issues provider request)
    (hstep : Retried Resendable (amid others) start request reply final) :
    amid (call.Amends others provider) start request reply final := by
  refine hstep.absorbed (fun cloud reply next hlast => ?_)
    fun cloud middle failed reply next ⟨hbody, error, hfailed⟩ hattempt hrest => ?_
  · obtain ⟨before, hothers, hdone⟩ := hlast
    exact ⟨before, hothers.mono fun _ _ => .inl, hdone⟩
  · obtain rfl : failed = .error error := hfailed
    obtain ⟨before, ⟨hlater, hstreams⟩, hdone⟩ := hrest
    have hfirst := later_of_attempt h hbody hattempt
    exact ⟨before, ⟨hfirst.1.trans hlater, hstreams.trans hfirst.2⟩, hdone⟩

/-- An operation over a client that sends again. -/
theorem S3Script.Ends.retried {script : S3Script α} {post : Except StorageError α → Cloud → Prop}
    (h : S3Script.Ends (call.Amends others provider) script start post)
    (hissues : Script.Uses (call.Issues provider) script) :
    Script.Ensures (Retried Resendable (amid others)) (fun _ => True) script
      (fun value _ final => post (.ok value) final)
      (fun error _ final => post (.error error) final) () start :=
  Program.Ensures.narrow h (hissues ()) fun _ _ _ _ => amid_of_retried

theorem S3Script.Ends.of_retrace {script : S3Script α}
    {post : Except StorageError α → Cloud → Prop} {result : Except StorageError α}
    (h : S3Script.Ends (call.Amends others provider) script start post)
    (hissues : Script.Uses (call.Issues provider) script)
    (hrun : Retrace Resendable (script ()) events (.ret (result, ())))
    (haccepts : Accepts (amid others) start events final) : post result final := by
  obtain ⟨sent, htrace, hsent⟩ := hrun.finished haccepts
  have hexit := Program.Ensures.of_finished (h.retried hissues) htrace hsent
  cases result with
  | ok value => exact hexit
  | error error => exact hexit

/-- A put is sent once. -/
theorem S3Provider.put_retrace {key : String} {body : ReaderId} {options : PutOptions}
    {script : S3Script α} {rest : Program SdkRequest SdkReply (Except StorageError α × Unit)}
    (hissues : Script.Uses ((ObjectCall.put key body options).Issues provider) script)
    (hrun : Retrace Resendable (script ()) events rest) : Trace (script ()) events rest := by
  refine hrun.trace ((hissues ()).mono fun request hissued reply hagain => ?_)
  cases hissued with
  | put key body options length ifMatch ifNoneMatch => cases hagain.1

end Attempts

/-! ## What a caller can rely on -/

namespace S3Provider

variable {provider : S3Provider} {others : Objects → Objects → Prop} {start : Cloud}

/-- A put that returns has stored all that its reader supplied, of the declared length and
with the attributes it was given, over an object that met its condition.  One that fails for
a definite reason has stored nothing, and names a conflict only if there was one. -/
theorem put_stores_supplied {key : String} {body : ReaderId} {options : PutOptions}
    {events : List (Event SdkRequest SdkReply)} {result : Except StorageError PutResult}
    {final : Cloud}
    (hrun : Retrace Resendable (provider.put key body options ()) events (.ret (result, ())))
    (haccepts : Accepts (amid others) start events final) :
    ∃ before, start.Later others before ∧
      PutDone provider key options (start.streams.bodies body) before.objects final.objects
        result :=
  put_ends.of_run (put_retrace (put_issues key body options) hrun) haccepts

/-- A service without objects, and readers that supply two bytes. -/
def twoBytes : Cloud := ⟨fun _ => none, ⟨fun _ => [0x61, 0x62]⟩⟩

/-- The upload of two bytes, of which the last poll sees the end. -/
theorem sent_two : Sent twoBytes.streams (.upload (byteStreamFromReader 0 2)) [0x61, 0x62]
    ((twoBytes.streams.set 0 []).set 0 []) := by
  refine ⟨declaredPolls, _, declaredPolls_calls, ?_, rfl, by decide, by decide⟩
  refine .cons _ _ _ _ _ _ (.inr ⟨.inl rfl, rfl⟩) ?_
  refine .cons _ _ _ _ _ _ (.inl ⟨_, [], rfl, rfl, fun hnil => ?_, rfl⟩) ?_
  · cases hnil
  · exact .cons _ _ _ _ _ _ (.inl ⟨nothingRead, [], rfl, rfl, fun _ _ => rfl, rfl⟩) (.nil _)

/-- Two bytes are put where nothing is. -/
theorem put_stores_supplied_two :
    ∃ before, twoBytes.Later (fun _ _ => False) before ∧
      PutDone rooted "a" ⟨some 2, some "text/plain", [], .mustNotExist⟩ [0x61, 0x62] before.objects
        (Function.update twoBytes.objects (rooted.locate "a")
          (some ⟨[0x61, 0x62], "tag", some "text/plain", []⟩))
        (.ok ⟨"a", some "tag", some 2⟩) := by
  let response : ServiceResponse :=
    ⟨some 200, none, none, some "tag", none, none, none, none, none, 1⟩
  let request : SdkRequest := ⟨.putObject ⟨.key "a", rooted.locate "a"⟩ (some (2 : Nat))
    (some "text/plain") (some []) none (some "*"), .upload (byteStreamFromReader 0 2)⟩
  let stored : Entry := ⟨[0x61, 0x62], "tag", some "text/plain", []⟩
  have hdoes : twoBytes.Does request response
      ⟨Function.update twoBytes.objects (rooted.locate "a") (some stored),
        (twoBytes.streams.set 0 []).set 0 []⟩ := by
    refine ⟨stored, _, ⟨?_, fun _ => rfl⟩, sent_two, ?_, rfl, rfl, rfl, rfl⟩
    · simp
    · simp [stored]
  have htrace : Trace (rooted.put "a" 0 ⟨some 2, some "text/plain", [], .mustNotExist⟩ ())
      [⟨request, .ok response⟩] (.ret (.ok ⟨"a", some "tag", some 2⟩, ())) :=
    .step _ _ _ _ _ (.refl _)
  exact put_stores_supplied htrace.retrace (accepts_single_iff.mpr ⟨twoBytes, .refl _ _, hdoes⟩)

/-- A service with one object, at this location. -/
def oneObject (location : S3Location) : Cloud :=
  ⟨Function.update (fun _ => none) location
    (some ⟨[0x61], "old", some "text/plain", [("k", "v")]⟩), ⟨fun _ => []⟩⟩

end S3Provider

/-! ## Confinement -/

/-- The failure is of a definite class. -/
def FailsDefinitely {α : Type} (result : Except StorageError α) : Prop :=
  ∃ error, result = .error error ∧ error.Definite

/-- What a call has changed, and what others have. -/
structure Confines (others : Objects → Objects → Prop) (target : Option S3Location)
    (start final before : Objects) (definite : Prop) : Prop where
  later : Relation.ReflTransGen others start before
  elsewhere : ∀ location, target ≠ some location → final location = before location
  unchanged : definite → final = before

section Confinement

variable {provider : S3Provider} {others : Objects → Objects → Prop} {α β : Type}

theorem not_failsDefinitely_ok (value : α) : ¬ FailsDefinitely (.ok value) := by
  rintro ⟨error, herror, -⟩
  cases herror

theorem failsDefinitely_error_iff {error : StorageError} :
    FailsDefinitely (.error error : Except StorageError α) ↔ error.Definite := by
  constructor
  · rintro ⟨other, hother, hdefinite⟩
    cases hother
    exact hdefinite
  · intro hdefinite
    exact ⟨error, rfl, hdefinite⟩

theorem Confines.same {target : Option S3Location} {objects final : Objects} {definite : Prop}
    (h : Relation.ReflTransGen others objects final) :
    Confines others target objects final final definite := ⟨h, fun _ _ => rfl, fun _ => rfl⟩

theorem Confines.written {location : S3Location} {entry : Option Entry}
    {objects before : Objects} {definite : Prop}
    (h : Relation.ReflTransGen others objects before) (hdefinite : ¬ definite) :
    Confines others (some location) objects (Function.update before location entry) before
      definite := by
  refine ⟨h, fun other hother => ?_, fun hnone => absurd hnone hdefinite⟩
  exact Function.update_of_ne (fun hsame => hother (congrArg some hsame.symm)) _ _

theorem PutDone.confines {key : String} {options : PutOptions} {supplied : List UInt8}
    {objects before after : Objects} {result : Except StorageError PutResult}
    {f : PutResult → α} (h : PutDone provider key options supplied before after result)
    (hbefore : Relation.ReflTransGen others objects before) :
    ∃ unwritten, Confines others (some (provider.locate key)) objects after unwritten
      (FailsDefinitely (result.map f)) := by
  cases result with
  | ok stored =>
      obtain ⟨entry, ⟨-, -, -, -, -, rfl⟩, -⟩ := h
      exact ⟨before, .written hbefore (not_failsDefinitely_ok _)⟩
  | error error =>
      rcases h with ⟨rfl, -⟩ | ⟨hdefinite, entry, ⟨-, -, -, -, -, rfl⟩⟩
      · exact ⟨after, .same hbefore⟩
      · exact ⟨before, .written hbefore (failsDefinitely_error_iff.not.mpr hdefinite)⟩

theorem DeleteDone.confines {key : String} {objects before after : Objects}
    {result : Except StorageError Unit} {f : Unit → α}
    (h : DeleteDone provider key before after result)
    (hbefore : Relation.ReflTransGen others objects before) :
    ∃ unwritten, Confines others (some (provider.locate key)) objects after unwritten
      (FailsDefinitely (result.map f)) := by
  cases result with
  | ok _ =>
      obtain rfl := h
      exact ⟨before, .written hbefore (not_failsDefinitely_ok _)⟩
  | error error =>
      rcases h with rfl | ⟨hdefinite, rfl⟩
      · exact ⟨after, .same hbefore⟩
      · exact ⟨before, .written hbefore (failsDefinitely_error_iff.not.mpr hdefinite)⟩

/-- A copy writes its destination, over objects that only others have changed. -/
theorem Duplicates.confines {request : CopyRequest} {objects after : Objects}
    {result : CopyResult} {definite : Prop}
    (h : Duplicates others provider request objects result after) (hdefinite : ¬ definite) :
    ∃ unwritten, Confines others ((ObjectCall.copy request).destination provider) objects after
      unwritten definite := by
  cases h with
  | native source destination before entry duplicate hsource hdestination hbucket hbefore =>
      rw [ObjectCall.destination, hdestination]
      exact ⟨before, .written hbefore hdefinite⟩
  | relay source destination read written entry relayed hsource hdestination hbucket hread
      hwritten =>
      rw [ObjectCall.destination, hdestination]
      exact ⟨written, .written (hread.trans hwritten) hdefinite⟩

theorem CopyDone.confines {request : CopyRequest} {objects after : Objects}
    {result : Except StorageError CopyResult} {f : CopyResult → α}
    (h : CopyDone others provider request objects after result) :
    ∃ unwritten, Confines others ((ObjectCall.copy request).destination provider) objects after
      unwritten (FailsDefinitely (result.map f)) := by
  cases result with
  | ok copied => exact Duplicates.confines h (not_failsDefinitely_ok _)
  | error error =>
      rcases h with hsame | ⟨hdefinite, copied, hcopied⟩
      · exact ⟨after, .same hsame⟩
      · exact hcopied.confines (failsDefinitely_error_iff.not.mpr hdefinite)

theorem ObjectCall.Done.confines {call : ObjectCall} {start final : Cloud}
    {answer : Except StorageError ObjectAnswer} (h : call.Done others provider start final answer) :
    ∃ unwritten, Confines others (call.destination provider) start.objects final.objects unwritten
      (FailsDefinitely answer) := by
  cases call with
  | head key =>
      obtain ⟨before, hlater, hsame, -⟩ := h
      exact ⟨_, .same (hsame ▸ hlater.1)⟩
  | get key =>
      obtain ⟨before, hlater, hsame, -⟩ := h
      exact ⟨_, .same (hsame ▸ hlater.1)⟩
  | getRange request =>
      obtain ⟨before, hlater, hsame, -⟩ := h
      exact ⟨_, .same (hsame ▸ hlater.1)⟩
  | put key body options =>
      obtain ⟨before, result, hlater, rfl, hdone⟩ := h
      exact hdone.confines hlater.1
  | delete key =>
      obtain ⟨before, result, hlater, rfl, hdone⟩ := h
      exact hdone.confines hlater.1
  | copy request =>
      obtain ⟨result, rfl, hdone⟩ := h
      exact hdone.confines

end Confinement

/-- Every operation leaves alone what it does not write, in all its attempts.  A definite error
says that the last one has changed nothing; if nothing was sent again, the operation has left
all objects alone. -/
theorem S3Provider.perform_confined {provider : S3Provider}
    {others : Objects → Objects → Prop} {call : ObjectCall} {start final : Cloud}
    {events : List (Event SdkRequest SdkReply)} {result : Except StorageError ObjectAnswer}
    (hrun : Retrace Resendable (provider.perform call ()) events (.ret (result, ())))
    (haccepts : Accepts (amid others) start events final) :
    (∃ unwritten, Confines (call.Amends others provider) (call.destination provider) start.objects
      final.objects unwritten (FailsDefinitely result)) ∧
    (Trace (provider.perform call ()) events (.ret (result, ())) →
      ∃ unwritten, Confines others (call.destination provider) start.objects final.objects
        unwritten (FailsDefinitely result)) ∧
    (∀ before after location, call.Repeats provider before after →
      call.destination provider ≠ some location → after location = before location) := by
  have hdone : call.Done (call.Amends others provider) provider start final result :=
    (perform_ends call).of_retrace (perform_issues call) hrun haccepts
  refine ⟨hdone.confines, fun htrace => ?_, fun _ _ _ => ObjectCall.Repeats.elsewhere⟩
  have honce : call.Done others provider start final result :=
    (perform_ends call).of_run htrace haccepts
  exact honce.confines

/-- An object is deleted in an attempt whose reply is lost, and the next attempt is refused. -/
theorem S3Provider.perform_confined_delete :
    let start := oneObject ⟨"bucket", "logs/a"⟩
    ∃ unwritten, Confines ((ObjectCall.delete "a").Amends (fun _ _ => False) rooted)
      (some ⟨"bucket", "logs/a"⟩) start.objects
      (Function.update start.objects ⟨"bucket", "logs/a"⟩ none) unwritten
      (FailsDefinitely (.error (.throttled .s3 .delete none) : Except _ ObjectAnswer)) := by
  intro start
  let request : SdkRequest := ⟨.deleteObject ⟨.key "a", ⟨"bucket", "logs/a"⟩⟩, .empty⟩
  let throttled : SdkError := .serviceError ⟨503, [], some "SlowDown"⟩
  let deleted : Cloud :=
    ⟨Function.update start.objects ⟨"bucket", "logs/a"⟩ none, start.streams⟩
  let response : ServiceResponse :=
    ⟨some 204, none, none, none, none, none, none, none, none, 7⟩
  have hlost : service start request (.error .timeoutError) deleted :=
    .inr ⟨id, ⟨response, deleted, rfl, rfl⟩, fun _ _ => rfl⟩
  have hrefused : service deleted request (.error throttled) deleted :=
    .inl ⟨trivial, rfl, fun _ _ => rfl⟩
  have hrun : Retrace Resendable (rooted.perform (.delete "a") ())
      [⟨request, .error .timeoutError⟩, ⟨request, .error throttled⟩]
      (.ret (.error (.throttled .s3 .delete none), ())) :=
    .again _ _ _ _ _ ⟨rfl, _, rfl⟩ (.step _ _ _ _ _ (.refl _))
  have haccepts : Accepts (amid fun _ _ => False) start
      [⟨request, .error .timeoutError⟩, ⟨request, .error throttled⟩] deleted :=
    .cons _ deleted _ _ _ _ ⟨_, .refl _ _, hlost⟩
      (accepts_single_iff.mpr ⟨_, .refl _ _, hrefused⟩)
  exact (perform_confined hrun haccepts).1

end Storageprims

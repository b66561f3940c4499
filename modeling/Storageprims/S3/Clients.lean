import Storageprims.Interaction.Threads
import Storageprims.S3.Attempts

/-!
# Clients that share a service

Any number of clients, each with a provider of its own, call operations at the same time.
The service answers their requests in some order.  Two results hold in every such order:
what a conditional put promises against the others, and that clients behind separate roots
do not notice each other.
-/

namespace Storageprims

open Interaction
open S3Provider (twoBytes sent_two)

/-- The service as its clients share it: the objects are common, and the streams are each
client's own. -/
def sharedService : Environment SdkRequest SdkReply (Objects × Serving) :=
  fun state request reply state' =>
    service ⟨state.1, state.2⟩ request reply ⟨state'.1, state'.2⟩

/-- The object that a request writes. -/
def ServiceCall.written : ServiceCall → Option S3Location
  | .putObject target _ _ _ _ _ | .deleteObject target => some target.location
  | .copyObject _ destination => some destination.location
  | .headObject .. | .getObject .. => none

/-- A request writes one object or none, and takes it away only if it is a delete. -/
def ServiceCall.Changes (call : ServiceCall) (before after : Objects) : Prop :=
  after = before ∨ ∃ location entry, call.written = some location ∧
    after = Function.update before location entry ∧
    (entry = none → ∃ target, call = .deleteObject target)

namespace ServiceCall.Changes

variable {call : ServiceCall} {before after : Objects} {location : S3Location}

theorem elsewhere (h : call.Changes before after) (hother : call.written ≠ some location) :
    after location = before location := by
  rcases h with rfl | ⟨written, entry, hwritten, rfl, -⟩
  · rfl
  · refine Function.update_of_ne (fun hsame => hother ?_) _ _
    rw [hwritten, hsame]

theorem removed (h : call.Changes before after) (hbefore : before location ≠ none)
    (hafter : after location = none) : ∃ target, call = .deleteObject target := by
  rcases h with rfl | ⟨written, entry, -, rfl, hdelete⟩
  · exact absurd hafter hbefore
  · by_cases hwritten : location = written
    · rw [hwritten, Function.update_self] at hafter
      exact hdelete hafter
    · rw [Function.update_of_ne hwritten] at hafter
      exact absurd hafter hbefore

end ServiceCall.Changes

/-! ## What an operation asks for -/

/-- The objects that a call names. -/
def ObjectCall.Names (provider : S3Provider) (location : S3Location) : ObjectCall → Prop
  | .head key | .get key | .put key _ _ | .delete key => location = provider.locate key
  | .getRange request => location = provider.locate request.key
  | .copy request => provider.resolveCopyLocation request.source "source" = .ok location ∨
      provider.resolveCopyLocation request.destination "destination" = .ok location

/-- A request of this call: it is about objects that the call names, writes none but the
call's destination, and is a delete only if the call is one. -/
structure ObjectCall.Sends (provider : S3Provider) (call : ObjectCall) (request : SdkRequest) :
    Prop where
  names : ∀ target ∈ request.call.targets, call.Names provider target.location
  writes : ∀ location, request.call.written = some location →
    call.destination provider = some location
  deletes : ∀ target, request.call = .deleteObject target → ∃ key, call = .delete key

theorem ObjectCall.Issues.sends {provider : S3Provider} {call : ObjectCall} {request : SdkRequest}
    (h : call.Issues provider request) : call.Sends provider request := by
  have hone : ∀ {target : Target} {location : S3Location}, call.Names provider location →
      target.location = location → ∀ other ∈ [target], call.Names provider other.location := by
    rintro target location hnames rfl other hother
    rwa [List.mem_singleton.mp hother]
  have hread : ∀ location : S3Location, none = some location →
      call.destination provider = some location := fun _ hnone => by cases hnone
  cases h with
  | head key => exact ⟨hone rfl rfl, hread, fun _ hdelete => by cases hdelete⟩
  | get key => exact ⟨hone rfl rfl, hread, fun _ hdelete => by cases hdelete⟩
  | getRange request range => exact ⟨hone rfl rfl, hread, fun _ hdelete => by cases hdelete⟩
  | put key body options length ifMatch ifNoneMatch =>
      exact ⟨hone rfl rfl, fun _ hwritten => hwritten, fun _ hdelete => by cases hdelete⟩
  | delete key => exact ⟨hone rfl rfl, fun _ hwritten => hwritten, fun _ _ => ⟨key, rfl⟩⟩
  | native request source destination hsource hdestination hbucket =>
      refine ⟨fun target htarget => ?_, fun location hwritten => ?_,
        fun _ hdelete => by cases hdelete⟩
      · rcases List.mem_pair.mp htarget with rfl | rfl
        · exact .inl hsource
        · exact .inr hdestination
      · rw [ObjectCall.destination, hdestination]
        exact hwritten
  | fetch request source hsource =>
      exact ⟨hone (.inl hsource) rfl, hread, fun _ hdelete => by cases hdelete⟩
  | relay request destination length body hdestination =>
      refine ⟨hone (.inr hdestination) rfl, fun location hwritten => ?_,
        fun _ hdelete => by cases hdelete⟩
      rw [ObjectCall.destination, hdestination]
      exact hwritten

theorem S3Provider.perform_uses {provider : S3Provider} (call : ObjectCall) :
    Script.Uses (call.Sends provider) (provider.perform call) :=
  fun state => (perform_issues call state).mono fun _ => ObjectCall.Issues.sends

/-! ## Conditional puts -/

/-- The request of a put that has returned, as the service did it. -/
def PutTurn (location : S3Location) (precondition : PutPrecondition) (eTag : Option String)
    (event : Event SdkRequest SdkReply) : Prop :=
  ∃ target contentLength contentType metadata ifMatch ifNoneMatch body response,
    event = ⟨⟨.putObject target contentLength contentType metadata ifMatch ifNoneMatch, body⟩,
      .ok response⟩ ∧ target.location = location ∧
    precondition.conditions = .ok (ifMatch, ifNoneMatch) ∧ response.eTag = eTag

theorem S3Provider.put_turn {provider : S3Provider} {key : String} {body : ReaderId}
    {options : PutOptions} :
    Script.Ensures history (fun _ => True) (provider.perform (.put key body options))
      (fun answer _ past => ∀ stored, answer = .stored stored → ∃ event, past = [event] ∧
        PutTurn (provider.locate key) options.precondition stored.etag event)
      (fun _ _ _ => True) () [] := by
  have hput : Script.Ensures history (fun _ => True) (provider.put key body options)
      (fun stored _ past => ∃ event, past = [event] ∧
        PutTurn (provider.locate key) options.precondition stored.etag event)
      (fun _ _ _ => True) () [] := by
    refine Script.ensures_bind_ofExcept (fun _ _ => ⟨trivial, trivial⟩) fun target htarget => ?_
    obtain ⟨-, rfl⟩ := S3Provider.keyTarget_ok_iff.mp htarget
    refine Script.ensures_bind_ofExcept (fun _ _ => ⟨trivial, trivial⟩) fun contentLength _ => ?_
    refine Script.ensures_bind_ofExcept (fun _ _ => ⟨trivial, trivial⟩)
      fun (ifMatch, ifNoneMatch) hconditions => ?_
    refine Script.ensures_bind_ofExcept (fun _ _ => ⟨trivial, trivial⟩) fun _ _ => ?_
    refine ⟨trivial, fun reply past hpast => ?_⟩
    cases reply with
    | error error => exact ⟨trivial, trivial⟩
    | ok response =>
        exact ⟨trivial, _, hpast, _, _, _, _, _, _, _, _, rfl, rfl, hconditions, rfl⟩
  refine hput.bind fun stored _ past _ hturn => ⟨trivial, fun other hother => ?_⟩
  cases hother
  exact hturn

/-! ## Calls at the same time -/

section Races

variable {Thread : Type} [DecidableEq Thread]

/-- An operation under way. -/
abbrev Pending : Type :=
  Program SdkRequest SdkReply (Except StorageError ObjectAnswer × Unit)

/-- A history of calls that run at the same time, every one as a thread of its own. -/
structure Concurrent (providers : Thread → S3Provider) (calls : Thread → ObjectCall)
    (start : Objects × (Thread → Serving)) (history : List (Turn Thread SdkRequest SdkReply))
    (rests : Thread → Pending) (final : Objects × (Thread → Serving)) : Prop where
  traces : ∀ thread, Retrace Resendable ((providers thread).perform (calls thread) ())
    (turnsOf thread history) (rests thread)
  accepts : Accepts (threads sharedService) start history final

/-- The call is a put of this object and has returned. -/
def PutReturned (provider : S3Provider) (call : ObjectCall) (rest : Pending)
    (location : S3Location) (precondition : PutPrecondition) (eTag : Option String) : Prop :=
  ∃ key body options stored, call = .put key body options ∧ provider.locate key = location ∧
    options.precondition = precondition ∧ rest = .ret (.ok (.stored stored), ()) ∧
    stored.etag = eTag

variable {providers : Thread → S3Provider} {calls : Thread → ObjectCall}
variable {start final : Objects × (Thread → Serving)}
variable {history : List (Turn Thread SdkRequest SdkReply)} {rests : Thread → Pending}

/-- A put that has returned has made one request. -/
theorem PutReturned.turn {thread : Thread} {location : S3Location}
    {precondition : PutPrecondition} {eTag : Option String}
    (h : Concurrent providers calls start history rests final)
    (hput : PutReturned (providers thread) (calls thread) (rests thread) location precondition
      eTag) :
    ∃ event, turnsOf thread history = [event] ∧ PutTurn location precondition eTag event := by
  obtain ⟨key, body, options, stored, hcall, rfl, rfl, hrest, rfl⟩ := hput
  have hrun := h.traces thread
  rw [hcall, hrest] at hrun
  have htrace := S3Provider.put_retrace (S3Provider.perform_issues _) hrun
  exact Program.Ensures.of_finished S3Provider.put_turn htrace (accepts_history [] _) stored rfl

/-- What a request of the history is to its call. -/
theorem Concurrent.sends (h : Concurrent providers calls start history rests final)
    {turn : Turn Thread SdkRequest SdkReply} (hturn : turn ∈ history) :
    (calls turn.request.1).Sends (providers turn.request.1) turn.request.2 :=
  (h.traces _).uses (S3Provider.perform_uses _ ()) _ (event_mem_turnsOf hturn)

end Races

end Storageprims

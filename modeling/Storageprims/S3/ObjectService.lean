import Mathlib.Logic.Function.Basic
import Mathlib.Logic.Relation
import Storageprims.S3.GuardedStore
import Storageprims.S3.Operations

/-!
# The service behind the object operations

A service that keeps one entry for each location, and does one request at a time, where each
attempt at a request is one of its own.  It may refuse any request, and its reply may be lost:
then nobody knows whether the request was done.  Between two requests of an operation, other
clients write as `others` allows.
-/

namespace Storageprims

open Interaction
open AsyncReadBody (pollFrame)

/-- An object as the service keeps it. -/
structure Entry where
  bytes : List UInt8
  eTag : String
  contentType : Option String
  metadata : List (String × String)
  deriving DecidableEq

abbrev Objects := S3Location → Option Entry

/-- The objects of the service, and the streams that clients hold: readers of uploads and
bodies of responses. -/
structure Cloud where
  objects : Objects
  streams : Serving

/-- The response describes this entry. -/
structure Entry.Describes (entry : Entry) (response : ServiceResponse) : Prop where
  eTag : response.eTag = some entry.eTag
  contentType : response.contentType = entry.contentType
  metadata : response.metadata.getD [] = entry.metadata

/-- The conditions of a put, put to the object as it is. -/
def Admits (ifMatch ifNoneMatch : Option String) (current : Option Entry) : Prop :=
  (∀ token ∈ ifMatch, ∃ entry, current = some entry ∧ entry.eTag = token) ∧
    (ifNoneMatch = some "*" → current = none)

/-- The part of an object that a range header asks for; without one, all of it. -/
def Ranges (bytes : List UInt8) (range : Option String) (part : List UInt8) : Prop :=
  match range with
  | none => part = bytes
  | some text => ∀ first last : Nat, text = "bytes=" ++ toString first ++ "-" ++ toString last →
      first < bytes.length ∧ part = (bytes.drop first).take (last + 1 - first)

/-- A body that has been sent to its end, and the streams behind it.  An upload is polled
until it ends, and is not whole if it reported an error. -/
def Sent (streams : Serving) (body : SentBody) (bytes : List UInt8) (streams' : Serving) : Prop :=
  match body with
  | .empty => bytes = [] ∧ streams' = streams
  | .relayed reader => bytes = streams.bodies reader ∧ streams' = streams.set reader []
  | .upload body => ∃ calls final, Invocations (fun _ => pollFrame) body calls final ∧
      Accepts transport streams (calls.flatMap Invocation.events) streams' ∧
      final.isEndStream = true ∧ errorFrames calls = [] ∧ bytes = (frames calls).flatten

/-- The service does a request. -/
def Cloud.Does (cloud : Cloud) (request : SdkRequest) (response : ServiceResponse)
    (cloud' : Cloud) : Prop :=
  match request.call with
  | .headObject target _ => cloud' = cloud ∧ ∃ entry, cloud.objects target.location = some entry ∧
      entry.Describes response ∧ response.statedLength = some entry.bytes.length
  | .getObject target range _ => ∃ entry part, cloud.objects target.location = some entry ∧
      entry.Describes response ∧ Ranges entry.bytes range part ∧
      response.statedLength = some part.length ∧
      cloud' = ⟨cloud.objects, cloud.streams.set response.body part⟩
  | .putObject target contentLength contentType metadata ifMatch ifNoneMatch =>
      ∃ entry streams', Admits ifMatch ifNoneMatch (cloud.objects target.location) ∧
        Sent cloud.streams request.body entry.bytes streams' ∧
        (∀ length ∈ contentLength, length = (entry.bytes.length : Int)) ∧
        entry.contentType = contentType ∧ entry.metadata = metadata.getD [] ∧
        response.eTag = some entry.eTag ∧
        cloud' = ⟨Function.update cloud.objects target.location (some entry), streams'⟩
  | .deleteObject target =>
      cloud' = ⟨Function.update cloud.objects target.location none, cloud.streams⟩
  | .copyObject source destination => ∃ entry duplicate,
      cloud.objects source.location = some entry ∧ duplicate.bytes = entry.bytes ∧
      duplicate.contentType = entry.contentType ∧ duplicate.metadata = entry.metadata ∧
      response.eTag = some duplicate.eTag ∧
      cloud' = ⟨Function.update cloud.objects destination.location (some duplicate),
        cloud.streams⟩

/-- The codes of a request that was refused. -/
def refusalCodes : List String :=
  "PreconditionFailed" :: "ConditionalRequestConflict" :: taxonomy.map (·.1)

/-- After this failure the request has not been done. -/
def SdkError.Refuses : SdkError → Prop
  | .constructionFailure _ => True
  | .serviceError context => context.errorCode ∈ refusalCodes
  | _ => False

/-- What some codes say of the object that was addressed. -/
def Cloud.Justifies (cloud : Cloud) (call : ServiceCall) (error : SdkError) : Prop :=
  match call, error with
  | .putObject target _ _ _ ifMatch ifNoneMatch, .serviceError context =>
      context.errorCode = "PreconditionFailed" → ifMatch.isSome ∨ ifNoneMatch.isSome →
        ¬ Admits ifMatch ifNoneMatch (cloud.objects target.location)
  | .headObject target _, .serviceError context
  | .getObject target _ _, .serviceError context =>
      context.errorCode = "NoSuchKey" ∨ context.errorCode = "NotFound" →
        cloud.objects target.location = none
  | _, _ => True

def SentBody.reader : SentBody → Option ReaderId
  | .empty => none
  | .upload body => some body.reader
  | .relayed reader => some reader

/-- No stream moves but the one that the request began to send. -/
def Cloud.LeavesStreams (cloud : Cloud) (request : SdkRequest) (cloud' : Cloud) : Prop :=
  ∀ other, request.body.reader ≠ some other →
    cloud'.streams.bodies other = cloud.streams.bodies other

/-- A request that is not done changes no object. -/
def Cloud.Skips (cloud : Cloud) (request : SdkRequest) (cloud' : Cloud) : Prop :=
  cloud'.objects = cloud.objects ∧ cloud.LeavesStreams request cloud'

/-- A request is done, and nobody gets the response, or a body that came with it. -/
def Cloud.Loses (cloud : Cloud) (request : SdkRequest) (cloud' : Cloud) : Prop :=
  (∃ response done, cloud.Does request response done ∧ cloud'.objects = done.objects) ∧
    cloud.LeavesStreams request cloud'

/-- The service does a request and replies; or it does not do it; or it has done it, and the
reply is lost. -/
def service : Environment SdkRequest SdkReply Cloud := fun cloud request reply cloud' =>
  match reply with
  | .ok response => cloud.Does request response cloud'
  | .error error => (cloud.Justifies request.call error ∧ cloud.Skips request cloud') ∨
      (¬ error.Refuses ∧ cloud.Loses request cloud')

/-- Other clients have changed the objects, and hold streams of their own. -/
def Cloud.Later (others : Objects → Objects → Prop) (cloud cloud' : Cloud) : Prop :=
  Relation.ReflTransGen others cloud.objects cloud'.objects ∧ cloud'.streams = cloud.streams

/-- The service, with other clients at work before every request. -/
def amid (others : Objects → Objects → Prop) : Environment SdkRequest SdkReply Cloud :=
  fun cloud request reply cloud' => ∃ middle, cloud.Later others middle ∧
    service middle request reply cloud'

end Storageprims

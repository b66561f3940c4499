import Storageprims.Interaction.Script
import Storageprims.S3.CopyLocations
import Storageprims.S3.Errors
import Storageprims.S3.UploadBody

/-!
# The object operations

The plain operations of the provider, from their arguments to their results: what each one
checks, the request it sends, and what it makes of the reply or of a failure.  An operation is
a script over the requests that the service client is given; that the client may send one of
them again is left to `Attempts`.
-/

namespace Storageprims

open Interaction

inductive CopyStrategy where
  | native
  | relay
  deriving DecidableEq

structure CopyResult where
  source : String
  destination : String
  strategy : CopyStrategy
  bytesCopied : Option Nat
  destinationEtag : Option String
  deriving DecidableEq

/-- What a request carries behind its headers: nothing, an upload, or the body of an
earlier response. -/
inductive SentBody where
  | empty
  | upload (body : AsyncReadBody)
  | relayed (body : ReaderId)

/-- A request as the service client gets it. -/
structure SdkRequest where
  call : ServiceCall
  body : SentBody

abbrev SdkReply (_ : SdkRequest) : Type := Except SdkError ServiceResponse

/-- An operation over the service client. -/
abbrev S3Script (α : Type) : Type := Script SdkRequest SdkReply Unit StorageError α

/-- Send a request, and map its failure. -/
def send (call : ServiceCall) (body : SentBody) (failed : SdkError → StorageError) :
    S3Script ServiceResponse := fun state =>
  .call ⟨call, body⟩ fun reply => .ret (reply.mapError failed, state)

/-- A length of a response, as an unsigned number if it is one. -/
def ServiceResponse.statedLength (response : ServiceResponse) : Option Nat :=
  (response.contentLength.bind unsignedLength).map (·.val)

/-- What a put asks for, as far as its error mapping looks at it. -/
def PutPrecondition.kind : PutPrecondition → PutPreconditionKind
  | .none => .none
  | .mustNotExist => .mustNotExist
  | .match _ => .match

namespace S3Provider

variable (provider : S3Provider)

def head (key : String) : S3Script ObjectMetadata := do
  let target ← Script.ofExcept (provider.keyTarget key)
  let response ← send (.headObject target none) .empty
    (mapSdkError .s3 .head (some target.location.key) (some provider.bucket))
  return {
    path := key
    size := response.statedLength.getD 0
    etag := response.eTag
    contentType := response.contentType
    lastModified := response.lastModified
    metadata := response.metadata.getD []
  }

def get (key : String) : S3Script ReaderId := do
  let target ← Script.ofExcept (provider.keyTarget key)
  let response ← send (.getObject target none none) .empty
    (mapSdkError .s3 .get (some target.location.key) (some provider.bucket))
  return response.body

def getRange (request : GetRangeRequest) : S3Script ReaderId := do
  Script.ofExcept (checkLength .getRange request.length)
  let target ← Script.ofExcept (provider.keyTarget request.key)
  let range ← Script.ofExcept (rangeHeader .getRange request.offset request.length)
  let response ← send (.getObject target (some range) none) .empty
    (mapSdkError .s3 .getRange (some target.location.key) (some provider.bucket))
  return response.body

def put (key : String) (body : ReaderId) (options : PutOptions) : S3Script PutResult := do
  let target ← Script.ofExcept (provider.keyTarget key)
  let contentLength ← Script.ofExcept (uploadLength options.contentLength)
  let (ifMatch, ifNoneMatch) ← Script.ofExcept options.precondition.conditions
  Script.ofExcept (checkUploadLength contentLength)
  let response ← send (.putObject target (some contentLength) options.contentType
      (some options.metadata) ifMatch ifNoneMatch)
    (.upload (byteStreamFromReader body contentLength))
    (mapPutError (some target.location.key) (some provider.bucket) options.precondition.kind)
  return ⟨key, response.eTag, some contentLength⟩

def delete (key : String) : S3Script Unit := do
  let target ← Script.ofExcept (provider.keyTarget key)
  let _ ← send (.deleteObject target) .empty
    (mapSdkError .s3 .delete (some target.location.key) (some provider.bucket))

/-- A copy between buckets: the body of a read is sent on as it arrives. -/
def relayCopy (source destination : Target) : S3Script CopyResult := do
  let object ← send (.getObject source none none) .empty
    (mapSdkError .s3 .get (some source.location.key) (some source.location.bucket))
  let size := object.statedLength
  let response ← send
    (.putObject destination ((size.filter (· < 2 ^ 63)).map Int.ofNat) none none none none)
    (.relayed object.body)
    (mapSdkError .s3 .put (some destination.location.key) (some destination.location.bucket))
  return {
    source := source.location.uri
    destination := destination.location.uri
    strategy := .relay
    bytesCopied := size
    destinationEtag := response.eTag
  }

def copy (request : CopyRequest) : S3Script CopyResult := do
  let source ← Script.ofExcept (provider.copyTarget request.source "source")
  let destination ← Script.ofExcept (provider.copyTarget request.destination "destination")
  if source.location.bucket = destination.location.bucket then do
    let response ← send (.copyObject source destination) .empty
      (mapSdkError .s3 .copy (some destination.location.key) (some destination.location.bucket))
    return {
      source := request.source
      destination := request.destination
      strategy := .native
      bytesCopied := none
      destinationEtag := response.eTag
    }
  else relayCopy source destination

end S3Provider

/-- A call of an object operation. -/
inductive ObjectCall where
  | head (key : String)
  | get (key : String)
  | getRange (request : GetRangeRequest)
  | put (key : String) (body : ReaderId) (options : PutOptions)
  | delete (key : String)
  | copy (request : CopyRequest)

/-- What a call returns. -/
inductive ObjectAnswer where
  | metadata (metadata : ObjectMetadata)
  | stream (reader : ReaderId)
  | stored (result : PutResult)
  | deleted
  | copied (result : CopyResult)
  deriving DecidableEq

namespace S3Provider

variable (provider : S3Provider)

def perform : ObjectCall → S3Script ObjectAnswer
  | .head key => do return .metadata (← provider.head key)
  | .get key => do return .stream (← provider.get key)
  | .getRange request => do return .stream (← provider.getRange request)
  | .put key body options => do return .stored (← provider.put key body options)
  | .delete key => do
      provider.delete key
      return .deleted
  | .copy request => do return .copied (← provider.copy request)

end S3Provider

end Storageprims

import Storageprims.S3.Objects

/-!
# Guarded reads

A guarded read sends one request that carries the selector, and accepts the
response only when its headers prove what the receipt will say: the selected
identity, the whole object or the requested window, and a body of that length.
The service is a function from the request to a response or to the error its
failure was mapped to.
-/

namespace Storageprims

/-- The response to a HEAD or a GET, as far as guarded reads look at it.  The
status is the one recorded on the way, if any was. -/
structure ServiceResponse where
  status : Option UInt16
  deleteMarker : Option Bool
  versionId : Option String
  eTag : Option String
  contentLength : Option Int64
  contentRange : Option String
  contentType : Option String
  lastModified : Option String
  metadata : Option (List (String × String))
  body : ReaderId
  deriving DecidableEq

abbrev GuardedService := ServiceCall → Except StorageError ServiceResponse

/-- A body that must end after the declared number of bytes. -/
structure DeclaredLengthRead where
  reader : ReaderId
  remaining : Option Nat
  checkedEnd : Bool
  deriving DecidableEq

def DeclaredLengthRead.new (reader : ReaderId) (remaining : Option Nat) : DeclaredLengthRead :=
  ⟨reader, remaining, false⟩

/-- A receipt with the body it describes. -/
structure DeclaredResponse where
  receipt : SourceReceipt
  reader : DeclaredLengthRead
  deriving DecidableEq

def observedNativeVersion (version : Option String) : Option String :=
  version.filter (· ≠ "null")

def selectedNotFound (operation : StorageOperation) (key : String) : StorageError :=
  .notFound .s3 operation key

def invalidResponse (operation : StorageOperation) (detail : String) : StorageError :=
  .io (some operation) ⟨.invalidData, detail⟩

/-- A content length as an unsigned number. -/
def unsignedLength (length : Int64) : Option (Fin u64Bound) :=
  if h : 0 ≤ length.toInt then
    some ⟨length.toInt.toNat, by
      have hlt := Int64.toInt_lt length
      show length.toInt.toNat < 2 ^ 64
      omega⟩
  else none

def checkedContentLength (value : Option Int64) (operation : StorageOperation) :
    Except StorageError (Option (Fin u64Bound)) :=
  match value with
  | none => .ok none
  | some length =>
      match unsignedLength length with
      | some length => .ok (some length)
      | none => .error (invalidResponse operation "response contains an invalid content length")

/-- The headers a receipt is made from. -/
structure S3ReceiptEvidence where
  versionId : Option String
  etag : Option String
  contentLength : Option Int64

def ServiceResponse.evidence (response : ServiceResponse) : S3ReceiptEvidence :=
  ⟨response.versionId, response.eTag, response.contentLength⟩

/-- The response repeats the selected identity. -/
def checkIdentity (selector : SourceSelector) (nativeVersion validator : Option String)
    (operation : StorageOperation) : Except StorageError Unit :=
  match selector with
  | .nativeVersion token =>
      if nativeVersion ≠ some token then
        .error (invalidResponse operation
          "response native version does not match the selected source")
      else .ok ()
  | .validatorMatch token =>
      let strongResponse := validator.any fun value =>
        (SourceSelector.validatorMatch value).validate = .ok ()
      if ¬ strongResponse ∨ validator ≠ some token then
        .error (invalidResponse operation
          "response validator does not match the selected source")
      else .ok ()

/-- The total size of a receipt, with the bound its numbers keep. -/
def SourceReceipt.withTotalSize (receipt : SourceReceipt) (totalSize : Option (Fin u64Bound)) :
    SourceReceipt :=
  { receipt with
    totalSize := totalSize.map (·.val)
    totalSize_lt := by
      intro total htotal
      obtain ⟨bounded, -, rfl⟩ := Option.map_eq_some_iff.mp htotal
      exact bounded.isLt }

def checkedReceipt (path : String) (selector : SourceSelector) (evidence : S3ReceiptEvidence)
    (requestedWindow returnedWindow : Option ByteWindow) (operation : StorageOperation) :
    Except StorageError SourceReceipt := do
  let nativeVersion := observedNativeVersion evidence.versionId
  let validator := evidence.etag
  checkIdentity selector nativeVersion validator operation
  let totalSize ← checkedContentLength evidence.contentLength operation
  return ({
    path := path
    nativeVersion := nativeVersion
    validator := validator
    totalSize := none
    requestedWindow := requestedWindow
    returnedWindow := returnedWindow
    totalSize_lt := noTotal_lt : SourceReceipt }).withTotalSize totalSize

/-! ## The content range of a response -/

structure ParsedContentRange where
  window : ByteWindow
  totalSize : Option (Fin u64Bound)
  deriving DecidableEq

/-- `str::parse::<u64>`. -/
def parseU64 (text : String) : Option (Fin u64Bound) := Str.parseBelow u64Bound text

def invalidContentRange {α : Type} (operation : StorageOperation) : Except StorageError α :=
  .error (invalidResponse operation "range response has an invalid content range")

/-- The total behind the window, whose last byte it must exceed. -/
def parseTotal (text : String) (last : Fin u64Bound) (operation : StorageOperation) :
    Except StorageError (Option (Fin u64Bound)) :=
  if text = "*" then .ok none
  else
    match parseU64 text with
    | none => invalidContentRange operation
    | some total =>
        if total.val = 0 ∨ last.val ≥ total.val then invalidContentRange operation
        else .ok (some total)

def parseContentRange (value : Option String) (operation : StorageOperation) :
    Except StorageError ParsedContentRange :=
  match value with
  | none => .error (invalidResponse operation "range response is missing content range")
  | some value =>
      match (Str.stripFront "bytes " value).bind (Str.splitOnce "/") with
      | none => invalidContentRange operation
      | some (window, total) =>
          match Str.splitOnce "-" window with
          | none => invalidContentRange operation
          | some (start, last) =>
              match parseU64 start, parseU64 last with
              | some start, some last =>
                  if last.val < start.val then invalidContentRange operation
                  else do
                    let totalSize ← parseTotal total last operation
                    return ⟨⟨start, last, start.isLt, last.isLt⟩, totalSize⟩
              | _, _ => invalidContentRange operation

def validateFullGetResponse (status : UInt16) (contentRange : Option String)
    (contentLength : Option (Fin u64Bound)) : Except StorageError (Option ByteWindow) :=
  if status ≠ 200 then
    .error (invalidResponse .guardedGet
      "full guarded read received a partial or unexpected successful status")
  else
    match contentRange with
    | none => .ok ((contentLength.filter (0 < ·.val)).map fun length =>
        ⟨0, length.val - 1, by decide, Nat.lt_of_le_of_lt (Nat.sub_le _ _) length.isLt⟩)
    | some contentRange => do
        let parsed ← parseContentRange (some contentRange) .guardedGet
        match parsed.window.checkedLen with
        | none => .error (invalidResponse .guardedGet
            "full response window length overflows u64")
        | some returnedLength =>
            if parsed.window.start ≠ 0 ∨ parsed.totalSize.map (·.val) ≠ some returnedLength
                ∨ contentLength.map (·.val) ≠ some returnedLength then
              .error (invalidResponse .guardedGet
                "full response content range does not describe the entire object")
            else .ok (some parsed.window)

/-! ## The operations -/

/-- The window that a range request asks for. -/
def requestedRange (operation : StorageOperation) (offset length : Nat) :
    Except StorageError ByteWindow :=
  match hlast : checkedAdd offset (length - 1) with
  | some last => .ok ⟨offset, last, by have := checkedAdd_eq_some_iff.mp hlast; omega,
      by have := checkedAdd_eq_some_iff.mp hlast; omega⟩
  | none => .error (.invalidArgument (some operation) "length" "requested range overflows u64")

/-- The window that a response of this total must return. -/
def expectedRange (requested : ByteWindow) (totalSize : Option (Fin u64Bound)) :
    Except StorageError ByteWindow :=
  match totalSize with
  | none => .ok requested
  | some total =>
      if requested.start ≥ total.val then
        .error (.invalidArgument (some .guardedGetRange) "offset"
          "range begins at or beyond the end of the object")
      else .ok ⟨requested.start, min requested.last (total.val - 1), requested.start_lt,
        by have := requested.last_lt; omega⟩

/-- The status recorded with a response. -/
def recordedStatus (response : ServiceResponse) (operation : StorageOperation)
    (detail : String) : Except StorageError UInt16 :=
  match response.status with
  | some status => .ok status
  | none => .error (invalidResponse operation detail)

/-- A selected source that is a delete marker is not there. -/
def checkDeleteMarker (response : ServiceResponse) (operation : StorageOperation)
    (key : String) : Except StorageError Unit :=
  if response.deleteMarker.getD false then .error (selectedNotFound operation key) else .ok ()

/-- A range response returns the expected window, whose length it gives. -/
def checkRangeWindow (returned : ParsedContentRange) (expected : ByteWindow) :
    Except StorageError Nat :=
  if returned.window ≠ expected then
    .error (invalidResponse .guardedGetRange
      "response range does not match the requested window")
  else
    match returned.window.checkedLen with
    | none => .error (invalidResponse .guardedGetRange
        "range response window length overflows u64")
    | some returnedLength => .ok returnedLength

/-- A range response has status 206, or 200 for the whole object. -/
def checkRangeStatus (status : UInt16) (returned : ParsedContentRange) (expected : ByteWindow)
    (returnedLength : Nat) : Except StorageError Unit :=
  if status = 200 ∧ ¬ (returned.window.start = 0
      ∧ returned.totalSize.map (·.val) = some returnedLength ∧ expected = returned.window) then
    .error (invalidResponse .guardedGetRange
      "full-status range response does not prove the entire requested object")
  else if status ≠ 200 ∧ status ≠ 206 then
    .error (invalidResponse .guardedGetRange
      "range response has an unexpected successful status")
  else .ok ()

/-- A range response declares the length of its window. -/
def checkRangeLength (value : Option Int64) (returnedLength : Nat) :
    Except StorageError (Fin u64Bound) := do
  match ← checkedContentLength value .guardedGetRange with
  | none => .error (invalidResponse .guardedGetRange "range response is missing content length")
  | some contentLength =>
      if contentLength.val ≠ returnedLength then
        .error (invalidResponse .guardedGetRange
          "range response content length does not match content range")
      else .ok contentLength

namespace S3Provider

variable (provider : S3Provider) (service : GuardedService)

def observeSource (key : String) : Except StorageError SourceObservation := do
  let target ← provider.keyTarget key
  let response ← service (.headObject target none)
  checkDeleteMarker response .observeSource key
  let receipt : SourceReceipt := {
    path := key
    nativeVersion := observedNativeVersion response.versionId
    validator := response.eTag
    totalSize := none
    requestedWindow := none
    returnedWindow := none }
  return {
    receipt := receipt.withTotalSize (response.contentLength.bind unsignedLength)
    contentType := response.contentType
    lastModified := response.lastModified
    metadata := response.metadata.getD [] }

def guardedHead (selection : GuardedReadSelection) : Except StorageError SourceReceipt := do
  let target ← provider.selectedTarget selection .guardedHead
  let response ← service (.headObject target (some selection.selector))
  checkDeleteMarker response .guardedHead selection.key
  checkedReceipt selection.key selection.selector response.evidence none none .guardedHead

def guardedGet (selection : GuardedReadSelection) : Except StorageError DeclaredResponse := do
  let target ← provider.selectedTarget selection .guardedGet
  let response ← service (.getObject target none (some selection.selector))
  checkDeleteMarker response .guardedGet selection.key
  let contentLength ← checkedContentLength response.contentLength .guardedGet
  let status ← recordedStatus response .guardedGet "full response status was not available"
  let window ← validateFullGetResponse status response.contentRange contentLength
  let receipt ← checkedReceipt selection.key selection.selector response.evidence none window
    .guardedGet
  return ⟨receipt, .new response.body (contentLength.map (·.val))⟩

def guardedGetRange (request : GuardedRangeRequest) : Except StorageError DeclaredResponse := do
  checkLength .guardedGetRange request.length
  let requested ← requestedRange .guardedGetRange request.offset request.length
  let target ← provider.selectedTarget request.selection .guardedGetRange
  let range := "bytes=" ++ toString request.offset ++ "-" ++ toString requested.last
  let response ← service (.getObject target (some range) (some request.selection.selector))
  let status ← recordedStatus response .guardedGetRange "range response status was not available"
  checkDeleteMarker response .guardedGetRange request.selection.key
  let returned ← parseContentRange response.contentRange .guardedGetRange
  let expected ← expectedRange requested returned.totalSize
  let returnedLength ← checkRangeWindow returned expected
  checkRangeStatus status returned expected returnedLength
  let contentLength ← checkRangeLength response.contentLength returnedLength
  let receipt ← checkedReceipt request.selection.key request.selection.selector
    response.evidence (some requested) (some returned.window) .guardedGetRange
  return ⟨receipt.withTotalSize returned.totalSize, .new response.body (some contentLength.val)⟩

end S3Provider

end Storageprims

import Storageprims.Core.Types
import Storageprims.S3.Provider

/-!
# Listing pages

A listing sends one request, checks the whole page that comes back and only then
projects its rows to paths below the root.  The service is a function from the
request to a page or to the error its failure was mapped to.
-/

namespace Storageprims

def s3DefaultMaxKeys : UInt32 := 1000

structure ListOptions where
  keyPrefix : Option String
  continuationToken : Option String
  maxKeys : Option UInt32
  deriving DecidableEq

structure ObjectSummary where
  path : String
  size : Nat
  etag : Option String
  contentType : Option String
  lastModified : Option String
  deriving DecidableEq

structure ListResult where
  objects : List ObjectSummary
  continuationToken : Option String
  isTruncated : Bool
  deriving DecidableEq

/-- One native delimiter-listing page request. -/
structure DelimiterListRequest where
  keyPrefix : Option String
  delimiter : String
  continuationToken : Option String
  maxKeys : Option UInt32
  deriving DecidableEq

/-- One native delimiter-listing page. -/
structure DelimiterListResult where
  objects : List ObjectSummary
  commonPrefixes : List String
  continuationToken : Option String
  isTruncated : Bool
  deriving DecidableEq

/-- The listing request as the service receives it. -/
structure ListObjectsV2 where
  bucket : String
  keyPrefix : Option String
  delimiter : Option String
  continuationToken : Option String
  maxKeys : Option Int
  deriving DecidableEq

/-- A row of a page; nothing in the service's schema makes a field present. -/
structure ListedObject where
  key : Option String
  size : Option Int
  eTag : Option String
  lastModified : Option String
  deriving DecidableEq

structure ListPage where
  contents : List ListedObject
  commonPrefixes : List (Option String)
  isTruncated : Option Bool
  nextContinuationToken : Option String
  deriving DecidableEq

/-- The service behind a listing, with its failures already mapped. -/
abbrev ListService := ListObjectsV2 → Except StorageError ListPage

def normalizeMaxKeys (maxKeys : Option UInt32) : Except StorageError (Option Int) :=
  match maxKeys with
  | none => .ok none
  | some value =>
      if value = 0 then .ok none
      else if value.toNat < 2 ^ 31 then .ok (some value.toNat)
      else .error (.invalidArgument (some .list) "max_keys"
        "value exceeds the S3 request limit")

def delimiterPageBound (maxKeys : Option UInt32) : UInt32 :=
  match maxKeys with
  | none => s3DefaultMaxKeys
  | some value => if value = 0 then s3DefaultMaxKeys else value

def validateDelimiter (delimiter : String) : Except StorageError Unit :=
  let bytes := asBytes delimiter
  if bytes = [] ∨ 1024 < bytes.length ∨ bytes.any (fun byte => byte ≤ 0x1f || byte == 0x7f) then
    .error (.invalidArgument (some .list) "delimiter"
      "delimiter must be 1..=1024 bytes and contain no control characters")
  else .ok ()

/-- A token is empty or longer than the service allows. -/
def BadToken (token : Option String) : Prop :=
  ∃ value ∈ token, value = "" ∨ 8192 < (asBytes value).length

instance (token : Option String) : Decidable (BadToken token) :=
  inferInstanceAs (Decidable (∃ value ∈ token, value = "" ∨ 8192 < (asBytes value).length))

def validateContinuationToken (token : Option String) : Except StorageError Unit :=
  if BadToken token then
    .error (.invalidArgument (some .list) "continuation_token"
      "continuation token must be 1..=8192 bytes when present")
  else .ok ()

/-! ## Checking a page -/

def validateListPage (rootPrefix : Option String) (keys : List (Option String)) :
    Except StorageError Unit :=
  if rootPrefix = none then .ok ()
  else keys.forM fun key =>
    match key with
    | none => .error (.other (some .s3) (some .list)
        "S3 returned a list entry without an object key")
    | some key => do
        let _ ← stripRootPrefix rootPrefix key

def invalidDelimiterPage (detail : String) : StorageError :=
  .other (some .s3) (some .list) detail

/-- Count one more row of the page against its bound. -/
def countRow (pageBound rowCount : Nat) : Except StorageError Nat :=
  match checkedAdd rowCount 1 with
  | none => .error (invalidDelimiterPage "S3 returned an oversized delimiter page")
  | some rowCount =>
      if pageBound < rowCount then
        .error (invalidDelimiterPage "S3 returned more delimiter-page rows than requested")
      else .ok rowCount

/-- The objects of a page: each counts as a row, has a key beneath the root and
lies under the caller's prefix.  Returns the rows counted and the projected paths. -/
def validateObjects (rootPrefix : Option String) (callerPrefix : String) (pageBound : Nat) :
    List (Option String) → Nat → List String → Except StorageError (Nat × List String)
  | [], rowCount, projected => .ok (rowCount, projected)
  | key :: keys, rowCount, projected => do
      let rowCount ← countRow pageBound rowCount
      match key with
      | none => .error (invalidDelimiterPage
          "S3 returned a delimiter page entry without an object key")
      | some key => do
          let path ← stripRootPrefix rootPrefix key
          if Str.startsWith callerPrefix path then
            validateObjects rootPrefix callerPrefix pageBound keys rowCount (path :: projected)
          else .error (invalidDelimiterPage
            "S3 returned an object outside the requested delimiter prefix")

/-- The common prefixes of a page: each counts as a row, projects to a non-empty
text under the caller's prefix, and is no object of the page. -/
def validateCommonPrefixes (rootPrefix : Option String) (callerPrefix : String) (pageBound : Nat)
    (projectedObjects : List String) : List (Option String) → Nat → Except StorageError Unit
  | [], _ => .ok ()
  | value :: values, rowCount => do
      let rowCount ← countRow pageBound rowCount
      match value with
      | none => .error (invalidDelimiterPage
          "S3 returned a delimiter page entry without a common prefix")
      | some value => do
          let path ← stripRootPrefix rootPrefix value
          if path = "" then
            .error (invalidDelimiterPage "S3 returned an empty projected common prefix")
          else if ¬ Str.startsWith callerPrefix path then
            .error (invalidDelimiterPage
              "S3 returned a common prefix outside the requested delimiter prefix")
          else if path ∈ projectedObjects then
            .error (invalidDelimiterPage
              "S3 returned the same path as an object and common prefix")
          else
            validateCommonPrefixes rootPrefix callerPrefix pageBound projectedObjects values
              rowCount

def validateDelimiterListPage (rootPrefix : Option String) (callerPrefix : String)
    (maxKeys : Option UInt32) (objectKeys commonPrefixes : List (Option String))
    (isTruncated : Bool) (continuationToken : Option String) : Except StorageError Unit :=
  if isTruncated ≠ continuationToken.isSome then
    .error (invalidDelimiterPage
      "S3 returned an inconsistent delimiter-listing continuation pair")
  else if BadToken continuationToken then
    .error (invalidDelimiterPage "S3 returned an invalid delimiter-listing continuation token")
  else do
    let pageBound := (delimiterPageBound maxKeys).toNat
    let (rowCount, projectedObjects) ←
      validateObjects rootPrefix callerPrefix pageBound objectKeys 0 []
    validateCommonPrefixes rootPrefix callerPrefix pageBound projectedObjects commonPrefixes
      rowCount

/-! ## The two listings -/

/-- `expect` on a checked step. -/
def expect {α : Type} : Except StorageError α → Except Failure α
  | .ok value => .ok value
  | .error _ => .error .panic

/-- `?` on a step that reports an error. -/
def reported {α : Type} : Except StorageError α → Except Failure α
  | .ok value => .ok value
  | .error error => .error (.error error)

/-- The summary of a row with the given key. -/
def objectSummary (rootPrefix : Option String) (item : ListedObject) (key : String) :
    Except Failure ObjectSummary := do
  let path ← expect (stripRootPrefix rootPrefix key)
  return ⟨path, ((item.size.filter (0 ≤ ·)).getD 0).toNat, item.eTag, none, item.lastModified⟩

namespace S3Provider

variable (provider : S3Provider)

/-- A row without a key is dropped. -/
def list (service : ListService) (options : ListOptions) : Except Failure ListResult := do
  let keyPrefix ← reported (resolveListPrefix provider.rootPrefix options.keyPrefix)
  let maxKeys ← reported (normalizeMaxKeys options.maxKeys)
  let response ← reported (service
    ⟨provider.bucket, keyPrefix, none, options.continuationToken, maxKeys⟩)
  reported (validateListPage provider.rootPrefix (response.contents.map (·.key)))
  let objects ← (response.contents.filterMap fun item => item.key.map (item, ·)).mapM
    fun (item, key) => objectSummary provider.rootPrefix item key
  return ⟨objects, response.nextContinuationToken, response.isTruncated.getD false⟩

def listDelimited (service : ListService) (request : DelimiterListRequest) :
    Except Failure DelimiterListResult := do
  reported (validateDelimiter request.delimiter)
  reported (validateContinuationToken request.continuationToken)
  let keyPrefix ← reported (resolveListPrefix provider.rootPrefix request.keyPrefix)
  let maxKeys ← reported (normalizeMaxKeys request.maxKeys)
  let response ← reported (service
    ⟨provider.bucket, keyPrefix, some request.delimiter, request.continuationToken, maxKeys⟩)
  let isTruncated ← reported (response.isTruncated.elim
    (.error (invalidDelimiterPage "S3 returned a delimiter page without a truncation flag")) .ok)
  reported (validateDelimiterListPage provider.rootPrefix (request.keyPrefix.getD "")
    (request.maxKeys.filter (· ≠ 0)) (response.contents.map (·.key)) response.commonPrefixes
    isTruncated response.nextContinuationToken)
  let objects ← response.contents.mapM fun item =>
    match item.key with
    | none => .error .panic
    | some key => objectSummary provider.rootPrefix item key
  let commonPrefixes ← response.commonPrefixes.mapM fun value =>
    match value with
    | none => .error .panic
    | some value => expect (stripRootPrefix provider.rootPrefix value)
  return ⟨objects, commonPrefixes, response.nextContinuationToken, isTruncated⟩

end S3Provider

/-! ## Accepted steps -/

theorem reported_ok {α : Type} {step : Except StorageError α} {value : α}
    (h : reported step = .ok value) : step = .ok value := by
  cases step with
  | error error => cases h
  | ok other => rw [Except.ok.inj h]

theorem expect_ok {α : Type} {step : Except StorageError α} {value : α}
    (h : expect step = .ok value) : step = .ok value := by
  cases step with
  | error error => cases h
  | ok other => rw [Except.ok.inj h]

theorem objectSummary_ok {rootPrefix : Option String} {item : ListedObject} {key : String}
    {summary : ObjectSummary} (h : objectSummary rootPrefix item key = .ok summary) :
    stripRootPrefix rootPrefix key = .ok summary.path := by
  obtain ⟨path, hpath, h⟩ := except_bind_ok h
  cases h
  exact expect_ok hpath

end Storageprims

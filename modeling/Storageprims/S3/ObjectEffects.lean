import Storageprims.S3.ServiceRules

/-!
# What the object operations do to the objects

One statement for each operation, over a service that may fail or lose its reply at any
request, and with other clients at work in between: what the objects are when it returns,
and what its result says about them.  Here every request is sent once.
-/

namespace Storageprims

open Interaction

/-! ## Put -/

/-- The condition of a put, put to the object as it is. -/
def PutPrecondition.Holds (current : Option Entry) : PutPrecondition → Prop
  | .none => True
  | .mustNotExist => current = Option.none
  | .match token => ∃ entry, current = some entry ∧ entry.eTag = token

theorem admits_iff_holds {precondition : PutPrecondition} {ifMatch ifNoneMatch : Option String}
    (h : precondition.conditions = .ok (ifMatch, ifNoneMatch)) (current : Option Entry) :
    Admits ifMatch ifNoneMatch current ↔ precondition.Holds current := by
  cases precondition with
  | none =>
      cases h
      simp [Admits, PutPrecondition.Holds]
  | mustNotExist =>
      cases h
      simp [Admits, PutPrecondition.Holds]
  | «match» token =>
      obtain ⟨_, -, h⟩ := except_bind_ok h
      cases h
      simp [Admits, PutPrecondition.Holds]

/-- A put that may report a conflict of its own has stated a condition. -/
theorem stated_of_conflict {precondition : PutPrecondition} {ifMatch ifNoneMatch : Option String}
    (h : precondition.conditions = .ok (ifMatch, ifNoneMatch))
    (hkind : precondition.kind.conflict ≠ .other) : ifMatch.isSome ∨ ifNoneMatch.isSome := by
  cases precondition with
  | none => exact absurd rfl hkind
  | mustNotExist =>
      cases h
      exact .inr rfl
  | «match» token =>
      obtain ⟨_, -, h⟩ := except_bind_ok h
      cases h
      exact .inl rfl

/-- The object that a key of the provider names. -/
def S3Provider.locate (provider : S3Provider) (key : String) : S3Location :=
  ⟨provider.bucket, joinKey provider.rootPrefix key⟩

/-- The put of the reader's bytes, done to the objects at one moment. -/
structure Stores (provider : S3Provider) (key : String) (options : PutOptions)
    (supplied : List UInt8) (before : Objects) (entry : Entry) (after : Objects) : Prop where
  holds : options.precondition.Holds (before (provider.locate key))
  bytes : entry.bytes = supplied
  length : options.contentLength = some supplied.length
  contentType : entry.contentType = options.contentType
  metadata : entry.metadata = options.metadata
  after_eq : after = Function.update before (provider.locate key) (some entry)

/-- What a conflict tells the caller of a put. -/
def Explains (precondition : PutPrecondition) (current : Option Entry) (error : StorageError) :
    Prop :=
  ∀ provider operation target kind detail,
    error = .conflict provider operation target kind detail → kind ≠ .other →
      kind = precondition.kind.conflict ∧ ¬ precondition.Holds current

/-- What a put leaves behind, from the objects it met.  A failed one has done nothing, or
does not know what it has done. -/
def PutDone (provider : S3Provider) (key : String) (options : PutOptions)
    (supplied : List UInt8) (before after : Objects) : Except StorageError PutResult → Prop
  | .ok result => ∃ entry, Stores provider key options supplied before entry after ∧
      result = ⟨key, some entry.eTag, some entry.bytes.length⟩
  | .error error =>
      (after = before ∧ Explains options.precondition (before (provider.locate key)) error) ∨
        (¬ error.Definite ∧ ∃ entry, Stores provider key options supplied before entry after)

theorem explains_of_argument {precondition : PutPrecondition} {current : Option Entry}
    {error : StorageError} (h : error.code = .invalidArgument) :
    Explains precondition current error := by
  rintro provider operation target kind detail rfl
  cases h

theorem uploadLength_ok_iff {contentLength : Option Nat} {length : Nat} :
    uploadLength contentLength = .ok length ↔ contentLength = some length := by
  cases contentLength with
  | none => simp [uploadLength]
  | some other => simp [uploadLength]

theorem uploadLength_error {contentLength : Option Nat} {error : StorageError}
    (h : uploadLength contentLength = .error error) : error.code = .invalidArgument := by
  cases contentLength with
  | none =>
      cases h
      rfl
  | some length => cases h

theorem checkUploadLength_error {length : Nat} {error : StorageError}
    (h : checkUploadLength length = .error error) : error.code = .invalidArgument := by
  unfold checkUploadLength at h
  split at h
  · cases h
  · cases h
    rfl

namespace S3Provider

variable {provider : S3Provider} {others : Objects → Objects → Prop} {start : Cloud}

theorem keyTarget_ok_iff {key : String} {target : Target} :
    provider.keyTarget key = .ok target ↔ key ≠ "" ∧
      target = ⟨.key key, provider.locate key⟩ := by
  by_cases hkey : key = ""
  · simp [keyTarget, resolveKey, hkey, bind, Except.bind]
  · simp [keyTarget, resolveKey, locate, hkey, bind, Except.bind, pure, Except.pure, eq_comm]

theorem keyTarget_error {key : String} {error : StorageError}
    (h : provider.keyTarget key = .error error) : error.code = .invalidArgument := by
  by_cases hkey : key = ""
  · simp only [keyTarget, resolveKey, hkey, if_true, bind, Except.bind] at h
    cases h
    rfl
  · rw [keyTarget_ok_iff.mpr ⟨hkey, rfl⟩] at h
    cases h

theorem conditions_error {precondition : PutPrecondition} {error : StorageError}
    (h : precondition.conditions = .error error) : error.code = .invalidArgument := by
  cases precondition with
  | none => cases h
  | mustNotExist => cases h
  | «match» token =>
      rcases except_bind_error h with h | ⟨_, -, h⟩
      · unfold validateMatchToken at h
        dsimp only at h
        split at h
        · cases h
        · cases h
          rfl
      · cases h

theorem put_ends {key : String} {body : ReaderId} {options : PutOptions} :
    S3Script.Ends others (provider.put key body options) start fun result final =>
      ∃ before, start.Later others before ∧
        PutDone provider key options (start.streams.bodies body) before.objects final.objects
          result := by
  -- what is refused before the request is sent is refused for its arguments
  have hargument : ∀ error : StorageError, error.code = .invalidArgument →
      ∃ before, start.Later others before ∧ PutDone provider key options
        (start.streams.bodies body) before.objects start.objects (.error error) :=
    fun error hcode => ⟨start, .refl others start, .inl ⟨rfl, explains_of_argument hcode⟩⟩
  refine ends_check (fun error herror => hargument error (keyTarget_error herror))
    fun target htarget => ?_
  obtain ⟨-, rfl⟩ := keyTarget_ok_iff.mp htarget
  refine ends_check (fun error herror => hargument error (uploadLength_error herror))
    fun contentLength hlength => ?_
  rw [uploadLength_ok_iff] at hlength
  refine ends_check (fun error herror => hargument error (conditions_error herror))
    fun (ifMatch, ifNoneMatch) hconditions => ?_
  refine ends_check (fun error herror => hargument error (checkUploadLength_error herror))
    fun _ _ => ?_
  -- the service does the request with the bytes of the reader, or not at all
  have hstores : ∀ before response final, start.Later others before →
      before.Does ⟨.putObject ⟨.key key, provider.locate key⟩ (some contentLength)
          options.contentType (some options.metadata) ifMatch ifNoneMatch,
        .upload (byteStreamFromReader body contentLength)⟩ response final →
      ∃ entry, Stores provider key options (start.streams.bodies body) before.objects entry
        final.objects ∧ response.eTag = some entry.eTag ∧ entry.bytes.length = contentLength := by
    rintro before response final hlater ⟨entry, streams', hadmits, hsent, -, htype, hmetadata,
      hetag, rfl⟩
    obtain ⟨hbytes, hbound⟩ := sent_upload hsent
    rw [hlater.2] at hbytes
    refine ⟨entry, ⟨(admits_iff_holds hconditions _).mp hadmits, hbytes, ?_, htype, hmetadata,
      rfl⟩, hetag, hbound⟩
    rw [hlength, ← hbytes, hbound]
  refine ends_send (fun before response final hlater hdoes => ⟨trivial, before, hlater, ?_⟩)
    fun before error final hlater hservice => ⟨before, hlater, ?_⟩
  · obtain ⟨entry, hentry, hetag, hbytes⟩ := hstores before response final hlater hdoes
    exact ⟨entry, hentry, by rw [hetag, hbytes]⟩
  · rcases hservice with ⟨hjustified, hskips⟩ | ⟨hrefuses, ⟨response, done, hdoes, hsame⟩, -⟩
    · refine .inl ⟨hskips.1, fun kindOf operation place kind detail herror hkind => ?_⟩
      obtain ⟨rfl, context, rfl, hcode⟩ := mapPutError_conflict herror hkind
      exact ⟨rfl, fun hholds => hjustified hcode (stated_of_conflict hconditions hkind)
        ((admits_iff_holds hconditions _).mpr hholds)⟩
    · obtain ⟨entry, hentry, -⟩ := hstores before response done hlater hdoes
      rw [hsame]
      exact .inr ⟨fun hdefinite => hrefuses (SdkError.refuses_of_definite_put hdefinite),
        entry, hentry⟩

end S3Provider

/-! ## Delete -/

def DeleteDone (provider : S3Provider) (key : String) (before after : Objects) :
    Except StorageError Unit → Prop
  | .ok _ => after = Function.update before (provider.locate key) none
  | .error error => after = before ∨
      (¬ error.Definite ∧ after = Function.update before (provider.locate key) none)

/-! ## Reads -/

/-- What a head says of the object it met. -/
def HeadDone (key : String) (current : Option Entry) : Except StorageError ObjectMetadata → Prop
  | .ok metadata => ∃ entry, current = some entry ∧ metadata.path = key ∧
      metadata.size = entry.bytes.length ∧ metadata.etag = some entry.eTag ∧
      metadata.contentType = entry.contentType ∧ metadata.metadata = entry.metadata
  | .error error => error.code = .notFound → current = none

/-- What a read hands out of the object it met. -/
def ReadDone (part : List UInt8 → List UInt8 → Prop) (current : Option Entry)
    (streams : Serving) : Except StorageError ReaderId → Prop
  | .ok reader => ∃ entry, current = some entry ∧ part entry.bytes (streams.bodies reader)
  | .error error => error.code = .notFound → current = none

/-- The window of a range request, cut off at the end of the object. -/
def RangeOf (offset length : Nat) (bytes part : List UInt8) : Prop :=
  offset < bytes.length ∧ part = (bytes.drop offset).take length

namespace S3Provider

variable {provider : S3Provider} {others : Objects → Objects → Prop} {start : Cloud}

theorem delete_ends {key : String} :
    S3Script.Ends others (provider.delete key) start fun result final =>
      ∃ before, start.Later others before ∧
        DeleteDone provider key before.objects final.objects result := by
  refine ends_check (fun error herror => ⟨start, .refl others start, .inl rfl⟩)
    fun target htarget => ?_
  obtain ⟨-, rfl⟩ := keyTarget_ok_iff.mp htarget
  refine ends_send (fun before response final hlater hdoes => ⟨trivial, before, hlater, ?_⟩)
    fun before error final hlater hservice => ⟨before, hlater, ?_⟩
  · obtain rfl := hdoes
    rfl
  · rcases hservice with ⟨-, hskips⟩ | ⟨hrefuses, ⟨response, _, rfl, hsame⟩, -⟩
    · exact .inl hskips.1
    · exact .inr ⟨fun hdefinite => hrefuses (SdkError.refuses_of_definite hdefinite), hsame⟩

theorem checkLength_error {operation : StorageOperation} {length : Nat} {error : StorageError}
    (h : checkLength operation length = .error error) : error.code = .invalidArgument := by
  unfold checkLength at h
  split at h
  · cases h
    rfl
  · cases h

theorem rangeHeader_error {operation : StorageOperation} {offset length : Nat}
    {error : StorageError} (h : rangeHeader operation offset length = .error error) :
    error.code = .invalidArgument := by
  unfold rangeHeader at h
  split at h
  · cases h
  · cases h
    rfl

theorem rangeHeader_ok {operation : StorageOperation} {offset length : Nat} {range : String}
    (h : rangeHeader operation offset length = .ok range) :
    range = "bytes=" ++ toString offset ++ "-" ++ toString (offset + (length - 1)) := by
  unfold rangeHeader at h
  split at h
  next last hlast =>
    cases h
    rw [(checkedAdd_eq_some_iff.mp hlast).2]
  next => cases h

/-- A read that fails has changed no object, and misses one only if it is not there. -/
theorem missed_of_failed {before final : Cloud} {call : ServiceCall} {error : SdkError}
    {location : S3Location} {operation : StorageOperation} {name container : Option String}
    (h : service before ⟨call, .empty⟩ (.error error) final)
    (hkeeps : ∀ response done, before.Does ⟨call, .empty⟩ response done →
      done.objects = before.objects)
    (hjustifies : ∀ context, before.Justifies call (.serviceError context) →
      context.errorCode = "NoSuchKey" ∨ context.errorCode = "NotFound" →
        before.objects location = none) :
    final.objects = before.objects ∧
      ((mapSdkError .s3 operation name container error).code = .notFound →
        before.objects location = none) := by
  rcases h with ⟨hjustified, hskips⟩ | ⟨hrefuses, ⟨response, done, hdoes, hsame⟩, -⟩
  · refine ⟨hskips.1, fun hmissing => ?_⟩
    obtain ⟨context, rfl, hcode⟩ := mapSdkError_notFound hmissing
    exact hjustifies context hjustified hcode
  · -- what is reported as missing was refused, and so not done
    refine ⟨hsame.trans (hkeeps response done hdoes), fun hmissing => absurd ?_ hrefuses⟩
    exact SdkError.refuses_of_definite (definite_of_notFound hmissing)

theorem head_ends {key : String} :
    S3Script.Ends others (provider.head key) start fun result final =>
      ∃ before, start.Later others before ∧ final.objects = before.objects ∧
        HeadDone key (before.objects (provider.locate key)) result := by
  refine ends_check (fun error herror => ⟨start, .refl others start, rfl, ?_⟩)
    fun target htarget => ?_
  · intro hmissing
    rw [keyTarget_error herror] at hmissing
    cases hmissing
  obtain ⟨-, rfl⟩ := keyTarget_ok_iff.mp htarget
  refine ends_send (fun before response final hlater hdoes => ⟨trivial, before, hlater, ?_⟩)
    fun before error final hlater hservice => ⟨before, hlater, ?_⟩
  · obtain ⟨rfl, entry, hentry, hdescribes, hsize⟩ := hdoes
    refine ⟨rfl, entry, hentry, rfl, ?_, hdescribes.eTag, hdescribes.contentType,
      hdescribes.metadata⟩
    rw [hsize]
    rfl
  · refine missed_of_failed hservice (fun response done hdoes => ?_) fun _ hjustified => hjustified
    obtain ⟨rfl, -⟩ := hdoes
    rfl

/-- The request of a read: the part it asked for is put before the reader. -/
theorem fetch_ends {location : S3Location} {target : Target} {range : Option String}
    {operation : StorageOperation} {name container : Option String}
    {part : List UInt8 → List UInt8 → Prop} (htarget : target.location = location)
    (hpart : ∀ bytes piece, Ranges bytes range piece → part bytes piece) :
    S3Script.Ends others (send (.getObject target range none) .empty
        (mapSdkError .s3 operation name container) >>= fun response => pure response.body)
      start fun result final => ∃ before, start.Later others before ∧
        final.objects = before.objects ∧
        ReadDone part (before.objects location) final.streams result := by
  subst htarget
  refine ends_send (fun before response final hlater hdoes => ⟨trivial, before, hlater, ?_⟩)
    fun before error final hlater hservice => ⟨before, hlater, ?_⟩
  · obtain ⟨entry, piece, hentry, -, hpiece, -, rfl⟩ := hdoes
    refine ⟨rfl, entry, hentry, ?_⟩
    rw [Serving.bodies_set]
    exact hpart _ _ hpiece
  · refine missed_of_failed hservice (fun response done hdoes => ?_) fun _ hjustified => hjustified
    obtain ⟨entry, piece, -, -, -, -, rfl⟩ := hdoes
    rfl

/-- An argument that is refused is never reported as a missing object. -/
theorem readDone_of_argument {part : List UInt8 → List UInt8 → Prop} {current : Option Entry}
    {streams : Serving} {error : StorageError} (h : error.code = .invalidArgument) :
    ReadDone part current streams (.error error) := by
  intro hmissing
  rw [h] at hmissing
  cases hmissing

theorem get_ends {key : String} :
    S3Script.Ends others (provider.get key) start fun result final =>
      ∃ before, start.Later others before ∧ final.objects = before.objects ∧
        ReadDone (fun bytes piece => piece = bytes) (before.objects (provider.locate key))
          final.streams result := by
  refine ends_check (fun error herror => ⟨start, .refl others start, rfl,
    readDone_of_argument (keyTarget_error herror)⟩) fun target htarget => ?_
  obtain ⟨-, rfl⟩ := keyTarget_ok_iff.mp htarget
  exact fetch_ends rfl fun _ _ hwhole => hwhole

theorem getRange_ends {request : GetRangeRequest} :
    S3Script.Ends others (provider.getRange request) start fun result final =>
      ∃ before, start.Later others before ∧ final.objects = before.objects ∧
        ReadDone (RangeOf request.offset request.length)
          (before.objects (provider.locate request.key)) final.streams result := by
  have hargument : ∀ error : StorageError, error.code = .invalidArgument →
      ∃ before, start.Later others before ∧ start.objects = before.objects ∧
        ReadDone (RangeOf request.offset request.length)
          (before.objects (provider.locate request.key)) start.streams (.error error) :=
    fun error hcode => ⟨start, .refl others start, rfl, readDone_of_argument hcode⟩
  refine ends_check (fun error herror => hargument error (checkLength_error herror))
    fun _ hlength => ?_
  refine ends_check (fun error herror => hargument error (keyTarget_error herror))
    fun target htarget => ?_
  obtain ⟨-, rfl⟩ := keyTarget_ok_iff.mp htarget
  refine ends_check (fun error herror => hargument error (rangeHeader_error herror))
    fun range hrange => ?_
  refine fetch_ends rfl fun bytes piece hpiece => ?_
  -- the header asks for the last byte of the window, not for its length
  obtain ⟨hfirst, rfl⟩ := hpiece _ _ (rangeHeader_ok hrange)
  refine ⟨hfirst, ?_⟩
  have hpositive := checkLength_ok hlength
  congr 1
  omega

end S3Provider

/-! ## Copy -/

/-- A copy has two forms.  Within a bucket the service duplicates the object at one moment;
between buckets it is read and written at two, and only its bytes are carried over. -/
inductive Duplicates (others : Objects → Objects → Prop) (provider : S3Provider)
    (request : CopyRequest) (start : Objects) : CopyResult → Objects → Prop
  | native (source destination : S3Location) (before : Objects) (entry duplicate : Entry)
      (hsource : provider.resolveCopyLocation request.source "source" = .ok source)
      (hdestination : provider.resolveCopyLocation request.destination "destination"
        = .ok destination)
      (hbucket : source.bucket = destination.bucket)
      (hbefore : Relation.ReflTransGen others start before)
      (hentry : before source = some entry) (hbytes : duplicate.bytes = entry.bytes)
      (htype : duplicate.contentType = entry.contentType)
      (hmetadata : duplicate.metadata = entry.metadata) :
      Duplicates others provider request start
        ⟨request.source, request.destination, .native, none, some duplicate.eTag⟩
        (Function.update before destination (some duplicate))
  | relay (source destination : S3Location) (read written : Objects) (entry relayed : Entry)
      (hsource : provider.resolveCopyLocation request.source "source" = .ok source)
      (hdestination : provider.resolveCopyLocation request.destination "destination"
        = .ok destination)
      (hbucket : source.bucket ≠ destination.bucket)
      (hread : Relation.ReflTransGen others start read)
      (hwritten : Relation.ReflTransGen others read written)
      (hentry : read source = some entry) (hbytes : relayed.bytes = entry.bytes)
      (htype : relayed.contentType = none) (hmetadata : relayed.metadata = []) :
      Duplicates others provider request start
        ⟨source.uri, destination.uri, .relay, some entry.bytes.length, some relayed.eTag⟩
        (Function.update written destination (some relayed))

def CopyDone (others : Objects → Objects → Prop) (provider : S3Provider) (request : CopyRequest)
    (start after : Objects) : Except StorageError CopyResult → Prop
  | .ok result => Duplicates others provider request start result after
  | .error error => Relation.ReflTransGen others start after ∨
      (¬ error.Definite ∧ ∃ result, Duplicates others provider request start result after)

namespace S3Provider

variable {provider : S3Provider} {others : Objects → Objects → Prop} {start : Cloud}

/-- A copy whose last request failed has copied nothing, or it is not known whether it has. -/
theorem copyDone_of_failed {request : CopyRequest} {before final : Cloud} {sent : SdkRequest}
    {error : SdkError} {operation : StorageOperation} {name container : Option String}
    {result : ServiceResponse → CopyResult}
    (h : service before sent (.error error) final)
    (hlater : Relation.ReflTransGen others start.objects before.objects)
    (hdone : ∀ response done, before.Does sent response done →
      Duplicates others provider request start.objects (result response) done.objects) :
    CopyDone others provider request start.objects final.objects
      (.error (mapSdkError .s3 operation name container error)) := by
  rcases h with ⟨-, hskips⟩ | ⟨hrefuses, ⟨response, done, hdoes, hsame⟩, -⟩
  · refine .inl ?_
    rwa [hskips.1]
  · exact .inr ⟨fun hdefinite => hrefuses (SdkError.refuses_of_definite hdefinite), _,
      hsame ▸ hdone response done hdoes⟩

theorem copyTarget_location {value field : String} {target : Target}
    (h : provider.copyTarget value field = .ok target) :
    provider.resolveCopyLocation value field = .ok target.location := by
  obtain ⟨location, hlocation, h⟩ := except_bind_ok h
  cases h
  exact hlocation

theorem relayCopy_ends {request : CopyRequest} {source destination : Target}
    (hsource : provider.resolveCopyLocation request.source "source" = .ok source.location)
    (hdestination : provider.resolveCopyLocation request.destination "destination"
      = .ok destination.location)
    (hbucket : source.location.bucket ≠ destination.location.bucket) :
    S3Script.Ends others (relayCopy source destination) start fun result final =>
      CopyDone others provider request start.objects final.objects result := by
  refine ends_send (fun read object middle hread hobject => ?_)
    fun read error middle hread hservice => .inl ?_
  · obtain ⟨entry, piece, hentry, -, hpiece, hsize, rfl⟩ := hobject
    obtain rfl : piece = entry.bytes := hpiece
    -- nobody else moves the body between the two requests
    have hrelayed : ∀ before response final,
        Cloud.Later others ⟨read.objects, read.streams.set object.body entry.bytes⟩ before →
        before.Does ⟨.putObject destination ((object.statedLength.filter (· < 2 ^ 63)).map
          Int.ofNat) none none none none, .relayed object.body⟩ response final →
        Duplicates others provider request start.objects ⟨source.location.uri,
          destination.location.uri, .relay, object.statedLength, response.eTag⟩ final.objects := by
      rintro before response final hlater ⟨relayed, streams', -, ⟨hbytes, rfl⟩, -, htype,
        hmetadata, hetag, rfl⟩
      rw [hlater.2, Serving.bodies_set] at hbytes
      rw [hsize, hetag]
      exact .relay source.location destination.location read.objects before.objects entry relayed
        hsource hdestination hbucket hread.1 hlater.1 hentry hbytes htype hmetadata
    refine ends_send (fun before response final hlater hdoes =>
      ⟨trivial, hrelayed before response final hlater hdoes⟩)
      fun before error final hlater hservice => ?_
    exact copyDone_of_failed hservice (hread.1.trans hlater.1)
      fun response done hdoes => hrelayed before response done hlater hdoes
  · -- a read changes nothing, done or not
    rcases hservice with ⟨-, hskips⟩ | ⟨-, ⟨response, _, ⟨entry, piece, -, -, -, -, rfl⟩, hsame⟩, -⟩
    · rw [hskips.1]
      exact hread.1
    · rw [hsame]
      exact hread.1

theorem copy_ends {request : CopyRequest} :
    S3Script.Ends others (provider.copy request) start fun result final =>
      CopyDone others provider request start.objects final.objects result := by
  refine ends_check (fun error herror => .inl .refl) fun source hsource => ?_
  refine ends_check (fun error herror => .inl .refl) fun destination hdestination => ?_
  have hfrom := copyTarget_location hsource
  have hto := copyTarget_location hdestination
  by_cases hbucket : source.location.bucket = destination.location.bucket
  · rw [if_pos hbucket]
    have hnative : ∀ before response final, start.Later others before →
        before.Does ⟨.copyObject source destination, .empty⟩ response final →
        Duplicates others provider request start.objects ⟨request.source, request.destination,
          .native, none, response.eTag⟩ final.objects := by
      rintro before response final hlater ⟨entry, duplicate, hentry, hbytes, htype, hmetadata,
        hetag, rfl⟩
      rw [hetag]
      exact .native source.location destination.location before.objects entry duplicate hfrom hto
        hbucket hlater.1 hentry hbytes htype hmetadata
    refine ends_send (fun before response final hlater hdoes =>
      ⟨trivial, hnative before response final hlater hdoes⟩)
      fun before error final hlater hservice => ?_
    exact copyDone_of_failed hservice hlater.1
      fun response done hdoes => hnative before response done hlater hdoes
  · rw [if_neg hbucket]
    exact relayCopy_ends hfrom hto hbucket

end S3Provider

/-! ## All operations -/

/-- The object that a call writes. -/
def ObjectCall.destination (provider : S3Provider) : ObjectCall → Option S3Location
  | .put key _ _ | .delete key => some (provider.locate key)
  | .copy request => (provider.resolveCopyLocation request.destination "destination").toOption
  | .head _ | .get _ | .getRange _ => none

/-- What a read says of the objects it met. -/
def ObjectCall.Shows (provider : S3Provider) (objects : Objects) (streams : Serving) :
    ObjectCall → Except StorageError ObjectAnswer → Prop
  | .head key, answer => ∃ result, answer = result.map .metadata ∧
      HeadDone key (objects (provider.locate key)) result
  | .get key, answer => ∃ result, answer = result.map .stream ∧
      ReadDone (fun bytes piece => piece = bytes) (objects (provider.locate key)) streams result
  | .getRange request, answer => ∃ result, answer = result.map .stream ∧
      ReadDone (RangeOf request.offset request.length) (objects (provider.locate request.key))
        streams result
  | _, _ => False

/-- What a call does, and says of the objects it met. -/
def ObjectCall.Done (others : Objects → Objects → Prop) (provider : S3Provider)
    (start final : Cloud) (answer : Except StorageError ObjectAnswer) : ObjectCall → Prop
  | .put key body options => ∃ before result, start.Later others before ∧
      answer = result.map .stored ∧
      PutDone provider key options (start.streams.bodies body) before.objects final.objects result
  | .delete key => ∃ before result, start.Later others before ∧
      answer = result.map (fun _ => .deleted) ∧
      DeleteDone provider key before.objects final.objects result
  | .copy request => ∃ result, answer = result.map .copied ∧
      CopyDone others provider request start.objects final.objects result
  | call => ∃ before, start.Later others before ∧ final.objects = before.objects ∧
      call.Shows provider before.objects final.streams answer

namespace S3Provider

variable {provider : S3Provider} {others : Objects → Objects → Prop} {start : Cloud}

theorem perform_ends (call : ObjectCall) :
    S3Script.Ends others (provider.perform call) start fun result final =>
      call.Done others provider start final result := by
  cases call with
  | head key =>
      exact head_ends.map fun result final ⟨before, hlater, hsame, hdone⟩ =>
        ⟨before, hlater, hsame, result, rfl, hdone⟩
  | get key =>
      exact get_ends.map fun result final ⟨before, hlater, hsame, hdone⟩ =>
        ⟨before, hlater, hsame, result, rfl, hdone⟩
  | getRange request =>
      exact getRange_ends.map fun result final ⟨before, hlater, hsame, hdone⟩ =>
        ⟨before, hlater, hsame, result, rfl, hdone⟩
  | put key body options =>
      exact put_ends.map fun result final ⟨before, hlater, hdone⟩ =>
        ⟨before, result, hlater, rfl, hdone⟩
  | delete key =>
      exact delete_ends.map fun result final ⟨before, hlater, hdone⟩ =>
        ⟨before, result, hlater, rfl, hdone⟩
  | copy request =>
      exact copy_ends.map fun result final hdone => ⟨result, rfl, hdone⟩

end S3Provider

end Storageprims

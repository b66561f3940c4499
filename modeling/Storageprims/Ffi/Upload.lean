import Storageprims.Ffi.Download

/-!
# Writing an object through the interface

An upload that was begun is fed by the caller, who writes into a pipe and closes it, while a
worker puts what comes out of the pipe.  Caller and worker act in any order.  The object that
is stored is all that the caller wrote before it closed the pipe, and of the length that it
had declared; the finalizer hands over what the put returned.
-/

namespace Storageprims

open Interaction
open AsyncReadBody (pollFrame)

/-! ## The pipe of an upload -/

/-- What the worker and the caller do at the two ends of the pipe. -/
inductive FeedRequest where
  | poll (request : InnerRead)
  | write (bytes : List UInt8)
  | close

def FeedAnswer : FeedRequest → Type
  | .poll request => InnerAnswer request
  | .write _ => Unit
  | .close => Unit

abbrev FeedEvent := Event FeedRequest FeedAnswer

/-- The pipe takes what the caller writes until it is closed.  A poll of the other end may
be pending or fail. -/
def feeding : Environment FeedRequest FeedAnswer (Channel UInt8)
  | pipe, .poll request, answer, pipe' => match filled answer with
      | some bytes => pipe.Step (some (request.capacity, bytes)) pipe'
      | none => pipe' = pipe
  | pipe, .write bytes, _, pipe' =>
      pipe.closed = false ∧ pipe' = { pipe with sent := pipe.sent ++ bytes }
  | pipe, .close, _, pipe' => pipe' = { pipe with closed := true }

/-- What an event is to the worker. -/
def FeedEvent.poll : FeedEvent → Option (Event InnerRead InnerAnswer)
  | ⟨.poll request, answer⟩ => some ⟨request, answer⟩
  | _ => none

def polls (history : List FeedEvent) : List (Event InnerRead InnerAnswer) :=
  history.filterMap FeedEvent.poll

/-- The polls that brought something, or the end. -/
def drawn (events : List (Event InnerRead InnerAnswer)) : List (Reception UInt8) :=
  events.filterMap fun event => (filled event.response).map fun bytes =>
    (event.request.capacity, bytes)

section Feeding

variable {pipe pipe' : Channel UInt8} {history : List FeedEvent}
variable {events : List (Event InnerRead InnerAnswer)} {content rest : List UInt8}
variable {streams : Serving} {reader : ReaderId} {length : Nat} {bytes : List UInt8}

theorem feeding_runs (h : Accepts feeding pipe history pipe') :
    pipe.Runs (drawn (polls history)) pipe' := by
  induction history generalizing pipe with
  | nil =>
      cases h
      exact .nil _
  | cons event history ih =>
      obtain ⟨middle, hstep, hrest⟩ := accepts_cons_iff.mp h
      obtain ⟨request, answer⟩ := event
      cases request with
      | poll request =>
          change match filled answer with
            | some bytes => pipe.Step (some (request.capacity, bytes)) middle
            | none => middle = pipe at hstep
          have hpolls : polls (⟨.poll request, answer⟩ :: history)
              = ⟨request, answer⟩ :: polls history := rfl
          rw [hpolls]
          cases hfilled : filled answer with
          | none =>
              rw [hfilled] at hstep
              obtain rfl := hstep
              simp only [drawn, List.filterMap_cons, hfilled, Option.map_none]
              exact ih hrest
          | some bytes =>
              rw [hfilled] at hstep
              simp only [drawn, List.filterMap_cons, hfilled, Option.map_some]
              exact .receive _ _ _ _ _ hstep (ih hrest)
      | write bytes =>
          obtain ⟨hopen, rfl⟩ := hstep
          exact .quiet _ _ _ _ (.send pipe bytes hopen) (ih hrest)
      | close =>
          obtain rfl : middle = _ := hstep
          exact .quiet _ _ _ _ (.close pipe) (ih hrest)

/-- Polls of one stream, in whichever pieces it comes. -/
theorem transport_of_draws (hreader : ∀ event ∈ events, event.request.reader = reader)
    (hdraws : Channel.Draws content (drawn events) rest)
    (hcontent : streams.bodies reader = content) :
    ∃ streams', Accepts transport streams events streams' := by
  induction events generalizing streams content with
  | nil => exact ⟨streams, .nil streams⟩
  | cons event events ih =>
      obtain ⟨hfirst, hreaders⟩ := List.forall_mem_cons.mp hreader
      obtain ⟨request, answer⟩ := event
      obtain rfl : request.reader = reader := hfirst
      rcases answer with _ | (error | chunk)
      · obtain ⟨streams', htail⟩ := ih hreaders hdraws hcontent
        exact ⟨streams', .cons _ _ _ _ _ _ (.inr ⟨.inl rfl, rfl⟩) htail⟩
      · obtain ⟨streams', htail⟩ := ih hreaders hdraws hcontent
        exact ⟨streams', .cons _ _ _ _ _ _ (.inr ⟨.inr ⟨error, rfl⟩, rfl⟩) htail⟩
      · change Channel.Draws content ((request.capacity, chunk.val) :: drawn events) rest at hdraws
        cases hdraws with
        | cons items after _ room receptions hend hrest =>
            obtain ⟨streams', htail⟩ := ih hreaders hrest (Serving.bodies_set _ _ _)
            exact ⟨streams', .cons _ _ _ _ _ _ (.inl ⟨chunk, after, rfl, hcontent, hend, rfl⟩)
              htail⟩

/-- A body that has been sent to its end while its reader was fed. -/
def SentThrough (pipe pipe' : Channel UInt8) (body : AsyncReadBody) (bytes : List UInt8) : Prop :=
  ∃ history calls final, Accepts feeding pipe history pipe' ∧
    Invocations (fun _ => pollFrame) body calls final ∧
    polls history = calls.flatMap Invocation.events ∧
    final.isEndStream = true ∧ errorFrames calls = [] ∧ bytes = (frames calls).flatten

/-- To the service, the pipe was a stream of all that the caller wrote, and the caller has
closed it. -/
theorem SentThrough.sent (h : SentThrough .new pipe' (byteStreamFromReader reader length) bytes) :
    (∃ streams', Sent ⟨fun _ => pipe'.sent⟩ (.upload (byteStreamFromReader reader length)) bytes
      streams') ∧ pipe'.closed = true := by
  obtain ⟨history, calls, final, hfeed, hcalls, hpolls, hover, herrors, rfl⟩ := h
  obtain ⟨huploads, -, hevents⟩ := Uploads.of_calls hcalls
  have hruns := feeding_runs hfeed
  rw [hpolls] at hruns
  have hwhole : pipe'.sent = Channel.new.received ++ pipe'.sent := rfl
  obtain ⟨rest, hdraws, -⟩ := hruns.draws hwhole
  refine ⟨?_, ?_⟩
  · have hstream : (⟨fun _ => pipe'.sent⟩ : Serving).bodies reader = pipe'.sent := rfl
    obtain ⟨streams', haccepts⟩ := transport_of_draws hevents hdraws hstream
    exact ⟨streams', calls, final, hcalls, haccepts, hover, herrors, rfl⟩
  · obtain ⟨-, ending, hending, hframes⟩ := huploads.closed hover
    rw [herrors] at hframes
    cases hending with
    | complete hend hnone hexact =>
        obtain ⟨call, hcall, event, hevent, hroom, hnothing⟩ := hend
        refine (hruns.drained_of_nothing hroom ?_).1
        exact List.mem_filterMap.mpr ⟨event, List.mem_flatMap.mpr ⟨call, hcall, hevent⟩, by
          rw [hnothing, Option.map_some]⟩
    | short hend hnone hshort error hkind => cases hframes
    | long hend hnone hlong error hkind => cases hframes
    | failed hend error hfailed hfits => cases hframes

end Feeding

/-! ## The worker -/

/-- The service does a put whose body comes through the pipe. -/
def PutsThrough (pipe pipe' : Channel UInt8) (before : Objects) (request : SdkRequest)
    (response : ServiceResponse) (after : Objects) : Prop :=
  match request.call, request.body with
  | .putObject target contentLength contentType metadata ifMatch ifNoneMatch, .upload body =>
      ∃ entry, Admits ifMatch ifNoneMatch (before target.location) ∧
        SentThrough pipe pipe' body entry.bytes ∧
        (∀ length ∈ contentLength, length = (entry.bytes.length : Int)) ∧
        entry.contentType = contentType ∧ entry.metadata = metadata.getD [] ∧
        response.eTag = some entry.eTag ∧
        after = Function.update before target.location (some entry)
  | _, _ => False

/-- The service to a worker whose caller feeds the pipe meanwhile. -/
def uploading (others : Objects → Objects → Prop) :
    Environment SdkRequest SdkReply (Objects × Channel UInt8) :=
  fun (objects, pipe) request reply (objects', pipe') =>
    ∃ before, Relation.ReflTransGen others objects before ∧ match reply with
      | .ok response => PutsThrough pipe pipe' before request response objects'
      | .error error =>
          ((∀ streams, (Cloud.mk before streams).Justifies request.call error) ∧
            objects' = before ∧ ∃ history, Accepts feeding pipe history pipe') ∨
          (¬ error.Refuses ∧ ∃ response, PutsThrough pipe pipe' before request response objects')

section Worker

variable {others : Objects → Objects → Prop} {objects before after : Objects}
variable {pipe : Channel UInt8} {call : ServiceCall} {body : ReaderId} {length : Nat}

theorem PutsThrough.does {response : ServiceResponse}
    (h : PutsThrough .new pipe before ⟨call, .upload (byteStreamFromReader body length)⟩ response
      after) :
    (∃ streams', (Cloud.mk before ⟨fun _ => pipe.sent⟩).Does
      ⟨call, .upload (byteStreamFromReader body length)⟩ response ⟨after, streams'⟩) ∧
      pipe.closed = true := by
  cases call with
  | putObject target contentLength contentType metadata ifMatch ifNoneMatch =>
      obtain ⟨entry, hadmits, hsent, hlength, htype, hmetadata, hetag, rfl⟩ := h
      obtain ⟨⟨streams', hwhole⟩, hclosed⟩ := hsent.sent
      exact ⟨⟨streams', entry, streams', hadmits, hwhole, hlength, htype, hmetadata, hetag, rfl⟩,
        hclosed⟩
  | headObject target selector => exact h.elim
  | getObject target range selector => exact h.elim
  | deleteObject target => exact h.elim
  | copyObject source destination => exact h.elim

/-- A worker whose caller feeds the pipe meets the service as one whose caller had written
everything beforehand. -/
theorem uploading_amid {reply : SdkReply ⟨call, .upload (byteStreamFromReader body length)⟩}
    (h : uploading others (objects, .new) ⟨call, .upload (byteStreamFromReader body length)⟩ reply
      (after, pipe)) :
    (∃ streams', amid others ⟨objects, ⟨fun _ => pipe.sent⟩⟩
      ⟨call, .upload (byteStreamFromReader body length)⟩ reply ⟨after, streams'⟩) ∧
      ∀ response, reply = .ok response → pipe.closed = true := by
  obtain ⟨before, hlater, hreply⟩ := h
  have hbefore : (Cloud.mk objects ⟨fun _ => pipe.sent⟩).Later others
      ⟨before, ⟨fun _ => pipe.sent⟩⟩ := ⟨hlater, rfl⟩
  cases reply with
  | ok response =>
      obtain ⟨⟨streams', hdoes⟩, hclosed⟩ := PutsThrough.does hreply
      exact ⟨⟨streams', _, hbefore, hdoes⟩, fun _ _ => hclosed⟩
  | error error =>
      refine ⟨?_, fun response hok => by cases hok⟩
      rcases hreply with ⟨hjustified, rfl, -⟩ | ⟨hrefuses, response, hputs⟩
      · exact ⟨_, _, hbefore, .inl ⟨hjustified _, rfl, fun _ _ => rfl⟩⟩
      · obtain ⟨⟨streams', hdoes⟩, -⟩ := PutsThrough.does hputs
        exact ⟨⟨fun _ => pipe.sent⟩, _, hbefore,
          .inr ⟨hrefuses, ⟨response, ⟨after, streams'⟩, hdoes, rfl⟩, fun _ _ => rfl⟩⟩

/-- A put sends one request, with the body of its reader, or none. -/
def SendsOnce (body : ReaderId) (events : List (Event SdkRequest SdkReply)) : Prop :=
  events = [] ∨ ∃ call length reply,
    events = [⟨⟨call, .upload (byteStreamFromReader body length)⟩, reply⟩]

theorem put_sends_once (provider : S3Provider) (key : String) (options : PutOptions) :
    Script.Ensures history (fun _ => True) (provider.put key body options)
      (fun _ _ past => ∃ call length response,
        past = [⟨⟨call, .upload (byteStreamFromReader body length)⟩, .ok response⟩])
      (fun _ _ past => SendsOnce body past) () [] := by
  have hnothing : SendsOnce body [] := .inl rfl
  refine Script.ensures_bind_ofExcept (fun _ _ => ⟨trivial, hnothing⟩) fun target _ => ?_
  refine Script.ensures_bind_ofExcept (fun _ _ => ⟨trivial, hnothing⟩) fun contentLength _ => ?_
  refine Script.ensures_bind_ofExcept (fun _ _ => ⟨trivial, hnothing⟩) fun conditions _ => ?_
  refine Script.ensures_bind_ofExcept (fun _ _ => ⟨trivial, hnothing⟩) fun _ _ => ?_
  refine ⟨trivial, fun reply past hpast => ?_⟩
  cases reply with
  | ok response => exact ⟨trivial, _, _, response, hpast⟩
  | error error => exact ⟨trivial, .inr ⟨_, _, _, hpast⟩⟩

/-- A put that is fed through a pipe. -/
theorem put_through {provider : S3Provider} {key : String} {options : PutOptions}
    {events : List (Event SdkRequest SdkReply)} {result : Except StorageError PutResult}
    (htrace : Trace (provider.put key body options ()) events (.ret (result, ())))
    (haccepts : Accepts (uploading others) (objects, .new) events (after, pipe)) :
    (∃ before, Relation.ReflTransGen others objects before ∧
      PutDone provider key options pipe.sent before after result) ∧
    ∀ stored, result = .ok stored → pipe.closed = true := by
  have hends := Program.Ensures.of_finished (put_sends_once provider key options) htrace
    (accepts_history [] events)
  have hsends : SendsOnce body events ∧ ∀ stored, result = .ok stored → ∃ call length response,
      events = [⟨⟨call, .upload (byteStreamFromReader body length)⟩, .ok response⟩] := by
    cases result with
    | ok stored =>
        obtain ⟨call, length, response, hevents⟩ := hends
        exact ⟨.inr ⟨call, length, _, hevents⟩, fun _ _ => ⟨call, length, response, hevents⟩⟩
    | error error => exact ⟨hends, fun _ hok => by cases hok⟩
  obtain ⟨hsends, hstored⟩ := hsends
  rcases hsends with rfl | ⟨call, length, reply, rfl⟩
  · -- the arguments were refused
    cases haccepts
    have hidle : Accepts (amid others) ⟨objects, ⟨fun _ => []⟩⟩ [] _ := .nil _
    obtain ⟨before, hlater, hdone⟩ := S3Provider.put_ends.of_run htrace hidle
    refine ⟨⟨before.objects, hlater.1, hdone⟩, fun stored hok => ?_⟩
    obtain ⟨_, _, _, hnone⟩ := hstored stored hok
    cases hnone
  · obtain ⟨⟨streams', hstep⟩, hclosed⟩ := uploading_amid (accepts_single_iff.mp haccepts)
    obtain ⟨before, hlater, hdone⟩ := S3Provider.put_ends.of_run htrace
      (accepts_single_iff.mpr hstep)
    refine ⟨⟨before.objects, hlater.1, hdone⟩, fun stored hok => ?_⟩
    obtain ⟨_, _, response, hevents⟩ := hstored stored hok
    cases hevents
    exact hclosed response rfl

end Worker

/-! ## Beginning the upload -/

/-- The options of an upload, from the caller's text. -/
def uploadOptions (fromJson : String → Except String PutOptions) (metadataJson : CStr) :
    Except StorageError PutOptions :=
  if metadataJson.isNone then .ok PutOptions.default
  else parseJson fromJson metadataJson "metadata_json"

/-- An upload has been begun: the worker got the other end of the pipe, and the receiver of
its result was stored. -/
def BegunUpload (fromJson : String → Except String PutOptions) (providerId : UInt64)
    (key metadataJson : CStr) (events : List FfiEvent) : Prop :=
  ∃ provider text options reader receiver streamId before,
    events = before ++ [⟨.storeStream streamId (.pendingPut receiver), ()⟩,
      ⟨.spawnPut provider text reader options, ()⟩] ∧
    ⟨.provider providerId, .ok provider⟩ ∈ before ∧ key = some (.ok text) ∧
    uploadOptions fromJson metadataJson = .ok options

theorem putBegin_records {toJson : StreamDescriptor → Except String String}
    {fromJson : String → Except String PutOptions} (handle providerId : UInt64)
    (key metadataJson : CStr) (out : OutPointer) :
    Records (storageprimsPutBegin toJson fromJson handle providerId key metadataJson)
      (fun _ _ past => BegunUpload fromJson providerId key metadataJson past) out [] := by
  refine records_initializeOut (records_ask fun runtime => records_orReturn fun _ _ => ?_)
  refine records_ask fun answer => records_orReturn fun provider hprovider => ?_
  refine records_orReturn fun text htext => records_orReturn fun options hoptions => ?_
  refine records_ask fun pipe => records_orReturn fun ends _ => ?_
  refine records_ask fun receiver => records_describeStream fun streamId out' => ?_
  refine ⟨trivial, fun done past' hpast => ⟨trivial, ?_⟩⟩
  subst hpast hprovider
  exact ⟨provider, text, options, ends.reader, receiver, streamId, [_, _, _, _, _], rfl, by simp,
    parseCstr_ok htext, hoptions⟩

/-- What becomes of an upload through the interface.  However the caller and the worker take
turns, what the worker's put stores is all that the caller wrote, who has closed the pipe by
then; and the finalizer hands over the JSON text of what the put returned. -/
def UploadDelivers (behind : StorageProvider → S3Provider)
    (fromJson : String → Except String PutOptions) (handle providerId : UInt64)
    (key metadataJson : CStr) (events : List FfiEvent) : Prop :=
  ∃ provider text options reader receiver streamId, key = some (.ok text) ∧
    uploadOptions fromJson metadataJson = .ok options ∧
    ⟨.provider providerId, .ok provider⟩ ∈ events ∧
    ⟨.storeStream streamId (.pendingPut receiver), ()⟩ ∈ events ∧
    ⟨.spawnPut provider text reader options, ()⟩ ∈ events ∧
    ∀ others body start sent result final pipe,
      Trace ((behind provider).put text body options ()) sent (.ret (result, ())) →
      Accepts (uploading others) (start, .new) sent (final, pipe) →
      (∃ before, Relation.ReflTransGen others start before ∧
        PutDone (behind provider) text options pipe.sent before final result) ∧
      (∀ stored, result = .ok stored → pipe.closed = true) ∧
      ∀ resultJson (process : Runtimes StorageProvider), receiver = some result →
        process.stream handle streamId = some (.pendingPut receiver) →
        (storageprimsPutFinalize resultJson process handle streamId (some none)).1 =
          withErrorBoundary (some none) (result.bind fun stored =>
            writeJson (resultJson stored) (some none))

/-- Every upload that was begun delivers. -/
theorem upload_delivers {toJson : StreamDescriptor → Except String String}
    {fromJson : String → Except String PutOptions} (behind : StorageProvider → S3Provider)
    {handle providerId : UInt64} {key metadataJson : CStr} {out out' : OutPointer}
    {events : List FfiEvent}
    (htrace : Trace (storageprimsPutBegin toJson fromJson handle providerId key metadataJson out)
      events (.ret (.ok (), out'))) :
    UploadDelivers behind fromJson handle providerId key metadataJson events := by
  have hfinished := Program.Ensures.of_finished
    (putBegin_records handle providerId key metadataJson out) htrace (accepts_history [] events)
  have hbegun : BegunUpload fromJson providerId key metadataJson events := hfinished
  obtain ⟨provider, text, options, reader, receiver, streamId, before, rfl, hprovider, hkey,
    hoptions⟩ := hbegun
  refine ⟨provider, text, options, reader, receiver, streamId, hkey, hoptions,
    List.mem_append_left _ hprovider, by simp, by simp, ?_⟩
  intro others body start sent result final pipe hput haccepts
  obtain ⟨hdone, hclosed⟩ := put_through hput haccepts
  refine ⟨hdone, hclosed, fun resultJson process hreceiver hstream => ?_⟩
  subst hreceiver
  exact FinalizeCall.proper_run hstream

theorem letters_fit : ([0x61, 0x62] : List UInt8).length ≤ 2 := Nat.le_refl 2

/-- The caller writes a byte before the worker looks and one after, and closes the pipe. -/
def twoFed : List FeedEvent :=
  [⟨.poll ⟨0, 2⟩, .pending⟩, ⟨.write [0x61], ()⟩, ⟨.write [0x62], ()⟩,
    ⟨.poll ⟨0, 2⟩, .ready (.ok ⟨[0x61, 0x62], letters_fit⟩)⟩, ⟨.close, ()⟩,
    ⟨.poll ⟨0, 1⟩, .ready (.ok nothingRead)⟩]

/-- The two bytes have come through. -/
def twoThrough : Channel UInt8 := ⟨[0x61, 0x62], [0x61, 0x62], true⟩

theorem twoFed_through : SentThrough .new twoThrough (byteStreamFromReader 0 2) [0x61, 0x62] := by
  let first : Channel UInt8 := ⟨[0x61], [], false⟩
  let written : Channel UInt8 := ⟨[0x61, 0x62], [], false⟩
  let taken : Channel UInt8 := ⟨[0x61, 0x62], [0x61, 0x62], false⟩
  have htake : written.Step (some (2, [0x61, 0x62])) taken :=
    .receive written 2 [0x61, 0x62] [] rfl fun hnil => absurd hnil (by decide)
  have hnothing : twoThrough.Step (some (1, [])) twoThrough :=
    .receive twoThrough 1 [] [] rfl fun _ _ => ⟨rfl, rfl⟩
  refine ⟨twoFed, declaredPolls, _, ?_, declaredPolls_calls, rfl, rfl, by decide, by decide⟩
  refine .cons _ Channel.new _ _ _ _ rfl (.cons _ first _ _ _ _ ⟨rfl, rfl⟩ ?_)
  refine .cons _ written _ _ _ _ ⟨rfl, rfl⟩ (.cons _ taken _ _ _ _ htake ?_)
  exact .cons _ twoThrough _ _ _ _ rfl (.cons _ twoThrough _ _ _ _ hnothing (.nil _))

/-- The put of these bytes, where nothing is. -/
def twoPut : Event SdkRequest SdkReply :=
  ⟨⟨.putObject ⟨.key "a", rooted.locate "a"⟩ (some (2 : Nat)) (some "text/plain") (some []) none
      (some "*"), .upload (byteStreamFromReader 0 2)⟩,
    .ok ⟨some 200, none, none, some "tag", none, none, none, none, none, 1⟩⟩

theorem twoPut_through : Accepts (uploading fun _ _ => False) (fun _ => none, .new) [twoPut]
    (Function.update (fun _ => none) (rooted.locate "a")
      (some ⟨[0x61, 0x62], "tag", some "text/plain", []⟩), twoThrough) := by
  refine accepts_single_iff.mpr ⟨_, .refl, ⟨[0x61, 0x62], "tag", some "text/plain", []⟩, ?_⟩
  refine ⟨⟨by simp, fun _ => rfl⟩, twoFed_through, ?_, rfl, rfl, rfl, rfl⟩
  intro length hlength
  cases hlength
  rfl

def twoOptions : PutOptions := ⟨some 2, some "text/plain", [], .mustNotExist⟩

/-- What the put of these bytes returns. -/
def twoStored : PutResult := ⟨"a", some "tag", some 2⟩

/-- The requests of an upload that is begun. -/
def twoBegun : List FfiEvent :=
  [⟨.getRuntime 1, .ok ()⟩, ⟨.provider 1, .ok rooted.storageProvider⟩, ⟨.pipe, .ok ⟨3, 4⟩⟩,
    ⟨.putChannel, some (.ok twoStored)⟩, ⟨.reserveStream, (1 : UInt64)⟩,
    ⟨.storeStream 1 (.pendingPut (some (.ok twoStored))), ()⟩,
    ⟨.spawnPut rooted.storageProvider "a" 3 twoOptions, ()⟩]

/-- An upload of two bytes is begun, and there is a put that takes them out of the pipe. -/
theorem upload_delivers_two :
    UploadDelivers (fun _ => rooted) (fun _ => .ok twoOptions) 1 1 (some (.ok "a"))
      (some (.ok "{}")) twoBegun ∧
    Trace (rooted.put "a" 0 twoOptions ()) [twoPut] (.ret (.ok twoStored, ())) ∧
    ∃ final, Accepts (uploading fun _ _ => False) (fun _ => none, .new) [twoPut]
      (final, twoThrough) := by
  have hbegun : Trace (storageprimsPutBegin (fun _ => .ok "{}") (fun _ => .ok twoOptions) 1 1
      (some (.ok "a")) (some (.ok "{}")) (some none)) twoBegun
      (.ret (.ok (), some (some "{}"))) := by
    refine .step _ _ _ _ _ (.step _ _ _ _ _ (.step _ _ _ _ _ (.step _ _ _ _ _ ?_)))
    exact Trace.bind (@trace_describeStream (fun _ => .ok "{}") _ 4 "write" _ _ _
      writeJson_emptyObject) (.step _ _ _ _ _ (.refl _))
  exact ⟨upload_delivers (fun _ => rooted) hbegun, .step _ _ _ _ _ (.refl _), _, twoPut_through⟩

end Storageprims

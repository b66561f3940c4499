import Storageprims.Ops.Snapshot
import Storageprims.S3.ContentRange
import Storageprims.S3.DeclaredLength

/-!
# The guarded provider over a shared bucket

The guarded operations of the provider over a service that keeps the versions of its
objects, and that other clients write to.  The service answers truthfully, from the version
that a request selects, and nothing else is known of it: any request may fail, and the
stream behind a response may break off or run on.  Seen through one key, the provider is
the guarded store of the snapshot results.
-/

namespace Storageprims

open Interaction
open DeclaredLengthRead (pollRead)

/-! ## The service -/

/-- What the service keeps of a bucket, under full keys, and the streams in transit;
beside them the reader that the provider has put before each stream. -/
structure Wire where
  store : Store
  readers : ReaderId → Option DeclaredLengthRead

/-- A service at one moment: its reply to every request, and the bytes that the stream of
a reply carries. -/
structure Service where
  reply : GuardedService
  stream : ReaderId → List UInt8

/-- A version that a request for this key may be answered from. -/
def Store.Selects (store : Store) (full : String) (selector : Option SourceSelector)
    (version : Version) : Prop :=
  match selector with
  | none => store.current full = some version
  | some (.nativeVersion token) => version ∈ store.written full ∧ version.native = some token
  | some (.validatorMatch token) =>
      store.current full = some version ∧ version.validator = some token

/-- A response carries the names of this version. -/
def Version.Signs (version : Version) (response : ServiceResponse) : Prop :=
  observedNativeVersion response.versionId = version.native ∧ response.eTag = version.validator

/-- A stream of these bytes may break off in them, or run on behind them. -/
def Conveys (bytes stream : List UInt8) : Prop := stream <+: bytes ∨ bytes <+: stream

/-- The stream of a response carries what its headers say: all of the version, or the part
that the content range names.  Neither a content length nor a total has to be there. -/
def DescribesBody (bytes : List UInt8) (response : ServiceResponse) (stream : List UInt8) :
    Prop :=
  match response.contentRange with
  | none => Conveys bytes stream ∧
      ∀ length ∈ response.contentLength, length.toInt = bytes.length
  | some text => ∃ first last total, ContentRange text first last total ∧ last < bytes.length ∧
      (∀ size ∈ total, size = bytes.length) ∧
      Conveys ((bytes.drop first).take (last + 1 - first)) stream

/-- A response is truthful when one selected version accounts for all it says.  A HEAD
may leave out the size; a deleted object is reported as such and in no other way. -/
def Store.Truthful (store : Store) (call : ServiceCall) (response : ServiceResponse)
    (stream : List UInt8) : Prop :=
  match call with
  | .headObject target selector => response.deleteMarker ≠ some true →
      ∃ version, store.Selects target.location.key selector version ∧ version.Signs response ∧
        ∀ length ∈ response.contentLength, length.toInt = version.bytes.length
  | .getObject target _ selector => response.deleteMarker ≠ some true →
      ∃ version, store.Selects target.location.key selector version ∧ version.Signs response ∧
        DescribesBody version.bytes response stream
  | _ => True

def Service.Truthful (service : Service) (store : Store) : Prop :=
  ∀ call response, service.reply call = .ok response →
    store.Truthful call response (service.stream response.body)

/-- A transport hands out its streams in pieces of any size, may be pending or fail at any
poll, and reports the end of a stream nowhere else. -/
def transport : Environment InnerRead InnerAnswer Serving := fun streams request answer streams' =>
  (∃ (chunk : Chunk request.capacity) (rest : List UInt8), answer = .ready (.ok chunk) ∧
    streams.bodies request.reader = chunk.val ++ rest ∧
    (chunk.val = [] → 0 < request.capacity → rest = []) ∧
    streams' = streams.set request.reader rest) ∨
  ((answer = .pending ∨ ∃ error, answer = .ready (.error error)) ∧ streams' = streams)

/-! ## The provider -/

/-- A read under a deadline polls the reader until it is ready, unless the deadline comes
first. -/
inductive ReadsUntil (capacity : Nat) : DeclaredLengthRead → Serving →
    Awaited (Except IoError (List UInt8)) → DeclaredLengthRead → Serving → Prop
  | elapsed (this : DeclaredLengthRead) (streams : Serving) :
      ReadsUntil capacity this streams .elapsed this streams
  | again (this middle final : DeclaredLengthRead) (streams streams₁ streams₂ : Serving)
      (events : List (Event InnerRead InnerAnswer))
      (answer : Awaited (Except IoError (List UInt8)))
      (hpoll : Trace (pollRead capacity this) events (.ret (.ok .pending, middle)))
      (hstreams : Accepts transport streams events streams₁)
      (hrest : ReadsUntil capacity middle streams₁ answer final streams₂) :
      ReadsUntil capacity this streams answer final streams₂
  | ready (this final : DeclaredLengthRead) (streams streams₁ : Serving)
      (events : List (Event InnerRead InnerAnswer)) (result : Except IoError (List UInt8))
      (hpoll : Trace (pollRead capacity this) events (.ret (.ok (.ready result), final)))
      (hstreams : Accepts transport streams events streams₁) :
      ReadsUntil capacity this streams (.ready result) final streams₁

/-- The bytes in the caller's buffer. -/
def bytesOf {capacity : Nat} :
    Awaited (Except IoError (Chunk capacity)) → Awaited (Except IoError (List UInt8))
  | .elapsed => .elapsed
  | .ready result => .ready (result.map (·.val))

/-- The reader of an accepted response is put before its stream. -/
def Wire.opened (wire : Wire) (service : Service) (reader : DeclaredLengthRead) : Wire :=
  ⟨wire.store.withServing
      (wire.store.serving.set reader.reader (service.stream reader.reader)),
    Function.update wire.readers reader.reader (some reader)⟩

/-- What a guarded GET leaves behind: a reader, if the response was accepted. -/
def Wire.Concludes (wire : Wire) (service : Service)
    (outcome : Except StorageError DeclaredResponse)
    (answer : Awaited (Except StorageError GuardedReadResponse)) (wire' : Wire) : Prop :=
  match outcome with
  | .error error => answer = .ready (.error error) ∧ wire' = wire
  | .ok accepted => answer = .ready (.ok ⟨accepted.receipt, accepted.reader.reader⟩) ∧
      wire' = wire.opened service accepted.reader

namespace S3Provider

variable (provider : S3Provider)

/-- The answers of the provider, from the bucket as it stands.  Each call sends its request
to a truthful service, and may run into the deadline. -/
def answers : Environment Step Reply Wire := fun wire step reply wire' =>
  match step, reply with
  | ⟨_, .now⟩, _ => wire' = wire
  | ⟨_, .read reader capacity⟩, answer => (answer = .elapsed ∧ wire' = wire) ∨
      ∃ this this' streams, wire.readers reader = some this ∧
        ReadsUntil capacity this wire.store.serving (bytesOf answer) this' streams ∧
        wire' = ⟨wire.store.withServing streams, Function.update wire.readers reader (some this')⟩
  | ⟨_, .observeSource key⟩, answer => wire' = wire ∧ (answer = .elapsed ∨
      ∃ service : Service, service.Truthful wire.store ∧
        answer = .ready (provider.observeSource service.reply key))
  | ⟨_, .guardedHead selection⟩, answer => wire' = wire ∧ (answer = .elapsed ∨
      ∃ service : Service, service.Truthful wire.store ∧
        answer = .ready (provider.guardedHead service.reply selection))
  | ⟨_, .guardedGet selection⟩, answer => (answer = .elapsed ∧ wire' = wire) ∨
      ∃ service : Service, service.Truthful wire.store ∧
        wire.Concludes service (provider.guardedGet service.reply selection) answer wire'
  | ⟨_, .guardedGetRange request⟩, answer => (answer = .elapsed ∧ wire' = wire) ∨
      ∃ service : Service, service.Truthful wire.store ∧
        wire.Concludes service (provider.guardedGetRange service.reply request) answer wire'
  -- the bounded operations make no unguarded request
  | ⟨_, .head _⟩, _ => wire' = wire
  | ⟨_, .get _⟩, _ => wire' = wire
  | ⟨_, .getRange _⟩, _ => wire' = wire

/-- Between any two answers other clients write as often as they like. -/
def overBucket : Environment Step Reply Wire := fun wire step reply wire' =>
  ∃ store, Relation.ReflTransGen Store.Writes wire.store store ∧
    provider.answers ⟨store, wire.readers⟩ step reply wire'

end S3Provider

/-! ## What truthful responses prove -/

theorem Conveys.advance {chunk rest bytes : List UInt8} (h : Conveys bytes (chunk ++ rest))
    (hlength : chunk.length ≤ bytes.length) :
    ∃ left, bytes = chunk ++ left ∧ Conveys left rest := by
  rcases h with ⟨cut, rfl⟩ | ⟨excess, hexcess⟩
  · exact ⟨rest ++ cut, List.append_assoc .., .inl (List.prefix_append _ _)⟩
  · -- the stream runs on behind the bytes, and they begin with the chunk
    obtain ⟨left, rfl⟩ : chunk <+: bytes :=
      List.prefix_of_prefix_length_le ⟨rest, hexcess.symm⟩ ⟨excess, rfl⟩ hlength
    rw [List.append_assoc, List.append_cancel_left_eq] at hexcess
    exact ⟨left, rfl, .inr ⟨excess, hexcess⟩⟩

/-- A value of the grammar is read in one way only. -/
theorem ContentRange.unique {text : String} {first last first' last' : Nat}
    {total total' : Option Nat} (h : ContentRange text first last total)
    (hnames : NamesRange text first' last' total') (hordered : first' ≤ last')
    (hbeyond : ∀ size ∈ total', last' < size) :
    first' = first ∧ last' = last ∧ total' = total := by
  obtain ⟨parsed, hparsed, rfl, rfl, rfl⟩ : ParsesAs text .guardedGetRange first' last' total' :=
    parsesAs_iff.mpr ⟨hnames, hordered, hbeyond⟩
  obtain ⟨firstText, lastText, totalText, rfl, hfields⟩ := h
  obtain ⟨other, hother, rfl, rfl, rfl⟩ : ParsesAs _ .guardedGetRange _ _ _ :=
    parsesAs_of_fields (.inl rfl) (.inl rfl) (.inl rfl) (fun _ => rfl) hfields
  simp only [String.empty_append] at hother
  obtain rfl := Except.ok.inj (hparsed.symm.trans hother)
  exact ⟨rfl, rfl, rfl⟩

namespace S3Provider

variable {provider : S3Provider} {service : Service} {store : Store}
variable {selection : GuardedReadSelection}

theorem keyTarget_location {key : String} {target : Target}
    (h : provider.keyTarget key = .ok target) :
    target.location.key = joinKey provider.rootPrefix key := by
  obtain ⟨full, hfull, h⟩ := except_bind_ok h
  cases h
  exact (provider.resolveKey_ok_iff.mp hfull).2.symm

theorem selectedTarget_location {operation : StorageOperation} {target : Target}
    (h : provider.selectedTarget selection operation = .ok target) :
    target.location.key = joinKey provider.rootPrefix selection.key := by
  obtain ⟨_, -, h⟩ := except_bind_ok h
  exact keyTarget_location h

/-- An observation names the version that was current. -/
theorem observeSource_names {key : String} {observation : SourceObservation}
    (htruthful : service.Truthful store)
    (h : provider.observeSource service.reply key = .ok observation) :
    ∃ version, store.current (joinKey provider.rootPrefix key) = some version ∧
      version.Names observation.receipt := by
  obtain ⟨target, htarget, h⟩ := except_bind_ok h
  obtain ⟨response, hresponse, h⟩ := except_bind_ok h
  obtain ⟨_, hmarker, h⟩ := except_bind_ok h
  cases h
  obtain ⟨version, hcurrent, hsigns, -⟩ :=
    htruthful _ response hresponse (checkDeleteMarker_ok_iff.mp hmarker)
  rw [keyTarget_location htarget] at hcurrent
  exact ⟨version, hcurrent, hsigns⟩

/-- A selected HEAD reports no size but that of a version that the selection enforces. -/
theorem guardedHead_sizes {receipt : SourceReceipt} (htruthful : service.Truthful store)
    (h : provider.guardedHead service.reply selection = .ok receipt) :
    ∃ version,
      store.Selects (joinKey provider.rootPrefix selection.key) (some selection.selector) version ∧
      DescribesSize version.bytes False receipt := by
  obtain ⟨target, htarget, h⟩ := except_bind_ok h
  obtain ⟨response, hresponse, h⟩ := except_bind_ok h
  obtain ⟨_, hmarker, h⟩ := except_bind_ok h
  obtain ⟨-, totalSize, htotal, -, -, -, hsize, -⟩ := checkedReceipt_ok h
  obtain ⟨version, hselects, -, hlength⟩ :=
    htruthful _ response hresponse (checkDeleteMarker_ok_iff.mp hmarker)
  rw [selectedTarget_location htarget] at hselects
  refine ⟨version, hselects, fun total hmem => ?_, False.elim⟩
  obtain ⟨size, rfl, rfl⟩ := Option.map_eq_some_iff.mp (hsize.symm.trans hmem)
  -- the size is the content length of the response, if there is one
  have hdeclared : response.contentLength.map Int64.toInt = some (size.val : Int) :=
    checkedContentLength_ok_iff.mp htotal
  obtain ⟨length, hstated, hvalue⟩ := Option.map_eq_some_iff.mp hdeclared
  exact Int.ofNat_inj.mp (hvalue.symm.trans (hlength length hstated))

/-- The request behind an accepted range, and the stream that its reader was put before. -/
theorem guardedGetRange_sent {request : GuardedRangeRequest} {accepted : DeclaredResponse}
    (h : provider.guardedGetRange service.reply request = .ok accepted) :
    ∃ target range response,
      target.location.key = joinKey provider.rootPrefix request.selection.key ∧
      provider.guardedGetRangeCalls request
        = .ok [.getObject target (some range) (some request.selection.selector)] ∧
      service.reply (.getObject target (some range) (some request.selection.selector))
        = .ok response ∧
      accepted.reader.reader = response.body := by
  obtain ⟨_, hlength, h⟩ := except_bind_ok h
  obtain ⟨requested, hrequested, h⟩ := except_bind_ok h
  obtain ⟨target, htarget, h⟩ := except_bind_ok h
  obtain ⟨response, hresponse, h⟩ := except_bind_ok h
  obtain ⟨status, -, h⟩ := except_bind_ok h
  obtain ⟨_, -, h⟩ := except_bind_ok h
  obtain ⟨returned, -, h⟩ := except_bind_ok h
  obtain ⟨expected, -, h⟩ := except_bind_ok h
  obtain ⟨width, -, h⟩ := except_bind_ok h
  obtain ⟨_, -, h⟩ := except_bind_ok h
  obtain ⟨contentLength, -, h⟩ := except_bind_ok h
  obtain ⟨receipt, -, h⟩ := except_bind_ok h
  cases h
  refine ⟨target, _, response, selectedTarget_location htarget, ?_, hresponse, rfl⟩
  unfold guardedGetRangeCalls
  rw [hlength, rangeHeader_of_requestedRange hrequested]
  simp only [bind, Except.bind, htarget]
  rfl

/-- An accepted range describes a version that the selection enforces, and its reader waits
for exactly the requested part of it. -/
theorem guardedGetRange_describes {request : GuardedRangeRequest} {accepted : DeclaredResponse}
    (htruthful : service.Truthful store)
    (h : provider.guardedGetRange service.reply request = .ok accepted) :
    ∃ version : Version,
      let window := (version.bytes.drop request.offset).take request.length
      store.Selects (joinKey provider.rootPrefix request.selection.key)
        (some request.selection.selector) version ∧
      Satisfiable version.bytes request.offset request.length ∧
      DescribesWindow version.bytes False request.offset request.length accepted.receipt ∧
      accepted.reader.remaining = some window.length ∧
      Conveys window (service.stream accepted.reader.reader) := by
  obtain ⟨target, range, response, htarget, hcalls, hresponse, hbody⟩ := guardedGetRange_sent h
  obtain ⟨call, response', returned, hcalls', hresponse', haccepted⟩ := guardedGetRange_ok h
  -- both name the same request, and so the same response
  rw [hcalls] at hcalls'
  cases hcalls'
  obtain rfl : response = response' := Except.ok.inj (hresponse.symm.trans hresponse')
  obtain ⟨version, hselects, -, hbodyDescribed⟩ :=
    htruthful _ response hresponse haccepted.identity.1
  rw [htarget] at hselects
  obtain ⟨text, htext, hnames⟩ := haccepted.named
  rw [DescribesBody, Option.mem_def.mp htext] at hbodyDescribed
  obtain ⟨first, last, total, hrange, hinside, htotal, hconveys⟩ := hbodyDescribed
  have hordered := offset_le_lastReturned haccepted.positive haccepted.proves.present
  have hbeyond : ∀ size ∈ accepted.receipt.totalSize,
      lastReturned accepted.receipt.totalSize request.offset request.length < size := by
    intro size hsize
    have hpresent := haccepted.proves.present size hsize
    rw [Option.mem_def.mp hsize, lastReturned]
    omega
  obtain ⟨rfl, rfl, hsame⟩ := hrange.unique hnames hordered hbeyond
  rw [← hsame] at htotal
  -- the window stops at the end of the version, which an open total leaves behind it
  have hlast : lastReturned accepted.receipt.totalSize request.offset request.length =
      min (request.offset + request.length - 1) (version.bytes.length - 1) := by
    cases hsize : accepted.receipt.totalSize with
    | none =>
        rw [hsize] at hinside
        have hopen : request.offset + request.length - 1 < version.bytes.length := hinside
        show request.offset + request.length - 1 = _
        omega
    | some size =>
        rw [htotal size hsize]
        rfl
  have hpositive := haccepted.positive
  have hfits := haccepted.fits
  have hwidth := haccepted.width
  have hproves := haccepted.proves.returned
  rw [hlast] at hinside hordered hconveys hwidth hproves
  have hwindow : (version.bytes.drop request.offset).take
      (min (request.offset + request.length - 1) (version.bytes.length - 1) + 1 - request.offset)
        = (version.bytes.drop request.offset).take request.length := by
    apply List.take_eq_take_iff.mpr
    rw [List.length_drop]
    omega
  rw [hwindow] at hconveys
  refine ⟨version, hselects, ⟨hpositive, by omega, by omega⟩,
    ⟨⟨htotal, False.elim⟩, haccepted.proves.requested, hproves, version.bytes_lt⟩, ?_,
    hbody ▸ hconveys⟩
  rw [haccepted.remaining, List.length_take, List.length_drop]
  congr 1
  omega

end S3Provider

end Storageprims

import Storageprims.Ops.RangeReceipt
import Storageprims.S3.GuardedReads

/-!
# What an accepted response proves

A guarded read returns a receipt only for a response that carries the selected
identity, and the receipt says no more than the response proved.  The operations
layer checks range receipts again with arithmetic of its own; the two agree.
-/

namespace Storageprims

/-- The response is no delete marker and repeats the selected token byte for byte. -/
def CarriesIdentity (selector : SourceSelector) (response : ServiceResponse) : Prop :=
  response.deleteMarker ≠ some true ∧
    match selector with
    | .nativeVersion token => response.versionId = some token ∧ token ≠ "null"
    | .validatorMatch token => response.eTag = some token ∧ validateStrongEtag token = .ok ()

/-- A content range in so many words: the window from `start` to `last`, in a source
of `total` bytes or of an open total. -/
def NamesRange (text : String) (start last : Nat) (total : Option Nat) : Prop :=
  ∃ startText lastText totalText,
    text = "bytes " ++ startText ++ "-" ++ lastText ++ "/" ++ totalText ∧
    (parseU64 startText).map (·.val) = some start ∧
    (parseU64 lastText).map (·.val) = some last ∧
    match total with
    | none => totalText = "*"
    | some total => (parseU64 totalText).map (·.val) = some total

/-- The whole of a source of `total` bytes, which has no window when it is empty. -/
def IsWholeWindow (returnedWindow : Option ByteWindow) : Option Nat → Prop
  | some (last + 1) => ∃ window, returnedWindow = some window ∧ window.start = 0 ∧
      window.last = last
  | _ => returnedWindow = none

/-! ## The checks, one by one -/

theorem observedNativeVersion_eq_some_iff {version : Option String} {token : String} :
    observedNativeVersion version = some token ↔ version = some token ∧ token ≠ "null" := by
  unfold observedNativeVersion
  rw [Option.filter_eq_some_iff]
  simp

/-- The identity check passes exactly the evidence that repeats the token. -/
theorem checkIdentity_ok_iff {selector : SourceSelector} (hvalid : selector.validate = .ok ())
    {nativeVersion validator : Option String} {operation : StorageOperation} :
    checkIdentity selector nativeVersion validator operation = .ok () ↔
      match selector with
      | .nativeVersion token => nativeVersion = some token
      | .validatorMatch token => validator = some token := by
  cases selector with
  | nativeVersion token => simp [checkIdentity]
  | validatorMatch token =>
      have hstrong : (SourceSelector.validatorMatch token).validate = .ok () := hvalid
      show (if _ ∨ _ then _ else _) = _ ↔ validator = some token
      by_cases hvalidator : validator = some token
      · simp [hvalidator, hstrong]
      · simp [hvalidator]

theorem checkDeleteMarker_ok_iff {response : ServiceResponse} {operation : StorageOperation}
    {key : String} :
    checkDeleteMarker response operation key = .ok () ↔ response.deleteMarker ≠ some true := by
  unfold checkDeleteMarker
  cases response.deleteMarker with
  | none => simp
  | some marker => cases marker <;> simp

theorem unsignedLength_eq_some_iff {length : Int64} {value : Fin u64Bound} :
    unsignedLength length = some value ↔ length.toInt = value.val := by
  unfold unsignedLength
  by_cases hsign : 0 ≤ length.toInt
  · rw [dif_pos hsign, Option.some.injEq]
    constructor
    · rintro rfl
      exact (Int.toNat_of_nonneg hsign).symm
    · intro hvalue
      apply Fin.ext
      show length.toInt.toNat = value.val
      omega
  · rw [dif_neg hsign]
    refine iff_of_false (by simp) ?_
    omega

/-- A content length passes when it is absent or not negative. -/
theorem checkedContentLength_ok_iff {length : Option Int64} {operation : StorageOperation}
    {value : Option (Fin u64Bound)} :
    checkedContentLength length operation = .ok value ↔
      length.map Int64.toInt = value.map fun value => (value.val : Int) := by
  unfold checkedContentLength
  cases length with
  | none => cases value <;> simp
  | some length =>
      simp only [Option.map_some]
      cases value with
      | none => cases unsignedLength length <;> simp
      | some value =>
          rw [Option.map_some, Option.some.injEq, ← unsignedLength_eq_some_iff]
          cases unsignedLength length <;> simp

/-- A receipt repeats the identity of its evidence, which is the selected one, and
takes its windows as given. -/
theorem checkedReceipt_ok {path : String} {selector : SourceSelector}
    {evidence : S3ReceiptEvidence} {requestedWindow returnedWindow : Option ByteWindow}
    {operation : StorageOperation} {receipt : SourceReceipt}
    (h : checkedReceipt path selector evidence requestedWindow returnedWindow operation
      = .ok receipt) :
    checkIdentity selector (observedNativeVersion evidence.versionId) evidence.etag operation
        = .ok () ∧
      ∃ totalSize, checkedContentLength evidence.contentLength operation = .ok totalSize ∧
        receipt.path = path ∧
        receipt.nativeVersion = observedNativeVersion evidence.versionId ∧
        receipt.validator = evidence.etag ∧ receipt.totalSize = totalSize.map (·.val) ∧
        receipt.requestedWindow = requestedWindow ∧ receipt.returnedWindow = returnedWindow := by
  obtain ⟨_, hidentity, h⟩ := except_bind_ok h
  obtain ⟨totalSize, htotal, h⟩ := except_bind_ok h
  cases h
  exact ⟨hidentity, totalSize, htotal, rfl, rfl, rfl, rfl, rfl, rfl⟩

theorem exists_checkedReceipt {selector : SourceSelector} {evidence : S3ReceiptEvidence}
    {operation : StorageOperation}
    (hidentity : checkIdentity selector (observedNativeVersion evidence.versionId) evidence.etag
      operation = .ok ())
    (hlength : ∀ length ∈ evidence.contentLength, 0 ≤ length.toInt)
    (path : String) (requestedWindow returnedWindow : Option ByteWindow) :
    ∃ receipt, checkedReceipt path selector evidence requestedWindow returnedWindow operation
      = .ok receipt := by
  have hsize : ∃ totalSize, checkedContentLength evidence.contentLength operation
      = .ok totalSize := by
    unfold checkedContentLength unsignedLength
    cases hpresent : evidence.contentLength with
    | none => exact ⟨none, rfl⟩
    | some length =>
        simp only [hlength length hpresent, dite_true]
        exact ⟨_, rfl⟩
  obtain ⟨totalSize, hsize⟩ := hsize
  unfold checkedReceipt
  simp only [hidentity, hsize, bind, Except.bind]
  exact ⟨_, rfl⟩

/-- What the identity check and the delete-marker check pass carries the identity. -/
theorem carriesIdentity_of_checks {selector : SourceSelector} (hvalid : selector.validate = .ok ())
    {response : ServiceResponse} {operation operation' : StorageOperation} {key : String}
    (hmarker : checkDeleteMarker response operation key = .ok ())
    (hidentity : checkIdentity selector (observedNativeVersion response.versionId) response.eTag
      operation' = .ok ()) :
    CarriesIdentity selector response := by
  refine ⟨checkDeleteMarker_ok_iff.mp hmarker, ?_⟩
  have hrepeats := (checkIdentity_ok_iff hvalid).mp hidentity
  cases selector with
  | nativeVersion token => exact observedNativeVersion_eq_some_iff.mp hrepeats
  | validatorMatch token => exact ⟨hrepeats, hvalid⟩

theorem parseTotal_ok {text : String} {last : Fin u64Bound} {operation : StorageOperation}
    {totalSize : Option (Fin u64Bound)} (h : parseTotal text last operation = .ok totalSize) :
    (match totalSize.map (·.val) with
      | none => text = "*"
      | some total => (parseU64 text).map (·.val) = some total) ∧
    ∀ total ∈ totalSize, last.val < total.val := by
  unfold parseTotal at h
  split at h
  · rename_i htext
    cases h
    exact ⟨htext, by simp⟩
  · split at h
    · cases h
    · rename_i total hparsed
      split at h
      · cases h
      · rename_i hbeyond
        cases h
        refine ⟨by rw [hparsed]; rfl, ?_⟩
        intro other hother
        obtain rfl := Option.some.inj hother
        omega

/-- A content range that parses names its window, the window does not run backwards,
and a total exceeds its last byte. -/
theorem parseContentRange_ok {value : Option String} {operation : StorageOperation}
    {parsed : ParsedContentRange} (h : parseContentRange value operation = .ok parsed) :
    ∃ text, value = some text ∧
      NamesRange text parsed.window.start parsed.window.last
        (parsed.totalSize.map (·.val)) ∧
      parsed.window.start ≤ parsed.window.last ∧
      ∀ total ∈ parsed.totalSize, parsed.window.last < total.val := by
  cases value with
  | none => cases h
  | some text =>
      refine ⟨text, rfl, ?_⟩
      unfold parseContentRange at h
      simp only at h
      split at h
      · cases h
      rename_i window total hfields
      obtain ⟨fields, hbytes, htotal⟩ := Option.bind_eq_some_iff.mp hfields
      split at h
      · cases h
      rename_i startText lastText hwindow
      have htext : text = "bytes " ++ startText ++ "-" ++ lastText ++ "/" ++ total := by
        rw [Str.stripFront_eq_some_iff.mp hbytes, Str.append_of_splitOnce htotal,
          Str.append_of_splitOnce hwindow]
        simp only [String.append_assoc]
      split at h
      · rename_i start last hstart hlast
        split at h
        · cases h
        rename_i hordered
        obtain ⟨totalSize, hsize, h⟩ := except_bind_ok h
        cases h
        obtain ⟨hnamed, hbeyond⟩ := parseTotal_ok hsize
        refine ⟨⟨startText, lastText, total, htext, ?_, ?_, hnamed⟩, Nat.not_lt.mp hordered,
          hbeyond⟩
        · rw [hstart, Option.map_some]
        · rw [hlast, Option.map_some]
      · cases h

/-! ## The operations -/

/-- What a whole read has shown when it is accepted. -/
structure GetAccepted (selection : GuardedReadSelection) (response : ServiceResponse)
    (accepted : DeclaredResponse) : Prop where
  identity : CarriesIdentity selection.selector response
  status : response.status = some 200
  repeats : accepted.receipt.nativeVersion = observedNativeVersion response.versionId ∧
    accepted.receipt.validator = response.eTag
  total : accepted.receipt.totalSize.map Int.ofNat = response.contentLength.map Int64.toInt
  window : IsWholeWindow accepted.receipt.returnedWindow accepted.receipt.totalSize
  range : ∀ text ∈ response.contentRange, ∃ total,
    accepted.receipt.totalSize = some total ∧ 0 < total ∧
      NamesRange text 0 (total - 1) (some total)

/-- What a range read has shown when it is accepted with a body of `returned` bytes. -/
structure RangeAccepted (request : GuardedRangeRequest) (response : ServiceResponse)
    (accepted : DeclaredResponse) (returned : Nat) : Prop where
  identity : CarriesIdentity request.selection.selector response
  repeats : accepted.receipt.nativeVersion = observedNativeVersion response.versionId ∧
    accepted.receipt.validator = response.eTag
  positive : 0 < request.length
  fits : request.offset + request.length - 1 < u64Bound
  proves : ProvesRange accepted.receipt request.offset request.length
  width : lastReturned accepted.receipt.totalSize request.offset request.length + 1
    = request.offset + returned
  returned_lt : returned < u64Bound
  named : ∃ text ∈ response.contentRange, NamesRange text request.offset
    (lastReturned accepted.receipt.totalSize request.offset request.length)
    accepted.receipt.totalSize
  declared : response.contentLength.map Int64.toInt = some (returned : Int)
  remaining : accepted.reader.remaining = some returned
  status : response.status = some 206 ∨ response.status = some 200 ∧ request.offset = 0 ∧
    accepted.receipt.totalSize = some returned

/-- The window of a whole response: all of a non-empty source of the content length,
which a content range has to name as well. -/
theorem validateFullGetResponse_ok {status : UInt16} {contentRange : Option String}
    {contentLength : Option (Fin u64Bound)} {window : Option ByteWindow}
    (h : validateFullGetResponse status contentRange contentLength = .ok window) :
    status = 200 ∧ IsWholeWindow window (contentLength.map (·.val)) ∧
      ∀ text ∈ contentRange, ∃ total, contentLength.map (·.val) = some total ∧ 0 < total ∧
        NamesRange text 0 (total - 1) (some total) := by
  unfold validateFullGetResponse at h
  split at h
  · cases h
  rename_i hstatus
  refine ⟨not_not.mp hstatus, ?_⟩
  -- without a range header the length alone says what was returned
  cases contentRange with
  | none =>
      cases h
      refine ⟨?_, by simp⟩
      cases contentLength with
      | none => rfl
      | some length =>
          obtain ⟨value, hvalue⟩ := length
          cases value with
          | zero => rfl
          | succ last => exact ⟨_, rfl, rfl, rfl⟩
  | some text =>
      obtain ⟨parsed, hparsed, h⟩ := except_bind_ok h
      obtain ⟨other, hother, hnames, -, -⟩ := parseContentRange_ok hparsed
      obtain rfl := Option.some.inj hother
      cases hlen : parsed.window.checkedLen with
      | none =>
          rw [hlen] at h
          cases h
      | some returned =>
          rw [hlen] at h
          simp only at h
          split at h
          · cases h
          rename_i hwhole
          rw [not_or, not_or, not_not, not_not, not_not] at hwhole
          -- the window starts at the front and is as long as the total and the body
          obtain ⟨hstart, htotal, hlength⟩ := hwhole
          obtain ⟨hordered, hwidth, -⟩ := ByteWindow.checkedLen_eq_some_iff.mp hlen
          cases h
          rw [hstart, htotal] at hnames
          rw [hlength]
          obtain ⟨last, rfl⟩ : ∃ last, returned = last + 1 := ⟨returned - 1, by omega⟩
          refine ⟨⟨_, rfl, hstart, by omega⟩, ?_⟩
          intro shown hshown
          obtain rfl := Option.some.inj hshown
          refine ⟨last + 1, rfl, by omega, ?_⟩
          rw [show last + 1 - 1 = parsed.window.last by omega]
          exact hnames

theorem checkLength_ok {operation : StorageOperation} {length : Nat}
    (h : checkLength operation length = .ok ()) : 0 < length := by
  unfold checkLength at h
  split at h
  · cases h
  · omega

theorem requestedRange_ok {operation : StorageOperation} {offset length : Nat}
    {requested : ByteWindow} (h : requestedRange operation offset length = .ok requested) :
    requested.start = offset ∧ requested.last = offset + (length - 1) := by
  unfold requestedRange at h
  split at h
  · rename_i last hlast
    cases h
    exact ⟨rfl, (checkedAdd_eq_some_iff.mp hlast).2.symm⟩
  · cases h

theorem exists_requestedRange (operation : StorageOperation) {offset length : Nat}
    (hpos : 0 < length) (hfits : offset + length - 1 < u64Bound) :
    ∃ requested, requestedRange operation offset length = .ok requested := by
  have hadd : checkedAdd offset (length - 1) = some (offset + length - 1) :=
    checkedAdd_eq_some_iff.mpr ⟨by omega, by omega⟩
  unfold requestedRange
  split
  · exact ⟨_, rfl⟩
  · rename_i hnone
    rw [hadd] at hnone
    cases hnone

/-- The header of the request names the requested window. -/
theorem rangeHeader_of_requestedRange {operation : StorageOperation} {offset length : Nat}
    {requested : ByteWindow} (h : requestedRange operation offset length = .ok requested) :
    rangeHeader operation offset length
      = .ok ("bytes=" ++ toString offset ++ "-" ++ toString requested.last) := by
  obtain ⟨-, hlast⟩ := requestedRange_ok h
  have hbound := requested.last_lt
  unfold rangeHeader
  rw [checkedAdd_eq_some_iff.mpr ⟨by omega, hlast.symm⟩]

/-- The window expected of a response that has the first byte ends where a range
over its total ends. -/
theorem expectedRange_ok {requested expected : ByteWindow} {totalSize : Option (Fin u64Bound)}
    {length : Nat} (hlast : requested.last = requested.start + length - 1)
    (h : expectedRange requested totalSize = .ok expected) :
    (∀ total ∈ totalSize.map (·.val), requested.start < total) ∧
      expected.start = requested.start ∧
      expected.last = lastReturned (totalSize.map (·.val)) requested.start length := by
  unfold expectedRange at h
  cases totalSize with
  | none =>
      cases h
      exact ⟨by simp, rfl, hlast⟩
  | some total =>
      simp only at h
      split at h
      · cases h
      · rename_i hpresent
        cases h
        refine ⟨?_, rfl, ?_⟩
        · intro other hother
          obtain rfl := Option.some.inj hother
          exact Nat.not_le.mp hpresent
        · show min requested.last (total.val - 1) = min _ _
          rw [hlast]

theorem recordedStatus_ok {response : ServiceResponse} {operation : StorageOperation}
    {detail : String} {status : UInt16}
    (h : recordedStatus response operation detail = .ok status) :
    response.status = some status := by
  unfold recordedStatus at h
  split at h
  · rename_i recorded hrecorded
    rw [hrecorded, Except.ok.inj h]
  · cases h

theorem checkRangeWindow_ok {returned : ParsedContentRange} {expected : ByteWindow}
    {returnedLength : Nat} (h : checkRangeWindow returned expected = .ok returnedLength) :
    returned.window = expected ∧ returned.window.checkedLen = some returnedLength := by
  unfold checkRangeWindow at h
  split at h
  · cases h
  · rename_i hsame
    split at h
    · cases h
    · rename_i width hlen
      cases h
      exact ⟨not_not.mp hsame, hlen⟩

theorem checkRangeLength_ok {value : Option Int64} {returnedLength : Nat}
    {contentLength : Fin u64Bound}
    (h : checkRangeLength value returnedLength = .ok contentLength) :
    contentLength.val = returnedLength ∧ value.map Int64.toInt = some (returnedLength : Int) := by
  obtain ⟨declared, hdeclared, h⟩ := except_bind_ok h
  cases declared with
  | none => cases h
  | some length =>
      simp only at h
      split at h
      · cases h
      · rename_i hsame
        cases h
        have hlength := not_not.mp hsame
        refine ⟨hlength, ?_⟩
        rw [checkedContentLength_ok_iff.mp hdeclared, Option.map_some, hlength]

theorem checkRangeStatus_ok {status : UInt16} {returned : ParsedContentRange}
    {expected : ByteWindow} {returnedLength : Nat}
    (h : checkRangeStatus status returned expected returnedLength = .ok ()) :
    status = 206 ∨ status = 200 ∧ returned.window.start = 0 ∧
      returned.totalSize.map (·.val) = some returnedLength := by
  unfold checkRangeStatus at h
  split at h
  · cases h
  rename_i hwhole
  split at h
  · cases h
  rename_i hsuccess
  by_cases hfull : status = 200
  · have hproved := not_not.mp (not_and.mp hwhole hfull)
    exact .inr ⟨hfull, hproved.1, hproved.2.1⟩
  · exact .inl (not_not.mp (not_and.mp hsuccess hfull))

namespace S3Provider

variable {provider : S3Provider} {service : GuardedService}

theorem guardedHead_ok {selection : GuardedReadSelection} {receipt : SourceReceipt}
    (h : provider.guardedHead service selection = .ok receipt) :
    ∃ call response, provider.guardedHeadCalls selection = .ok [call] ∧
      service call = .ok response ∧ CarriesIdentity selection.selector response ∧
      receipt.nativeVersion = observedNativeVersion response.versionId ∧
      receipt.validator = response.eTag := by
  obtain ⟨target, htarget, h⟩ := except_bind_ok h
  obtain ⟨response, hresponse, h⟩ := except_bind_ok h
  obtain ⟨_, hmarker, h⟩ := except_bind_ok h
  obtain ⟨hidentity, totalSize, -, -, hversion, hvalidator, -⟩ := checkedReceipt_ok h
  refine ⟨_, response, ?_, hresponse,
    carriesIdentity_of_checks selection.selector_valid hmarker hidentity, hversion, hvalidator⟩
  unfold guardedHeadCalls
  rw [htarget]
  rfl

theorem guardedGet_ok {selection : GuardedReadSelection} {accepted : DeclaredResponse}
    (h : provider.guardedGet service selection = .ok accepted) :
    ∃ call response, provider.guardedGetCalls selection = .ok [call] ∧
      service call = .ok response ∧ GetAccepted selection response accepted := by
  obtain ⟨target, htarget, h⟩ := except_bind_ok h
  obtain ⟨response, hresponse, h⟩ := except_bind_ok h
  obtain ⟨_, hmarker, h⟩ := except_bind_ok h
  obtain ⟨contentLength, hlength, h⟩ := except_bind_ok h
  obtain ⟨status, hstatus, h⟩ := except_bind_ok h
  obtain ⟨window, hwindow, h⟩ := except_bind_ok h
  obtain ⟨receipt, hreceipt, h⟩ := except_bind_ok h
  cases h
  obtain ⟨hidentity, totalSize, htotal, -, hversion, hvalidator, hsize, -, hreturned⟩ :=
    checkedReceipt_ok hreceipt
  -- the receipt reads the content length a second time, and finds the same
  obtain rfl : totalSize = contentLength := Except.ok.inj (htotal.symm.trans hlength)
  obtain ⟨rfl, hwhole, hrange⟩ := validateFullGetResponse_ok hwindow
  refine ⟨_, response, ?_, hresponse, ?_⟩
  · unfold guardedGetCalls
    rw [htarget]
    rfl
  · constructor
    case identity => exact carriesIdentity_of_checks selection.selector_valid hmarker hidentity
    case status => exact recordedStatus_ok hstatus
    case repeats => exact ⟨hversion, hvalidator⟩
    case total =>
      rw [checkedContentLength_ok_iff.mp hlength, hsize, Option.map_map]
      rfl
    case window =>
      rw [hreturned, hsize]
      exact hwhole
    case range =>
      rw [hsize]
      exact hrange

theorem guardedGetRange_ok {request : GuardedRangeRequest} {accepted : DeclaredResponse}
    (h : provider.guardedGetRange service request = .ok accepted) :
    ∃ call response returned, provider.guardedGetRangeCalls request = .ok [call] ∧
      service call = .ok response ∧ RangeAccepted request response accepted returned := by
  obtain ⟨_, hlength, h⟩ := except_bind_ok h
  obtain ⟨requested, hrequested, h⟩ := except_bind_ok h
  obtain ⟨target, htarget, h⟩ := except_bind_ok h
  obtain ⟨response, hresponse, h⟩ := except_bind_ok h
  obtain ⟨status, hstatus, h⟩ := except_bind_ok h
  obtain ⟨_, hmarker, h⟩ := except_bind_ok h
  obtain ⟨returned, hreturned, h⟩ := except_bind_ok h
  obtain ⟨expected, hexpected, h⟩ := except_bind_ok h
  obtain ⟨width, hwindow, h⟩ := except_bind_ok h
  obtain ⟨_, hcode, h⟩ := except_bind_ok h
  obtain ⟨contentLength, hdeclared, h⟩ := except_bind_ok h
  obtain ⟨receipt, hreceipt, h⟩ := except_bind_ok h
  cases h
  obtain ⟨hidentity, -, -, -, hversion, hvalidator, -, hasked, hanswer⟩ :=
    checkedReceipt_ok hreceipt
  obtain ⟨rfl, hlen⟩ := checkRangeWindow_ok hwindow
  obtain ⟨hstart, hlast⟩ := requestedRange_ok hrequested
  obtain ⟨text, htext, hnames, -, -⟩ := parseContentRange_ok hreturned
  obtain ⟨hdeclaredLen, hcontent⟩ := checkRangeLength_ok hdeclared
  obtain ⟨hordered, hwidth, hfits⟩ := ByteWindow.checkedLen_eq_some_iff.mp hlen
  have hpos := checkLength_ok hlength
  have hbound := requested.last_lt
  have hlast' : requested.last = requested.start + request.length - 1 := by omega
  -- the receipt takes its total from the content range and not from the content length
  obtain ⟨hpresent, hfirst, hend⟩ := expectedRange_ok hlast' hexpected
  rw [hstart] at hpresent hfirst hend
  refine ⟨_, response, width, ?_, hresponse, ?_⟩
  · unfold guardedGetRangeCalls
    rw [hlength, rangeHeader_of_requestedRange hrequested]
    simp only [bind, Except.bind, htarget]
    rfl
  · constructor
    case identity =>
      exact carriesIdentity_of_checks request.selection.selector_valid hmarker hidentity
    case repeats => exact ⟨hversion, hvalidator⟩
    case positive => exact hpos
    case fits => omega
    case proves =>
      exact ⟨⟨requested, hasked, hstart, by omega⟩, hpresent, returned.window, hanswer, hfirst,
        hend⟩
    case width =>
      show lastReturned (returned.totalSize.map (·.val)) _ _ + 1 = _
      omega
    case returned_lt => exact hfits
    case named =>
      refine ⟨text, htext, ?_⟩
      show NamesRange text _ (lastReturned (returned.totalSize.map (·.val)) _ _)
        (returned.totalSize.map (·.val))
      rw [← hend, ← hfirst]
      exact hnames
    case declared => exact hcontent
    case remaining => exact congrArg some hdeclaredLen
    case status =>
      rw [recordedStatus_ok hstatus]
      rcases checkRangeStatus_ok hcode with rfl | ⟨rfl, hzero, htotal⟩
      · exact .inl rfl
      · exact .inr ⟨rfl, by omega, htotal⟩

/-- The two sides of a guarded range agree.  Whatever response the provider accepts,
its receipt passes the check of the operations layer, with the length that the
response declared and that the body is held to; the receipt names the requested
window and the part of it that lies in the source; and status 200 is accepted for
the whole source only. -/
theorem guardedGetRange_validated (provider : S3Provider) (service : GuardedService)
    (request : GuardedRangeRequest) (accepted : DeclaredResponse) (operation : StorageOperation)
    (h : provider.guardedGetRange service request = .ok accepted) :
    ∃ call response returned, provider.guardedGetRangeCalls request = .ok [call] ∧
      service call = .ok response ∧
      validateGuardedRangeReceipt accepted.receipt request.offset request.length operation
        = .ok returned ∧
      response.contentLength.map Int64.toInt = some (returned : Int) ∧
      accepted.reader.remaining = some returned ∧
      ProvesRange accepted.receipt request.offset request.length ∧
      (response.status = some 206 ∨ response.status = some 200) ∧
      (response.status = some 200 →
        request.offset = 0 ∧ accepted.receipt.totalSize = some returned) := by
  obtain ⟨call, response, returned, hcalls, hresponse, haccepted⟩ := guardedGetRange_ok h
  refine ⟨call, response, returned, hcalls, hresponse, ?_, haccepted.declared,
    haccepted.remaining, haccepted.proves, ?_, ?_⟩
  · apply (validateGuardedRangeReceipt_ok_iff haccepted.positive haccepted.fits).mpr
    exact ⟨haccepted.proves, haccepted.width, haccepted.returned_lt⟩
  · rcases haccepted.status with hclipped | ⟨hfull, -⟩
    · exact .inl hclipped
    · exact .inr hfull
  · intro hfull
    rcases haccepted.status with hclipped | ⟨-, hwhole⟩
    · rw [hclipped] at hfull
      cases hfull
    · exact hwhole

/-- The end of an object, asked for with more bytes than it has. -/
theorem guardedGetRange_validated_clipped :
    let provider : S3Provider := ⟨"bucket", none, none, by decide⟩
    let selection : GuardedReadSelection :=
      ⟨"s3|aws|bucket|", "k", .nativeVersion "v1", rfl, by decide⟩
    let response : ServiceResponse :=
      ⟨some 206, none, some "v1", none, some 2, some "bytes 1-2/3", none, none, none, 0⟩
    let receipt : SourceReceipt := {
      path := "k"
      nativeVersion := some "v1"
      validator := none
      totalSize := some 3
      requestedWindow := some ⟨1, 5, by decide, by decide⟩
      returnedWindow := some ⟨1, 2, by decide, by decide⟩
      totalSize_lt := by decide }
    provider.guardedGetRange (fun _ => .ok response) ⟨selection, 1, 5⟩
        = .ok ⟨receipt, ⟨0, some 2, false⟩⟩ ∧
      ∃ returned, validateGuardedRangeReceipt receipt 1 5 .previewBytes = .ok returned ∧
        response.contentLength.map Int64.toInt = some (returned : Int) := by
  intro provider selection response receipt
  have haccepted : provider.guardedGetRange (fun _ => .ok response) ⟨selection, 1, 5⟩
      = .ok ⟨receipt, ⟨0, some 2, false⟩⟩ := by decide +kernel
  obtain ⟨_, _, returned, -, hresponse, hvalid, hlength, -⟩ :=
    guardedGetRange_validated provider _ _ _ .previewBytes haccepted
  cases hresponse
  exact ⟨haccepted, returned, hvalid, hlength⟩

theorem observeSource_ok {key : String} {observation : SourceObservation}
    (h : provider.observeSource service key = .ok observation) :
    ∃ call response, provider.observeSourceCalls key = .ok [call] ∧
      service call = .ok response ∧ response.deleteMarker ≠ some true ∧
      observation.receipt.nativeVersion = observedNativeVersion response.versionId ∧
      observation.receipt.validator = response.eTag := by
  obtain ⟨target, htarget, h⟩ := except_bind_ok h
  obtain ⟨response, hresponse, h⟩ := except_bind_ok h
  obtain ⟨_, hmarker, h⟩ := except_bind_ok h
  cases h
  refine ⟨_, response, ?_, hresponse, checkDeleteMarker_ok_iff.mp hmarker, rfl, rfl⟩
  unfold observeSourceCalls
  rw [htarget]
  rfl

end S3Provider

/-- What an observation has named and bound is found again in every response that
repeats it. -/
theorem checkIdentity_of_observed {receipt : SourceReceipt} {selector : SourceSelector}
    (hobserved : observedSelector receipt = some selector)
    (hvalid : selector.validate = .ok ()) {nativeVersion validator : Option String}
    (hversion : nativeVersion = receipt.nativeVersion) (hvalidator : validator = receipt.validator)
    (operation : StorageOperation) :
    checkIdentity selector nativeVersion validator operation = .ok () := by
  apply (checkIdentity_ok_iff hvalid).mpr
  unfold observedSelector at hobserved
  split at hobserved
  · rename_i token htoken
    cases hobserved
    rw [hversion, htoken]
  · split at hobserved
    · rename_i token htoken
      cases hobserved
      rw [hvalidator, htoken]
    · cases hobserved

/-- Guarded receipts are truthful.  Each guarded read succeeds only on a response that
carries the selected identity and is no delete marker, and its receipt repeats that
response; a whole read succeeds only with status 200, and its size and window are
those of the declared body, which a content range has to name as well.  In return, a
selection that was bound from an observation is found in every response that repeats
the observed identity and does not declare a negative length. -/
theorem guarded_receipts_truthful :
    (∀ (provider : S3Provider) service selection receipt,
      provider.guardedHead service selection = .ok receipt →
      ∃ call response, provider.guardedHeadCalls selection = .ok [call] ∧
        service call = .ok response ∧ CarriesIdentity selection.selector response ∧
        receipt.nativeVersion = observedNativeVersion response.versionId ∧
        receipt.validator = response.eTag) ∧
    (∀ (provider : S3Provider) service selection accepted,
      provider.guardedGet service selection = .ok accepted →
      ∃ call response, provider.guardedGetCalls selection = .ok [call] ∧
        service call = .ok response ∧ GetAccepted selection response accepted) ∧
    (∀ (provider : S3Provider) service request accepted,
      provider.guardedGetRange service request = .ok accepted →
      ∃ call response, provider.guardedGetRangeCalls request = .ok [call] ∧
        service call = .ok response ∧ CarriesIdentity request.selection.selector response ∧
        accepted.receipt.nativeVersion = observedNativeVersion response.versionId ∧
        accepted.receipt.validator = response.eTag) ∧
    (∀ (provider : S3Provider) service key observation,
      provider.observeSource service key = .ok observation →
      ∃ call response, provider.observeSourceCalls key = .ok [call] ∧
        service call = .ok response ∧ response.deleteMarker ≠ some true ∧
        observation.receipt.nativeVersion = observedNativeVersion response.versionId ∧
        observation.receipt.validator = response.eTag) ∧
    ∀ observed selector targetIdentity key selection,
      observedSelector observed = some selector →
      GuardedReadSelection.bind targetIdentity key selector = .ok selection →
      ∀ response : ServiceResponse,
        observedNativeVersion response.versionId = observed.nativeVersion →
        response.eTag = observed.validator →
        (∀ length ∈ response.contentLength, 0 ≤ length.toInt) →
        ∀ path requestedWindow returnedWindow operation, ∃ receipt,
          checkedReceipt path selection.selector response.evidence requestedWindow
            returnedWindow operation = .ok receipt := by
  refine ⟨?_, ?_, ?_, ?_, ?_⟩
  · intro provider service selection receipt h
    exact S3Provider.guardedHead_ok h
  · intro provider service selection accepted h
    exact S3Provider.guardedGet_ok h
  · intro provider service request accepted h
    obtain ⟨call, response, returned, hcalls, hresponse, haccepted⟩ :=
      S3Provider.guardedGetRange_ok h
    exact ⟨call, response, hcalls, hresponse, haccepted.identity, haccepted.repeats⟩
  · intro provider service key observation h
    exact S3Provider.observeSource_ok h
  · intro observed selector targetIdentity key selection hobserved hbind response hversion
      hvalidator hlength path requestedWindow returnedWindow operation
    obtain ⟨-, -, rfl⟩ := GuardedReadSelection.bind_ok hbind
    apply exists_checkedReceipt ?_ hlength
    exact checkIdentity_of_observed hobserved selection.selector_valid hversion hvalidator _

/-- A selection that was bound from an observation is found by the head that follows it. -/
theorem guarded_receipts_truthful_head :
    let provider : S3Provider := ⟨"bucket", none, none, by decide⟩
    let response : ServiceResponse :=
      ⟨some 200, none, none, some "\"t\"", some 2, none, none, none, none, 0⟩
    let selection : GuardedReadSelection :=
      ⟨provider.guardedTargetIdentity, "a", .validatorMatch "\"t\"", by decide +kernel, by decide⟩
    ∃ receipt, provider.guardedHead (fun _ => .ok response) selection = .ok receipt ∧
      receipt.validator = some "\"t\"" ∧ CarriesIdentity selection.selector response := by
  intro provider response selection
  obtain ⟨hhead, -, -, hobserve, hbound⟩ := guarded_receipts_truthful
  have hobserved : ∃ observation, provider.observeSource (fun _ => .ok response) "a"
      = .ok observation ∧ observedSelector observation.receipt = some selection.selector :=
    ⟨_, rfl, rfl⟩
  obtain ⟨observation, hobservation, hselector⟩ := hobserved
  obtain ⟨_, _, -, hsame, -, hversion, hvalidator⟩ := hobserve provider _ "a" _ hobservation
  cases hsame
  have hbind : GuardedReadSelection.bind provider.guardedTargetIdentity "a" selection.selector
      = .ok selection := by decide +kernel
  have hlength : ∀ length ∈ response.contentLength, 0 ≤ length.toInt := by
    rintro length ⟨⟩
    decide
  obtain ⟨receipt, hreceipt⟩ := hbound _ _ _ _ selection hselector hbind response hversion.symm
    hvalidator.symm hlength "a" none none .guardedHead
  have hchecked : provider.guardedHead (fun _ => .ok response) selection
      = checkedReceipt "a" selection.selector response.evidence none none .guardedHead := by
    decide +kernel
  have hheaded := hchecked.trans hreceipt
  obtain ⟨_, _, -, hsame, hcarries, -, hrepeats⟩ := hhead provider _ selection _ hheaded
  cases hsame
  exact ⟨receipt, hheaded, hrepeats, hcarries⟩

end Storageprims

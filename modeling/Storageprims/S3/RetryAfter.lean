import Storageprims.S3.Errors

/-!
# Stated delays

A throttled request is retried after the delay that its response states.  The header states
it as a number of seconds or as a date, and the code reads the first number of either.
-/

namespace Storageprims

/-- The header states the delay: it is a decimal number of seconds and nothing else. -/
def StatesDelay (value : String) (delay : Duration) : Prop :=
  ∃ seconds, seconds < u64Bound ∧ Str.Denotes (Str.trim value) seconds ∧
    delay = Duration.fromSecs seconds

/-- The errors that the operations make of a failure of the service client. -/
inductive ReportedAs (failure : SdkError) : StorageError → Prop where
  | plain (provider : ProviderKind) (operation : StorageOperation)
      (target container : Option String) :
      ReportedAs failure (mapSdkError provider operation target container failure)
  | put (target container : Option String) (precondition : PutPreconditionKind) :
      ReportedAs failure (mapPutError target container precondition failure)
  | guarded (operation : StorageOperation) (selector : SourceSelector)
      (target container : Option String) :
      ReportedAs failure (mapGuardedSdkError operation selector target container failure)
  | list (hasContinuation : Bool) :
      ReportedAs failure (mapDelimiterListError failure hasContinuation)

/-- A header value is never misread: it gives the delay it states or none, and so do the
errors that quote it. -/
structure ReadAsStated (value : String) : Prop where
  parsed : ∀ delay, parseRetryAfterValue value = some delay ↔ StatesDelay value delay
  reported : ∀ failure provider operation delay,
    ReportedAs failure (.throttled provider operation (some delay)) →
      ∃ context given, failure = .serviceError context ∧
        context.header "retry-after" = some given ∧ (given = value → StatesDelay value delay)

/-! ## What is read -/

/-- The delay that is read is the first number of the value, if it fits. -/
theorem parseRetryAfterValue_eq_some_iff {value : String} {delay : Duration} :
    parseRetryAfterValue value = some delay ↔
      ∃ seconds, seconds < u64Bound ∧ Str.FirstNumber value seconds ∧
        delay = Duration.fromSecs seconds := by
  constructor
  · intro h
    -- a value without a digit has no first number, and nothing is read
    by_cases hdigit : ∃ c ∈ value.toList, c.isDigit = true
    · obtain ⟨c, hmem, hc⟩ := hdigit
      obtain ⟨n, hfirst⟩ := Str.exists_firstNumber hmem hc
      obtain ⟨digits, hdigits, hdenotes⟩ := hfirst.firstDigits
      rw [parseRetryAfterValue, hdigits, Option.bind_some, Option.map_eq_some_iff] at h
      obtain ⟨seconds, hseconds, rfl⟩ := h
      have hval := congrArg (Option.map (·.val)) hseconds
      rw [Option.map_some, hdenotes.parseBelow_eq_some_iff] at hval
      exact ⟨seconds.val, hval.1, hval.2 ▸ hfirst, rfl⟩
    · push Not at hdigit
      rw [parseRetryAfterValue, Str.firstDigits_eq_none fun c hc => by simpa using hdigit c hc] at h
      cases h
  · rintro ⟨n, hlt, hfirst, rfl⟩
    obtain ⟨digits, hdigits, hdenotes⟩ := hfirst.firstDigits
    have hval : (Str.parseBelow u64Bound (String.ofList digits)).map (·.val) = some n :=
      hdenotes.parseBelow_eq_some_iff.mpr ⟨hlt, rfl⟩
    obtain ⟨seconds, hseconds, rfl⟩ := Option.map_eq_some_iff.mp hval
    rw [parseRetryAfterValue, hdigits, Option.bind_some, hseconds, Option.map_some]

/-! ## What is reported -/

section

variable {failure : SdkError} {error : StorageError} {delay : Duration}

theorem mapSdkError_retryAfter {provider : ProviderKind} {operation : StorageOperation}
    {target container : Option String}
    (h : (mapSdkError provider operation target container failure).retryAfter = some delay) :
    ∃ context, failure = .serviceError context ∧ context.retryAfter = some delay := by
  unfold mapSdkError at h
  split at h
  · next context =>
      refine ⟨context, rfl, ?_⟩
      split at h <;> first | exact h | cases h
  all_goals cases h

theorem mapPutError_retryAfter {target container : Option String}
    {precondition : PutPreconditionKind}
    (h : (mapPutError target container precondition failure).retryAfter = some delay) :
    ∃ context, failure = .serviceError context ∧ context.retryAfter = some delay := by
  unfold mapPutError at h
  split at h
  · next context =>
      refine ⟨context, rfl, ?_⟩
      split at h <;> first | exact h | cases h
  all_goals cases h

/-- A guarded read has no delays of its own. -/
theorem mapGuardedSdkError_retryAfter {operation : StorageOperation} {selector : SourceSelector}
    {target container : Option String}
    (h : (mapGuardedSdkError operation selector target container failure).retryAfter
      = some delay) :
    (mapSdkError .s3 operation target container failure).retryAfter = some delay := by
  unfold mapGuardedSdkError at h
  dsimp only at h
  split at h
  · repeat' split at h
    all_goals first | exact h | cases h
  · exact h

theorem mapDelimiterListError_retryAfter {hasContinuation : Bool}
    (h : (mapDelimiterListError failure hasContinuation).retryAfter = some delay) :
    (mapSdkError .s3 .list none none failure).retryAfter = some delay := by
  unfold mapDelimiterListError at h
  split at h
  · cases h
  · exact h

/-- Every delay that is reported was read from the header of the response. -/
theorem ReportedAs.retryAfter (h : ReportedAs failure error)
    (hdelay : error.retryAfter = some delay) :
    ∃ context, failure = .serviceError context ∧ context.retryAfter = some delay := by
  cases h with
  | plain provider operation target container => exact mapSdkError_retryAfter hdelay
  | put target container precondition => exact mapPutError_retryAfter hdelay
  | guarded operation selector target container =>
      exact mapSdkError_retryAfter (mapGuardedSdkError_retryAfter hdelay)
  | list hasContinuation =>
      exact mapSdkError_retryAfter (mapDelimiterListError_retryAfter hdelay)

end

/-- The errors follow the header value. -/
theorem readAsStated_of_parsed {value : String}
    (hparsed : ∀ delay, parseRetryAfterValue value = some delay ↔ StatesDelay value delay) :
    ReadAsStated value := by
  refine ⟨hparsed, fun failure provider operation delay hreported => ?_⟩
  obtain ⟨context, hfailure, hretry⟩ := hreported.retryAfter rfl
  obtain ⟨given, hgiven, hread⟩ := Option.bind_eq_some_iff.mp hretry
  refine ⟨context, given, hfailure, hgiven, ?_⟩
  rintro rfl
  exact (hparsed delay).mp hread

/-- A header value is read as it was stated exactly when it is a number of seconds, holds no
digit, or holds a first number that is out of range.  Any other value passes for the delay
of its first number. -/
theorem retryAfter_readAsStated_iff (value : String) :
    ReadAsStated value ↔
      (∃ seconds, Str.Denotes (Str.trim value) seconds) ∨
      (∀ c ∈ value.toList, c.isDigit = false) ∨
      ∃ seconds, Str.FirstNumber value seconds ∧ u64Bound ≤ seconds := by
  constructor
  · intro hread
    by_cases hdigit : ∃ c ∈ value.toList, c.isDigit = true
    · obtain ⟨c, hmem, hc⟩ := hdigit
      obtain ⟨n, hfirst⟩ := Str.exists_firstNumber hmem hc
      rcases Nat.lt_or_ge n u64Bound with hlt | hge
      · obtain ⟨seconds, -, hstated, -⟩ :=
          (hread.parsed _).mp (parseRetryAfterValue_eq_some_iff.mpr ⟨n, hlt, hfirst, rfl⟩)
        exact .inl ⟨seconds, hstated⟩
      · exact .inr (.inr ⟨n, hfirst, hge⟩)
    · push Not at hdigit
      exact .inr (.inl fun c hc => by simpa using hdigit c hc)
  · intro hvalue
    refine readAsStated_of_parsed fun delay => ?_
    rw [parseRetryAfterValue_eq_some_iff]
    constructor
    · rintro ⟨n, hlt, hfirst, hdelay⟩
      -- a stated number is the first one, and the other two kinds have none to read
      rcases hvalue with ⟨seconds, hstated⟩ | hnone | ⟨seconds, hbig, hge⟩
      · obtain rfl := hfirst.unique hstated.firstNumber_of_trim
        exact ⟨n, hlt, hstated, hdelay⟩
      · exact absurd hfirst (Str.not_firstNumber hnone)
      · rw [hfirst.unique hbig] at hlt
        omega
    · rintro ⟨seconds, hlt, hstated, hdelay⟩
      exact ⟨seconds, hlt, hstated.firstNumber_of_trim, hdelay⟩

/-- The day of a date is read as a delay. -/
theorem retryAfter_date_misread : ¬ ∀ value, ReadAsStated value := by
  intro hread
  have hday : parseRetryAfterValue "Wed, 21 Oct 2015 07:28:00 GMT"
      = some (Duration.fromSecs 21) := by decide +kernel
  obtain ⟨seconds, -, hstated, -⟩ := ((hread _).parsed _).mp hday
  exact absurd (hstated.2.1 'W' (by decide +kernel)) (by decide)

end Storageprims

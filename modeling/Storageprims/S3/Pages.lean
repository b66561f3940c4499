import Storageprims.S3.Listing

/-!
# What an accepted page says

A delimiter page is accepted exactly when it is well formed, and then its rows are
projected without a loss.  The universal listing checks less: it never compares
the truncation flag with the token, and without a root it checks no row at all.
-/

namespace Storageprims

/-- The full key of the service that a path below the root stands for. -/
def fullKey (rootPrefix : Option String) (path : String) : String :=
  match rootPrefix with
  | some root => root ++ "/" ++ path
  | none => path

/-- A row or a common prefix that is present, lies below the root and stands for `path`. -/
def StandsFor (rootPrefix : Option String) (entry : Option String) (path : String) : Prop :=
  entry = some (fullKey rootPrefix path)

/-- A delimiter page as a caller may rely on it. -/
structure WellFormedPage (rootPrefix : Option String) (callerPrefix : String)
    (maxKeys : Option UInt32) (objectKeys commonPrefixes : List (Option String))
    (isTruncated : Bool) (continuationToken : Option String) : Prop where
  paired : isTruncated = true ↔ continuationToken ≠ none
  token_size : ∀ token ∈ continuationToken,
    1 ≤ (asBytes token).length ∧ (asBytes token).length ≤ 8192
  row_bound : objectKeys.length + commonPrefixes.length ≤ (delimiterPageBound maxKeys).toNat
  objects : ∀ entry ∈ objectKeys, ∃ path, StandsFor rootPrefix entry path ∧
    Str.startsWith callerPrefix path
  prefixes : ∀ entry ∈ commonPrefixes, ∃ path, StandsFor rootPrefix entry path ∧
    Str.startsWith callerPrefix path ∧ path ≠ ""
  disjoint : ∀ entry ∈ commonPrefixes, ∀ path, StandsFor rootPrefix entry path →
    ∀ key ∈ objectKeys, ¬ StandsFor rootPrefix key path

/-! ## Full keys -/

theorem fullKey_inj {rootPrefix : Option String} {path path' : String} :
    fullKey rootPrefix path = fullKey rootPrefix path' ↔ path = path' := by
  cases rootPrefix with
  | none => exact Iff.rfl
  | some root => exact String.append_right_inj _

theorem standsFor_unique {rootPrefix entry : Option String} {path path' : String}
    (hpath : StandsFor rootPrefix entry path) (hpath' : StandsFor rootPrefix entry path') :
    path = path' :=
  fullKey_inj.mp (Option.some.inj (hpath.symm.trans hpath'))

/-- Stripping the root undoes `fullKey`, and nothing else strips. -/
theorem stripRootPrefix_ok_iff {rootPrefix : Option String} (hroot : rootPrefix ≠ some "")
    {full path : String} :
    stripRootPrefix rootPrefix full = .ok path ↔ full = fullKey rootPrefix path := by
  cases rootPrefix with
  | none =>
      rw [stripRootPrefix_none]
      exact ⟨Except.ok.inj, congrArg Except.ok⟩
  | some root =>
      apply stripRootPrefix_some_iff
      rintro rfl
      exact hroot rfl

/-- The root of a provider is absent or not empty. -/
theorem S3Provider.rootPrefix_ne_empty (provider : S3Provider) :
    provider.rootPrefix ≠ some "" := by
  intro hroot
  have hnormal := provider.rootPrefix_normal
  rw [hroot] at hnormal
  exact hnormal.ne_empty rfl

/-- Entries that all stand for some path are the full keys of a list of paths. -/
theorem entries_iff {rootPrefix : Option String} {entries : List (Option String)}
    {admits : String → Prop} :
    (∃ paths : List String, entries = paths.map (fun path => some (fullKey rootPrefix path)) ∧
      ∀ path ∈ paths, admits path) ↔
    ∀ entry ∈ entries, ∃ path, StandsFor rootPrefix entry path ∧ admits path := by
  constructor
  · rintro ⟨paths, rfl, hadmits⟩ entry hentry
    obtain ⟨path, hpath, rfl⟩ := List.mem_map.mp hentry
    exact ⟨path, rfl, hadmits path hpath⟩
  · intro hentries
    induction entries with
    | nil => exact ⟨[], rfl, by simp⟩
    | cons entry entries ih =>
        obtain ⟨path, hpath, hallowed⟩ := hentries entry (by simp)
        obtain ⟨paths, hpaths, hrest⟩ := ih fun entry hentry => hentries entry (by simp [hentry])
        refine ⟨path :: paths, ?_, ?_⟩
        · rw [List.map_cons, ← hpaths]
          exact congrArg (· :: entries) hpath
        · simpa using ⟨hallowed, hrest⟩

/-! ## The page check -/

theorem countRow_ok_iff {pageBound rowCount count : Nat} (hbound : pageBound < u64Bound) :
    countRow pageBound rowCount = .ok count ↔ rowCount + 1 ≤ pageBound ∧ rowCount + 1 = count := by
  unfold countRow checkedAdd
  by_cases hrow : rowCount + 1 < u64Bound
  · rw [if_pos hrow]
    by_cases hpage : pageBound < rowCount + 1
    · simp only [if_pos hpage, reduceCtorEq, false_iff]
      omega
    · simp [hpage, Nat.not_lt.mp hpage]
  · rw [if_neg hrow]
    simp only [reduceCtorEq, false_iff]
    omega

/-- The first loop passes exactly the keys of paths under the caller's prefix that
fit the bound, and hands over the paths it has seen. -/
theorem validateObjects_ok_iff {rootPrefix : Option String} (hroot : rootPrefix ≠ some "")
    {callerPrefix : String} {pageBound : Nat} (hbound : pageBound < u64Bound)
    {keys : List (Option String)} {rowCount : Nat} (hrows : rowCount ≤ pageBound)
    {projected : List String} {counted : Nat × List String} :
    validateObjects rootPrefix callerPrefix pageBound keys rowCount projected = .ok counted ↔
      ∃ paths : List String, keys = paths.map (fun path => some (fullKey rootPrefix path)) ∧
        (∀ path ∈ paths, Str.startsWith callerPrefix path) ∧
        rowCount + paths.length ≤ pageBound ∧
        counted = (rowCount + paths.length, paths.reverse ++ projected) := by
  induction keys generalizing rowCount projected with
  | nil =>
      constructor
      · intro h
        cases h
        exact ⟨[], rfl, by simp, hrows, rfl⟩
      · rintro ⟨paths, hkeys, -, -, rfl⟩
        obtain rfl := List.map_eq_nil_iff.mp hkeys.symm
        rfl
  | cons key keys ih =>
      constructor
      · intro h
        -- the row is counted before its key is looked at
        obtain ⟨count, hcount, h⟩ := except_bind_ok h
        obtain ⟨hfits, rfl⟩ := (countRow_ok_iff hbound).mp hcount
        cases key with
        | none => cases h
        | some full =>
            obtain ⟨path, hpath, h⟩ := except_bind_ok h
            split at h
            · rename_i hstarts
              obtain ⟨paths, rfl, hpaths, hroom, rfl⟩ := (ih hfits).mp h
              rw [stripRootPrefix_ok_iff hroot] at hpath
              refine ⟨path :: paths, ?_, ?_, ?_, ?_⟩
              · rw [List.map_cons, hpath]
              · simpa using ⟨hstarts, hpaths⟩
              · simp only [List.length_cons]
                omega
              · simp only [List.length_cons, List.reverse_cons, List.append_assoc,
                  List.singleton_append, Prod.mk.injEq, and_true]
                omega
            · cases h
      · rintro ⟨paths, hkeys, hstarts, hroom, rfl⟩
        cases paths with
        | nil => cases hkeys
        | cons path paths =>
            rw [List.map_cons, List.cons.injEq] at hkeys
            obtain ⟨rfl, rfl⟩ := hkeys
            simp only [List.length_cons] at hroom
            -- the bound on all rows leaves room for this one
            have hcount : countRow pageBound rowCount = .ok (rowCount + 1) :=
              (countRow_ok_iff hbound).mpr ⟨by omega, rfl⟩
            have hstrip : stripRootPrefix rootPrefix (fullKey rootPrefix path) = .ok path :=
              (stripRootPrefix_ok_iff hroot).mpr rfl
            unfold validateObjects
            rw [hcount]
            simp only [bind, Except.bind, hstrip]
            rw [if_pos (hstarts path (by simp)), ih (by omega)]
            refine ⟨paths, rfl, ?_, by omega, ?_⟩
            · intro path hpath
              exact hstarts path (by simp [hpath])
            · simp only [List.length_cons, List.reverse_cons, List.append_assoc,
                List.singleton_append, Prod.mk.injEq, and_true]
              omega

/-- The second loop passes exactly the prefixes that project to non-empty paths
under the caller's prefix, none of them an object of the page. -/
theorem validateCommonPrefixes_ok_iff {rootPrefix : Option String} (hroot : rootPrefix ≠ some "")
    {callerPrefix : String} {pageBound : Nat} (hbound : pageBound < u64Bound)
    {projected : List String} {values : List (Option String)} {rowCount : Nat}
    (hrows : rowCount ≤ pageBound) :
    validateCommonPrefixes rootPrefix callerPrefix pageBound projected values rowCount = .ok () ↔
      (∀ entry ∈ values, ∃ path, StandsFor rootPrefix entry path ∧
        Str.startsWith callerPrefix path ∧ path ≠ "" ∧ path ∉ projected) ∧
      rowCount + values.length ≤ pageBound := by
  induction values generalizing rowCount with
  | nil => simpa [validateCommonPrefixes] using hrows
  | cons value values ih =>
      constructor
      · intro h
        obtain ⟨count, hcount, h⟩ := except_bind_ok h
        obtain ⟨hfits, rfl⟩ := (countRow_ok_iff hbound).mp hcount
        -- three refusals: an empty path, one outside the request, one that has been seen
        cases value with
        | none => cases h
        | some full =>
            obtain ⟨path, hpath, h⟩ := except_bind_ok h
            split at h
            · cases h
            · rename_i hpresent
              split at h
              · cases h
              · rename_i hstarts
                split at h
                · cases h
                · rename_i hfresh
                  obtain ⟨hvalues, hroom⟩ := (ih hfits).mp h
                  rw [stripRootPrefix_ok_iff hroot] at hpath
                  refine ⟨?_, by simp only [List.length_cons]; omega⟩
                  intro entry hentry
                  rcases List.mem_cons.mp hentry with rfl | htail
                  · exact ⟨path, congrArg some hpath, not_not.mp hstarts, hpresent, hfresh⟩
                  · exact hvalues entry htail
      · rintro ⟨hvalues, hroom⟩
        simp only [List.length_cons] at hroom
        obtain ⟨path, rfl, hstarts, hpresent, hfresh⟩ := hvalues value (by simp)
        have hcount : countRow pageBound rowCount = .ok (rowCount + 1) :=
          (countRow_ok_iff hbound).mpr ⟨by omega, rfl⟩
        have hstrip : stripRootPrefix rootPrefix (fullKey rootPrefix path) = .ok path :=
          (stripRootPrefix_ok_iff hroot).mpr rfl
        unfold validateCommonPrefixes
        rw [hcount]
        simp only [bind, Except.bind, hstrip]
        rw [if_neg hpresent, if_neg (not_not_intro hstarts), if_neg hfresh, ih (by omega)]
        refine ⟨fun entry hentry => hvalues entry (by simp [hentry]), by omega⟩

/-- A token has a usable size exactly when it is neither empty nor too long. -/
theorem not_badToken_iff {token : Option String} :
    ¬ BadToken token ↔
      ∀ value ∈ token, 1 ≤ (asBytes value).length ∧ (asBytes value).length ≤ 8192 := by
  unfold BadToken
  rw [not_exists]
  apply forall_congr'
  intro value
  have hempty : value = "" ↔ (asBytes value).length = 0 := by
    unfold asBytes
    constructor
    · rintro rfl
      rfl
    · intro hlength
      apply String.toByteArray_inj.mp
      apply ByteArray.ext
      apply Array.ext'
      rw [List.length_eq_zero_iff.mp hlength]
      rfl
  rw [hempty, not_and, not_or]
  apply forall_congr'
  intro _
  omega

/-- The paths the first loop has seen are those of the page's objects. -/
theorem notMem_seen_iff (rootPrefix : Option String) {paths : List String} {path : String} :
    path ∉ paths.reverse ++ [] ↔
      ∀ key ∈ paths.map (fun path => some (fullKey rootPrefix path)),
        ¬ StandsFor rootPrefix key path := by
  rw [List.append_nil, List.mem_reverse]
  constructor
  · intro hfresh key hkey hpath
    obtain ⟨other, hother, rfl⟩ := List.mem_map.mp hkey
    exact hfresh (fullKey_inj.mp (Option.some.inj hpath) ▸ hother)
  · intro hkeys hpath
    exact hkeys _ (List.mem_map.mpr ⟨path, hpath, rfl⟩) rfl

theorem delimiterPageBound_lt (maxKeys : Option UInt32) :
    (delimiterPageBound maxKeys).toNat < u64Bound :=
  Nat.lt_trans (UInt32.toNat_lt _) (by decide)

/-- A delimiter page is accepted exactly when it is well formed. -/
theorem validateDelimiterListPage_ok_iff {rootPrefix : Option String}
    (hroot : rootPrefix ≠ some "") (callerPrefix : String) (maxKeys : Option UInt32)
    (objectKeys commonPrefixes : List (Option String)) (isTruncated : Bool)
    (continuationToken : Option String) :
    validateDelimiterListPage rootPrefix callerPrefix maxKeys objectKeys commonPrefixes
        isTruncated continuationToken = .ok () ↔
      WellFormedPage rootPrefix callerPrefix maxKeys objectKeys commonPrefixes isTruncated
        continuationToken := by
  have hbound := delimiterPageBound_lt maxKeys
  have hpaired : ¬ isTruncated ≠ continuationToken.isSome ↔
      (isTruncated = true ↔ continuationToken ≠ none) := by
    cases isTruncated <;> cases continuationToken <;> simp
  -- the checks of the page itself come before those of its rows
  unfold validateDelimiterListPage
  by_cases htruncated : isTruncated ≠ continuationToken.isSome
  · rw [if_pos htruncated]
    refine iff_of_false (by simp) ?_
    intro hpage
    exact hpaired.mpr hpage.paired htruncated
  rw [if_neg htruncated]
  by_cases htoken : BadToken continuationToken
  · rw [if_pos htoken]
    refine iff_of_false (by simp) ?_
    intro hpage
    exact not_badToken_iff.mpr hpage.token_size htoken
  rw [if_neg htoken]
  constructor
  · intro h
    -- the prefixes are checked against the paths of the objects, which come first
    obtain ⟨counted, hobjects, h⟩ := except_bind_ok h
    obtain ⟨paths, rfl, hstarts, hroom, rfl⟩ :=
      (validateObjects_ok_iff hroot hbound (Nat.zero_le _)).mp hobjects
    rw [Nat.zero_add] at hroom
    obtain ⟨hprefixes, hrows⟩ :=
      (validateCommonPrefixes_ok_iff hroot hbound (by rwa [Nat.zero_add])).mp h
    refine ⟨hpaired.mp htruncated, not_badToken_iff.mp htoken, ?_, ?_, ?_, ?_⟩
    · rwa [List.length_map, ← Nat.zero_add paths.length]
    · exact entries_iff.mp ⟨paths, rfl, hstarts⟩
    · intro entry hentry
      obtain ⟨path, hpath, hstart, hpresent, -⟩ := hprefixes entry hentry
      exact ⟨path, hpath, hstart, hpresent⟩
    · intro entry hentry path hpath
      obtain ⟨other, hother, -, -, hfresh⟩ := hprefixes entry hentry
      obtain rfl := standsFor_unique hother hpath
      exact (notMem_seen_iff rootPrefix).mp hfresh
  · intro hpage
    obtain ⟨paths, rfl, hstarts⟩ := entries_iff.mpr hpage.objects
    have hroom := hpage.row_bound
    rw [List.length_map] at hroom
    have hobjects : validateObjects rootPrefix callerPrefix (delimiterPageBound maxKeys).toNat
        (paths.map fun path => some (fullKey rootPrefix path)) 0 []
          = .ok (0 + paths.length, paths.reverse ++ []) :=
      (validateObjects_ok_iff hroot hbound (Nat.zero_le _)).mpr
        ⟨paths, rfl, hstarts, by omega, rfl⟩
    simp only [hobjects, bind, Except.bind]
    apply (validateCommonPrefixes_ok_iff hroot hbound (by omega)).mpr
    refine ⟨?_, by omega⟩
    intro entry hentry
    obtain ⟨path, hpath, hstart, hpresent⟩ := hpage.prefixes entry hentry
    refine ⟨path, hpath, hstart, hpresent, (notMem_seen_iff rootPrefix).mpr ?_⟩
    exact hpage.disjoint entry hentry path hpath

/-! ## The delimiter listing -/

/-- One row of a checked page, whose key is expected to be there. -/
def projectRow (rootPrefix : Option String) (item : ListedObject) :
    Except Failure ObjectSummary :=
  match item.key with
  | none => .error .panic
  | some key => objectSummary rootPrefix item key

/-- One common prefix of a checked page, which is expected to be there. -/
def projectPrefix (rootPrefix : Option String) (value : Option String) :
    Except Failure String :=
  match value with
  | none => .error .panic
  | some value => expect (stripRootPrefix rootPrefix value)

theorem objectSummary_standsFor {rootPrefix : Option String} (hroot : rootPrefix ≠ some "")
    {item : ListedObject} {key : String} {object : ObjectSummary}
    (h : objectSummary rootPrefix item key = .ok object) :
    StandsFor rootPrefix (some key) object.path :=
  congrArg some ((stripRootPrefix_ok_iff hroot).mp (objectSummary_ok h))

theorem exists_objectSummary {rootPrefix : Option String} (hroot : rootPrefix ≠ some "")
    (item : ListedObject) (path : String) :
    ∃ object, objectSummary rootPrefix item (fullKey rootPrefix path) = .ok object := by
  unfold objectSummary
  rw [(stripRootPrefix_ok_iff hroot).mpr rfl]
  exact ⟨_, rfl⟩

theorem projectRow_standsFor {rootPrefix : Option String} (hroot : rootPrefix ≠ some "")
    {item : ListedObject} {object : ObjectSummary} (h : projectRow rootPrefix item = .ok object) :
    StandsFor rootPrefix item.key object.path := by
  unfold projectRow at h
  cases hkey : item.key with
  | none =>
      rw [hkey] at h
      cases h
  | some key =>
      rw [hkey] at h
      exact objectSummary_standsFor hroot h

theorem exists_projectRow {rootPrefix : Option String} (hroot : rootPrefix ≠ some "")
    {item : ListedObject} {path : String} (hpath : StandsFor rootPrefix item.key path) :
    ∃ object, projectRow rootPrefix item = .ok object := by
  unfold projectRow
  rw [hpath]
  exact exists_objectSummary hroot item path

theorem projectPrefix_ok_iff {rootPrefix : Option String} (hroot : rootPrefix ≠ some "")
    {value : Option String} {path : String} :
    projectPrefix rootPrefix value = .ok path ↔ StandsFor rootPrefix value path := by
  unfold projectPrefix StandsFor
  cases value with
  | none => simp
  | some value =>
      show expect (stripRootPrefix rootPrefix value) = .ok path ↔ _
      rw [Option.some.injEq, ← stripRootPrefix_ok_iff hroot]
      cases stripRootPrefix rootPrefix value with
      | error error => simp [expect]
      | ok rest => simp [expect]

namespace S3Provider

variable (provider : S3Provider)

/-- What the first steps of a delimiter listing send, if they let the request out. -/
def delimiterRequest (request : DelimiterListRequest) : Except StorageError ListObjectsV2 := do
  validateDelimiter request.delimiter
  validateContinuationToken request.continuationToken
  let keyPrefix ← resolveListPrefix provider.rootPrefix request.keyPrefix
  let maxKeys ← normalizeMaxKeys request.maxKeys
  return ⟨provider.bucket, keyPrefix, some request.delimiter, request.continuationToken, maxKeys⟩

/-- The check that `listDelimited` makes of the page it receives. -/
def checkDelimiterPage (request : DelimiterListRequest) (page : ListPage) (isTruncated : Bool) :
    Except StorageError Unit :=
  validateDelimiterListPage provider.rootPrefix (request.keyPrefix.getD "")
    (request.maxKeys.filter (· ≠ 0)) (page.contents.map (·.key)) page.commonPrefixes isTruncated
    page.nextContinuationToken

/-- The rows of a checked page, below the root. -/
def projectDelimiterPage (page : ListPage) (isTruncated : Bool) :
    Except Failure DelimiterListResult := do
  let objects ← page.contents.mapM (projectRow provider.rootPrefix)
  let commonPrefixes ← page.commonPrefixes.mapM (projectPrefix provider.rootPrefix)
  return ⟨objects, commonPrefixes, page.nextContinuationToken, isTruncated⟩

/-- A delimiter listing sends one request, checks the page and projects its rows. -/
theorem listDelimited_eq (service : ListService) (request : DelimiterListRequest) :
    provider.listDelimited service request = (do
      let page ← reported (provider.delimiterRequest request >>= service)
      let isTruncated ← reported (page.isTruncated.elim (.error (invalidDelimiterPage
        "S3 returned a delimiter page without a truncation flag")) .ok)
      reported (provider.checkDelimiterPage request page isTruncated)
      provider.projectDelimiterPage page isTruncated) := by
  unfold listDelimited delimiterRequest
  cases validateDelimiter request.delimiter with
  | error error => rfl
  | ok _ =>
      cases validateContinuationToken request.continuationToken with
      | error error => rfl
      | ok _ =>
          cases resolveListPrefix provider.rootPrefix request.keyPrefix with
          | error error => rfl
          | ok keyPrefix =>
              cases normalizeMaxKeys request.maxKeys with
              | error error => rfl
              | ok maxKeys => rfl

/-- The rows of a well-formed page are projected one by one, each to its full text
without the root, and no `expect` fails on the way. -/
theorem projectDelimiterPage_ok {callerPrefix : String} {maxKeys : Option UInt32}
    {page : ListPage} {isTruncated : Bool}
    (hpage : WellFormedPage provider.rootPrefix callerPrefix maxKeys
      (page.contents.map (·.key)) page.commonPrefixes isTruncated page.nextContinuationToken) :
    ∃ result, provider.projectDelimiterPage page isTruncated = .ok result ∧
      List.Forall₂ (fun item object => StandsFor provider.rootPrefix item.key object.path)
        page.contents result.objects ∧
      List.Forall₂ (StandsFor provider.rootPrefix) page.commonPrefixes result.commonPrefixes ∧
      result.isTruncated = isTruncated ∧
      result.continuationToken = page.nextContinuationToken := by
  have hroot := provider.rootPrefix_ne_empty
  have hrows : ∃ objects, page.contents.mapM (projectRow provider.rootPrefix) = .ok objects := by
    apply exists_mapM
    intro item hitem
    obtain ⟨path, hpath, -⟩ := hpage.objects item.key (List.mem_map_of_mem hitem)
    exact exists_projectRow hroot hpath
  have hvalues : ∃ prefixes, page.commonPrefixes.mapM (projectPrefix provider.rootPrefix)
      = .ok prefixes := by
    apply exists_mapM
    intro value hvalue
    obtain ⟨path, hpath, -⟩ := hpage.prefixes value hvalue
    exact ⟨path, (projectPrefix_ok_iff hroot).mpr hpath⟩
  obtain ⟨objects, hobjects⟩ := hrows
  obtain ⟨prefixes, hprefixes⟩ := hvalues
  refine ⟨⟨objects, prefixes, page.nextContinuationToken, isTruncated⟩, ?_, ?_, ?_, rfl, rfl⟩
  · unfold projectDelimiterPage
    rw [hobjects]
    simp only [bind, Except.bind, hprefixes]
    rfl
  · exact (mapM_ok hobjects).imp fun _ _ => projectRow_standsFor hroot
  · exact (mapM_ok hprefixes).imp fun _ _ => (projectPrefix_ok_iff hroot).mp

theorem wellFormedPage_of_check {request : DelimiterListRequest} {page : ListPage}
    {isTruncated : Bool} (h : provider.checkDelimiterPage request page isTruncated = .ok ()) :
    WellFormedPage provider.rootPrefix (request.keyPrefix.getD "")
      (request.maxKeys.filter (· ≠ 0)) (page.contents.map (·.key)) page.commonPrefixes
      isTruncated page.nextContinuationToken :=
  (validateDelimiterListPage_ok_iff provider.rootPrefix_ne_empty _ _ _ _ _ _).mp h

theorem listDelimited_ne_panic (service : ListService) (request : DelimiterListRequest) :
    provider.listDelimited service request ≠ .error .panic := by
  rw [listDelimited_eq]
  intro hpanic
  cases hresponse : (provider.delimiterRequest request >>= service) with
  | error error =>
      rw [hresponse] at hpanic
      cases hpanic
  | ok page =>
      rw [hresponse] at hpanic
      cases htruncated : page.isTruncated with
      | none =>
          simp only [reported, bind, Except.bind, htruncated] at hpanic
          cases hpanic
      | some isTruncated =>
          cases hcheck : provider.checkDelimiterPage request page isTruncated with
          | error error =>
              simp only [reported, bind, Except.bind, htruncated, Option.elim, hcheck] at hpanic
              cases hpanic
          | ok _ =>
              -- the projections run only on a page that the check has passed
              obtain ⟨result, hresult, -⟩ :=
                provider.projectDelimiterPage_ok (provider.wellFormedPage_of_check hcheck)
              simp only [reported, bind, Except.bind, htruncated, Option.elim, hcheck,
                hresult] at hpanic
              cases hpanic

/-- A delimiter page is accepted exactly when it is well formed, under every root
that is not the empty text.  A delimiter listing never panics, and on an accepted
page it returns every object and every common prefix, in the order of the response,
as its full text with the root boundary removed once. -/
theorem delimiterPage_exact :
    (∀ rootPrefix callerPrefix maxKeys objectKeys commonPrefixes isTruncated continuationToken,
      rootPrefix ≠ some "" →
      (validateDelimiterListPage rootPrefix callerPrefix maxKeys objectKeys commonPrefixes
          isTruncated continuationToken = .ok () ↔
        WellFormedPage rootPrefix callerPrefix maxKeys objectKeys commonPrefixes isTruncated
          continuationToken)) ∧
    ∀ (provider : S3Provider) service request,
      provider.listDelimited service request ≠ .error .panic ∧
      ∀ sent page isTruncated, provider.delimiterRequest request = .ok sent →
        service sent = .ok page → page.isTruncated = some isTruncated →
        provider.checkDelimiterPage request page isTruncated = .ok () →
        ∃ result, provider.listDelimited service request = .ok result ∧
          List.Forall₂ (fun item object => StandsFor provider.rootPrefix item.key object.path)
            page.contents result.objects ∧
          List.Forall₂ (StandsFor provider.rootPrefix) page.commonPrefixes
            result.commonPrefixes ∧
          result.isTruncated = isTruncated ∧
          result.continuationToken = page.nextContinuationToken := by
  constructor
  · intro rootPrefix callerPrefix maxKeys objectKeys commonPrefixes isTruncated token hroot
    exact validateDelimiterListPage_ok_iff hroot _ _ _ _ _ _
  · intro provider service request
    refine ⟨provider.listDelimited_ne_panic service request, ?_⟩
    intro sent page isTruncated hsent hpage htruncated hcheck
    obtain ⟨result, hresult, hrows⟩ :=
      provider.projectDelimiterPage_ok (provider.wellFormedPage_of_check hcheck)
    refine ⟨result, ?_, hrows⟩
    rw [listDelimited_eq]
    simp only [hsent, bind, Except.bind, hpage, reported, htruncated, Option.elim, hcheck,
      hresult]

/-- A page with a row and a common prefix is well formed, and is listed. -/
theorem delimiterPage_exact_page :
    let provider : S3Provider := ⟨"bucket", some "r", none, by decide⟩
    let page : ListPage := ⟨[⟨some "r/a", some 1, none, none⟩], [some "r/d/"], some false, none⟩
    WellFormedPage (some "r") "" none [some "r/a"] [some "r/d/"] false none ∧
      ∃ result, provider.listDelimited (fun _ => .ok page) ⟨none, "/", none, none⟩ = .ok result ∧
        List.Forall₂ (StandsFor (some "r")) [some "r/d/"] result.commonPrefixes := by
  intro provider page
  have hcheck : validateDelimiterListPage (some "r") "" none [some "r/a"] [some "r/d/"] false none
      = .ok () := by decide +kernel
  obtain ⟨hformed, hlists⟩ := delimiterPage_exact
  refine ⟨(hformed _ _ _ _ _ _ _ (by decide)).mp hcheck, ?_⟩
  obtain ⟨result, hresult, -, hprefixes, -⟩ := (hlists provider (fun _ => .ok page)
    ⟨none, "/", none, none⟩).2 _ page false rfl rfl rfl hcheck
  exact ⟨result, hresult, hprefixes⟩

end S3Provider

/-! ## The universal listing -/

/-- The rows of a page that have a key, with it. -/
def ListPage.keyedRows (page : ListPage) : List (ListedObject × String) :=
  page.contents.filterMap fun item => item.key.map (item, ·)

/-- With a root every row is checked; without one the check passes everything. -/
theorem validateListPage_ok_iff {rootPrefix : Option String} (hroot : rootPrefix ≠ some "")
    {entries : List (Option String)} :
    validateListPage rootPrefix entries = .ok () ↔
      rootPrefix = none ∨ ∀ entry ∈ entries, ∃ path, StandsFor rootPrefix entry path := by
  unfold validateListPage
  by_cases hnone : rootPrefix = none
  · simp [hnone]
  rw [if_neg hnone, or_iff_right hnone, List.forM_eq_forM]
  induction entries with
  | nil => simp [pure, Except.pure]
  | cons entry entries ih =>
      rw [List.forM_cons, check_bind_ok_iff, ih, List.forall_mem_cons]
      apply and_congr_left
      intro _
      cases entry with
      | none => simp [StandsFor]
      | some full =>
          simp only [StandsFor, Option.some.injEq, ← stripRootPrefix_ok_iff hroot]
          cases stripRootPrefix rootPrefix full with
          | error error => simp [bind, Except.bind]
          | ok path => simp [bind, Except.bind, pure, Except.pure]

/-- When no row lacks a key, the rows with a key are all the rows. -/
theorem forall₂_of_keyedRows {page : ListPage} (hkeyed : ∀ item ∈ page.contents, item.key ≠ none)
    {related : ListedObject × String → ObjectSummary → Prop} {objects : List ObjectSummary}
    (h : List.Forall₂ related page.keyedRows objects) :
    List.Forall₂ (fun item object => ∃ key, item.key = some key ∧ related (item, key) object)
      page.contents objects := by
  unfold ListPage.keyedRows at h
  generalize page.contents = rows at hkeyed h
  induction rows generalizing objects with
  | nil =>
      cases h
      exact .nil
  | cons item rows ih =>
      obtain ⟨key, hkey⟩ := Option.ne_none_iff_exists'.mp (hkeyed item (by simp))
      rw [List.filterMap_cons_some (by rw [hkey]; rfl)] at h
      cases h with
      | cons hhead htail =>
          refine .cons ⟨key, hkey, hhead⟩ (ih ?_ htail)
          intro other hother
          exact hkeyed other (by simp [hother])

namespace S3Provider

variable (provider : S3Provider)

/-- What the first steps of a universal listing send, if they let the request out. -/
def listRequest (options : ListOptions) : Except StorageError ListObjectsV2 := do
  let keyPrefix ← resolveListPrefix provider.rootPrefix options.keyPrefix
  let maxKeys ← normalizeMaxKeys options.maxKeys
  return ⟨provider.bucket, keyPrefix, none, options.continuationToken, maxKeys⟩

/-- The rows of a page that the universal listing has checked. -/
def projectListPage (page : ListPage) : Except Failure ListResult := do
  let objects ← page.keyedRows.mapM fun (item, key) => objectSummary provider.rootPrefix item key
  return ⟨objects, page.nextContinuationToken, page.isTruncated.getD false⟩

/-- A universal listing sends one request, checks the page and projects its rows. -/
theorem list_eq (service : ListService) (options : ListOptions) :
    provider.list service options = (do
      let page ← reported (provider.listRequest options >>= service)
      reported (validateListPage provider.rootPrefix (page.contents.map (·.key)))
      provider.projectListPage page) := by
  unfold list listRequest
  cases resolveListPrefix provider.rootPrefix options.keyPrefix with
  | error error => rfl
  | ok keyPrefix =>
      cases normalizeMaxKeys options.maxKeys with
      | error error => rfl
      | ok maxKeys => rfl

/-- Every row has a key and lies below the root. -/
def RowsStand (page : ListPage) : Prop :=
  ∀ item ∈ page.contents, ∃ path, StandsFor provider.rootPrefix item.key path

/-- The projection fails on no page that the check has passed. -/
theorem exists_projectListPage {page : ListPage}
    (hpage : provider.rootPrefix = none ∨ provider.RowsStand page) :
    ∃ objects, provider.projectListPage page
      = .ok ⟨objects, page.nextContinuationToken, page.isTruncated.getD false⟩ := by
  have hrows : ∃ objects, (page.keyedRows.mapM fun (item, key) =>
      objectSummary provider.rootPrefix item key) = .ok objects := by
    apply exists_mapM
    intro row hrow
    obtain ⟨item, hitem, hkeyed⟩ := List.mem_filterMap.mp hrow
    obtain ⟨key, hkey, rfl⟩ := Option.map_eq_some_iff.mp hkeyed
    rcases hpage with hnone | hstand
    · have hfull : key = fullKey provider.rootPrefix key := by
        rw [hnone]
        rfl
      show ∃ object, objectSummary provider.rootPrefix item key = .ok object
      rw [hfull]
      exact exists_objectSummary provider.rootPrefix_ne_empty item key
    · obtain ⟨path, hpath⟩ := hstand item hitem
      obtain rfl := Option.some.inj (hkey.symm.trans hpath)
      exact exists_objectSummary provider.rootPrefix_ne_empty item path
  obtain ⟨objects, hobjects⟩ := hrows
  refine ⟨objects, ?_⟩
  unfold projectListPage
  rw [hobjects]
  rfl

/-- What a caller may expect of a universal listing that receives `page`: the
truncation flag and the token agree, no row is dropped, and a page with a row that
has no key or lies outside the root fails as a whole. -/
def ListsHonestly (options : ListOptions) (page : ListPage) : Prop :=
  ∀ service sent, provider.listRequest options = .ok sent → service sent = .ok page →
    (∀ result, provider.list service options = .ok result →
      (result.isTruncated = true ↔ result.continuationToken ≠ none) ∧
      List.Forall₂ (fun item object => StandsFor provider.rootPrefix item.key object.path)
        page.contents result.objects) ∧
    (¬ provider.RowsStand page → ∀ result, provider.list service options ≠ .ok result)

theorem list_of_page {service : ListService} {options : ListOptions} {sent : ListObjectsV2}
    {page : ListPage} (hsent : provider.listRequest options = .ok sent)
    (hpage : service sent = .ok page) :
    provider.list service options = (do
      reported (validateListPage provider.rootPrefix (page.contents.map (·.key)))
      provider.projectListPage page) := by
  rw [list_eq, hsent]
  simp only [bind, Except.bind, hpage, reported]

theorem validateListPage_rows_iff {page : ListPage} :
    validateListPage provider.rootPrefix (page.contents.map (·.key)) = .ok () ↔
      provider.rootPrefix = none ∨ provider.RowsStand page := by
  rw [validateListPage_ok_iff provider.rootPrefix_ne_empty, RowsStand]
  simp

/-- A universal listing is lossless and honestly paginated exactly when its request
is refused before it is sent, when a row without a key or outside the root meets a
root that checks it, or when every row stands for a path and the response itself
pairs its truncation flag with a token. -/
theorem listsHonestly_iff (options : ListOptions) (page : ListPage) :
    provider.ListsHonestly options page ↔
      (∀ sent, provider.listRequest options ≠ .ok sent) ∨
      (provider.rootPrefix ≠ none ∧ ¬ provider.RowsStand page) ∨
      (provider.RowsStand page ∧
        (page.isTruncated.getD false = true ↔ page.nextContinuationToken ≠ none)) := by
  constructor
  · intro hhonest
    by_cases hrefused : ∀ sent, provider.listRequest options ≠ .ok sent
    · exact .inl hrefused
    obtain ⟨sent, hsent⟩ := not_forall_not.mp hrefused
    obtain ⟨hok, hwhole⟩ := hhonest (fun _ => .ok page) sent hsent rfl
    by_cases hpage : provider.rootPrefix = none ∨ provider.RowsStand page
    · -- the check passes the page, so the listing answers with it
      obtain ⟨objects, hobjects⟩ := provider.exists_projectListPage hpage
      have hlist : provider.list (fun _ => .ok page) options
          = .ok ⟨objects, page.nextContinuationToken, page.isTruncated.getD false⟩ := by
        rw [provider.list_of_page hsent rfl, provider.validateListPage_rows_iff.mpr hpage]
        exact hobjects
      by_cases hstand : provider.RowsStand page
      · exact .inr (.inr ⟨hstand, (hok _ hlist).1⟩)
      · exact absurd hlist (hwhole hstand _)
    · obtain ⟨hrooted, hstray⟩ := not_or.mp hpage
      exact .inr (.inl ⟨hrooted, hstray⟩)
  · intro hcondition service sent hsent hpage
    rcases hcondition with hrefused | ⟨hrooted, hstray⟩ | ⟨hstand, hpaired⟩
    · exact absurd hsent (hrefused sent)
    -- beneath a root the check refuses the page, so nothing is listed
    · have hfails : ∀ result, provider.list service options ≠ .ok result := by
        intro result hlist
        rw [provider.list_of_page hsent hpage] at hlist
        obtain ⟨_, hcheck, -⟩ := except_bind_ok hlist
        rcases provider.validateListPage_rows_iff.mp (reported_ok hcheck) with hnone | hstand
        · exact hrooted hnone
        · exact hstray hstand
      exact ⟨fun result hlist => absurd hlist (hfails result), fun _ => hfails⟩
    · refine ⟨?_, fun hstray => absurd hstand hstray⟩
      intro result hlist
      rw [provider.list_of_page hsent hpage] at hlist
      obtain ⟨_, -, hproject⟩ := except_bind_ok hlist
      obtain ⟨objects, hobjects, hresult⟩ := except_bind_ok hproject
      cases hresult
      refine ⟨hpaired, ?_⟩
      have hkeyed : ∀ item ∈ page.contents, item.key ≠ none := by
        intro item hitem hnone
        obtain ⟨path, hpath⟩ := hstand item hitem
        rw [hnone] at hpath
        cases hpath
      refine (forall₂_of_keyedRows hkeyed (mapM_ok hobjects)).imp ?_
      intro item object hrow
      obtain ⟨key, hkey, hobject⟩ := hrow
      rw [hkey]
      exact objectSummary_standsFor provider.rootPrefix_ne_empty hobject

/-- Two pages that the universal listing takes: the only row of the first has no key
and disappears, and the second says that more follows and names no token. -/
theorem list_drops_row :
    let unrooted : S3Provider := ⟨"bucket", none, none, by decide⟩
    let rooted : S3Provider := ⟨"bucket", some "r", none, by decide⟩
    let options : ListOptions := ⟨none, none, none⟩
    let keyless : ListPage := ⟨[⟨none, some 1, none, none⟩], [], some false, none⟩
    let endless : ListPage := ⟨[], [], some true, none⟩
    unrooted.list (fun _ => .ok keyless) options = .ok ⟨[], none, false⟩ ∧
      rooted.list (fun _ => .ok endless) options = .ok ⟨[], none, true⟩ ∧
      ¬ unrooted.ListsHonestly options keyless ∧ ¬ rooted.ListsHonestly options endless := by
  intro unrooted rooted options keyless endless
  have hkeyless : unrooted.list (fun _ => .ok keyless) options = .ok ⟨[], none, false⟩ := by
    decide +kernel
  have hendless : rooted.list (fun _ => .ok endless) options = .ok ⟨[], none, true⟩ := by
    decide +kernel
  refine ⟨hkeyless, hendless, ?_, ?_⟩
  · intro hhonest
    obtain ⟨hok, -⟩ := hhonest (fun _ => .ok keyless) ⟨"bucket", none, none, none, none⟩ rfl rfl
    cases (hok _ hkeyless).2
  · intro hhonest
    obtain ⟨hok, -⟩ := hhonest (fun _ => .ok endless) ⟨"bucket", some "r/", none, none, none⟩
      (by decide +kernel) rfl
    exact (hok _ hendless).1.mp rfl rfl

end S3Provider

end Storageprims

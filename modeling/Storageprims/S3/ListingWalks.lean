import Mathlib.Data.String.Basic
import Storageprims.Interaction.Enumeration
import Storageprims.S3.GuardedStore
import Storageprims.S3.ListingUsable

/-!
# Walking a listing

A listing answers with one page, and a caller who wants all of it goes on with the token of
each page.  The objects may change between two pages.  What a caller gets by walking to the
last page is stated for a service that lists in the order of the keys: nothing twice,
nothing that was not there, and everything that was there all the time.
-/

namespace Storageprims

open Interaction

/-- The rows of a bucket at one moment, by their full keys. -/
abbrev Holding := String → Option ListedObject

/-- Where a listing rolls up what it shows of a key: behind the first delimiter that follows
the prefix. -/
def rolledUp (keyPrefix : String) (delimiter : Option String) (key : String) : Option String :=
  delimiter.bind fun delimiter =>
    ((Str.stripFront keyPrefix key).bind (Str.splitOnce delimiter)).map fun parts =>
      keyPrefix ++ parts.1 ++ delimiter

/-- The key is there, under this prefix, and is shown as `entry`. -/
def Holding.Shows (holding : Holding) (keyPrefix : String) (delimiter : Option String)
    (entry : String) : Prop :=
  ∃ key, holding key ≠ none ∧ Str.startsWith keyPrefix key ∧
    (rolledUp keyPrefix delimiter key).getD key = entry

/-- The page of a service that lists in the order of the keys: its rows are rows of the
bucket and its common prefixes are what keys are rolled up to.  A token stands for the last
entry of the pages before. -/
structure Holding.Lists (holding : Holding) (behind : String → String) (request : ListObjectsV2)
    (page : ListPage) : Prop where
  paired : page.isTruncated = some page.nextContinuationToken.isSome
  rows : ∀ item ∈ page.contents, ∃ key, item.key = some key ∧ holding key = some item ∧
    Str.startsWith (request.keyPrefix.getD "") key ∧
    rolledUp (request.keyPrefix.getD "") request.delimiter key = none
  prefixes : ∀ value ∈ page.commonPrefixes, ∃ group key, value = some group ∧
    holding key ≠ none ∧ Str.startsWith (request.keyPrefix.getD "") key ∧
    rolledUp (request.keyPrefix.getD "") request.delimiter key = some group
  ordered : IsPage (holding.Shows (request.keyPrefix.getD "") request.delimiter)
    (request.continuationToken.map behind) (page.nextContinuationToken.map behind)
    (page.keys ++ page.prefixes)

/-- Pages that a caller has got one after the other, up to one that is not truncated. -/
inductive PageWalk {Result : Type} (next : Result → Option String) (isTruncated : Result → Bool)
    (answers : Option String → Holding → Result → Prop) :
    Option String → List (Holding × Result) → Prop
  | last (token : Option String) (holding : Holding) (result : Result)
      (hanswers : answers token holding result) (hlast : isTruncated result = false) :
      PageWalk next isTruncated answers token [(holding, result)]
  | more (token : Option String) (holding : Holding) (result : Result)
      (rest : List (Holding × Result)) (hanswers : answers token holding result)
      (hmore : isTruncated result = true)
      (hrest : PageWalk next isTruncated answers (next result) rest) :
      PageWalk next isTruncated answers token ((holding, result) :: rest)

section Walks

variable {Result : Type} {next : Result → Option String} {isTruncated : Result → Bool}
variable {answers : Option String → Holding → Result → Prop}
variable {token : Option String} {pages : List (Holding × Result)}

theorem PageWalk.answered (h : PageWalk next isTruncated answers token pages) :
    ∀ page ∈ pages, ∃ token, answers token page.1 page.2 := by
  induction h with
  | last token holding result hanswers hlast =>
      intro page hpage
      obtain rfl := List.mem_singleton.mp hpage
      exact ⟨token, hanswers⟩
  | more token holding result rest hanswers hmore hrest ih =>
      intro page hpage
      rcases List.mem_cons.mp hpage with rfl | hlater
      · exact ⟨token, hanswers⟩
      · exact ih page hlater

/-- A walk whose pages are pages of an enumeration is an enumeration. -/
theorem PageWalk.enumerates {behind : String → String} {there : Holding → String → Prop}
    {entries : Result → List String}
    (hpage : ∀ token holding result, answers token holding result →
      isTruncated result = (next result).isSome ∧
      IsPage (there holding) (token.map behind) ((next result).map behind) (entries result))
    (h : PageWalk next isTruncated answers token pages) :
    Enumerates (token.map behind)
      (pages.map fun (holding, result) => (there holding, entries result)) := by
  induction h with
  | last token holding result hanswers hlast =>
      obtain ⟨htruncated, hentries⟩ := hpage token holding result hanswers
      rw [hlast, eq_comm, Option.isSome_eq_false_iff, Option.isNone_iff_eq_none] at htruncated
      rw [htruncated] at hentries
      exact .last _ _ _ hentries
  | more token holding result rest hanswers hmore hrest ih =>
      obtain ⟨htruncated, hentries⟩ := hpage token holding result hanswers
      rw [hmore, eq_comm, Option.isSome_iff_exists] at htruncated
      obtain ⟨onward, honward⟩ := htruncated
      rw [honward] at hentries ih
      exact .more _ _ _ _ _ hentries ih

end Walks

/-! ## Roots and prefixes -/

theorem fullKey_eq (rootPrefix : Option String) :
    ∃ front, ∀ path, fullKey rootPrefix path = front ++ path := by
  cases rootPrefix with
  | none => exact ⟨"", fun path => (String.empty_append (s := path)).symm⟩
  | some root => exact ⟨root ++ "/", fun _ => rfl⟩

/-- The prefix of the request is the caller's, beneath the root. -/
theorem resolveListPrefix_ok {rootPrefix callerPrefix keyPrefix : Option String}
    (hroot : IsNormalRoot rootPrefix)
    (h : resolveListPrefix rootPrefix callerPrefix = .ok keyPrefix) :
    keyPrefix.getD "" = fullKey rootPrefix (callerPrefix.getD "") := by
  unfold resolveListPrefix at h
  split at h
  · cases h
  · have hcaller : (callerPrefix.filter (· ≠ "")).getD "" = callerPrefix.getD "" := by
      cases callerPrefix with
      | none => rfl
      | some value =>
          by_cases hvalue : value = ""
          · rw [hvalue]
            rfl
          · rw [filter_ne_empty hvalue]
    rw [← hcaller]
    cases rootPrefix with
    | none =>
        rw [show listRootBoundary none = none from rfl] at h
        cases hfilter : callerPrefix.filter (· ≠ "") with
        | none =>
            rw [hfilter] at h
            cases h
            rfl
        | some value =>
            rw [hfilter] at h
            cases h
            rfl
    | some root =>
        rw [listRootBoundary_some hroot.ne_empty] at h
        cases hfilter : callerPrefix.filter (· ≠ "") with
        | none =>
            rw [hfilter] at h
            cases h
            exact String.append_empty.symm
        | some value =>
            rw [hfilter] at h
            cases h
            rfl

theorem splitOnceList_self (mark : List Char) :
    Str.splitOnceList mark mark = some ([], []) := by
  cases mark with
  | nil => rfl
  | cons c rest =>
      unfold Str.splitOnceList
      have hself : List.isPrefixOf? (c :: rest) (c :: rest) = some [] :=
        List.isPrefixOf?_eq_some_iff_append_eq.mpr (List.append_nil _)
      simp only [hself]

/-- A mark that is first found behind a text is first found there when nothing follows. -/
theorem splitOnceList_front {mark chars front back : List Char}
    (h : Str.splitOnceList mark chars = some (front, back)) :
    Str.splitOnceList mark (front ++ mark) = some (front, []) := by
  induction chars generalizing front with
  | nil =>
      unfold Str.splitOnceList at h
      split at h
      · rename_i hmark
        cases h
        rw [hmark]
        rfl
      · cases h
  | cons c rest ih =>
      unfold Str.splitOnceList at h
      split at h
      · cases h
        exact splitOnceList_self mark
      · rename_i hhead
        obtain ⟨⟨front', back'⟩, hrest, hcons⟩ := Option.map_eq_some_iff.mp h
        cases hcons
        have hnone : mark.isPrefixOf? (c :: (front' ++ mark)) = none := by
          rw [← Option.not_isSome_iff_eq_none]
          intro hsome
          obtain ⟨behind, hbehind⟩ := Option.isSome_iff_exists.mp hsome
          rw [List.isPrefixOf?_eq_some_iff_append_eq] at hbehind
          -- the mark would have been found earlier in the whole text
          have hwhole : mark ++ (behind ++ back) = c :: rest := by
            rw [← List.append_assoc, hbehind, Str.append_of_splitOnceList hrest, List.cons_append]
          rw [List.isPrefixOf?_eq_some_iff_append_eq.mpr hwhole] at hhead
          cases hhead
        rw [List.cons_append]
        unfold Str.splitOnceList
        simp only [hnone, ih hrest, Option.map_some]

theorem splitOnce_front {mark text front back : String}
    (h : Str.splitOnce mark text = some (front, back)) :
    Str.splitOnce mark (front ++ mark) = some (front, "") := by
  obtain ⟨⟨frontChars, backChars⟩, hchars, hparts⟩ := Option.map_eq_some_iff.mp h
  cases hparts
  rw [Str.splitOnce, String.toList_append, String.toList_ofList, splitOnceList_front hchars]
  rfl

section Shifted

variable {keyPrefix path front : String} {delimiter : Option String}

theorem startsWith_append_iff :
    Str.startsWith (front ++ keyPrefix) (front ++ path) = true ↔
      Str.startsWith keyPrefix path = true := by
  simp only [Str.startsWith_iff, String.append_assoc, String.append_right_inj]

theorem stripFront_append :
    Str.stripFront (front ++ keyPrefix) (front ++ path) = Str.stripFront keyPrefix path := by
  refine Option.ext fun rest => ?_
  rw [Str.stripFront_eq_some_iff, Str.stripFront_eq_some_iff, String.append_assoc,
    String.append_right_inj]

/-- What stands before every key does not change how keys are rolled up. -/
theorem rolledUp_append : rolledUp (front ++ keyPrefix) delimiter (front ++ path)
    = (rolledUp keyPrefix delimiter path).map (front ++ ·) := by
  cases delimiter with
  | none => rfl
  | some delimiter =>
      simp only [rolledUp, stripFront_append, Option.bind_some, Option.map_map]
      congr 1
      funext parts
      simp only [Function.comp_apply, String.append_assoc]

/-- What a key is rolled up to is rolled up to itself. -/
theorem rolledUp_self {group : String} (h : rolledUp keyPrefix delimiter path = some group) :
    rolledUp keyPrefix delimiter group = some group := by
  obtain ⟨delimiter, rfl, h⟩ := Option.bind_eq_some_iff.mp h
  obtain ⟨⟨before, back⟩, hparts, rfl⟩ := Option.map_eq_some_iff.mp h
  obtain ⟨rest, -, hsplit⟩ := Option.bind_eq_some_iff.mp hparts
  have hstrip : Str.stripFront keyPrefix (keyPrefix ++ before ++ delimiter)
      = some (before ++ delimiter) :=
    Str.stripFront_eq_some_iff.mpr (String.append_assoc ..)
  simp only [rolledUp, Option.bind_some, hstrip, splitOnce_front hsplit, Option.map_some]

end Shifted

/-! ## One page -/

/-- What the second list was made of. -/
theorem exists_of_forall₂ {α β : Type} {related : α → β → Prop} {first : List α}
    {second : List β} (h : List.Forall₂ related first second) {b : β} (hb : b ∈ second) :
    ∃ a ∈ first, related a b := by
  induction h with
  | nil => cases hb
  | cons hhead _ ih =>
      rcases List.mem_cons.mp hb with rfl | hlater
      · exact ⟨_, List.mem_cons_self, hhead⟩
      · obtain ⟨a, ha, hrelated⟩ := ih hlater
        exact ⟨a, List.mem_cons_of_mem _ ha, hrelated⟩

theorem ListPage.keys_eq_keyedRows (page : ListPage) :
    page.keys = page.keyedRows.map Prod.snd := by
  rw [ListPage.keyedRows, List.map_filterMap, ListPage.keys]
  congr 1
  funext item
  cases item.key <;> rfl

theorem ListPage.mem_keyedRows_iff {page : ListPage} {item : ListedObject} {key : String} :
    (item, key) ∈ page.keyedRows ↔ item ∈ page.contents ∧ item.key = some key := by
  rw [ListPage.keyedRows, List.mem_filterMap]
  constructor
  · rintro ⟨row, hrow, hkeyed⟩
    obtain ⟨_, hkey, hpair⟩ := Option.map_eq_some_iff.mp hkeyed
    cases hpair
    exact ⟨hrow, hkey⟩
  · rintro ⟨hitem, hkey⟩
    exact ⟨item, hitem, by rw [hkey]; rfl⟩

theorem filterMap_of_standsFor {rootPrefix : Option String} {entries : List (Option String)}
    {paths : List String} (h : List.Forall₂ (StandsFor rootPrefix) entries paths) :
    entries.filterMap id = paths.map (fullKey rootPrefix) := by
  induction h with
  | nil => rfl
  | cons hhead _ ih =>
      rw [List.filterMap_cons_some (show id _ = _ from hhead), List.map_cons, ih]

/-- What a delimiter listing shows of a path. -/
def pathShown (callerPrefix : String) (delimiter : Option String) (path : String) : String :=
  (rolledUp callerPrefix delimiter path).getD path

/-- The summary of a row that is there. -/
def Holding.Summarizes (holding : Holding) (rootPrefix : Option String) (object : ObjectSummary) :
    Prop :=
  ∃ item, holding (fullKey rootPrefix object.path) = some item ∧
    object = ⟨object.path, ((item.size.filter (0 ≤ ·)).getD 0).toNat, item.eTag, none,
      item.lastModified⟩

/-- A page of a listing, beneath the root: the summaries and common prefixes are of paths
under the caller's prefix, and together they make up a page of what is shown. -/
structure PathPage (provider : S3Provider) (behind : String → String) (holding : Holding)
    (callerPrefix : String) (delimiter token next : Option String)
    (objects : List ObjectSummary) (commonPrefixes : List String) : Prop where
  summaries : ∀ object ∈ objects, holding.Summarizes provider.rootPrefix object ∧
    Str.startsWith callerPrefix object.path ∧ rolledUp callerPrefix delimiter object.path = none
  groups : ∀ group ∈ commonPrefixes, ∃ path,
    holding (fullKey provider.rootPrefix path) ≠ none ∧ Str.startsWith callerPrefix path ∧
    rolledUp callerPrefix delimiter path = some group
  ordered : IsPage (holding.Shows (fullKey provider.rootPrefix callerPrefix) delimiter)
    (token.map behind) (next.map behind)
    ((objects.map (·.path) ++ commonPrefixes).map (fullKey provider.rootPrefix))

namespace S3Provider

variable {provider : S3Provider} {behind : String → String} {holding : Holding}
variable {callerPrefix path : String} {delimiter : Option String}

/-- The rows that a page was projected from, by their paths. -/
theorem keys_of_strip {keys : List String} {objects : List ObjectSummary}
    (h : List.Forall₂ (fun full object =>
      stripRootPrefix provider.rootPrefix full = .ok object.path) keys objects) :
    keys = (objects.map (·.path)).map (fullKey provider.rootPrefix) := by
  induction h with
  | nil => rfl
  | cons hhead _ ih =>
      rw [List.map_cons, List.map_cons, ← ih,
        (stripRootPrefix_ok_iff provider.rootPrefix_ne_empty).mp hhead]

theorem startsWith_fullKey_iff :
    Str.startsWith (fullKey provider.rootPrefix callerPrefix) (fullKey provider.rootPrefix path)
        = true ↔ Str.startsWith callerPrefix path = true := by
  obtain ⟨front, hfront⟩ := fullKey_eq provider.rootPrefix
  rw [hfront, hfront, startsWith_append_iff]

theorem rolledUp_fullKey : rolledUp (fullKey provider.rootPrefix callerPrefix) delimiter
    (fullKey provider.rootPrefix path)
      = (rolledUp callerPrefix delimiter path).map (fullKey provider.rootPrefix) := by
  obtain ⟨front, hfront⟩ := fullKey_eq provider.rootPrefix
  rw [hfront, hfront, rolledUp_append]
  congr 1
  funext text
  rw [hfront]

/-- A key under the full prefix is the full key of a path under the caller's. -/
theorem exists_path {key : String}
    (h : Str.startsWith (fullKey provider.rootPrefix callerPrefix) key = true) :
    ∃ path, key = fullKey provider.rootPrefix path ∧ Str.startsWith callerPrefix path = true := by
  obtain ⟨front, hfront⟩ := fullKey_eq provider.rootPrefix
  obtain ⟨rest, rfl⟩ := Str.startsWith_iff.mp h
  refine ⟨callerPrefix ++ rest, ?_, Str.startsWith_iff.mpr ⟨rest, rfl⟩⟩
  rw [hfront, hfront, String.append_assoc]

/-- What a listing shows of a path beneath the root is shown of its full key. -/
theorem shows_of_path {shown : String} (hthere : holding (fullKey provider.rootPrefix path) ≠ none)
    (hpath : Str.startsWith callerPrefix path = true)
    (hshown : pathShown callerPrefix delimiter path = shown) :
    holding.Shows (fullKey provider.rootPrefix callerPrefix) delimiter
      (fullKey provider.rootPrefix shown) := by
  refine ⟨_, hthere, startsWith_fullKey_iff.mpr hpath, ?_⟩
  rw [rolledUp_fullKey, ← hshown, pathShown]
  cases rolledUp callerPrefix delimiter path with
  | none => rfl
  | some group => rfl

/-- The row of a full key, and the object that it is listed as. -/
theorem objectSummary_summarizes {item : ListedObject} {key : String} {object : ObjectSummary}
    (h : objectSummary provider.rootPrefix item key = .ok object)
    (hrow : holding key = some item) :
    key = fullKey provider.rootPrefix object.path ∧
      holding.Summarizes provider.rootPrefix object := by
  have hkey := (stripRootPrefix_ok_iff provider.rootPrefix_ne_empty).mp (objectSummary_ok h)
  obtain ⟨path, -, h⟩ := except_bind_ok h
  cases h
  exact ⟨hkey, item, by rw [← hkey]; exact hrow, rfl⟩

/-- The checks and projections of the two listings leave this of a page. -/
theorem pathPage_of_lists {sent : ListObjectsV2} {page : ListPage}
    {objects : List ObjectSummary} {commonPrefixes : List String}
    (hlists : holding.Lists behind sent page)
    (hsent : sent.keyPrefix.getD "" = fullKey provider.rootPrefix callerPrefix)
    (hrows : List.Forall₂ (fun row object =>
      objectSummary provider.rootPrefix row.1 row.2 = .ok object) page.keyedRows objects)
    (hgroups : List.Forall₂ (StandsFor provider.rootPrefix) page.commonPrefixes commonPrefixes) :
    PathPage provider behind holding callerPrefix sent.delimiter sent.continuationToken
      page.nextContinuationToken objects commonPrefixes := by
  have hkeys : page.keys = (objects.map (·.path)).map (fullKey provider.rootPrefix) := by
    refine keys_of_strip ?_
    rw [ListPage.keys_eq_keyedRows, List.forall₂_map_left_iff]
    exact hrows.imp fun _ _ => objectSummary_ok
  have hprefixes : page.prefixes = commonPrefixes.map (fullKey provider.rootPrefix) :=
    filterMap_of_standsFor hgroups
  refine ⟨fun object hobject => ?_, fun group hgroup => ?_, ?_⟩
  · -- the row of the object is a row of the bucket
    obtain ⟨⟨item, key⟩, hrow, hsummary⟩ := exists_of_forall₂ hrows hobject
    obtain ⟨hitem, hkey⟩ := ListPage.mem_keyedRows_iff.mp hrow
    obtain ⟨key', hkey', hholding, hstarts, hsingle⟩ := hlists.rows item hitem
    obtain rfl := Option.some.inj (hkey.symm.trans hkey')
    obtain ⟨rfl, hsummarizes⟩ := objectSummary_summarizes hsummary hholding
    rw [hsent] at hstarts hsingle
    rw [rolledUp_fullKey, Option.map_eq_none_iff] at hsingle
    exact ⟨hsummarizes, startsWith_fullKey_iff.mp hstarts, hsingle⟩
  · obtain ⟨value, hvalue, hstands⟩ := exists_of_forall₂ hgroups hgroup
    obtain ⟨full, key, rfl, hthere, hstarts, hrolled⟩ := hlists.prefixes value hvalue
    rw [hsent] at hstarts hrolled
    obtain ⟨path, rfl, hpath⟩ := exists_path hstarts
    rw [rolledUp_fullKey] at hrolled
    obtain ⟨group', hgroup', hfull⟩ := Option.map_eq_some_iff.mp hrolled
    obtain rfl := Option.some.inj hstands
    rw [fullKey_inj.mp hfull] at hgroup'
    exact ⟨path, hthere, hpath, hgroup'⟩
  · have hordered := hlists.ordered
    rwa [hsent, hkeys, hprefixes, ← List.map_append] at hordered

/-- An accepted page of the universal listing, from a service that lists in order. -/
theorem list_page {service : ListService} {options : ListOptions} {result : ListResult}
    (hserves : ∀ sent page, service sent = .ok page → holding.Lists behind sent page)
    (h : provider.list service options = .ok result) :
    result.isTruncated = result.continuationToken.isSome ∧
      PathPage provider behind holding (options.keyPrefix.getD "") none options.continuationToken
        result.continuationToken result.objects [] := by
  rw [list_eq] at h
  obtain ⟨page, hpage, h⟩ := except_bind_ok h
  obtain ⟨sent, hsent, hserved⟩ := except_bind_ok (reported_ok hpage)
  obtain ⟨_, -, h⟩ := except_bind_ok h
  obtain ⟨objects, hobjects, h⟩ := except_bind_ok h
  cases h
  obtain ⟨keyPrefix, hprefix, hsent⟩ := except_bind_ok hsent
  obtain ⟨maxKeys, -, hsent⟩ := except_bind_ok hsent
  cases hsent
  have hlists := hserves _ page hserved
  -- without a delimiter nothing is rolled up
  have hnone : page.commonPrefixes = [] := by
    refine List.eq_nil_iff_forall_not_mem.mpr fun value hvalue => ?_
    obtain ⟨group, key, -, -, -, hrolled⟩ := hlists.prefixes value hvalue
    cases hrolled
  refine ⟨by rw [hlists.paired]; rfl, ?_⟩
  exact pathPage_of_lists hlists (resolveListPrefix_ok provider.rootPrefix_normal hprefix)
    (mapM_ok hobjects) (by rw [hnone]; exact .nil)

/-- An accepted page of the delimiter listing, from a service that lists in order. -/
theorem listDelimited_page {service : ListService} {request : DelimiterListRequest}
    {result : DelimiterListResult}
    (hserves : ∀ sent page, service sent = .ok page → holding.Lists behind sent page)
    (h : provider.listDelimited service request = .ok result) :
    result.isTruncated = result.continuationToken.isSome ∧
      PathPage provider behind holding (request.keyPrefix.getD "") (some request.delimiter)
        request.continuationToken result.continuationToken result.objects
        result.commonPrefixes := by
  rw [listDelimited_eq] at h
  obtain ⟨page, hpage, h⟩ := except_bind_ok h
  obtain ⟨sent, hsent, hserved⟩ := except_bind_ok (reported_ok hpage)
  obtain ⟨isTruncated, htruncated, h⟩ := except_bind_ok h
  obtain ⟨_, hcheck, h⟩ := except_bind_ok h
  obtain ⟨objects, hobjects, h⟩ := except_bind_ok h
  obtain ⟨commonPrefixes, hprefixes, h⟩ := except_bind_ok h
  cases h
  obtain ⟨_, -, hsent⟩ := except_bind_ok hsent
  obtain ⟨_, -, hsent⟩ := except_bind_ok hsent
  obtain ⟨keyPrefix, hprefix, hsent⟩ := except_bind_ok hsent
  obtain ⟨maxKeys, -, hsent⟩ := except_bind_ok hsent
  cases hsent
  have hlists := hserves _ page hserved
  rw [hlists.paired] at htruncated
  refine ⟨(Except.ok.inj htruncated).symm, ?_⟩
  refine pathPage_of_lists hlists (resolveListPrefix_ok provider.rootPrefix_normal hprefix)
    (forall₂_filterMap ((mapM_ok hobjects).imp fun item object hrow => ?_))
    ((mapM_ok hprefixes).imp fun _ _ => (projectPrefix_ok_iff provider.rootPrefix_ne_empty).mp)
  -- a row without a key has failed the check before
  cases hkey : item.key with
  | none =>
      rw [projectRow, hkey] at hrow
      cases hrow
  | some key =>
      rw [projectRow, hkey] at hrow
      exact ⟨(item, key), rfl, hrow⟩

end S3Provider

/-! ## The whole walk -/

/-- What the pages of a walk list, with the bucket as it was at each of them: summaries of
objects that were there and groups of such, none of them twice.  An object that is there all
the time is listed, and so is a group that is never empty. -/
structure WalksExactly (provider : S3Provider) (callerPrefix : String) (delimiter : Option String)
    (pages : List (Holding × List ObjectSummary × List String)) : Prop where
  nodup : (pages.flatMap fun page => page.2.1.map (·.path) ++ page.2.2).Nodup
  summaries : ∀ page ∈ pages, ∀ object ∈ page.2.1,
    page.1.Summarizes provider.rootPrefix object ∧ Str.startsWith callerPrefix object.path ∧
      rolledUp callerPrefix delimiter object.path = none
  groups : ∀ page ∈ pages, ∀ group ∈ page.2.2, ∃ path,
    page.1 (fullKey provider.rootPrefix path) ≠ none ∧ Str.startsWith callerPrefix path ∧
      rolledUp callerPrefix delimiter path = some group
  objects_complete : ∀ path, Str.startsWith callerPrefix path →
    rolledUp callerPrefix delimiter path = none →
    (∀ page ∈ pages, page.1 (fullKey provider.rootPrefix path) ≠ none) →
    ∃ page ∈ pages, ∃ object ∈ page.2.1, object.path = path
  groups_complete : ∀ group, (∀ page ∈ pages, ∃ path,
      page.1 (fullKey provider.rootPrefix path) ≠ none ∧ Str.startsWith callerPrefix path ∧
        rolledUp callerPrefix delimiter path = some group) →
    ∃ page ∈ pages, group ∈ page.2.2

namespace S3Provider

variable {provider : S3Provider} {behind : String → String}

/-- The entries of a page, by their full keys. -/
def fullEntries (provider : S3Provider) (page : Holding × List ObjectSummary × List String) :
    List String :=
  (page.2.1.map (·.path) ++ page.2.2).map (fullKey provider.rootPrefix)

theorem mem_fullEntries {pages : List (Holding × List ObjectSummary × List String)}
    {shown : String}
    (h : fullKey provider.rootPrefix shown ∈ pages.flatMap provider.fullEntries) :
    (∃ page ∈ pages, ∃ object ∈ page.2.1, object.path = shown) ∨
      ∃ page ∈ pages, shown ∈ page.2.2 := by
  obtain ⟨page, hpage, hentry⟩ := List.mem_flatMap.mp h
  obtain ⟨entry, hmem, hsame⟩ := List.mem_map.mp hentry
  obtain rfl := fullKey_inj.mp hsame
  rcases List.mem_append.mp hmem with hpath | hgroup
  · obtain ⟨object, hobject, rfl⟩ := List.mem_map.mp hpath
    exact .inl ⟨page, hpage, object, hobject, rfl⟩
  · exact .inr ⟨page, hpage, hgroup⟩

/-- Pages that enumerate what is shown list exactly what they should. -/
theorem walksExactly_of_enumerates {callerPrefix : String} {delimiter : Option String}
    {pages : List (Holding × List ObjectSummary × List String)}
    (hpages : ∀ page ∈ pages, ∃ token next,
      PathPage provider behind page.1 callerPrefix delimiter token next page.2.1 page.2.2)
    (h : Enumerates none (pages.map fun page =>
      (page.1.Shows (fullKey provider.rootPrefix callerPrefix) delimiter,
        provider.fullEntries page))) :
    WalksExactly provider callerPrefix delimiter pages := by
  have hsummaries : ∀ page ∈ pages, ∀ object ∈ page.2.1,
      page.1.Summarizes provider.rootPrefix object ∧ Str.startsWith callerPrefix object.path ∧
        rolledUp callerPrefix delimiter object.path = none := by
    intro page hpage
    obtain ⟨token, next, hpaths⟩ := hpages page hpage
    exact hpaths.summaries
  have hgroups : ∀ page ∈ pages, ∀ group ∈ page.2.2, ∃ path,
      page.1 (fullKey provider.rootPrefix path) ≠ none ∧ Str.startsWith callerPrefix path ∧
        rolledUp callerPrefix delimiter path = some group := by
    intro page hpage
    obtain ⟨token, next, hpaths⟩ := hpages page hpage
    exact hpaths.groups
  -- what is shown at every page is met, as an object or as a group
  have hmet : ∀ shown, (∀ page ∈ pages, page.1.Shows (fullKey provider.rootPrefix callerPrefix)
      delimiter (fullKey provider.rootPrefix shown)) →
      fullKey provider.rootPrefix shown ∈ pages.flatMap provider.fullEntries := by
    intro shown hshown
    have hmem := h.complete (fun page hpage => by
      obtain ⟨source, hsource, rfl⟩ := List.mem_map.mp hpage
      exact hshown source hsource) (fun bound hbound => by cases hbound)
    rwa [List.flatMap_map] at hmem
  refine ⟨?_, hsummaries, hgroups, ?_, ?_⟩
  · have hnodup := h.nodup
    rw [List.flatMap_map] at hnodup
    refine List.Nodup.of_map (fullKey provider.rootPrefix) ?_
    rwa [List.map_flatMap]
  · intro path hstarts hsingle hthere
    rcases mem_fullEntries (hmet path fun page hpage =>
      shows_of_path (hthere page hpage) hstarts (by rw [pathShown, hsingle]; rfl)) with
      hobject | ⟨page, hpage, hgroup⟩
    · exact hobject
    · -- a group is rolled up, and the path is not
      obtain ⟨other, -, -, hrolled⟩ := hgroups page hpage path hgroup
      rw [rolledUp_self hrolled] at hsingle
      cases hsingle
  · intro group hnever
    rcases mem_fullEntries (hmet group fun page hpage => by
      obtain ⟨path, hthere, hstarts, hrolled⟩ := hnever page hpage
      exact shows_of_path hthere hstarts (by rw [pathShown, hrolled]; rfl)) with
      ⟨page, hpage, object, hobject, rfl⟩ | hgroup
    · obtain ⟨-, -, hsingle⟩ := hsummaries page hpage object hobject
      obtain ⟨other, -, -, hrolled⟩ := hnever page hpage
      rw [rolledUp_self hrolled] at hsingle
      cases hsingle
    · exact hgroup

/-- A walk whose answers are pages of paths lists exactly what it should. -/
theorem walksExactly_of_pages {Result : Type} {next : Result → Option String}
    {isTruncated : Result → Bool} {answers : Option String → Holding → Result → Prop}
    {objects : Result → List ObjectSummary} {commonPrefixes : Result → List String}
    {callerPrefix : String} {delimiter : Option String} {pages : List (Holding × Result)}
    (hpage : ∀ token holding result, answers token holding result →
      isTruncated result = (next result).isSome ∧
      PathPage provider behind holding callerPrefix delimiter token (next result)
        (objects result) (commonPrefixes result))
    (h : PageWalk next isTruncated answers none pages) :
    WalksExactly provider callerPrefix delimiter
      (pages.map fun page => (page.1, objects page.2, commonPrefixes page.2)) := by
  refine @walksExactly_of_enumerates provider behind _ _ _ ?_ ?_
  · intro page hmem
    obtain ⟨source, hsource, rfl⟩ := List.mem_map.mp hmem
    obtain ⟨token, hanswers⟩ := h.answered source hsource
    exact ⟨token, _, (hpage token _ _ hanswers).2⟩
  · rw [List.map_map]
    exact h.enumerates fun token holding result hanswers =>
      ⟨(hpage token holding result hanswers).1, (hpage token holding result hanswers).2.ordered⟩

/-- A page of the universal listing, from a service that lists in order. -/
def ListAnswers (provider : S3Provider) (behind : String → String) (options : ListOptions)
    (token : Option String) (holding : Holding) (result : ListResult) : Prop :=
  ∃ service : ListService,
    (∀ sent page, service sent = .ok page → holding.Lists behind sent page) ∧
    provider.list service { options with continuationToken := token } = .ok result

/-- A page of the delimiter listing, from such a service. -/
def DelimitedAnswers (provider : S3Provider) (behind : String → String)
    (request : DelimiterListRequest) (token : Option String) (holding : Holding)
    (result : DelimiterListResult) : Prop :=
  ∃ service : ListService,
    (∀ sent page, service sent = .ok page → holding.Lists behind sent page) ∧
    provider.listDelimited service { request with continuationToken := token } = .ok result

/-- A row of one byte. -/
def byteRow (key : String) : ListedObject := ⟨some key, some 1, some "tag", none⟩

/-- Two objects. -/
def twoRows (first second : String) : Holding := fun key =>
  if key = first ∨ key = second then some (byteRow key) else none

theorem twoRows_ne_none_iff {first second key : String} :
    twoRows first second key ≠ none ↔ key = first ∨ key = second := by
  by_cases hkey : key = first ∨ key = second
  · simp [twoRows, hkey]
  · simp [twoRows, hkey]

/-- A service that answers one request. -/
def answering (sent : ListObjectsV2) (page : ListPage) : ListService := fun request =>
  if request = sent then .ok page else .error (.other none none "")

theorem answering_lists {holding : Holding} {behind : String → String} {sent : ListObjectsV2}
    {page : ListPage} (h : holding.Lists behind sent page) :
    ∀ request other, answering sent page request = .ok other →
      holding.Lists behind request other := by
  intro request other hanswer
  unfold answering at hanswer
  split at hanswer
  next hsent =>
    rw [hsent, ← Except.ok.inj hanswer]
    exact h
  next => cases hanswer

/-- Walking the universal listing to its last page. -/
theorem list_walk_exact {options : ListOptions} {pages : List (Holding × ListResult)}
    (h : PageWalk (·.continuationToken) (·.isTruncated) (provider.ListAnswers behind options) none
      pages) :
    WalksExactly provider (options.keyPrefix.getD "") none
      (pages.map fun page => (page.1, page.2.objects, [])) :=
  @walksExactly_of_pages provider behind ListResult _ _ _ (·.objects) (fun _ => []) _ _ pages
    (fun _ _ _ ⟨_, hserves, hlist⟩ => list_page hserves hlist) h

/-- Two pages of one object each. -/
theorem list_walk_exact_two :
    WalksExactly rooted "" none
      [(twoRows "logs/a" "logs/b", [⟨"a", 1, some "tag", none, none⟩], []),
        (twoRows "logs/a" "logs/b", [⟨"b", 1, some "tag", none, none⟩], [])] := by
  have hshows : ∀ {entry}, (twoRows "logs/a" "logs/b").Shows "logs/" none entry ↔
      entry = "logs/a" ∨ entry = "logs/b" := by
    intro entry
    constructor
    · rintro ⟨key, hkey, -, rfl⟩
      exact twoRows_ne_none_iff.mp hkey
    · intro hentry
      refine ⟨entry, twoRows_ne_none_iff.mpr hentry, ?_, rfl⟩
      rcases hentry with rfl | rfl <;> decide
  -- the token of the first page stands for the first object
  have hfirst : (twoRows "logs/a" "logs/b").Lists (fun _ => "logs/a")
      ⟨"bucket", some "logs/", none, none, none⟩ ⟨[byteRow "logs/a"], [], some true, some "t"⟩ := by
    refine ⟨rfl, ?_, by simp, ⟨by decide, ?_, by simp, ?_, by simp, ?_⟩⟩
    · intro item hitem
      obtain rfl := List.mem_singleton.mp hitem
      exact ⟨"logs/a", rfl, by decide, by decide, rfl⟩
    · intro entry hentry
      exact hshows.mpr (.inl (List.mem_singleton.mp hentry))
    · intro bound hbound entry hentry
      cases hbound
      exact le_of_eq (List.mem_singleton.mp hentry)
    · intro entry hentry _
      rcases hshows.mp hentry with rfl | rfl
      · exact .inl (List.mem_singleton_self _)
      · exact .inr ⟨"logs/a", rfl, by decide +kernel⟩
  have hsecond : (twoRows "logs/a" "logs/b").Lists (fun _ => "logs/a")
      ⟨"bucket", some "logs/", none, some "t", none⟩
      ⟨[byteRow "logs/b"], [], some false, none⟩ := by
    refine ⟨rfl, ?_, by simp, ⟨by decide, ?_, ?_, by simp, by simp, ?_⟩⟩
    · intro item hitem
      obtain rfl := List.mem_singleton.mp hitem
      exact ⟨"logs/b", rfl, by decide, by decide, rfl⟩
    · intro entry hentry
      exact hshows.mpr (.inr (List.mem_singleton.mp hentry))
    · intro entry hentry bound hbound
      obtain rfl := List.mem_singleton.mp hentry
      cases hbound
      decide +kernel
    · intro entry hentry hbehind
      rcases hshows.mp hentry with rfl | rfl
      · exact absurd (hbehind _ rfl) (lt_irrefl _)
      · exact .inl (List.mem_singleton_self _)
  have hwalk : PageWalk (·.continuationToken) (·.isTruncated)
      (rooted.ListAnswers (fun _ => "logs/a") ⟨none, none, none⟩) none
      [(twoRows "logs/a" "logs/b", ⟨[⟨"a", 1, some "tag", none, none⟩], some "t", true⟩),
        (twoRows "logs/a" "logs/b", ⟨[⟨"b", 1, some "tag", none, none⟩], none, false⟩)] :=
    .more _ _ _ _ ⟨_, answering_lists hfirst, by decide +kernel⟩ rfl
      (.last _ _ _ ⟨_, answering_lists hsecond, by decide +kernel⟩ rfl)
  exact list_walk_exact hwalk

/-- Walking the delimiter listing to its last page. -/
theorem delimited_walk_exact {request : DelimiterListRequest}
    {pages : List (Holding × DelimiterListResult)}
    (h : PageWalk (·.continuationToken) (·.isTruncated)
      (provider.DelimitedAnswers behind request) none pages) :
    WalksExactly provider (request.keyPrefix.getD "") (some request.delimiter)
      (pages.map fun page => (page.1, page.2.objects, page.2.commonPrefixes)) :=
  walksExactly_of_pages (fun _ _ _ ⟨_, hserves, hlist⟩ => listDelimited_page hserves hlist) h

/-- A page with one group of two objects. -/
theorem delimited_walk_exact_group :
    WalksExactly rooted "" (some "/")
      [(twoRows "logs/d/a" "logs/d/b", [], ["d/"])] := by
  have hrolled : ∀ {key}, twoRows "logs/d/a" "logs/d/b" key ≠ none →
      Str.startsWith "logs/" key = true ∧ rolledUp "logs/" (some "/") key = some "logs/d/" := by
    intro key hkey
    rcases twoRows_ne_none_iff.mp hkey with rfl | rfl <;> decide +kernel
  have hshows : ∀ {entry}, (twoRows "logs/d/a" "logs/d/b").Shows "logs/" (some "/") entry ↔
      entry = "logs/d/" := by
    intro entry
    constructor
    · rintro ⟨key, hkey, -, rfl⟩
      rw [(hrolled hkey).2]
      rfl
    · rintro rfl
      have hthere : twoRows "logs/d/a" "logs/d/b" "logs/d/a" ≠ none :=
        twoRows_ne_none_iff.mpr (.inl rfl)
      exact ⟨_, hthere, (hrolled hthere).1, by rw [(hrolled hthere).2]; rfl⟩
  have hlists : (twoRows "logs/d/a" "logs/d/b").Lists id
      ⟨"bucket", some "logs/", some "/", none, none⟩
      ⟨[], [some "logs/d/"], some false, none⟩ := by
    refine ⟨rfl, by simp, ?_, ⟨by decide, ?_, by simp, by simp, by simp, ?_⟩⟩
    · intro value hvalue
      obtain rfl := List.mem_singleton.mp hvalue
      have hthere : twoRows "logs/d/a" "logs/d/b" "logs/d/a" ≠ none :=
        twoRows_ne_none_iff.mpr (.inl rfl)
      exact ⟨"logs/d/", _, rfl, hthere, hrolled hthere⟩
    · intro entry hentry
      exact hshows.mpr (List.mem_singleton.mp hentry)
    · intro entry hentry _
      exact .inl (List.mem_singleton.mpr (hshows.mp hentry))
  have hwalk : PageWalk (·.continuationToken) (·.isTruncated)
      (rooted.DelimitedAnswers id ⟨none, "/", none, none⟩) none
      [(twoRows "logs/d/a" "logs/d/b", ⟨[], ["d/"], none, false⟩)] :=
    .last _ _ _ ⟨_, answering_lists hlists, by decide +kernel⟩ rfl
  exact delimited_walk_exact hwalk

end S3Provider

end Storageprims

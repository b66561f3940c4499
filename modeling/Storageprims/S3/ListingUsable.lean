import Storageprims.S3.Pages

/-!
# Using what a listing returns

Paths and common prefixes of an accepted page are handed back to other operations.
They lead back to the listed keys exactly as far as those operations take a path
literally.
-/

namespace Storageprims

namespace S3Provider

variable (provider : S3Provider)

/-- A path a request takes literally: not empty and without a leading separator. -/
def IsRelativePath (path : String) : Prop :=
  path ≠ "" ∧ ¬ Str.startsWith "/" path

/-- The row `full` of a page is listed as `path`, which requests resolve back to
`full` if and only if they take it literally; a copy must not read it as an
address either. -/
def Usable (full path : String) : Prop :=
  stripRootPrefix provider.rootPrefix full = .ok path ∧
    (provider.resolveKey path = .ok full ↔ IsRelativePath path) ∧
    ∀ field, provider.resolveCopyLocation path field = .ok ⟨provider.bucket, full⟩ ↔
      IsRelativePath path ∧ ¬ Str.startsWith "s3://" path

/-- The common prefix `full` of a page is listed as `path`, which a later listing
resolves back to `full` if and only if it does not refuse it as absolute. -/
def UsablePrefix (full path : String) : Prop :=
  stripRootPrefix provider.rootPrefix full = .ok path ∧
    (resolveListPrefix provider.rootPrefix (some path) = .ok (some full) ↔
      ¬ IsAbsolutePrefix path)

theorem resolveKey_strip_iff {full path : String}
    (hstrip : stripRootPrefix provider.rootPrefix full = .ok path) :
    provider.resolveKey path = .ok full ↔ IsRelativePath path := by
  rw [provider.resolveKey_ok_iff, IsRelativePath, Bool.not_eq_true]
  refine and_congr_right fun hpath => ?_
  exact joinKey_stripRootPrefix_iff provider.rootPrefix_normal hstrip hpath

/-- An address inside the path of a row is shorter than the row's key. -/
theorem resolveCopyLocation_ne_of_absolute {full path : String}
    (hstrip : stripRootPrefix provider.rootPrefix full = .ok path)
    (hpath : Str.startsWith "s3://" path) (field : String) :
    provider.resolveCopyLocation path field ≠ .ok ⟨provider.bucket, full⟩ := by
  intro hlocation
  -- the key of the address is a part of the path, so it cannot reach the row's length
  obtain ⟨rest, hrest⟩ := Str.startsWith_iff.mp hpath
  rw [provider.resolveCopyLocation_absolute hrest] at hlocation
  cases huri : StorageUri.parseContainerPath path rest .s3 with
  | error error =>
      rw [huri] at hlocation
      cases hlocation
  | ok uri =>
      rw [huri] at hlocation
      have hkey : uri.path = full := congrArg S3Location.key (Except.ok.inj hlocation)
      have hshort := StorageUri.parseContainerPath_path_le huri
      have hscheme : "s3://".length = 5 := rfl
      have hlong := stripRootPrefix_length_le provider.rootPrefix_normal hstrip
      rw [hrest, String.length_append, ← hkey] at hlong
      omega

theorem usable_of_strip {full path : String}
    (hstrip : stripRootPrefix provider.rootPrefix full = .ok path) :
    provider.Usable full path := by
  refine ⟨hstrip, provider.resolveKey_strip_iff hstrip, fun field => ?_⟩
  by_cases hpath : Str.startsWith "s3://" path
  · refine iff_of_false (provider.resolveCopyLocation_ne_of_absolute hstrip hpath field) ?_
    intro hboth
    exact hboth.2 hpath
  · rw [provider.resolveCopyLocation_relative hpath, ← provider.resolveKey_strip_iff hstrip]
    cases hkey : provider.resolveKey path with
    | error error => simp [Except.map]
    | ok key => simp [Except.map, hpath]

theorem usablePrefix_of_strip {full path : String}
    (hstrip : stripRootPrefix provider.rootPrefix full = .ok path) (hpath : path ≠ "") :
    provider.UsablePrefix full path :=
  ⟨hstrip, resolveListPrefix_stripRootPrefix_iff provider.rootPrefix_normal hstrip hpath⟩

end S3Provider

/-! ## Accepted pages -/

/-- The keys of the rows that have one. -/
def ListPage.keys (page : ListPage) : List String := page.contents.filterMap (·.key)

/-- The common prefixes that are present. -/
def ListPage.prefixes (page : ListPage) : List String := page.commonPrefixes.filterMap id

/-- Elements that all have an image are related to its relatives one by one. -/
theorem forall₂_filterMap {α β γ : Type} {image : α → Option β} {related : β → γ → Prop}
    {elements : List α} {values : List γ}
    (h : List.Forall₂ (fun element value => ∃ b, image element = some b ∧ related b value)
      elements values) : List.Forall₂ related (elements.filterMap image) values := by
  induction h with
  | nil => exact .nil
  | cons hhead _ ih =>
      obtain ⟨b, hb, hrelated⟩ := hhead
      rw [List.filterMap_cons_some hb]
      exact .cons hrelated ih

namespace S3Provider

variable (provider : S3Provider)

/-- Every row of an accepted page that has a key is listed once, in order. -/
theorem list_projects {service : ListService} {options : ListOptions} {result : ListResult}
    (h : provider.list service options = .ok result) :
    ∃ sent page, service sent = .ok page ∧
      List.Forall₂ (fun full object => stripRootPrefix provider.rootPrefix full = .ok object.path)
        page.keys result.objects := by
  rw [list_eq] at h
  obtain ⟨page, hpage, h⟩ := except_bind_ok h
  obtain ⟨sent, -, hserved⟩ := except_bind_ok (reported_ok hpage)
  obtain ⟨-, -, h⟩ := except_bind_ok h
  obtain ⟨objects, hobjects, h⟩ := except_bind_ok h
  cases h
  refine ⟨sent, page, hserved, ?_⟩
  -- rows without a key drop out of the page before it is projected
  have hkeys : page.keys = page.keyedRows.map Prod.snd := by
    rw [ListPage.keyedRows, List.map_filterMap, ListPage.keys]
    congr 1
    funext item
    cases item.key <;> rfl
  rw [hkeys, List.forall₂_map_left_iff]
  exact (mapM_ok hobjects).imp fun _ _ => objectSummary_ok

/-- On an accepted delimiter page, every row is listed without the root, and so is
every common prefix, of which something is left. -/
theorem listDelimited_projects {service : ListService} {request : DelimiterListRequest}
    {result : DelimiterListResult} (h : provider.listDelimited service request = .ok result) :
    ∃ sent page, service sent = .ok page ∧
      List.Forall₂ (fun full object => stripRootPrefix provider.rootPrefix full = .ok object.path)
        page.keys result.objects ∧
      List.Forall₂ (fun full path => stripRootPrefix provider.rootPrefix full = .ok path ∧
        path ≠ "") page.prefixes result.commonPrefixes := by
  rw [listDelimited_eq] at h
  obtain ⟨page, hpage, h⟩ := except_bind_ok h
  obtain ⟨sent, -, hserved⟩ := except_bind_ok (reported_ok hpage)
  obtain ⟨isTruncated, -, h⟩ := except_bind_ok h
  obtain ⟨_, hcheck, h⟩ := except_bind_ok h
  have hwell := provider.wellFormedPage_of_check (reported_ok hcheck)
  obtain ⟨projected, hprojected, hrows, hvalues, -⟩ := provider.projectDelimiterPage_ok hwell
  obtain rfl := Except.ok.inj (hprojected.symm.trans h)
  have hstrip : ∀ {entry path}, StandsFor provider.rootPrefix entry path →
      ∃ full, entry = some full ∧ stripRootPrefix provider.rootPrefix full = .ok path :=
    fun hentry => ⟨_, hentry, (stripRootPrefix_ok_iff provider.rootPrefix_ne_empty).mpr rfl⟩
  refine ⟨sent, page, hserved, forall₂_filterMap (hrows.imp fun _ _ => hstrip), ?_⟩
  -- the page check has already refused a prefix that projects to nothing
  refine forall₂_filterMap (((List.forall₂_and_left _ _).mpr ⟨hwell.prefixes, hvalues⟩).imp ?_)
  rintro entry path ⟨⟨other, hother, -, hne⟩, hpath⟩
  obtain ⟨full, hfull, hpath'⟩ := hstrip hpath
  exact ⟨full, hfull, hpath', standsFor_unique hother hpath ▸ hne⟩

/-- What a listing returns can be used exactly as far as requests take it
literally.  A request trims leading separators and refuses the empty key, a copy
reads `s3://` as an address, and a listing refuses an absolute prefix; every other
path and common prefix of an accepted page leads back to what was listed, so no
two listed objects share a key. -/
theorem listing_usable :
    (∀ service options result, provider.list service options = .ok result →
      ∃ sent page, service sent = .ok page ∧
        List.Forall₂ provider.Usable page.keys (result.objects.map (·.path))) ∧
    (∀ service request result, provider.listDelimited service request = .ok result →
      ∃ sent page, service sent = .ok page ∧
        List.Forall₂ provider.Usable page.keys (result.objects.map (·.path)) ∧
        List.Forall₂ provider.UsablePrefix page.prefixes result.commonPrefixes) ∧
    ∀ first second path path', provider.Usable first path → provider.Usable second path' →
      IsRelativePath path → IsRelativePath path' →
      provider.resolveKey path = provider.resolveKey path' → first = second := by
  -- keys come back through the join, prefixes and tokens as they are
  refine ⟨fun service options result hlist => ?_, fun service request result hlist => ?_, ?_⟩
  · obtain ⟨sent, page, hpage, hrows⟩ := provider.list_projects hlist
    refine ⟨sent, page, hpage, ?_⟩
    rw [List.forall₂_map_right_iff]
    exact hrows.imp fun _ _ => provider.usable_of_strip
  · obtain ⟨sent, page, hpage, hrows, hprefixes⟩ := provider.listDelimited_projects hlist
    refine ⟨sent, page, hpage, ?_, ?_⟩
    · rw [List.forall₂_map_right_iff]
      exact hrows.imp fun _ _ => provider.usable_of_strip
    · exact hprefixes.imp fun _ _ hprefix => provider.usablePrefix_of_strip hprefix.1 hprefix.2
  · intro first second path path' hfirst hsecond hpath hpath' hsame
    rw [hfirst.2.1.mpr hpath, hsecond.2.1.mpr hpath'] at hsame
    exact Except.ok.inj hsame

/-- A page of two rows and a common prefix leads back to what was listed, and its rows to
different keys. -/
theorem listing_usable_page :
    let provider : S3Provider := ⟨"bucket", some "r", none, by decide⟩
    provider.Usable "r/a" "a" ∧ provider.Usable "r/b" "b" ∧ provider.UsablePrefix "r/d/" "d/" ∧
      provider.resolveKey "a" ≠ provider.resolveKey "b" := by
  intro provider
  let row (key : String) : ListedObject := ⟨some key, some 1, none, none⟩
  let service : ListService := fun _ =>
    .ok ⟨[row "r/a", row "r/b"], [some "r/d/"], some false, none⟩
  let object (path : String) : ObjectSummary := ⟨path, 1, none, none, none⟩
  have hlist : provider.list service ⟨none, none, none⟩
      = .ok ⟨[object "a", object "b"], none, false⟩ := by decide +kernel
  have hdelimited : provider.listDelimited service ⟨none, "/", none, none⟩
      = .ok ⟨[object "a", object "b"], ["d/"], none, false⟩ := by decide +kernel
  have hrelative : IsRelativePath "a" ∧ IsRelativePath "b" := by
    constructor <;> exact ⟨by decide, by decide +kernel⟩
  obtain ⟨hlisted, hgrouped, hdistinct⟩ := listing_usable provider
  obtain ⟨_, _, hpage, hrows⟩ := hlisted service _ _ hlist
  cases hpage
  obtain ⟨_, _, hpage, -, hprefixes⟩ := hgrouped service _ _ hdelimited
  cases hpage
  obtain ⟨hfirst, hrows⟩ := List.forall₂_cons.mp hrows
  obtain ⟨hsecond, -⟩ := List.forall₂_cons.mp hrows
  obtain ⟨hgroup, -⟩ := List.forall₂_cons.mp hprefixes
  refine ⟨hfirst, hsecond, hgroup, fun hsame => ?_⟩
  have hkeys := hdistinct _ _ _ _ hfirst hsecond hrelative.1 hrelative.2 hsame
  exact absurd hkeys (by decide)

/-- A page with two rows that requests cannot tell apart: a doubled separator is
listed literally and trimmed on the way back. -/
theorem list_doubled_separator :
    let provider : S3Provider := ⟨"bucket", some "r", none, by decide⟩
    let row (key : String) : ListedObject := ⟨some key, some 1, none, none⟩
    let service : ListService := fun _ => .ok ⟨[row "r//a", row "r/a"], [], some false, none⟩
    let object (path : String) : ObjectSummary := ⟨path, 1, none, none, none⟩
    provider.list service ⟨none, none, none⟩ = .ok ⟨[object "/a", object "a"], none, false⟩ ∧
      provider.resolveKey "/a" = .ok "r/a" ∧ provider.resolveKey "a" = .ok "r/a" := by
  decide +kernel

end S3Provider

end Storageprims

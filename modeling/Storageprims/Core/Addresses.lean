import Storageprims.Core.Uri

/-!
# The grammar of addresses

Which texts are addresses, and what each of them names.  The parser accepts these texts and no
others, and two texts name one target only where a separator at the end is left out.
-/

namespace Storageprims

/-- A name between separators. -/
def IsName (name : String) : Prop := name ≠ "" ∧ '/' ∉ name.toList

/-- What follows the last name of an address: a separator and the path, or nothing when there is
no path. -/
inductive Follows (path : String) : String → Prop
  | separated : Follows path ("/" ++ path)
  | bare (hpath : path = "") : Follows path ""

/-- The texts that a target is written as. -/
inductive Address : ProviderKind → Option String → Option String → String → String → Prop
  | s3 {container path tail : String} (hcontainer : IsName container) (htail : Follows path tail) :
      Address .s3 none (some container) path ("s3://" ++ (container ++ tail))
  | gcs {container path tail : String} (hcontainer : IsName container) (htail : Follows path tail) :
      Address .gcs none (some container) path ("gs://" ++ (container ++ tail))
  | azureBlob {account container path tail : String} (haccount : IsName account)
      (hcontainer : IsName container) (htail : Follows path tail) :
      Address .azureBlob (some account) (some container) path
        ("azb://" ++ (account ++ "/" ++ (container ++ tail)))
  | «local» {path rest : String} (hpath : path = "/" ++ rest) :
      Address .local none none path ("file://" ++ path)

namespace StorageUri

/-- The text is split at its first separator, or all of it is a name. -/
theorem splitOnce_getD_iff {rest front path : String} :
    (Str.splitOnce "/" rest).getD (rest, "") = (front, path) ↔
      '/' ∉ front.toList ∧ ∃ tail, Follows path tail ∧ rest = front ++ tail := by
  constructor
  · intro h
    cases hsplit : Str.splitOnce "/" rest with
    | none =>
        rw [hsplit] at h
        cases h
        exact ⟨(Str.splitOnce_eq_none_iff rfl).mp hsplit, "", .bare rfl, String.append_empty.symm⟩
    | some parts =>
        rw [hsplit] at h
        cases h
        refine ⟨Str.not_mem_of_splitOnce rfl hsplit, _, .separated, ?_⟩
        rw [← String.append_assoc]
        exact Str.append_of_splitOnce hsplit
  · rintro ⟨hfront, tail, htail, rfl⟩
    cases htail with
    | separated =>
        rw [← String.append_assoc, Str.splitOnce_of_not_mem rfl hfront]
        rfl
    | bare hpath =>
        rw [String.append_empty, (Str.splitOnce_eq_none_iff rfl).mpr hfront, hpath]
        rfl

theorem parseContainerPath_ok_iff {raw rest : String} {provider : ProviderKind}
    {uri : StorageUri} :
    parseContainerPath raw rest provider = .ok uri ↔ ∃ container path tail, IsName container ∧
      Follows path tail ∧ rest = container ++ tail ∧
      uri = ⟨provider, raw, none, some container, path⟩ := by
  unfold parseContainerPath
  constructor
  · intro h
    cases hsplit : (Str.splitOnce "/" rest).getD (rest, "") with
    | mk container path =>
        obtain ⟨hfree, tail, htail, hrest⟩ := splitOnce_getD_iff.mp hsplit
        simp only [hsplit] at h
        split at h
        · cases h
        · rename_i hne
          cases h
          exact ⟨container, path, tail, ⟨hne, hfree⟩, htail, hrest, rfl⟩
  · rintro ⟨container, path, tail, ⟨hne, hfree⟩, htail, hrest, rfl⟩
    simp only [splitOnce_getD_iff.mpr ⟨hfree, tail, htail, hrest⟩, if_neg hne]

/-- The parts of an account address. -/
theorem parseAzure_split {raw rest account back : String}
    (hsplit : Str.splitOnce "/" rest = some (account, back)) :
    parseAzure raw rest =
      let pair := (Str.splitOnce "/" back).getD (back, "")
      if account = "" ∨ pair.1 = "" then
        .error (.invalidUri raw "Azure URI requires azb://account/container[/path]")
      else .ok ⟨.azureBlob, raw, some account, some pair.1, pair.2⟩ := by
  unfold parseAzure
  simp only [Str.splitn, hsplit]
  cases Str.splitOnce "/" back with
  | none => rfl
  | some pair => rfl

theorem parseAzure_ok_iff {raw rest : String} {uri : StorageUri} :
    parseAzure raw rest = .ok uri ↔ ∃ account container path tail, IsName account ∧
      IsName container ∧ Follows path tail ∧ rest = account ++ "/" ++ (container ++ tail) ∧
      uri = ⟨.azureBlob, raw, some account, some container, path⟩ := by
  constructor
  · intro h
    cases hfirst : Str.splitOnce "/" rest with
    | none =>
        simp only [parseAzure, Str.splitn, hfirst] at h
        cases h
    | some parts =>
        obtain ⟨account, back⟩ := parts
        rw [parseAzure_split hfirst] at h
        cases hsecond : (Str.splitOnce "/" back).getD (back, "") with
        | mk container path =>
            obtain ⟨hfree, tail, htail, rfl⟩ := splitOnce_getD_iff.mp hsecond
            simp only [hsecond] at h
            split at h
            · cases h
            · rename_i hnames
              cases h
              rw [not_or] at hnames
              exact ⟨account, container, path, tail,
                ⟨hnames.1, Str.not_mem_of_splitOnce rfl hfirst⟩, ⟨hnames.2, hfree⟩, htail,
                Str.append_of_splitOnce hfirst, rfl⟩
  · rintro ⟨account, container, path, tail, ⟨haccount, hfree⟩, ⟨hcontainer, hfree'⟩, htail, rfl,
      rfl⟩
    rw [parseAzure_split (Str.splitOnce_of_not_mem rfl hfree _)]
    simp only [splitOnce_getD_iff.mpr ⟨hfree', tail, htail, rfl⟩]
    rw [if_neg (not_or.mpr ⟨haccount, hcontainer⟩)]

theorem parseLocal_ok_iff {raw rest : String} {uri : StorageUri} :
    parseLocal raw rest = .ok uri ↔ ∃ path, rest = "/" ++ path ∧
      uri = ⟨.local, raw, none, none, "/" ++ path⟩ := by
  unfold parseLocal
  constructor
  · intro h
    split at h
    · rename_i hstarts
      cases h
      obtain ⟨path, rfl⟩ := Str.startsWith_iff.mp hstarts
      exact ⟨path, rfl, rfl⟩
    · cases h
  · rintro ⟨path, rfl, rfl⟩
    rw [if_pos (Str.startsWith_iff.mpr ⟨path, rfl⟩)]

/-- A scheme is told from another by its first letter. -/
theorem stripFront_other {front scheme : String} {a b : Char} {as bs : List Char}
    (hfront : front.toList = a :: as) (hscheme : scheme.toList = b :: bs) (hne : a ≠ b)
    (rest : String) : Str.stripFront front (scheme ++ rest) = none := by
  rw [← Option.not_isSome_iff_eq_none]
  intro hsome
  obtain ⟨more, hmore⟩ := Option.isSome_iff_exists.mp hsome
  have hchars := congrArg String.toList (Str.stripFront_eq_some_iff.mp hmore)
  rw [String.toList_append, String.toList_append, hfront, hscheme, List.cons_append,
    List.cons_append] at hchars
  exact hne (List.cons.inj hchars).1.symm

theorem stripFront_self (front rest : String) :
    Str.stripFront front (front ++ rest) = some rest :=
  Str.stripFront_eq_some_iff.mpr rfl

/-- What is accepted is an address of the target. -/
theorem address_of_parse {text : String} {uri : StorageUri} (h : parse text = .ok uri) :
    uri.raw = text ∧ Address uri.provider uri.authority uri.container uri.path text := by
  unfold parse at h
  split at h
  · rename_i rest hrest
    obtain ⟨container, path, tail, hcontainer, htail, rfl, rfl⟩ := parseContainerPath_ok_iff.mp h
    rw [Str.stripFront_eq_some_iff.mp hrest]
    exact ⟨rfl, .s3 hcontainer htail⟩
  · split at h
    · rename_i rest hrest
      obtain ⟨container, path, tail, hcontainer, htail, rfl, rfl⟩ := parseContainerPath_ok_iff.mp h
      rw [Str.stripFront_eq_some_iff.mp hrest]
      exact ⟨rfl, .gcs hcontainer htail⟩
    · split at h
      · rename_i rest hrest
        obtain ⟨account, container, path, tail, haccount, hcontainer, htail, rfl, rfl⟩ :=
          parseAzure_ok_iff.mp h
        rw [Str.stripFront_eq_some_iff.mp hrest]
        exact ⟨rfl, .azureBlob haccount hcontainer htail⟩
      · split at h
        · rename_i rest hrest
          obtain ⟨path, rfl, rfl⟩ := parseLocal_ok_iff.mp h
          rw [Str.stripFront_eq_some_iff.mp hrest]
          exact ⟨rfl, .local rfl⟩
        · cases h

/-- Every address is accepted. -/
theorem parse_of_address {provider : ProviderKind} {authority container : Option String}
    {path text : String} (h : Address provider authority container path text) :
    parse text = .ok ⟨provider, text, authority, container, path⟩ := by
  unfold parse
  cases h with
  | s3 hcontainer htail =>
      simp only [stripFront_self]
      exact parseContainerPath_ok_iff.mpr ⟨_, _, _, hcontainer, htail, rfl, rfl⟩
  | gcs hcontainer htail =>
      have hs3 := @stripFront_other "s3://" "gs://" _ _ _ _ rfl rfl (by decide)
      simp only [hs3, stripFront_self]
      exact parseContainerPath_ok_iff.mpr ⟨_, _, _, hcontainer, htail, rfl, rfl⟩
  | azureBlob haccount hcontainer htail =>
      have hs3 := @stripFront_other "s3://" "azb://" _ _ _ _ rfl rfl (by decide)
      have hgcs := @stripFront_other "gs://" "azb://" _ _ _ _ rfl rfl (by decide)
      simp only [hs3, hgcs, stripFront_self]
      exact parseAzure_ok_iff.mpr ⟨_, _, _, _, haccount, hcontainer, htail, rfl, rfl⟩
  | «local» hpath =>
      have hs3 := @stripFront_other "s3://" "file://" _ _ _ _ rfl rfl (by decide)
      have hgcs := @stripFront_other "gs://" "file://" _ _ _ _ rfl rfl (by decide)
      have hazure := @stripFront_other "azb://" "file://" _ _ _ _ rfl rfl (by decide)
      simp only [hs3, hgcs, hazure, stripFront_self]
      exact parseLocal_ok_iff.mpr ⟨_, hpath, by rw [hpath]⟩

/-- The parser accepts exactly the addresses, each as the target that it is written for. -/
theorem parse_ok_iff {text : String} {uri : StorageUri} : parse text = .ok uri ↔
    uri.raw = text ∧ Address uri.provider uri.authority uri.container uri.path text := by
  constructor
  · exact address_of_parse
  · rintro ⟨rfl, haddress⟩
    exact parse_of_address haddress

/-! ## One target, one address -/

theorem follows_unique {path tail tail' : String} (h : Follows path tail)
    (h' : Follows path tail') :
    tail = tail' ∨ path = "" ∧ (tail = tail' ++ "/" ∨ tail' = tail ++ "/") := by
  cases h with
  | separated =>
      cases h' with
      | separated => exact .inl rfl
      | bare hpath =>
          subst hpath
          exact .inr ⟨rfl, .inl rfl⟩
  | bare hpath =>
      subst hpath
      cases h' with
      | separated => exact .inr ⟨rfl, .inr rfl⟩
      | bare _ => exact .inl rfl

/-- Two addresses of one target are the same text, up to a separator at the end that no path
follows. -/
theorem address_unique {provider : ProviderKind} {authority container : Option String}
    {path text text' : String} (h : Address provider authority container path text)
    (h' : Address provider authority container path text') :
    text = text' ∨ path = "" ∧ (text = text' ++ "/" ∨ text' = text ++ "/") := by
  have hbehind : ∀ {tail tail' : String} (front : String),
      (tail = tail' ∨ path = "" ∧ (tail = tail' ++ "/" ∨ tail' = tail ++ "/")) →
      front ++ tail = front ++ tail' ∨ path = "" ∧
        (front ++ tail = front ++ tail' ++ "/" ∨ front ++ tail' = front ++ tail ++ "/") := by
    rintro tail tail' front (rfl | ⟨hpath, rfl | rfl⟩)
    · exact .inl rfl
    · exact .inr ⟨hpath, .inl String.append_assoc.symm⟩
    · exact .inr ⟨hpath, .inr String.append_assoc.symm⟩
  cases h with
  | s3 hcontainer htail =>
      cases h' with
      | s3 _ htail' => exact hbehind _ (hbehind _ (follows_unique htail htail'))
  | gcs hcontainer htail =>
      cases h' with
      | gcs _ htail' => exact hbehind _ (hbehind _ (follows_unique htail htail'))
  | azureBlob haccount hcontainer htail =>
      cases h' with
      | azureBlob _ _ htail' =>
          exact hbehind _ (hbehind _ (hbehind _ (follows_unique htail htail')))
  | «local» hpath =>
      cases h' with
      | «local» _ => exact .inl rfl

/-- Two accepted texts that name one target differ at most in a separator at the end. -/
theorem parse_unique {text text' : String} {uri uri' : StorageUri} (h : parse text = .ok uri)
    (h' : parse text' = .ok uri') (hprovider : uri.provider = uri'.provider)
    (hauthority : uri.authority = uri'.authority) (hcontainer : uri.container = uri'.container)
    (hpath : uri.path = uri'.path) :
    text = text' ∨ uri.path = "" ∧ (text = text' ++ "/" ∨ text' = text ++ "/") := by
  obtain ⟨-, haddress⟩ := address_of_parse h
  obtain ⟨-, haddress'⟩ := address_of_parse h'
  rw [← hprovider, ← hauthority, ← hcontainer, ← hpath] at haddress'
  exact address_unique haddress haddress'

/-- A bucket with and without a separator at the end. -/
theorem parse_unique_bucket : ∃ uri, parse "s3://bucket" = .ok uri ∧
    ("s3://bucket" = "s3://bucket/" ∨ uri.path = "" ∧
      ("s3://bucket" = "s3://bucket/" ++ "/" ∨ "s3://bucket/" = "s3://bucket" ++ "/")) := by
  have hbare : parse "s3://bucket" = .ok ⟨.s3, "s3://bucket", none, some "bucket", ""⟩ := by
    decide +kernel
  have hclosed : parse "s3://bucket/" = .ok ⟨.s3, "s3://bucket/", none, some "bucket", ""⟩ := by
    decide +kernel
  exact ⟨_, hbare, parse_unique hbare hclosed rfl rfl rfl rfl⟩

end StorageUri

end Storageprims

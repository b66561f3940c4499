import Storageprims.Core.Config

/-!
# Diagnostics of a configuration

What `Debug` shows of a configuration: the class of the credentials, the number of
extra entries, and the endpoint without its user information.  The two-run
statements about it compare configurations that differ in secrets alone.
-/

namespace Storageprims

/-- What a `Debug` implementation hands to its formatter. -/
inductive DebugTree where
  | name (label : String)
  | text (value : String)
  | number (value : Nat)
  | option (value : Option DebugTree)
  | record (label : String) (fields : List (String × DebugTree)) (exhaustive : Bool)

mutual

/-- The `{:?}` text of a tree; `quote` writes a string literal. -/
def DebugTree.render (quote : String → String) : DebugTree → String
  | .name label => label
  | .text value => quote value
  | .number value => toString value
  | .option none => "None"
  | .option (some value) => "Some(" ++ value.render quote ++ ")"
  | .record label fields exhaustive =>
      label ++ " \x7b " ++ renderFields quote fields ++
        (if exhaustive then " \x7d" else ", .. \x7d")

/-- The fields of a record, separated by commas. -/
def DebugTree.renderFields (quote : String → String) : List (String × DebugTree) → String
  | [] => ""
  | [(field, value)] => field ++ ": " ++ value.render quote
  | (field, value) :: next :: rest =>
      field ++ ": " ++ value.render quote ++ ", " ++ renderFields quote (next :: rest)

end

/-- The class of a credential source, without its contents. -/
inductive CredentialSourceKind where
  | defaultChain
  | profile
  | credentialsFile
  | inlineStatic
  | env
  | inlineEnvMap
  | none
  deriving DecidableEq

def CredentialSourceKind.fromConfig : CredentialSource → CredentialSourceKind
  | .defaultChain => .defaultChain
  | .profile _ => .profile
  | .credentialsFile _ => .credentialsFile
  | .inlineStatic _ => .inlineStatic
  | .env _ => .env
  | .inlineEnvMap _ => .inlineEnvMap

namespace DebugTree

def ofText (value : Option String) : DebugTree := .option (value.map .text)

def ofBool (value : Bool) : DebugTree := .name (if value then "true" else "false")

end DebugTree

def ProviderKind.debug : ProviderKind → DebugTree
  | .s3 => .name "S3"
  | .gcs => .name "Gcs"
  | .azureBlob => .name "AzureBlob"
  | .local => .name "Local"

def CredentialSourceKind.debug : CredentialSourceKind → DebugTree
  | .defaultChain => .name "DefaultChain"
  | .profile => .name "Profile"
  | .credentialsFile => .name "CredentialsFile"
  | .inlineStatic => .name "InlineStatic"
  | .env => .name "Env"
  | .inlineEnvMap => .name "InlineEnvMap"
  | .none => .name "None"

def CredentialSource.debug : CredentialSource → DebugTree
  | .defaultChain => .name "DefaultChain"
  | .profile _ => .name "Profile"
  | .credentialsFile _ => .name "CredentialsFile"
  | .inlineStatic _ => .name "InlineStatic"
  | .env _ => .name "Env"
  | .inlineEnvMap _ => .name "InlineEnvMap"

def TargetConfig.debug (target : TargetConfig) : DebugTree :=
  .record "TargetConfig" [
    ("authority", .ofText target.authority),
    ("container", .ofText target.container),
    ("root_prefix", .ofText target.rootPrefix),
    ("region", .ofText target.region),
    ("endpoint", .ofText (target.endpoint.map sanitizeEndpoint)),
    ("force_path_style", .option (target.forcePathStyle.map .ofBool)),
    ("extra_entries", .number target.extra.length)] true

def ProviderConfig.debug (config : ProviderConfig) : DebugTree :=
  .record "ProviderConfig" [
    ("provider", config.provider.debug),
    ("target", config.target.debug),
    ("credentials", config.credentials.debug)] true

/-! ## Endpoints -/

/-- The text has none of the characters that end an authority. -/
def InAuthority (text : String) : Prop := ∀ c ∈ text.toList, c ≠ '/' ∧ c ≠ '?' ∧ c ≠ '#'

/-- The text is empty or starts with a character that ends an authority. -/
def LeavesAuthority (text : String) : Prop :=
  ∀ c, text.toList.head? = some c → c = '/' ∨ c = '?' ∨ c = '#'

/-- Whatever stands before the last `@` of the authority, the sanitised endpoint is
the same. -/
theorem sanitizeEndpoint_userinfo {scheme userinfo host rest : String}
    (hscheme : ¬ "://".toList <:+: scheme.toList) (huserinfo : InAuthority userinfo)
    (hhost : InAuthority host) (hat : '@' ∉ host.toList) (hrest : LeavesAuthority rest) :
    sanitizeEndpoint (scheme ++ "://" ++ (userinfo ++ "@" ++ host ++ rest))
      = scheme ++ "://" ++ "***@" ++ host ++ rest := by
  have hsplit : Str.splitOnce "://" (scheme ++ "://" ++ (userinfo ++ "@" ++ host ++ rest))
      = some (scheme, userinfo ++ "@" ++ host ++ rest) :=
    Str.splitOnce_append (show "://".toList = ':' :: ['/', '/'] from rfl) (by decide) hscheme _
  have hauthority : ∀ c ∈ userinfo.toList ++ '@' :: host.toList,
      (!(c == '/' || c == '?' || c == '#')) = true := by
    intro c hc
    rcases List.mem_append.mp hc with hc | hc
    · obtain ⟨hslash, hquery, hfragment⟩ := huserinfo c hc
      simp [hslash, hquery, hfragment]
    · rcases List.mem_cons.mp hc with rfl | hc
      · decide
      · obtain ⟨hslash, hquery, hfragment⟩ := hhost c hc
        simp [hslash, hquery, hfragment]
  have hleaves : ∀ c, rest.toList.head? = some c →
      (!(c == '/' || c == '?' || c == '#')) = false := by
    intro c hc
    rcases hrest c hc with rfl | rfl | rfl
    · rfl
    · rfl
    · rfl
  have hchars : (userinfo ++ "@" ++ host ++ rest).toList
      = (userinfo.toList ++ '@' :: host.toList) ++ rest.toList := by
    simp only [String.toList_append, List.append_assoc]
    rfl
  obtain ⟨htake, hdrop⟩ := Str.takeWhile_append_of_head hauthority hleaves
  -- the host is what follows the last `@`
  have hlast : (userinfo.toList ++ '@' :: host.toList).rtakeWhile (· ≠ '@') = host.toList := by
    have hhostChars : ∀ c ∈ host.toList.reverse, (decide (c ≠ '@')) = true := by
      intro c hc
      apply decide_eq_true
      rintro rfl
      exact hat (List.mem_reverse.mp hc)
    unfold List.rtakeWhile
    rw [List.reverse_append, List.reverse_cons, List.append_assoc,
      (Str.takeWhile_append_of_head hhostChars (by simp)).1, List.reverse_reverse]
  unfold sanitizeEndpoint
  simp only [hsplit, hchars, htake, hdrop, hlast]
  rw [if_pos (by simp)]
  simp only [String.ofList_toList]

/-- Sanitising leaves an endpoint without user information alone, and otherwise
masks what stands before the last `@` of its authority. -/
theorem sanitizeEndpoint_cases (endpoint : String) :
    sanitizeEndpoint endpoint = endpoint ∨
      ∃ scheme host rest, ¬ "://".toList <:+: scheme.toList ∧ InAuthority host ∧
        '@' ∉ host.toList ∧ LeavesAuthority rest ∧
        sanitizeEndpoint endpoint = scheme ++ "://" ++ "***@" ++ host ++ rest := by
  unfold sanitizeEndpoint
  cases hsplit : Str.splitOnce "://" endpoint with
  | none => exact .inl rfl
  | some parts =>
      obtain ⟨scheme, behind⟩ := parts
      simp only
      split
      · refine .inr ⟨scheme, _, _, Str.not_infix_of_splitOnce (by decide) hsplit, ?_, ?_, ?_, rfl⟩
        · intro c hc
          rw [String.toList_ofList] at hc
          have hauthority := List.mem_takeWhile_imp ((List.rtakeWhile_suffix _ _).subset hc)
          simpa [and_assoc] using hauthority
        · rw [String.toList_ofList]
          intro hc
          have hnot := List.mem_rtakeWhile_imp hc
          simp at hnot
        · intro c hc
          rw [String.toList_ofList] at hc
          have hhead := List.head?_dropWhile_not
            (fun c => !(c == '/' || c == '?' || c == '#')) behind.toList
          rw [hc] at hhead
          simpa [or_iff_not_imp_left] using hhead
      · exact .inl rfl

/-- Sanitising an endpoint a second time changes nothing. -/
theorem sanitizeEndpoint_idem (endpoint : String) :
    sanitizeEndpoint (sanitizeEndpoint endpoint) = sanitizeEndpoint endpoint := by
  rcases sanitizeEndpoint_cases endpoint with hsame | ⟨scheme, host, rest, hscheme, hhost, hat,
    hrest, hmasked⟩
  · rw [hsame, hsame]
  · -- the masked text is again an address with user information, namely `***`
    have hstars : InAuthority "***" := by
      intro c hc
      obtain rfl : c = '*' := by simpa using hc
      decide
    have hshape : sanitizeEndpoint endpoint
        = scheme ++ "://" ++ ("***" ++ "@" ++ host ++ rest) := by
      rw [hmasked, show "***@" = "***" ++ "@" from rfl]
      simp only [String.append_assoc]
    rw [hshape, sanitizeEndpoint_userinfo hscheme hstars hhost hat hrest]
    rw [show "***@" = "***" ++ "@" from rfl]
    simp only [String.append_assoc]

/-! ## Two runs -/

/-- Endpoints that are the same up to their user information. -/
inductive SameEndpoint : Option String → Option String → Prop where
  | same (endpoint : Option String) : SameEndpoint endpoint endpoint
  | userinfo {scheme first second host rest : String}
      (hscheme : ¬ "://".toList <:+: scheme.toList) (hfirst : InAuthority first)
      (hsecond : InAuthority second) (hhost : InAuthority host) (hat : '@' ∉ host.toList)
      (hrest : LeavesAuthority rest) :
      SameEndpoint (some (scheme ++ "://" ++ (first ++ "@" ++ host ++ rest)))
        (some (scheme ++ "://" ++ (second ++ "@" ++ host ++ rest)))

/-- Configurations that are the same up to their secrets: the contents of the
credentials and of the extra entries, and the user information of the endpoint. -/
structure SameButSecrets (first second : ProviderConfig) : Prop where
  provider : first.provider = second.provider
  authority : first.target.authority = second.target.authority
  container : first.target.container = second.target.container
  rootPrefix : first.target.rootPrefix = second.target.rootPrefix
  region : first.target.region = second.target.region
  endpoint : SameEndpoint first.target.endpoint second.target.endpoint
  forcePathStyle : first.target.forcePathStyle = second.target.forcePathStyle
  extraEntries : first.target.extra.length = second.target.extra.length
  variant : CredentialSourceKind.fromConfig first.credentials
    = CredentialSourceKind.fromConfig second.credentials

theorem SameEndpoint.sanitized {first second : Option String} (h : SameEndpoint first second) :
    first.map sanitizeEndpoint = second.map sanitizeEndpoint := by
  cases h with
  | same => rfl
  | userinfo hscheme hfirst hsecond hhost hat hrest =>
      rw [Option.map_some, Option.map_some,
        sanitizeEndpoint_userinfo hscheme hfirst hhost hat hrest,
        sanitizeEndpoint_userinfo hscheme hsecond hhost hat hrest]

/-- What is shown of credentials depends on their class alone. -/
theorem CredentialSource.debug_eq (credentials : CredentialSource) :
    credentials.debug = (CredentialSourceKind.fromConfig credentials).debug := by
  cases credentials <;> rfl

/-- `Debug` of a configuration does not depend on its secrets. -/
theorem SameButSecrets.debug {first second : ProviderConfig} (h : SameButSecrets first second) :
    first.debug = second.debug := by
  unfold ProviderConfig.debug TargetConfig.debug
  rw [h.provider, h.authority, h.container, h.rootPrefix, h.region, h.endpoint.sanitized,
    h.forcePathStyle, h.extraEntries, first.credentials.debug_eq, second.credentials.debug_eq,
    h.variant]

end Storageprims

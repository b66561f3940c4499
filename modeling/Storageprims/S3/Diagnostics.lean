import Storageprims.Core.Diagnostics
import Storageprims.Core.Types
import Storageprims.S3.Provider

/-!
# Diagnostics of a provider

What a configured provider shows of itself: its `Debug` text, the result of a probe
and the identity of its target.  None of them depends on the secrets of the
configuration it was built from.
-/

namespace Storageprims

/-- The scope whose reachability a probe has checked. -/
inductive ProbeScope where
  | configuredContainer
  deriving DecidableEq

structure ProbeResult where
  provider : ProviderKind
  endpoint : Option String
  credentialSource : CredentialSourceKind
  scope : ProbeScope
  probeMethod : String
  latencyMs : Nat
  capabilities : List Capability
  deriving DecidableEq

/-- A provider beside the class of the credentials it was built with, which only its
diagnostics read. -/
structure ConfiguredProvider extends S3Provider where
  credentialSource : CredentialSourceKind

namespace ConfiguredProvider

/-- `S3Provider::from_uri`, with the class of the credentials. -/
def fromUri (loadSdkConfig : ProviderConfig → Except StorageError Unit) (uri : StorageUri)
    (config : ProviderConfig) : Except StorageError ConfiguredProvider := do
  let provider ← S3Provider.fromUri loadSdkConfig uri config
  return ⟨provider, .fromConfig config.credentials⟩

/-- `S3Provider::from_config`, with the class of the credentials. -/
def fromConfig (loadSdkConfig : ProviderConfig → Except StorageError Unit)
    (config : ProviderConfig) : Except StorageError ConfiguredProvider := do
  let provider ← S3Provider.fromConfig loadSdkConfig config
  return ⟨provider, .fromConfig config.credentials⟩

variable (provider : ConfiguredProvider)

def debug : DebugTree :=
  .record "S3Provider" [
    ("bucket", .text provider.bucket),
    ("root_prefix", .ofText provider.rootPrefix),
    ("endpoint", .ofText (provider.endpoint.map sanitizeEndpoint)),
    ("credential_source", provider.credentialSource.debug)] false

def capabilities : List Capability :=
  [.delimiterListing, .credentialProbe, .conditionalPut, .guardedRead]

def probeResult (method : String) (elapsed : Duration) : ProbeResult where
  provider := .s3
  endpoint := provider.endpoint.map sanitizeEndpoint
  credentialSource := provider.credentialSource
  scope := .configuredContainer
  probeMethod := method
  latencyMs := min elapsed.asMillis (u64Bound - 1)
  capabilities := capabilities

end ConfiguredProvider

/-! ## Two runs -/

/-- Two providers that show the same of themselves. -/
structure SameDiagnostics (first second : ConfiguredProvider) : Prop where
  probe : ∀ method elapsed, first.probeResult method elapsed = second.probeResult method elapsed
  debug : ∀ quote, first.debug.render quote = second.debug.render quote
  identity : first.guardedTargetIdentity = second.guardedTargetIdentity

/-- Providers that differ in the text of their endpoints alone, and not once it is
sanitised, show the same of themselves. -/
theorem sameDiagnostics_of_target {first second : ConfiguredProvider}
    (hbucket : first.bucket = second.bucket) (hroot : first.rootPrefix = second.rootPrefix)
    (hendpoint : first.endpoint.map sanitizeEndpoint = second.endpoint.map sanitizeEndpoint)
    (hsource : first.credentialSource = second.credentialSource) :
    SameDiagnostics first second := by
  constructor
  · intro method elapsed
    unfold ConfiguredProvider.probeResult
    rw [hendpoint, hsource]
  · intro quote
    unfold ConfiguredProvider.debug
    rw [hbucket, hroot, hendpoint, hsource]
  · unfold S3Provider.guardedTargetIdentity
    rw [hbucket, hroot, hendpoint]

namespace S3Provider

theorem fromParts_ok {loadSdkConfig : ProviderConfig → Except StorageError Unit} {bucket : String}
    {rootPrefix : Option String} {hnormal : IsNormalRoot rootPrefix} {config : ProviderConfig}
    {provider : S3Provider}
    (h : fromParts loadSdkConfig bucket rootPrefix hnormal config = .ok provider) :
    provider.bucket = bucket ∧ provider.rootPrefix = rootPrefix ∧
      provider.endpoint = config.target.endpoint := by
  obtain ⟨-, -, h⟩ := except_bind_ok h
  obtain ⟨-, -, h⟩ := except_bind_ok h
  cases h
  exact ⟨rfl, rfl, rfl⟩

/-- What an address and a configuration determine of the provider they build. -/
theorem fromUri_ok {loadSdkConfig : ProviderConfig → Except StorageError Unit} {uri : StorageUri}
    {config : ProviderConfig} {provider : S3Provider}
    (h : fromUri loadSdkConfig uri config = .ok provider) :
    uri.container.or config.target.container = some provider.bucket ∧
      resolveRootPrefix uri.path config.target.rootPrefix = .ok provider.rootPrefix ∧
      provider.endpoint = config.target.endpoint := by
  unfold fromUri at h
  split at h
  · cases h
  · split at h
    · cases h
    · rename_i bucket hbucket
      split at h
      · cases h
      · rename_i rootPrefix hroot
        obtain ⟨rfl, rfl, hendpoint⟩ := fromParts_ok h
        exact ⟨hbucket, hroot, hendpoint⟩

theorem fromConfig_ok {loadSdkConfig : ProviderConfig → Except StorageError Unit}
    {config : ProviderConfig} {provider : S3Provider}
    (h : fromConfig loadSdkConfig config = .ok provider) :
    config.target.container = some provider.bucket ∧
      normalizePrefix config.target.rootPrefix = provider.rootPrefix ∧
      provider.endpoint = config.target.endpoint := by
  unfold fromConfig at h
  split at h
  · cases h
  · split at h
    · cases h
    · rename_i bucket hbucket
      obtain ⟨rfl, hroot, hendpoint⟩ := fromParts_ok h
      exact ⟨hbucket, hroot.symm, hendpoint⟩

end S3Provider

/-- Diagnostics do not depend on secrets.  For two configurations that are the same
but for the contents of credentials and extra entries and the user information of the
endpoint, the `Debug` texts are equal, and so are the probe results, the `Debug` texts
and the target identities of all providers that can be built from them, from an
address or not.  Sanitising an endpoint is idempotent on every text. -/
theorem diagnostics_ignore_secrets :
    (∀ first second, SameButSecrets first second →
      (∀ quote, first.debug.render quote = second.debug.render quote) ∧
      (∀ load load' uri provider provider',
        ConfiguredProvider.fromUri load uri first = .ok provider →
        ConfiguredProvider.fromUri load' uri second = .ok provider' →
        SameDiagnostics provider provider') ∧
      ∀ load load' provider provider',
        ConfiguredProvider.fromConfig load first = .ok provider →
        ConfiguredProvider.fromConfig load' second = .ok provider' →
        SameDiagnostics provider provider') ∧
    ∀ endpoint, sanitizeEndpoint (sanitizeEndpoint endpoint) = sanitizeEndpoint endpoint := by
  refine ⟨?_, sanitizeEndpoint_idem⟩
  intro first second hsame
  refine ⟨?_, ?_, ?_⟩
  · intro quote
    rw [hsame.debug]
  · intro load load' uri provider provider' hfirst hsecond
    obtain ⟨built, hbuilt, hfirst⟩ := except_bind_ok hfirst
    obtain ⟨built', hbuilt', hsecond⟩ := except_bind_ok hsecond
    cases hfirst
    cases hsecond
    -- bucket, root and endpoint come from fields that are no secret
    obtain ⟨hbucket, hroot, hendpoint⟩ := S3Provider.fromUri_ok hbuilt
    obtain ⟨hbucket', hroot', hendpoint'⟩ := S3Provider.fromUri_ok hbuilt'
    apply sameDiagnostics_of_target
    · rw [hsame.container, hbucket'] at hbucket
      exact (Option.some.inj hbucket).symm
    · rw [hsame.rootPrefix, hroot'] at hroot
      exact (Except.ok.inj hroot).symm
    · rw [hendpoint, hendpoint']
      exact hsame.endpoint.sanitized
    · exact hsame.variant
  · intro load load' provider provider' hfirst hsecond
    obtain ⟨built, hbuilt, hfirst⟩ := except_bind_ok hfirst
    obtain ⟨built', hbuilt', hsecond⟩ := except_bind_ok hsecond
    cases hfirst
    cases hsecond
    obtain ⟨hbucket, hroot, hendpoint⟩ := S3Provider.fromConfig_ok hbuilt
    obtain ⟨hbucket', hroot', hendpoint'⟩ := S3Provider.fromConfig_ok hbuilt'
    apply sameDiagnostics_of_target
    · rw [hsame.container, hbucket'] at hbucket
      exact (Option.some.inj hbucket).symm
    · rw [hsame.rootPrefix, hroot'] at hroot
      exact hroot.symm
    · rw [hendpoint, hendpoint']
      exact hsame.endpoint.sanitized
    · exact hsame.variant

/-- Two configurations that differ in the credentials and in the user information of the
endpoint. -/
theorem diagnostics_ignore_secrets_userinfo :
    let config (secret user : String) : ProviderConfig :=
      ⟨.s3, ⟨none, some "bucket", none, none,
          some ("https" ++ "://" ++ (user ++ "@" ++ "host" ++ "")), none, []⟩,
        .inlineStatic [("AWS_SECRET_ACCESS_KEY", secret)]⟩
    ∃ provider provider',
      ConfiguredProvider.fromConfig (fun _ => .ok ()) (config "first" "me") = .ok provider ∧
      ConfiguredProvider.fromConfig (fun _ => .ok ()) (config "second" "you") = .ok provider' ∧
      SameDiagnostics provider provider' := by
  intro config
  have hsame : SameButSecrets (config "first" "me") (config "second" "you") := by
    refine ⟨rfl, rfl, rfl, rfl, rfl, .userinfo ?_ ?_ ?_ ?_ ?_ ?_, rfl, rfl, rfl⟩
    · decide
    · simp [InAuthority]
    · simp [InAuthority]
    · simp [InAuthority]
    · decide
    · simp [LeavesAuthority]
  obtain ⟨-, -, hbuilt⟩ := diagnostics_ignore_secrets.1 _ _ hsame
  exact ⟨_, _, rfl, rfl, hbuilt (fun _ => .ok ()) (fun _ => .ok ()) _ _ rfl rfl⟩

end Storageprims

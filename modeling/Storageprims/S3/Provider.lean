import Storageprims.Core.Config
import Storageprims.Core.Uri
import Storageprims.S3.Keys

/-!
# The S3 provider and its addresses

A provider is built from an address or from a configuration, and both ways
normalise the root prefix; the structure carries that, so every later statement
about a provider is about a normalised root.
-/

namespace Storageprims

/-- A configured S3 target. -/
structure S3Provider where
  bucket : String
  rootPrefix : Option String
  endpoint : Option String
  rootPrefix_normal : IsNormalRoot rootPrefix

/-- An object of the service. -/
structure S3Location where
  bucket : String
  key : String
  deriving DecidableEq, Repr

def validateCredentialSource : CredentialSource → Except StorageError Unit
  | .credentialsFile _ => .error (.invalidArgument (some .configureProvider) "credentials.mode"
      "credential-file mode is not supported by the S3 provider")
  | _ => .ok ()

namespace S3Provider

/-- `loadSdkConfig` is the outcome of building the service client from the
configuration. -/
def fromParts (loadSdkConfig : ProviderConfig → Except StorageError Unit) (bucket : String)
    (rootPrefix : Option String) (hnormal : IsNormalRoot rootPrefix) (config : ProviderConfig) :
    Except StorageError S3Provider := do
  validateCredentialSource config.credentials
  loadSdkConfig config
  return ⟨bucket, rootPrefix, config.target.endpoint, hnormal⟩

def fromUri (loadSdkConfig : ProviderConfig → Except StorageError Unit) (uri : StorageUri)
    (config : ProviderConfig) : Except StorageError S3Provider :=
  if uri.provider ≠ .s3 then
    .error (.invalidArgument (some .configureProvider) uri.raw "expected an s3:// URI")
  else
    match uri.container.or config.target.container with
    | none => .error (.invalidArgument (some .configureProvider) uri.raw
        "S3 provider requires a bucket/container")
    | some bucket =>
        match hroot : resolveRootPrefix uri.path config.target.rootPrefix with
        | .error error => .error error
        | .ok rootPrefix =>
            fromParts loadSdkConfig bucket rootPrefix (isNormalRoot_resolveRootPrefix hroot) config

/-- `Debug` of the provider kind, as a refused configuration quotes it. -/
def debugKind : ProviderKind → String
  | .s3 => "S3"
  | .gcs => "Gcs"
  | .azureBlob => "AzureBlob"
  | .local => "Local"

def fromConfig (loadSdkConfig : ProviderConfig → Except StorageError Unit)
    (config : ProviderConfig) : Except StorageError S3Provider :=
  if config.provider ≠ .s3 then
    .error (.invalidArgument (some .configureProvider) (debugKind config.provider)
      "provider config is not for S3")
  else
    match config.target.container with
    | none => .error (.invalidArgument (some .configureProvider) "target.container"
        "S3 provider requires a bucket/container")
    | some bucket =>
        fromParts loadSdkConfig bucket (normalizePrefix config.target.rootPrefix)
          (isNormalRoot_normalizePrefix _) config

variable (provider : S3Provider)

def resolveKey (key : String) : Except StorageError String :=
  if key = "" then .error (.invalidArgument none "key" "object key must not be empty")
  else .ok (joinKey provider.rootPrefix key)

def guardedTargetIdentity : String :=
  let endpoint := (provider.endpoint.map sanitizeEndpoint).getD "aws"
  "s3|" ++ endpoint ++ "|" ++ provider.bucket ++ "|" ++ provider.rootPrefix.getD ""

def resolveCopyLocation (value field : String) : Except StorageError S3Location :=
  if Str.startsWith "s3://" value then do
    let uri ← StorageUri.parse value
    if uri.provider ≠ .s3 then
      throw (.invalidArgument (some .copy) field
        "copy target must be an s3:// URI or provider-relative key")
    match uri.container with
    | none => throw (.invalidArgument (some .copy) field "copy target URI is missing a bucket")
    | some bucket => return ⟨bucket, uri.path⟩
  else do
    let key ← provider.resolveKey value
    return ⟨provider.bucket, key⟩

theorem resolveKey_ok_iff {key full : String} :
    provider.resolveKey key = .ok full ↔ key ≠ "" ∧ joinKey provider.rootPrefix key = full := by
  unfold resolveKey
  by_cases hkey : key = ""
  · simp [hkey]
  · simp [hkey]

/-- The only keys whose resolution leaves the root are those made of separators
alone: the check for an empty key runs before the separators are trimmed. -/
theorem resolveKey_beneath_iff (key : String) :
    (∀ full, provider.resolveKey key = .ok full → Beneath provider.rootPrefix full) ↔
      (key = "" ∨ NamesObject key) := by
  constructor
  · intro hbeneath
    by_cases hkey : key = ""
    · exact .inl hkey
    · refine .inr ((beneath_joinKey_iff provider.rootPrefix_normal key).mp ?_)
      exact hbeneath _ (provider.resolveKey_ok_iff.mpr ⟨hkey, rfl⟩)
  · intro hcontained full hfull
    obtain ⟨hkey, rfl⟩ := provider.resolveKey_ok_iff.mp hfull
    exact (beneath_joinKey_iff provider.rootPrefix_normal key).mpr
      (hcontained.resolve_left hkey)

/-- A copy value that is no address of its own is resolved like a key. -/
theorem resolveCopyLocation_relative {value : String} (hvalue : ¬ Str.startsWith "s3://" value)
    (field : String) :
    provider.resolveCopyLocation value field
      = (provider.resolveKey value).map fun key => ⟨provider.bucket, key⟩ := by
  unfold resolveCopyLocation
  rw [if_neg hvalue]
  cases provider.resolveKey value with
  | error error => rfl
  | ok key => rfl

/-- An address names its own bucket and the path behind it, without the root. -/
theorem resolveCopyLocation_absolute {value rest : String} (hvalue : value = "s3://" ++ rest)
    (field : String) :
    provider.resolveCopyLocation value field
      = (StorageUri.parseContainerPath value rest .s3).map fun uri =>
          ⟨uri.container.getD "", uri.path⟩ := by
  have hstarts : Str.startsWith "s3://" value = true := Str.startsWith_iff.mpr ⟨rest, hvalue⟩
  have hparse : StorageUri.parse value = StorageUri.parseContainerPath value rest .s3 := by
    unfold StorageUri.parse
    rw [Str.stripFront_eq_some_iff.mpr hvalue]
  unfold resolveCopyLocation
  rw [if_pos hstarts, hparse]
  cases huri : StorageUri.parseContainerPath value rest .s3 with
  | error error => rfl
  | ok uri =>
      obtain ⟨hprovider, bucket, -, hbucket⟩ := StorageUri.parseContainerPath_ok huri
      simp [hprovider, hbucket, bind, Except.bind, pure, Except.pure, Except.map]

end S3Provider

end Storageprims

import Storageprims.Core.Error
import Storageprims.Text.Str

/-!
# Storage target addresses

Parsing of the four address schemes into provider, container and path.
-/

namespace Storageprims

/-- A provider-neutral parsed storage target. -/
structure StorageUri where
  provider : ProviderKind
  raw : String
  authority : Option String
  container : Option String
  path : String
  deriving DecidableEq, Repr

namespace StorageUri

def parseContainerPath (raw rest : String) (provider : ProviderKind) :
    Except StorageError StorageUri :=
  let (container, path) := (Str.splitOnce "/" rest).getD (rest, "")
  if container = "" then
    .error (.invalidUri raw "container or bucket name is empty")
  else .ok ⟨provider, raw, none, some container, path⟩

def parseAzure (raw rest : String) : Except StorageError StorageUri :=
  let missing : Except StorageError StorageUri :=
    .error (.invalidUri raw "Azure URI requires azb://account/container[/path]")
  match Str.splitn "/" 3 rest with
  | account :: container :: parts =>
      if account = "" ∨ container = "" then missing
      else .ok ⟨.azureBlob, raw, some account, some container, parts.head?.getD ""⟩
  | _ => missing

def parseLocal (raw rest : String) : Except StorageError StorageUri :=
  if Str.startsWith "/" rest then .ok ⟨.local, raw, none, none, rest⟩
  else .error (.invalidArgument (some .parseUri) raw
    "local file URI must contain an absolute path")

def parse (uri : String) : Except StorageError StorageUri :=
  match Str.stripFront "s3://" uri with
  | some rest => parseContainerPath uri rest .s3
  | none =>
  match Str.stripFront "gs://" uri with
  | some rest => parseContainerPath uri rest .gcs
  | none =>
  match Str.stripFront "azb://" uri with
  | some rest => parseAzure uri rest
  | none =>
  match Str.stripFront "file://" uri with
  | some rest => parseLocal uri rest
  | none => .error (.invalidUri uri
      "unsupported scheme (expected s3://, gs://, azb://, or file://)")

/-- A container address always carries its container. -/
theorem parseContainerPath_ok {raw rest : String} {provider : ProviderKind} {uri : StorageUri}
    (h : parseContainerPath raw rest provider = .ok uri) :
    uri.provider = provider ∧ ∃ container, container ≠ "" ∧ uri.container = some container := by
  unfold parseContainerPath at h
  simp only at h
  split at h
  · cases h
  · rename_i hcontainer
    cases h
    exact ⟨rfl, _, hcontainer, rfl⟩

/-- The path of a container address lies inside the address. -/
theorem parseContainerPath_path_le {raw rest : String} {provider : ProviderKind} {uri : StorageUri}
    (h : parseContainerPath raw rest provider = .ok uri) : uri.path.length ≤ rest.length := by
  unfold parseContainerPath at h
  simp only at h
  split at h
  · cases h
  · cases h
    cases hsplit : Str.splitOnce "/" rest with
    | none => exact Nat.zero_le _
    | some parts =>
        rw [Str.append_of_splitOnce hsplit, String.length_append]
        exact Nat.le_add_left _ _

end StorageUri

end Storageprims

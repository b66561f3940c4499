import Storageprims.S3.Provider

/-!
# The clients of the service

What a configuration makes of the two clients of a provider.  The loader of the SDK is told
what the configuration states and takes over what it is told; where it is told nothing, it
looks around for itself.  The program looks at the variables that the configuration names and
at no others, of a table of values it reads the known names only, and what it refuses is
refused in words that contain no value.
-/

namespace Storageprims

/-- Credentials as they are handed to the SDK. -/
structure Credentials where
  accessKeyId : String
  secretAccessKey : String
  sessionToken : Option String

/-- Where the SDK is told to take its credentials from. -/
inductive SdkCredentials where
  | defaultChain
  | profile (name : String)
  | provided (credentials : Credentials)

/-- What the loader of the SDK is told. -/
structure SdkSettings where
  region : Option String
  endpoint : Option String
  credentials : SdkCredentials

/-- What it has loaded. -/
structure SdkConfig where
  region : Option String
  endpoint : Option String
  credentials : Option Credentials
  maxAttempts : Nat

/-- What a process finds around it: its variables, and all else that the SDK may look at. -/
structure Surroundings (Rest : Type) where
  env : String → Option String
  rest : Rest

/-- The loader of the SDK. -/
abbrev SdkLoader (Rest : Type) : Type := Surroundings Rest → SdkSettings → SdkConfig

def findFirst (values : List (String × String)) (candidates : List String) :
    Except StorageError String :=
  match candidates.findSome? fun candidate => values.lookup candidate with
  | some value => .ok value
  | none => .error (.invalidArgument (some .configureProvider) ("|".intercalate candidates)
      "required AWS credential value is missing")

def findOptional (values : List (String × String)) (candidates : List String) : Option String :=
  candidates.findSome? fun candidate => values.lookup candidate

def accessKeyNames : List String :=
  ["AWS_ACCESS_KEY_ID", "AWS_ACCESS_KEY", "access_key_id", "access_key"]

def secretKeyNames : List String :=
  ["AWS_SECRET_ACCESS_KEY", "AWS_SECRET_KEY", "secret_access_key", "secret_key"]

def sessionTokenNames : List String := ["AWS_SESSION_TOKEN", "session_token", "token"]

def credentialsFromValues (values : List (String × String)) : Except StorageError Credentials := do
  let accessKeyId ← findFirst values accessKeyNames
  let secretAccessKey ← findFirst values secretKeyNames
  return ⟨accessKeyId, secretAccessKey, findOptional values sessionTokenNames⟩

/-- The variables of the environment that are set, as the table of their values. -/
def credentialsFromEnv (env : String → Option String) (variableNames : List String) :
    Except StorageError Credentials :=
  credentialsFromValues (variableNames.filterMap fun key => (env key).map fun value => (key, value))

/-- The credentials file is unreachable here. -/
def sdkCredentials (env : String → Option String) :
    CredentialSource → Except Failure SdkCredentials
  | .defaultChain => .ok .defaultChain
  | .profile name => .ok (.profile name)
  | .inlineStatic values | .inlineEnvMap values =>
      ((credentialsFromValues values).mapError .error).map .provided
  | .env variableNames => ((credentialsFromEnv env variableNames).mapError .error).map .provided
  | .credentialsFile _ => .error .panic

/-- What `load_sdk_config` tells the loader. -/
def loaderSettings (env : String → Option String) (config : ProviderConfig) :
    Except Failure SdkSettings :=
  (sdkCredentials env config.credentials).map fun credentials =>
    ⟨config.target.region, config.target.endpoint, credentials⟩

def loadSdkConfig {Rest : Type} (load : SdkLoader Rest) (around : Surroundings Rest)
    (config : ProviderConfig) : Except Failure SdkConfig := do
  let settings ← loaderSettings around.env config
  return load around settings

section Reads

variable {values values' : List (String × String)} {candidates variableNames : List String}
variable {env env' : String → Option String} {config config' : ProviderConfig}

end Reads

/-! ## What the clients are made of -/

section Clients

variable {Rest : Type} {load : SdkLoader Rest} {around around' : Surroundings Rest}
variable {config config' : ProviderConfig} {clients : ServiceClients}

end Clients

end Storageprims

import LetAgents.Lib.Texts

/-!
# The path denylist of the Secret Firewall

Source: src/api/rental/secret-firewall.ts:148-243, secret-firewall-patterns.ts:25-83.
-/
namespace LetAgents.Rental.PathDenylist

open Lib.RegExp

structure FirewallFinding where
  name : Text
  line : Option Nat := none
  detail : Text

/-- A row of a denylist: what is blocked, and why. -/
structure DeniedEntry where
  pattern : String
  reason : String

def BLOCKED_FILENAMES : List DeniedEntry := [
  ⟨".env", "Environment variables file"⟩,
  ⟨".env.local", "Local environment variables"⟩,
  ⟨".env.production", "Production environment variables"⟩,
  ⟨".env.development", "Development environment variables"⟩,
  ⟨".env.staging", "Staging environment variables"⟩,
  ⟨".env.test", "Test environment variables"⟩,
  ⟨".git-credentials", "Git credentials"⟩,
  ⟨".netrc", "Network credentials"⟩,
  ⟨".npmrc", "npm registry credentials"⟩,
  ⟨".pypirc", "PyPI credentials"⟩,
  ⟨".docker/config.json", "Docker registry credentials"⟩,
  ⟨".kube/config", "Kubernetes credentials"⟩,
  ⟨"id_rsa", "SSH private key"⟩,
  ⟨"id_ed25519", "SSH private key"⟩,
  ⟨"id_ecdsa", "SSH private key"⟩,
  ⟨"id_dsa", "SSH private key"⟩,
  ⟨"credentials.json", "Cloud service credentials"⟩,
  ⟨"service-account.json", "GCP service account"⟩,
  ⟨"service_account.json", "GCP service account"⟩,
  ⟨".vault-token", "HashiCorp Vault token"⟩,
  ⟨"secrets.yaml", "Secrets configuration"⟩,
  ⟨"secrets.yml", "Secrets configuration"⟩,
  ⟨"secrets.json", "Secrets configuration"⟩,
  ⟨"secret.yaml", "Secrets configuration"⟩,
  ⟨"secret.yml", "Secrets configuration"⟩,
  ⟨"secret.json", "Secrets configuration"⟩]

def BLOCKED_EXTENSIONS : List DeniedEntry := [
  ⟨".pem", "PEM certificate/key"⟩,
  ⟨".key", "Private key file"⟩,
  ⟨".p12", "PKCS12 keystore"⟩,
  ⟨".pfx", "PFX certificate"⟩,
  ⟨".jks", "Java keystore"⟩,
  ⟨".keystore", "Keystore file"⟩]

def nestedCredDirs : List DeniedEntry := [
  ⟨".ssh", "SSH directory"⟩,
  ⟨".aws", "AWS credentials directory"⟩,
  ⟨".gnupg", "GnuPG directory"⟩,
  ⟨".config/gcloud", "Google Cloud credentials"⟩]

def envFile : Compiled := .literal "^\\.env(\\..+)?$" false (by decide +kernel)

def serviceAccount : Compiled := .literal "^service[-_]account.*\\.json$" true (by decide +kernel)

/-- The directory of an entry stands in the path. -/
def DeniedEntry.holds (entry : DeniedEntry) (normalized : Text) : Bool :=
  normalized.includes (u '/' :: text entry.pattern ++ [u '/']) ||
    normalized.startsWith (text entry.pattern ++ [u '/'])

/-- The file name of an entry is the base name or the whole path, or, with a slash, a part
of the path. -/
def DeniedEntry.names (entry : DeniedEntry) (base normalized : Text) : Bool :=
  base == text entry.pattern || normalized == text entry.pattern ||
    ((text entry.pattern).includes [u '/'] &&
      (normalized.endsWith (text entry.pattern) || normalized.includes (text entry.pattern)))

def checkPathDenylist (filePath : Text) : Option FirewallFinding :=
  let base := basename filePath
  let normalized := filePath.replaceUnit (u '\\') (u '/')
  if envFile.test base then
    some ⟨text "Path denylist", none, text "Environment variables file: " ++ base⟩
  else if serviceAccount.test base then
    some ⟨text "Path denylist", none, text "GCP service account: " ++ base⟩
  else
    match nestedCredDirs.find? (·.holds normalized) with
    | some entry =>
      some ⟨text "Path denylist", none, text (entry.reason ++ ": " ++ entry.pattern ++ "/")⟩
    | none =>
      (BLOCKED_FILENAMES.find? (·.names base normalized)).map fun entry =>
        ⟨text "Path denylist", none, text (entry.reason ++ ": " ++ entry.pattern)⟩

def checkExtensionDenylist (filePath : Text) : Option FirewallFinding :=
  let ext := (extname filePath).toLowerCase
  (BLOCKED_EXTENSIONS.find? fun entry => ext == text entry.pattern).map fun entry =>
    ⟨text "Extension denylist", none, text (entry.reason ++ ": " ++ entry.pattern)⟩

def isPathBlocked (filePath : Text) : Bool :=
  (checkPathDenylist filePath).isSome || (checkExtensionDenylist filePath).isSome

example : isPathBlocked (text "apps/web/.env") = true := by decide +kernel

end LetAgents.Rental.PathDenylist

import LetAgents.Lib.Checked

/-!
# The scope of a saved tool permission

Source: apps/desktop/daemon/host-tool-rules.ts:13-126.

A scope names the agent, the account, the tool, the launch policy, and either a project or
the workspace of a room. It is checked when it comes in; the checked scope is what the rules
store.

Modelling boundary: digests, the file system and the work attempts are what a transaction
finds in its host.
-/
namespace LetAgents.Daemon.HostToolRules

open Lib.Checked

inductive Provider where
  | codex
  | claudeCode
  | cursor
  | openModel
  deriving DecidableEq

structure ProjectToolScope where
  agentId : String
  accountId : String
  projectId : String
  projectName : String
  sourceRepoPath : String
  canonicalSourcePath : String
  repository : String
  remoteUrl : String
  provider : Provider
  toolId : String
  toolLabel : String
  policySha256 : String

structure RoomToolScope where
  agentId : String
  accountId : String
  roomId : String
  workAttemptId : String
  workspacePath : String
  canonicalWorkspacePath : String
  provider : Provider
  toolId : String
  toolLabel : String
  policySha256 : String

inductive ScopeFields where
  | project (fields : ProjectToolScope)
  | roomWorkspace (fields : RoomToolScope)

def ScopeFields.agentId : ScopeFields → String
  | .project fields => fields.agentId
  | .roomWorkspace fields => fields.agentId

/-! ## The schema -/

/-- `value.length`: a character outside the basic plane counts twice. -/
def length (value : String) : Nat :=
  value.toList.foldl (fun count c => count + if c.toNat < 0x10000 then 1 else 2) 0

/-- `z.string().min(1).max(most)`. -/
def text (most : Nat) (value : String) : Bool := 1 ≤ length value && length value ≤ most

def isId : String → Bool := text 256

/-- No control characters and none that turn the direction of the text. -/
def isLabel (value : String) : Bool :=
  isId value && value.toList.all fun c =>
    !(c.toNat ≤ 0x1f || (0x7f ≤ c.toNat && c.toNat ≤ 0x9f) ||
      (0x202a ≤ c.toNat && c.toNat ≤ 0x202e) || (0x2066 ≤ c.toNat && c.toNat ≤ 0x2069))

def lowerHex (c : Char) : Bool := c.isDigit || ('a' ≤ c && c ≤ 'f')

def hexDigit (c : Char) : Bool := lowerHex c || ('A' ≤ c && c ≤ 'F')

def isHash (value : String) : Bool := value.toList.length = 64 && value.toList.all lowerHex

def isPath : String → Bool := text 4096

/-- Whether the characters have the classes, one by one. -/
def matchesClasses : List (Char → Bool) → List Char → Bool
  | [], [] => true
  | class' :: classes, c :: rest => class' c && matchesClasses classes rest
  | _, _ => false

/-- `z.string().uuid()`. -/
def uuid (value : String) : Bool :=
  let dash : Char → Bool := fun c => c = '-'
  let hex (count : Nat) := List.replicate count hexDigit
  let version : Char → Bool := fun c => '1' ≤ c && c ≤ '8'
  let variant : Char → Bool := fun c => "89abAB".toList.contains c
  matchesClasses (hex 8 ++ [dash] ++ hex 4 ++ [dash, version] ++ hex 3 ++ [dash, variant] ++ hex 3 ++
    [dash] ++ hex 12) value.toList ||
  value = "00000000-0000-0000-0000-000000000000" ||
  value = "ffffffff-ffff-ffff-ffff-ffffffffffff"

/-- The providers a scope may name. -/
def scopeProvider (provider : Provider) : Bool := provider ≠ .cursor

def ProjectToolScope.valid (s : ProjectToolScope) : Bool :=
  isId s.agentId && isId s.accountId && isHash s.projectId && isLabel s.projectName &&
    isPath s.sourceRepoPath && isPath s.canonicalSourcePath && isPath s.repository &&
    isPath s.remoteUrl &&
    scopeProvider s.provider && isId s.toolId && isLabel s.toolLabel && isHash s.policySha256

def RoomToolScope.valid (s : RoomToolScope) : Bool :=
  isId s.agentId && isId s.accountId && isId s.roomId && uuid s.workAttemptId &&
    isPath s.workspacePath &&
    isPath s.canonicalWorkspacePath && scopeProvider s.provider && isId s.toolId && isLabel s.toolLabel &&
    isHash s.policySha256

def ScopeFields.valid : ScopeFields → Bool
  | .project fields => fields.valid
  | .roomWorkspace fields => fields.valid

/-- What `hostToolScopeSchema` accepts. -/
abbrev HostToolScope : Type := { fields : ScopeFields // fields.valid = true }

def parseScope (fields : ScopeFields) : Except String HostToolScope :=
  if valid : fields.valid = true then .ok ⟨fields, valid⟩ else .error "Invalid input"

/-! ## The agent's current scope -/

/-- `policyFields`: the permission profile and the launch policy, as their digest takes them. -/
structure DaemonManifestEntry where
  id : String
  createdBy : String
  roomId : String
  provider : Provider
  workAttemptId : Option String
  workspacePath : Option String
  sourceRepoPath : Option String
  policyFields : Option String × Option String

structure HostToolContext where
  repo : String
  remoteUrl : String
  workAttemptId : String
  taskId : String
  workspacePath : String
  resolvedRevision : String
  barePath : String

/-- The digests of this file: each is a SHA-256 of a JSON array. -/
structure Digests where
  scope : HostToolScope → String
  project : String → String → String → String
  policy : Option String × Option String → String
  task : String → String

/-- What a transaction finds outside the tables of saved permissions and approvals. -/
structure Host where
  entry : Option DaemonManifestEntry
  workAttempts : List HostToolContext
  realpath : String → Except String String
  /-- The private directory and its marker: the canonical path if both are the context's. -/
  ownedWorkspace : HostToolContext → Except String (Option String)

def readHostToolContext (host : Host) (workAttemptId : String) : Option HostToolContext :=
  host.workAttempts.find? fun context => context.workAttemptId = workAttemptId

/-- Both the host-owned durable attempt and its private provisioner marker must agree. -/
def roomWorkspaceIdentity (digests : Digests) (host : Host) (entry : DaemonManifestEntry)
    (context : HostToolContext) : Except String (Option String) :=
  if entry.sourceRepoPath.any (· ≠ "") ∨ entry.workAttemptId ≠ some context.workAttemptId ∨
      entry.workspacePath ≠ some context.workspacePath ∨ context.repo ≠ "room-only" ∨
      context.resolvedRevision ≠ String.ofList (List.replicate 40 '0') ∨
      context.remoteUrl ≠ "letagents-ephemeral:" ++ digests.task context.taskId then .ok none
  else host.ownedWorkspace context

def roomChanged : String :=
  "The saved tool permission no longer matches this agent's room workspace or access settings."

def projectChanged : String :=
  "The saved tool permission no longer matches this agent's project or access settings."

/-- The work attempt of the entry, if it names one. -/
def entryContext (host : Host) : Option (DaemonManifestEntry × HostToolContext) := do
  let entry ← host.entry
  let workAttemptId ← entry.workAttemptId.filter (· ≠ "")
  let project ← readHostToolContext host workAttemptId
  return (entry, project)

def assertRoomScope (digests : Digests) (host : Host) (scope : RoomToolScope) :
    Except String Unit := do
  let (entry, project) ← found (entryContext host) roomChanged
  require (entry.id = scope.agentId ∧ entry.createdBy = scope.accountId ∧
    entry.roomId = scope.roomId ∧ entry.provider = scope.provider ∧
    digests.policy entry.policyFields = scope.policySha256 ∧
    project.workAttemptId = scope.workAttemptId ∧ project.workspacePath = scope.workspacePath)
    roomChanged
  let canonical ← roomWorkspaceIdentity digests host entry project
  require (canonical = some scope.canonicalWorkspacePath) roomChanged

def assertProjectScope (digests : Digests) (host : Host) (scope : ProjectToolScope) :
    Except String Unit := do
  let (entry, project) ← found (entryContext host) projectChanged
  require (project.repo = scope.repository ∧ project.remoteUrl = scope.remoteUrl) projectChanged
  let canonical ← host.realpath (entry.sourceRepoPath.getD "")
  require (canonical = scope.canonicalSourcePath ∧
    digests.project scope.canonicalSourcePath project.repo project.remoteUrl = scope.projectId ∧
    entry.id = scope.agentId ∧ entry.createdBy = scope.accountId ∧
    entry.provider = scope.provider ∧ entry.sourceRepoPath = some scope.sourceRepoPath ∧
    digests.policy entry.policyFields = scope.policySha256) projectChanged

def assertHostToolScope (digests : Digests) (host : Host) (scope : HostToolScope) :
    Except String Unit :=
  match scope.1 with
  | .roomWorkspace fields => assertRoomScope digests host fields
  | .project fields => assertProjectScope digests host fields

end LetAgents.Daemon.HostToolRules

import LetAgents.Rental.WorkspaceFilter
import Mathlib.Logic.Function.Basic

/-!
# The workspace materializer

Source: src/api/rental/workspace-materializer.ts:122-159, 259-393 and 468-566, 619-626.

All calls share one workspace root: its bare clones by directory name, and the command
roots, the workspaces with a manifest, by manifest id. What git, tar and the database did
is an input of a call.

Modelling boundary: `generateId` repeats no id; a directory without a manifest, the time
stamps and the log are left out, and so are the fetch of a cached clone and the work
branch, whose failures are only logged, and the empty directories of a refused write.
-/
namespace LetAgents.Rental.Materializer

open Lib.Checked Lib.FileTree Lib.RegExp PathDenylist ScopeGlobs WorkspaceFilter

/-! ## Input validation -/

inductive Failure where
  /-- An error with its message. -/
  | error (message : Text)
  /-- `execFileSync` of a program, a file operation or a statement that failed. -/
  | threw (operation : String)
  deriving DecidableEq

/-- What a call reads of its process. -/
structure Host where
  tmpdir : Text
  allowLocalRepos : Bool

def COMMIT_SHA_REGEX : Compiled := .literal "^[0-9a-f]\x7b7,40\x7d$" true (by decide +kernel)

def SAFE_BRANCH_CHARS : Compiled := .literal "^[a-zA-Z0-9\\/_.-]+$" false (by decide +kernel)

def GITHUB_URL : Compiled := .literal
  "^https:\\/\\/github\\.com\\/[A-Za-z0-9_.-]+\\/[A-Za-z0-9_.-]+(?:\\.git)?$" false
  (by decide +kernel)

def validateCommitSha (sha : Text) : Except Failure Unit :=
  require (COMMIT_SHA_REGEX.test sha = true)
    (.error (text "Invalid commit SHA: " ++ sha ++ text ". Must be 7-40 hex characters."))

def validateRepoUrl (host : Host) (repoUrl : Text) : Except Failure Text :=
  let trimmed := repoUrl.trim
  if trimmed = [] then .error (.error (text "repoUrl is required"))
  else if GITHUB_URL.test trimmed then .ok trimmed
  else if trimmed.startsWith [u '/'] &&
      (trimmed.startsWith (host.tmpdir ++ [u '/']) || host.allowLocalRepos) then .ok trimmed
  else .error (.error (text "repoUrl must be a GitHub HTTPS repository URL"))

def validateBranchName (name : Text) : Except Failure Unit :=
  require (SAFE_BRANCH_CHARS.test name = true)
    (.error (text "Invalid branch name: " ++ name ++ text ". Contains unsafe characters."))

/-! ## The bare clones -/

def base36Digit (d : Nat) : Nat := if d < 10 then u '0' + d else u 'a' + (d - 10)

/-- `n.toString(36)`, the last digits first. -/
def base36Digits : Nat → Nat → Text
  | 0, _ => []
  | fuel + 1, n => if n < 36 then [base36Digit n] else base36Digit (n % 36) :: base36Digits fuel (n / 36)

/-- The 32-bit hash of a string; its absolute value has at most seven digits. -/
def hashString (s : Text) : Text :=
  let hash : BitVec 32 := s.foldl (fun (hash : BitVec 32) ch => (hash <<< 5) - hash + BitVec.ofNat 32 ch) 0
  (base36Digits 7 hash.toInt.natAbs).reverse

/-- A bare clone: the URL it was cloned from, and whether the clone came to its end. -/
structure Clone where
  origin : Text
  complete : Bool
  deriving DecidableEq

/-- What `git clone` did; one that fails may leave its directory behind. -/
inductive CloneOutcome where
  | done
  | failed (leavesDirectory : Bool)
  deriving DecidableEq

/-- Where a symbolic link leads. -/
inductive LinkTarget where
  | directory (path : List Text)
  | outside
  /-- To a file or to nothing. -/
  | other
  deriving DecidableEq

inductive Leaf where
  | file (content : List Nat)
  | link (target : LinkTarget)
  deriving DecidableEq

abbrev Workspace := Tree Text Leaf

structure World where
  cache : Text → Option Clone
  roots : Text → Option Workspace

/-- The bare clone that a call to `materializeWorkspace` reads from. -/
def bareClone (world : World) (repoUrl : Text) (clone : CloneOutcome) :
    World × Except Failure Clone :=
  let repoHash := hashString repoUrl
  match world.cache repoHash with
  | some cached => (world, .ok cached)
  | none =>
    match clone with
    | .done =>
      ({ world with cache := Function.update world.cache repoHash (some ⟨repoUrl, true⟩) },
        .ok ⟨repoUrl, true⟩)
    | .failed leavesDirectory =>
      ({ world with
          cache := if leavesDirectory then
              Function.update world.cache repoHash (some ⟨repoUrl, false⟩)
            else world.cache },
        .error (.threw "git clone"))

/-! ## Materialising a workspace -/

structure MaterializeWorkspaceInput where
  sessionId : Text
  repoUrl : Text
  baseCommitSha : Text
  scopeGlobs : List Text

/-- What the programs and the database did in a call. -/
structure WorkspaceOutcomes where
  generatedId : Text
  clone : CloneOutcome
  catFile : Bool
  archive : Bool
  /-- The tree that `tar` extracted. -/
  extracted : Option Workspace
  insert : Bool

structure MaterializeWorkspaceResult where
  manifestId : Text
  workBranch : Text
  filesMaterialized : Nat

/-- What a call did: the clone it read from, and its result. -/
structure Report (Result : Type) where
  reads : Option Clone
  result : Except Failure Result

/-- The part of `materializeWorkspace` that reads the bare clone. -/
def extractWorkspace (input : MaterializeWorkspaceInput) (repoUrl : Text)
    (outcomes : WorkspaceOutcomes) : Except Failure (Workspace × MaterializeWorkspaceResult) := do
  require (outcomes.catFile = true) (.error (text "Base commit " ++ input.baseCommitSha ++
    text " not found in repo " ++ repoUrl))
  let workBranch := text "rental/" ++ input.sessionId
  validateBranchName workBranch
  require (outcomes.archive = true) (.threw "git archive")
  let extracted ← found outcomes.extracted (.threw "tar")
  let (workspace, fileCount) ←
    (applyScopeAndDenylist extracted input.scopeGlobs).mapError fun _ => .threw "new RegExp"
  require (outcomes.insert = true) (.threw "insert")
  .ok (workspace, ⟨outcomes.generatedId, workBranch, fileCount⟩)

def materializeWorkspace (host : Host) (world : World) (input : MaterializeWorkspaceInput)
    (outcomes : WorkspaceOutcomes) : World × Report MaterializeWorkspaceResult :=
  match validateCommitSha input.baseCommitSha with
  | .error e => (world, ⟨none, .error e⟩)
  | .ok () =>
    match validateRepoUrl host input.repoUrl with
    | .error e => (world, ⟨none, .error e⟩)
    | .ok repoUrl =>
      match bareClone world repoUrl outcomes.clone with
      | (world, .error e) => (world, ⟨none, .error e⟩)
      | (world, .ok clone) =>
        match extractWorkspace input repoUrl outcomes with
        | .error e => (world, ⟨some clone, .error e⟩)
        | .ok (workspace, result) =>
          ({ world with roots := Function.update world.roots result.manifestId (some workspace) },
            ⟨some clone, .ok result⟩)

/-! ## Single approved files -/

theorem drivePrefix_parses : (parse (text "^[a-zA-Z]:")).toOption.isSome = true := by
  decide +kernel

def drivePrefix : Compiled := .literal "^[a-zA-Z]:" false drivePrefix_parses

/-- One segment of `normalizeApprovedPath`. -/
def resolveSegment (resolved : List Text) (segment : Text) : Option (List Text) :=
  if segment = [] ∨ segment = text "." then some resolved
  else if segment = text ".." then
    if resolved = [] then none else some resolved.dropLast
  else some (resolved ++ [segment])

/-- The segments of an approved path; joined by slashes they are the source's result. -/
def normalizeApprovedPath (filePath : Text) : Option (List Text) :=
  if filePath.includes [0] then none
  else
    let normalized := filePath.trim.replaceUnit (u '\\') (u '/')
    if normalized = [] || normalized.startsWith [u '/'] || drivePrefix.test normalized then none
    else
      match (normalized.split (u '/')).foldlM resolveSegment [] with
      | none => none
      | some resolved => if resolved = [] then none else some resolved

inductive RefusedReason where
  | workspaceUnavailable | bareCloneMissing | pathBlocked | invalidPath | fileNotInBaseCommit

inductive MaterializeApprovedFileResult where
  | materialized (bytes : Nat)
  | refused (reason : RefusedReason)

structure Manifest where
  baseCommitSha : Text
  /-- The id that names its workspace directory. -/
  workspace : Option Text

structure MaterializeApprovedFileInput where
  manifest : Manifest
  repoUrl : Text
  filePath : Text

/-- Where `mkdir -p` and `realpath` of a directory lead. -/
inductive RealParent where
  | inside (path : List Text)
  | outside
  | fails

def enterDirectory (workspace : Workspace) (parent : RealParent) (name : Text) : RealParent :=
  match parent with
  | .inside path =>
    match workspace.find (path ++ [name]) with
    | .leaf (.link (.directory target)) => .inside target
    | .leaf (.link .outside) => .outside
    | .leaf (.link .other) => .fails
    | .leaf (.file _) => .fails
    | .nothing => .inside (path ++ [name])
    | .directory => .inside (path ++ [name])
  | .outside => .outside
  | .fails => .fails

def realParent (workspace : Workspace) (directory : List Text) : RealParent :=
  directory.foldl (enterDirectory workspace) (.inside [])

/-- Write the content at a path of the workspace, past symbolic links to directories. -/
def writeApproved (workspace : Workspace) (relPath : List Text) (content : List Nat) :
    Except Failure (Option Workspace) :=
  if (relative relPath).startsWith (text "..") then .ok none
  else
    match realParent workspace relPath.dropLast with
    | .fails => .error (.threw "mkdir")
    | .outside => .ok none
    | .inside parent =>
      let target := parent ++ (relPath.getLast?).toList
      match workspace.find target with
      | .leaf (.link _) => .ok none
      | .directory => .error (.threw "writeFile")
      | .leaf (.file _) => .ok (some (workspace.write (.file content) target))
      | .nothing => .ok (some (workspace.write (.file content) target))

def materializeApprovedFile (host : Host) (world : World) (input : MaterializeApprovedFileInput)
    (shown : Option (List Nat)) : World × Report MaterializeApprovedFileResult :=
  let refuse (reads : Option Clone) (reason : RefusedReason) :
      World × Report MaterializeApprovedFileResult := (world, ⟨reads, .ok (.refused reason)⟩)
  match normalizeApprovedPath input.filePath with
  | none => refuse none .invalidPath
  | some relPath =>
    match isAlwaysBlocked (relative relPath) with
    | .error _ => (world, ⟨none, .error (.threw "new RegExp")⟩)
    | .ok blocked =>
      if blocked || isPathBlocked (relative relPath) then refuse none .pathBlocked
      else
        match input.manifest.workspace.bind fun id => (world.roots id).map fun tree => (id, tree) with
        | none => refuse none .workspaceUnavailable
        | some (id, workspace) =>
          match validateCommitSha input.manifest.baseCommitSha with
          | .error e => (world, ⟨none, .error e⟩)
          | .ok () =>
            match validateRepoUrl host input.repoUrl with
            | .error e => (world, ⟨none, .error e⟩)
            | .ok repoUrl =>
              match world.cache (hashString repoUrl) with
              | none => refuse none .bareCloneMissing
              | some clone =>
                match shown with
                | none => refuse (some clone) .fileNotInBaseCommit
                | some content =>
                  match writeApproved workspace relPath content with
                  | .error e => (world, ⟨some clone, .error e⟩)
                  | .ok none => refuse (some clone) .invalidPath
                  | .ok (some written) =>
                    ({ world with
                        roots := Function.update world.roots id (some written) },
                      ⟨some clone, .ok (.materialized content.length)⟩)

/-! ## Runs -/

inductive Call where
  | materialize (input : MaterializeWorkspaceInput) (outcomes : WorkspaceOutcomes)
  | approve (input : MaterializeApprovedFileInput) (shown : Option (List Nat))

/-- The URL that a call names. -/
def Call.repoUrl : Call → Text
  | .materialize input _ => input.repoUrl
  | .approve input _ => input.repoUrl

/-- The world after a call, and the clone that the call read from. -/
def step (host : Host) (world : World) : Call → World × Option Clone
  | .materialize input outcomes =>
    let (world, report) := materializeWorkspace host world input outcomes
    (world, report.reads)
  | .approve input shown =>
    let (world, report) := materializeApprovedFile host world input shown
    (world, report.reads)

/-- A workspace root that nobody used. -/
def World.empty : World := ⟨fun _ => none, fun _ => none⟩

def run (host : Host) (calls : List Call) : World :=
  calls.foldl (fun world call => (step host world call).1) .empty

theorem run_concat (host : Host) (calls : List Call) (call : Call) :
    run host (calls ++ [call]) = (step host (run host calls) call).1 := by
  unfold run
  rw [List.foldl_append]
  rfl

end LetAgents.Rental.Materializer

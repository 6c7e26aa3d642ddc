import LetAgents.Lib.FileTree
import LetAgents.Rental.SecretFirewall
import Mathlib.Data.Rat.Floor

/-!
# The context broker

Source: src/api/rental/context-broker.ts:26-34 and 118-433. A file is read as the firewall
leaves it; a search matches the raw lines of every file and lets the firewall scan each
line that it shows on its own.

Modelling boundary: the workspaces do not change between the calls, and the exposure ledger
accepts every record. `toLowerCase` of the language and the entropy of a string are
parameters.
-/
namespace LetAgents.Rental.ContextBroker

open Lib.FileTree Lib.RegExp PathDenylist SecretFirewall

def DEFAULT_MAX_FILE_BYTES : Nat := 256 * 1024
def DEFAULT_MAX_SEARCH_RESULTS : Nat := 20
def DEFAULT_MAX_SEARCH_FILE_BYTES : Nat := 128 * 1024
def MAX_SEARCH_RESULTS_CAP : Nat := 100
def MAX_SEARCH_FILES_SCANNED : Nat := 5000
def MAX_SEARCH_TOTAL_FILE_BYTES : Nat := 50 * 1024 * 1024
def MAX_SEARCH_DIRECTORY_DEPTH : Nat := 24

/-! ## Workspaces -/

/-- What stands outside of the workspace. -/
inductive Outside where
  | missing | symbolicLink | special | file

/-- Where a symbolic link leads. -/
inductive LinkTarget where
  | directory (path : List Text)
  | outside (below : List Text → Outside)
  /-- To a file or to nothing. -/
  | other

/-- An entry that is no directory; a file has its text as UTF-8 and its size on disk. -/
inductive Entry where
  | file (content : Text) (size : Nat)
  | link (target : LinkTarget)
  | special

abbrev Workspace := Tree Text Entry

/-- What `realpath` and `stat` say of a workspace path. -/
inductive Root where
  | directory (workspace : Workspace)
  | notDirectory
  | missing

structure ContextWorkspaceManifest where
  id : Text
  workspacePath : Option Text
  retentionStatus : Text

/-- What the broker reads: the active manifests by session, and the disk. -/
structure Site where
  getActiveManifest : Text → Option ContextWorkspaceManifest
  root : Text → Root

structure Language where
  toLowerCase : Text → Text
  shannonEntropy : Text → Entropy

def resolveWorkspace (site : Site) (manifest : Option ContextWorkspaceManifest) :
    Except Text (ContextWorkspaceManifest × Workspace) :=
  match manifest with
  | none => .error (text "workspace_not_ready")
  | some manifest =>
    if manifest.retentionStatus ≠ text "active" then .error (text "workspace_not_ready")
    else
      match manifest.workspacePath with
      | none => .error (text "workspace_path_missing")
      | some path =>
        if path = [] then .error (text "workspace_path_missing")
        else
          match site.root path with
          | .missing => .error (text "workspace_path_missing")
          | .notDirectory => .error (text "workspace_path_not_directory")
          | .directory workspace => .ok (manifest, workspace)

/-! ## Paths -/

def toRepoPath (filePath : Text) : Text := filePath.replaceUnit (u '\\') (u '/')

theorem drivePrefix_parses : (parse (text "^[a-zA-Z]:")).toOption.isSome = true := by
  decide +kernel

def drivePrefix : Compiled := .literal "^[a-zA-Z]:" false drivePrefix_parses

def resolveSegment (resolved : List Text) (segment : Text) : Except Text (List Text) :=
  if segment = [] ∨ segment = text "." then .ok resolved
  else if segment = text ".." then
    if resolved = [] then .error (text "path_traversal_rejected") else .ok resolved.dropLast
  else .ok (resolved ++ [segment])

/-- The segments of a repository path. -/
def normalizeRepoPath (filePath : Text) : Except Text (List Text) :=
  if filePath.trim = [] then .error (text "path is required")
  else if filePath.includes [0] then .error (text "path contains null byte")
  else
    let normalized := toRepoPath filePath.trim
    if normalized.startsWith [u '/'] || drivePrefix.test normalized then
      .error (text "absolute_path_rejected")
    else do
      let resolved ← (normalized.split (u '/')).foldlM resolveSegment []
      if resolved = [] then .error (text "path is required") else .ok resolved

/-- `path.relative` of the workspace and a path below it. -/
def relative (path : List Text) : Text := Text.join (u '/') path

def isWithinRoot (path : List Text) : Bool := !(relative path).startsWith (text "..")

/-- Where a path leads that may pass symbolic links. -/
inductive Spot where
  | inside (path : List Text)
  | outside (below : List Text → Outside) (path : List Text)
  | missing

def enterDirectory (workspace : Workspace) : Spot → Text → Spot
  | .inside path, name =>
    match workspace.find (path ++ [name]) with
    | .directory => .inside (path ++ [name])
    | .leaf (.link (.directory target)) => .inside target
    | .leaf (.link (.outside below)) => .outside below []
    | .leaf (.link .other) => .missing
    | .leaf (.file _ _) => .missing
    | .leaf .special => .missing
    | .nothing => .missing
  | .outside below path, name => .outside below (path ++ [name])
  | .missing, _ => .missing

/-- A file of the workspace: its real path, its text and its size. -/
structure WorkspaceFile where
  realPath : List Text
  content : Text
  size : Nat

def resolveWorkspaceFile (workspace : Workspace) (relPath : List Text) :
    Except Text WorkspaceFile :=
  if !isWithinRoot relPath then .error (text "path_traversal_rejected")
  else
    match relPath.dropLast.foldl (enterDirectory workspace) (.inside []) with
    | .missing => .error (text "file_not_found")
    | .outside below path =>
      match below (path ++ relPath.getLast?.toList) with
      | .missing => .error (text "file_not_found")
      | .symbolicLink => .error (text "symlink_rejected")
      | .special => .error (text "not_a_file")
      | .file => .error (text "path_traversal_rejected")
    | .inside path =>
      let realPath := path ++ relPath.getLast?.toList
      match workspace.find realPath with
      | .nothing => .error (text "file_not_found")
      | .leaf (.link _) => .error (text "symlink_rejected")
      | .leaf .special => .error (text "not_a_file")
      | .directory => .error (text "not_a_file")
      | .leaf (.file content size) =>
        if isWithinRoot realPath then .ok ⟨realPath, content, size⟩
        else .error (text "path_traversal_rejected")

/-- The files of a walk; `files` are those that were found before. -/
def walk : Nat → List Text → Workspace → List WorkspaceFile → List WorkspaceFile
  | _, _, .nil, files => files
  | depth, path, .leaf name entry rest, files =>
    if MAX_SEARCH_FILES_SCANNED ≤ files.length then files
    else
      walk depth path rest
        (match entry with
          | .file content size => files ++ [⟨path ++ [name], content, size⟩]
          | .link _ => files
          | .special => files)
  | depth, path, .directory name inner rest, files =>
    if MAX_SEARCH_FILES_SCANNED ≤ files.length then files
    else
      walk depth path rest
        (if MAX_SEARCH_DIRECTORY_DEPTH < depth + 1 then files
          else walk (depth + 1) (path ++ [name]) inner files)

def listWorkspaceFiles (workspace : Workspace) : List WorkspaceFile := walk 0 [] workspace []

/-! ## Numbers -/

/-- A number of a request; `none` stands for all that is no finite number. -/
def normalizePositiveInt (value : Option ℚ) (fallback : Nat) : Nat :=
  match value with
  | none => fallback
  | some value => if value ≤ 0 then fallback else value.floor.toNat

/-- `Buffer.byteLength` as UTF-8: a surrogate pair has four bytes, a lone surrogate three. -/
def byteLength : Text → Nat
  | [] => 0
  | c :: rest =>
    match rest with
    | d :: rest' =>
      if 0xD800 ≤ c ∧ c ≤ 0xDBFF ∧ 0xDC00 ≤ d ∧ d ≤ 0xDFFF then 4 + byteLength rest'
      else (if c < 0x80 then 1 else if c < 0x800 then 2 else 3) + byteLength (d :: rest')
    | [] => if c < 0x80 then 1 else if c < 0x800 then 2 else 3

/-! ## Reading a file -/

structure Exposure where
  sessionId : Text
  path : Text
  exposureType : Text
  content : Option Text
  reason : Text
  redactionCount : Nat
  secretScanStatus : FirewallVerdict
  requestedBy : Option Text
  scopeId : Text

structure ContextReadFileInput where
  sessionId : Text
  path : Text
  maxBytes : Option ℚ
  requestedBy : Option Text

structure ContextReadFileResult where
  success : Bool
  path : Option Text := none
  content : Option Text := none
  secretScanStatus : Option FirewallVerdict := none
  redactionCount : Option Nat := none
  findings : List FirewallFinding := []
  bytes : Option Nat := none
  manifestId : Option Text := none
  error : Option Text := none

variable (language : Language) (site : Site)

def readContextFile (input : ContextReadFileInput) : ContextReadFileResult × List Exposure :=
  match resolveWorkspace site (site.getActiveManifest input.sessionId) with
  | .error error => ({ success := false, error := some error }, [])
  | .ok (manifest, workspace) =>
    match normalizeRepoPath input.path with
    | .error error => ({ success := false, error := some error }, [])
    | .ok normalized =>
      let path := relative normalized
      let maxBytes := normalizePositiveInt input.maxBytes DEFAULT_MAX_FILE_BYTES
      match resolveWorkspaceFile workspace normalized with
      | .error error => ({ success := false, path := some path, error := some error }, [])
      | .ok target =>
        let exposure : Exposure :=
          { sessionId := input.sessionId, path, exposureType := text "file", content := none,
            reason := text "rental_read_file", redactionCount := 0,
            secretScanStatus := .blocked, requestedBy := input.requestedBy,
            scopeId := manifest.id }
        let pathOnlyScan := scanFile language.shannonEntropy path []
        if pathOnlyScan.verdict = .blocked then
          ({ success := false, path := some path, secretScanStatus := some .blocked,
             redactionCount := some 0, findings := pathOnlyScan.findings,
             manifestId := some manifest.id, error := some (text "secret_blocked") },
            [exposure])
        else if maxBytes < target.size then
          ({ success := false, path := some path,
             error := some (text "file_too_large:" ++ decimalText target.size ++
               text ":max_" ++ decimalText maxBytes) }, [])
        else
          let scan := scanFile language.shannonEntropy path target.content
          let exposed : Exposure :=
            { exposure with
              content := scan.content, redactionCount := scan.redactionCount,
              secretScanStatus := scan.verdict }
          if scan.verdict = .blocked then
            ({ success := false, path := some path, secretScanStatus := some scan.verdict,
               redactionCount := some scan.redactionCount, findings := scan.findings,
               manifestId := some manifest.id, error := some (text "secret_blocked") },
              [exposed])
          else
            ({ success := true, path := some path, content := some (scan.content.getD []),
               bytes := some (byteLength (scan.content.getD [])),
               secretScanStatus := some scan.verdict,
               redactionCount := some scan.redactionCount, findings := scan.findings,
               manifestId := some manifest.id }, [exposed])

/-! ## Searching -/

structure ContextSearchInput where
  sessionId : Text
  query : Text
  maxResults : Option ℚ
  caseSensitive : Bool
  requestedBy : Option Text

structure ContextSearchResultItem where
  path : Text
  line : Nat
  preview : Text
  secretScanStatus : FirewallVerdict
  redactionCount : Nat

structure ContextSearchResult where
  success : Bool
  query : Option Text := none
  results : List ContextSearchResultItem := []
  count : Option Nat := none
  truncated : Option Bool := none
  manifestId : Option Text := none
  error : Option Text := none

/-- `raw.split(/\r?\n/)`. -/
def splitLines (raw : Text) : List Text :=
  match (Text.split 0x0A raw).reverse with
  | [] => []
  | last :: before =>
    (last :: before.map fun line => if line.getLast? = some 0x0D then line.dropLast else line).reverse

/-- The line contains the needle. -/
def lineMatches (caseSensitive : Bool) (needle line : Text) : Bool :=
  (if caseSensitive then line else language.toLowerCase line).includes needle

def resultItem (relPath : Text) (number : Nat) (line : Text) : ContextSearchResultItem :=
  let scan := scanFile language.shannonEntropy relPath line
  ⟨relPath, number, scan.content.getD [], scan.verdict, scan.redactionCount⟩

/-- The loop over the lines of a file, from the line with index `i` on. -/
def searchLines (caseSensitive : Bool) (needle : Text) (maxResults : Nat) (relPath : Text) :
    Nat → List Text → List ContextSearchResultItem → List ContextSearchResultItem
  | _, [], results => results
  | i, line :: rest, results =>
    if maxResults ≤ results.length then results
    else if lineMatches language caseSensitive needle line then
      searchLines caseSensitive needle maxResults relPath (i + 1) rest
        (results ++ [resultItem language relPath (i + 1) line])
    else searchLines caseSensitive needle maxResults relPath (i + 1) rest results

/-- The loop over the files; `totalBytesScanned` are those before. -/
def searchFiles (caseSensitive : Bool) (needle : Text) (maxResults : Nat) :
    List WorkspaceFile → Nat → List ContextSearchResultItem → List ContextSearchResultItem
  | [], _, results => results
  | file :: rest, totalBytesScanned, results =>
    if maxResults ≤ results.length then results
    else if DEFAULT_MAX_SEARCH_FILE_BYTES < file.size then
      searchFiles caseSensitive needle maxResults rest totalBytesScanned results
    else if MAX_SEARCH_TOTAL_FILE_BYTES < totalBytesScanned + file.size then results
    else
      let relPath := toRepoPath (relative file.realPath)
      let total := totalBytesScanned + file.size
      if (scanFile language.shannonEntropy relPath []).verdict = .blocked then
        searchFiles caseSensitive needle maxResults rest total results
      else if file.content.includes [0] then
        searchFiles caseSensitive needle maxResults rest total results
      else
        searchFiles caseSensitive needle maxResults rest total
          (searchLines language caseSensitive needle maxResults relPath 0 (splitLines file.content)
            results)

/-- The worst status of a file that was searched. -/
def worseStatus (existing status : FirewallVerdict) : FirewallVerdict :=
  if status = .blocked then .blocked
  else if status = .redacted ∧ existing ≠ .blocked then .redacted
  else existing

/-- What a search showed of one file. -/
structure PathExposure where
  path : Text
  content : List Text
  redactions : Nat
  status : FirewallVerdict

def addExposure (exposuresByPath : List PathExposure) (item : ContextSearchResultItem) :
    List PathExposure :=
  let shown := decimalText item.line ++ text ": " ++ item.preview
  if exposuresByPath.any (·.path == item.path) then
    exposuresByPath.map fun existing =>
      if existing.path = item.path then
        ⟨existing.path, existing.content ++ [shown], existing.redactions + item.redactionCount,
          worseStatus existing.status item.secretScanStatus⟩
      else existing
  else
    exposuresByPath ++
      [⟨item.path, [shown], item.redactionCount, worseStatus .passed item.secretScanStatus⟩]

def searchContext (input : ContextSearchInput) : ContextSearchResult × List Exposure :=
  let query := input.query.trim
  if query = [] then ({ success := false, error := some (text "query is required") }, [])
  else
    match resolveWorkspace site (site.getActiveManifest input.sessionId) with
    | .error error => ({ success := false, error := some error }, [])
    | .ok (manifest, workspace) =>
      let maxResults := min (normalizePositiveInt input.maxResults DEFAULT_MAX_SEARCH_RESULTS)
        MAX_SEARCH_RESULTS_CAP
      let needle := if input.caseSensitive then query else language.toLowerCase query
      let results := searchFiles language input.caseSensitive needle maxResults
        (listWorkspaceFiles workspace) 0 []
      ({ success := true, query := some query, results, count := some results.length,
         truncated := some (maxResults ≤ results.length), manifestId := some manifest.id },
        (results.foldl addExposure []).map fun exposure =>
          { sessionId := input.sessionId, path := exposure.path,
            exposureType := text "search_result",
            content := some (Text.join 0x0A exposure.content),
            reason := text "rental_search:" ++ query.take 80,
            redactionCount := exposure.redactions, secretScanStatus := exposure.status,
            requestedBy := input.requestedBy, scopeId := manifest.id })

end LetAgents.Rental.ContextBroker

import LetAgents.Lib.Disks
import LetAgents.Rental.PathPolicy
import LetAgents.Rental.SecretFirewall
import LetAgents.Workspace.DiffIndex

/-!
# The patch gate

Source: src/api/rental/patch-gate/validation.ts:20-157, apply.ts:24-165.

The workspace is a disk of files and directories without symbolic links. One operation of
an application may fail although the tree allows it, and leave part of its effect; the
operations of a rollback fail only for what stands in the tree.

Modelling boundary: the directory of git itself is left out, and with it `git reset`, whose
failure is swallowed; so is the log.
-/
namespace LetAgents.Rental.PatchGate

open Lib Lib.Disks Lib.RegExp PathPolicy
open LetAgents.Rental.SecretFirewall (decimalText)
open LetAgents.Workspace (isHighSurrogate isLowSurrogate encodePoint)

inductive PatchGateVerdict where
  | passed | passed_with_warnings | needs_renter_approval | rejected
  deriving DecidableEq

def PatchGateVerdict.name : PatchGateVerdict → Text
  | .passed => text "passed"
  | .passed_with_warnings => text "passed_with_warnings"
  | .needs_renter_approval => text "needs_renter_approval"
  | .rejected => text "rejected"

inductive Operation where
  | modify | create | delete
  deriving DecidableEq

def Operation.name : Operation → Text
  | .modify => text "modify"
  | .create => text "create"
  | .delete => text "delete"

structure PatchFile where
  path : Text
  operation : Operation
  content : Option Text := none
  diff : Option Text := none
  deriving DecidableEq

structure PatchProposal where
  sessionId : Text
  idempotencyKey : Text
  files : List PatchFile
  summary : Option Text := none
  deriving DecidableEq

structure PatchCheckResult where
  file : Text
  operation : Operation
  passed : Bool := false
  reason : Option Text := none
  warnings : List Text := []
  secretsRedacted : Nat := 0
  sanitizedContent : Option Text := none

structure PatchGateResult where
  verdict : PatchGateVerdict
  proposal : PatchProposal
  checks : List PatchCheckResult
  warnings : List Text := []
  rejectionReasons : List Text := []
  appliedAt : Option Nat := none

structure ScanResult where
  blocked : Bool
  redactionCount : Nat
  content : Text

abbrev Workspace := Disk Text (List UInt8)

structure PatchGateDeps where
  isPathExposed : Text → Text → Bool
  scanContent : Option (Text → Text → ScanResult)

/-- `path.join(workspacePath, normalizedPath)`, below the workspace. -/
def fullPath (normalizedPath : Text) : List Text := Text.split (u '/') normalizedPath

/-- A string that is there and not empty. -/
def truthy (value : Option Text) : Bool := value.any (· ≠ [])

/-! ## Validation -/

/-- What the validation of one file adds to the result. -/
structure FileValidation where
  check : PatchCheckResult
  warnings : List Text
  rejectionReasons : List Text

/-- The content to apply with its warnings, or the reason and the rejection. -/
def sanitizeContent (deps : PatchGateDeps) (normalizedPath : Text) (file : PatchFile)
    (check : PatchCheckResult) : Except (Text × Text) (PatchCheckResult × List Text) :=
  if file.operation = .delete then .ok (check, [])
  else if truthy file.diff && !truthy file.content then
    .error (text "Diff-only patches are not yet supported — provide full content",
      normalizedPath ++ text ": diff-only patches not supported")
  else if !truthy file.content then
    .error (text "No content provided for " ++ file.operation.name,
      normalizedPath ++ text ": no content provided")
  else
    let content := file.content.getD []
    match deps.scanContent with
    | none => .ok ({ check with sanitizedContent := some content }, [])
    | some scanContent =>
      let scanResult := scanContent normalizedPath content
      if scanResult.blocked then
        .error (text "Secret Firewall blocked: content contains unredactable secrets",
          normalizedPath ++ text ": Secret Firewall blocked the proposed content")
      else if 0 < scanResult.redactionCount then
        let count := decimalText scanResult.redactionCount
        .ok ({ check with
            secretsRedacted := scanResult.redactionCount
            warnings := check.warnings ++ [count ++ text " secrets redacted from proposed content"]
            sanitizedContent := some scanResult.content },
          [normalizedPath ++ text ": " ++ count ++ text " secrets redacted"])
      else .ok ({ check with sanitizedContent := some content }, [])

/-- The checks of a file at a valid path. -/
def validateFileAt (deps : PatchGateDeps) (workspace : Workspace) (sessionId : Text)
    (normalizedPath : Text) (sensitive : Bool) (file : PatchFile) : FileValidation :=
  let check : PatchCheckResult :=
    { file := normalizedPath, operation := file.operation
      warnings := if sensitive then
          [text "Sensitive path: " ++ normalizedPath ++ text " — requires renter approval"]
        else [] }
  let warnings := if sensitive then [text "Sensitive file modified: " ++ normalizedPath] else []
  if !deps.isPathExposed sessionId normalizedPath then
    ⟨{ check with reason := some (text "File not exposed in session: \"" ++ normalizedPath ++ text "\"") },
      warnings, [normalizedPath ++ text ": not exposed — edits only allowed on exposed files"]⟩
  else
    match sanitizeContent deps normalizedPath file check with
    | .error (reason, rejection) => ⟨{ check with reason := some reason }, warnings, [rejection]⟩
    | .ok (check, more) =>
      let stands := workspace.present (fullPath normalizedPath)
      if file.operation = .modify ∧ stands = false then
        ⟨{ check with reason := some (text "Target file does not exist: \"" ++ normalizedPath ++ text "\"") },
          warnings ++ more, [normalizedPath ++ text ": file does not exist in workspace"]⟩
      else if file.operation = .delete ∧ stands = false then
        ⟨{ check with
            passed := true
            warnings := check.warnings ++ [text "File already absent: \"" ++ normalizedPath ++ text "\""] },
          warnings ++ more ++ [normalizedPath ++ text ": already absent (delete is no-op)"], []⟩
      else ⟨{ check with passed := true }, warnings ++ more, []⟩

def validateFile (deps : PatchGateDeps) (workspace : Workspace) (sessionId : Text)
    (file : PatchFile) : FileValidation :=
  match normalizePatchPath file.path with
  | .error reason =>
    ⟨{ file := file.path, operation := file.operation, reason := reason }, [],
      [file.path ++ text ": " ++ reason.getD (text "undefined")]⟩
  | .ok normalizedPath =>
    validateFileAt deps workspace sessionId normalizedPath (validatePatchPath file.path).sensitive file

def patchGateVerdict (checks : List PatchCheckResult) (warnings rejectionReasons : List Text) :
    PatchGateVerdict :=
  if rejectionReasons ≠ [] then .rejected
  else if checks.any fun check =>
      check.warnings.any fun warning => warning.includes (text "requires renter approval") then
    .needs_renter_approval
  else if warnings ≠ [] then .passed_with_warnings
  else .passed

def validatePatch (deps : PatchGateDeps) (workspace : Workspace) (proposal : PatchProposal) :
    PatchGateResult :=
  if proposal.files = [] then
    { verdict := .rejected, proposal, checks := [],
      rejectionReasons := [text "Empty patch — no files to apply"] }
  else
    let files := proposal.files.map (validateFile deps workspace proposal.sessionId)
    let checks := files.map (·.check)
    let warnings := files.flatMap (·.warnings)
    let rejectionReasons := files.flatMap (·.rejectionReasons)
    { verdict := patchGateVerdict checks warnings rejectionReasons
      proposal, checks, warnings, rejectionReasons }

/-! ## Application -/

/-- What an operation that fails has done: the content a write left, the depth of the
directories that `mkdirSync` made, and whether the file was unlinked. -/
structure Damage where
  written : Option (List UInt8) := none
  made : Nat := 0
  unlinked : Bool := false

inductive GitCommand where
  | add (paths : List Text)
  | rm (paths : List Text)
  | commit (message : Text)

/-- What the world does to an application: the damage of the operation with a number, if it
fails, the commands of git that succeed, and the time. -/
structure World where
  fails : Nat → Option Damage
  git : GitCommand → Bool
  now : Nat

/-- Why the application stopped. -/
inductive Cause where
  | invalidPath (reason : Option Text)
  | noContent (operation : Operation) (path : Text)
  /-- A file operation, because it failed or because of what stands in the tree. -/
  | operation (name : String)
  | git (command : GitCommand)

structure Backup where
  content : Option (List UInt8)
  existed : Bool

/-- The disk, the number of the next operation, and the backups so far. -/
structure Progress where
  workspace : Workspace
  clock : Nat
  backups : OrderedMap Text Backup

/-- A statement of the application: it goes well, or it throws. -/
abbrev Statement := Progress → Progress × Option Cause

def Statement.then (first second : Statement) : Statement := fun s =>
  match first s with
  | (s, none) => second s
  | (s, some cause) => (s, some cause)

def Statement.skip : Statement := fun s => (s, none)

/-- A statement for each element of a list. -/
def Statement.each {α : Type} (statement : α → Statement) : List α → Statement
  | [] => .skip
  | x :: rest => (statement x).then (each statement rest)

/-- The UTF-8 bytes of a string. -/
def utf8 : Text → List UInt8
  | [] => []
  | [c] => encodePoint c
  | c :: d :: rest =>
    if isHighSurrogate c ∧ isLowSurrogate d then
      encodePoint (0x10000 + (c - 0xD800) * 0x400 + (d - 0xDC00)) ++ utf8 rest
    else encodePoint c ++ utf8 (d :: rest)

/-- A file operation: what it makes of the disk, or how far it got. -/
def fileOperation (world : World) (name : String) (act : Workspace → Option Workspace)
    (damaged : Damage → Workspace → Option Workspace) : Statement := fun s =>
  match world.fails s.clock with
  | some damage =>
    ({ s with workspace := (damaged damage s.workspace).getD s.workspace, clock := s.clock + 1 },
      some (.operation name))
  | none =>
    match act s.workspace with
    | some workspace => ({ s with workspace, clock := s.clock + 1 }, none)
    | none => ({ s with clock := s.clock + 1 }, some (.operation name))

def mkdirSync (world : World) (dir : List Text) : Statement :=
  fileOperation world "mkdirSync" (fun workspace => workspace.mkdir dir dir.length)
    fun damage workspace => workspace.mkdir dir damage.made

def writeFileSync (world : World) (path : List Text) (content : List UInt8) : Statement :=
  fileOperation world "writeFileSync" (fun workspace => workspace.write path content)
    fun damage workspace => damage.written.bind fun left => workspace.write path left

def unlinkSync (world : World) (path : List Text) : Statement :=
  fileOperation world "unlinkSync" (fun workspace => workspace.unlink path)
    fun damage workspace => if damage.unlinked then workspace.unlink path else none

def git (world : World) (command : GitCommand) : Statement := fun s =>
  if world.git command then (s, none) else (s, some (.git command))

/-- Continue with the normalized path. -/
def withPath (file : PatchFile) (statement : Text → Statement) : Statement := fun s =>
  match normalizePatchPath file.path with
  | .error reason => (s, some (.invalidPath reason))
  | .ok normalizedPath => statement normalizedPath s

/-- `backups.set(...)` for one file. -/
def backUp (world : World) (file : PatchFile) : Statement :=
  withPath file fun normalizedPath s =>
    if s.workspace.present (fullPath normalizedPath) then
      match world.fails s.clock, s.workspace.content (fullPath normalizedPath) with
      | none, some content =>
        ({ s with clock := s.clock + 1, backups := s.backups.set normalizedPath ⟨some content, true⟩ },
          none)
      | _, _ => ({ s with clock := s.clock + 1 }, some (.operation "readFileSync"))
    else ({ s with backups := s.backups.set normalizedPath ⟨none, false⟩ }, none)

def sanitizedContentMap (result : PatchGateResult) : OrderedMap Text Text :=
  result.checks.foldl (fun map check =>
    match check.sanitizedContent with
    | some content => map.set check.file content
    | none => map) .empty

/-- `sanitizedContentMap.get(normalizedPath) ?? file.content` -/
def contentFor (result : PatchGateResult) (file : PatchFile) (normalizedPath : Text) : Option Text :=
  ((sanitizedContentMap result).get normalizedPath).or file.content

/-- The directory of a file, if it is missing. -/
def makeDirectory (world : World) (dir : List Text) : Statement := fun s =>
  if s.workspace.present dir then (s, none) else mkdirSync world dir s

def applyFile (world : World) (result : PatchGateResult) (file : PatchFile) : Statement :=
  withPath file fun normalizedPath =>
    match file.operation with
    | .delete => fun s =>
      if s.workspace.present (fullPath normalizedPath) then
        unlinkSync world (fullPath normalizedPath) s
      else (s, none)
    | operation => fun s =>
      match contentFor result file normalizedPath with
      | none | some [] => (s, some (.noContent operation normalizedPath))
      | some content =>
        (makeDirectory world (fullPath normalizedPath).dropLast).then
          (writeFileSync world (fullPath normalizedPath) (utf8 content)) s

def commitMsg (result : PatchGateResult) : Text :=
  Text.join 0x0A [
    text "rental: " ++ result.proposal.summary.getD (text "agent patch"),
    [],
    text "Session: " ++ result.proposal.sessionId,
    text "Key: " ++ result.proposal.idempotencyKey,
    text "Files: " ++ decimalText result.proposal.files.length,
    text "Verdict: " ++ result.verdict.name]

/-- The normalized paths; those that are invalid were refused before. -/
def normalizedPaths (files : List PatchFile) : List Text :=
  files.filterMap fun file => (normalizePatchPath file.path).toOption

def commit (world : World) (result : PatchGateResult) : Statement :=
  let deletions := normalizedPaths (result.proposal.files.filter fun file => file.operation = .delete)
  (git world (.add (normalizedPaths result.proposal.files))).then
    ((if deletions = [] then .skip else git world (.rm deletions)).then
      (git world (.commit (commitMsg result))))

/-- The body of the `try`. -/
def attempt (world : World) (result : PatchGateResult) : Statement :=
  (Statement.each (backUp world) result.proposal.files).then
    ((Statement.each (applyFile world result) result.proposal.files).then (commit world result))

def restore (workspace : Workspace) (entry : Text × Backup) : Workspace :=
  let path := fullPath entry.1
  match entry.2.existed, entry.2.content with
  | true, some content => (workspace.write path content).getD workspace
  | true, none => workspace
  | false, _ =>
    if workspace.present path then (workspace.unlink path).getD workspace else workspace

def rollbackPatch (workspace : Workspace) (backups : OrderedMap Text Backup) : Workspace :=
  backups.entries.foldl restore workspace

/-- The errors of `applyPatch`. -/
inductive ApplyError where
  | rejected
  | notApproved
  | rolledBack (cause : Cause)

def applyPatch (world : World) (workspace : Workspace) (result : PatchGateResult)
    (renterApproved : Bool) : Workspace × Except ApplyError PatchGateResult :=
  if result.verdict = .rejected then (workspace, .error .rejected)
  else if result.verdict = .needs_renter_approval ∧ renterApproved = false then
    (workspace, .error .notApproved)
  else
    match attempt world result ⟨workspace, 0, .empty⟩ with
    | (s, none) => (s.workspace, .ok { result with appliedAt := some world.now })
    | (s, some cause) => (rollbackPatch s.workspace s.backups, .error (.rolledBack cause))

end LetAgents.Rental.PatchGate

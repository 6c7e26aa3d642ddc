import LetAgents.Rental.PatchApply

/-!
# Patch proposals

Source: src/src/api/rental/patch-proposal.ts:109-347, patch-review/files.ts:8-112.

The rows keep the checks and the files of a proposal as JSON; what reads them back trusts
nothing that stands there. Between the awaits of one validation the exposures and the
workspace may change, so each file is checked against a view of its own.

Modelling boundary: the columns that no function here reads (`diff_ref`, `risk_score`,
`warnings`, `response_hash`), and the manifest but for its id.
-/
namespace LetAgents.Rental.PatchProposals

open Lib Lib.RegExp PatchGate
open PathPolicy (slashed patchPathSegments)
open SecretFirewall (Entropy scanFile)

/-! ## JSON columns -/

inductive Json where
  | null
  | boolean (value : Bool)
  | number (value : Nat)
  | string (value : Text)
  | array (elements : List Json)
  | object (properties : List (String × Json))

/-- `value[key]`, if `value` is a record. -/
def Json.property (value : Json) (key : String) : Option Json :=
  match value with
  | .object properties => properties.lookup key
  | _ => none

def isRecord : Json → Bool
  | .object _ => true
  | _ => false

/-- `typeof value === "string" ? value : undefined` -/
def string? : Option Json → Option Text
  | some (.string value) => some value
  | _ => none

/-- The elements, if the value is an array. -/
def array? : Option Json → Option (List Json)
  | some (.array elements) => some elements
  | _ => none

/-- A property that is left out where its value is `undefined`. -/
def optional (key : String) (value : Option Text) : List (String × Json) :=
  value.toList.map fun value => (key, .string value)

/-- `text === "modify" || text === "create" || text === "delete"` -/
def patchOperation (value : Option Json) : Option Operation :=
  [Operation.modify, .create, .delete].find? fun operation => string? value = some operation.name

theorem patchOperation_name (operation : Operation) :
    patchOperation (some (.string operation.name)) = some operation := by
  cases operation <;> decide

structure RentalPatchProposalRow where
  id : Text
  session_id : Text
  source : Text
  summary : Option Text
  gate_status : Text
  check_results : Json
  journal_entry : Json
  idempotency_key : Text
  request_hash : Text

structure PatchProposalError where
  message : String
  status : Nat
  deriving DecidableEq

/-! ## The request -/

def normalizePatchFile (file : Json) : Except PatchProposalError PatchFile :=
  match file with
  | .object _ | .array _ =>
    let path := ((string? (file.property "path")).getD []).trim
    if path = [] then .error ⟨"file.path is required", 400⟩
    else
      match patchOperation (file.property "operation") with
      | none => .error ⟨"file.operation must be modify, create, or delete", 400⟩
      | some operation =>
        .ok { path, operation
              content := string? (file.property "content")
              diff := string? (file.property "diff") }
  | _ => .error ⟨"each file must be an object", 400⟩

def normalizePatchFiles (files : Json) : Except PatchProposalError (List PatchFile) :=
  match array? (some files) with
  | none | some [] => .error ⟨"files must be a non-empty array", 400⟩
  | some files => files.mapM normalizePatchFile

def normalizeOptionalText (value : Option Text) : Option Text :=
  (value.map Text.trim).filter (· ≠ [])

structure ProposePatchInput where
  sessionId : Text
  idempotencyKey : Text
  summary : Option Text
  files : Json

/-- What a call asks for, once its texts are trimmed. -/
def patchRequest (input : ProposePatchInput) : Except PatchProposalError PatchProposal :=
  let sessionId := input.sessionId.trim
  let idempotencyKey := input.idempotencyKey.trim
  if sessionId = [] then .error ⟨"sessionId is required", 400⟩
  else if idempotencyKey = [] then .error ⟨"idempotencyKey is required", 400⟩
  else
    (normalizePatchFiles input.files).map fun files =>
      { sessionId, idempotencyKey, files, summary := normalizeOptionalText input.summary }

/-! ## The gate -/

/-- What the check of one file meets. -/
structure View where
  isPathExposed : Text → Text → Bool
  workspace : Workspace

section

variable (shannonEntropy : Text → Entropy)

/-- The dependencies of `validatePatch`. -/
def gateDeps (view : View) : PatchGateDeps where
  isPathExposed := view.isPathExposed
  scanContent := some fun filePath content =>
    let scan := scanFile shannonEntropy filePath content
    ⟨scan.verdict = .blocked, scan.redactionCount, scan.content.getD []⟩

/-- The validations of `validatePatch`, the file with a number against the view with it. -/
def validations (views : Nat → View) (proposal : PatchProposal) : List FileValidation :=
  proposal.files.mapIdx fun i file =>
    validateFile (gateDeps shannonEntropy (views i)) (views i).workspace proposal.sessionId file

def validateProposal (views : Nat → View) (proposal : PatchProposal) : PatchGateResult :=
  if proposal.files = [] then
    { verdict := .rejected, proposal, checks := []
      rejectionReasons := [text "Empty patch — no files to apply"] }
  else
    let files := validations shannonEntropy views proposal
    let checks := files.map (·.check)
    let warnings := files.flatMap (·.warnings)
    let rejectionReasons := files.flatMap (·.rejectionReasons)
    { verdict := patchGateVerdict checks warnings rejectionReasons
      proposal, checks, warnings, rejectionReasons }

end

/-! ## The row -/

def checkJson (check : PatchCheckResult) : Json :=
  .object ([("file", .string check.file), ("operation", .string check.operation.name),
      ("passed", .boolean check.passed)] ++ optional "reason" check.reason ++
    [("warnings", .array (check.warnings.map .string)), ("secretsRedacted", .number check.secretsRedacted)] ++
    optional "sanitizedContent" check.sanitizedContent)

def gateToCheckResults (gate : PatchGateResult) (manifestId : Option Text) : Json :=
  .object [("verdict", .string gate.verdict.name), ("checks", .array (gate.checks.map checkJson)),
    ("warnings", .array (gate.warnings.map .string)),
    ("rejectionReasons", .array (gate.rejectionReasons.map .string)),
    ("manifestId", manifestId.elim .null .string)]

def filesWithSanitizedContent (files : List PatchFile) (gate : PatchGateResult) : List PatchFile :=
  files.mapIdx fun i file =>
    let check := gate.checks[i]?
    { file with
      path := (check.map (·.file)).getD file.path
      content := (check.bind (·.sanitizedContent)).or file.content }

def fileJson (file : PatchFile) : Json :=
  .object ([("path", .string file.path), ("operation", .string file.operation.name)] ++
    optional "content" file.content ++ optional "diff" file.diff)

def journalEntry (files : List PatchFile) (proposedAt : Text) : Json :=
  .object [("version", .number 1), ("files", .array (files.map fileJson)),
    ("proposedAt", .string proposedAt)]

/-- The row that `proposePatch` inserts for a gate result. -/
def newProposal (proposalId requestHash proposedAt : Text) (manifestId : Option Text)
    (gate : PatchGateResult) : RentalPatchProposalRow where
  id := proposalId
  session_id := gate.proposal.sessionId
  source := text "explicit_patch"
  summary := gate.proposal.summary
  gate_status := gate.verdict.name
  check_results := gateToCheckResults gate manifestId
  journal_entry := journalEntry (filesWithSanitizedContent gate.proposal.files gate) proposedAt
  idempotency_key := gate.proposal.idempotencyKey
  request_hash := requestHash

/-! ## The pull request -/

structure PatchReviewError where
  code : String
  status : Nat

structure RentalPatchPullRequestFile where
  path : Text
  operation : Operation
  content : Option Text := none
  deriving DecidableEq

/-- `normalizePatchPath` of the review. -/
def normalizePatchPath (filePath : Text) : Except PatchReviewError Text :=
  let normalizedInput := slashed filePath
  let segments := patchPathSegments normalizedInput
  if Text.startsWith normalizedInput (text "/") || Text.includes normalizedInput [0] ||
      segments.contains (text "..") || Text.hasDrive normalizedInput then
    .error ⟨"patch_files_invalid", 409⟩
  else .ok (Text.join (u '/') segments)

/-- A check as it is read back. -/
structure StoredCheck where
  file : Text
  operation : Text
  passed : Bool
  reason : Option Text
  warnings : List Text
  secretsRedacted : Nat
  sanitizedContent : Option Text

def storedPatchCheck (check : Json) : Option StoredCheck :=
  if isRecord check then
    some {
      file := (string? (check.property "file")).getD []
      operation := (string? (check.property "operation")).getD []
      passed := match check.property "passed" with
        | some (.boolean passed) => passed
        | _ => false
      reason := string? (check.property "reason")
      warnings := ((array? (check.property "warnings")).getD []).filterMap fun warning =>
        string? (some warning)
      secretsRedacted := match check.property "secretsRedacted" with
        | some (.number count) => count
        | _ => 0
      sanitizedContent := string? (check.property "sanitizedContent") }
  else none

def storedPatchChecks (row : RentalPatchProposalRow) : List StoredCheck :=
  ((array? (row.check_results.property "checks")).getD []).filterMap storedPatchCheck

def explicitPatchFile (file : Json) : Except PatchReviewError PatchFile :=
  let path := ((string? (file.property "path")).getD []).trim
  match isRecord file, patchOperation (file.property "operation") with
  | true, some operation =>
    if path = [] then .error ⟨"patch_files_invalid", 409⟩
    else
      .ok { path, operation
            content := string? (file.property "content")
            diff := string? (file.property "diff") }
  | _, _ => .error ⟨"patch_files_invalid", 409⟩

def explicitPatchFilesFromJournal (row : RentalPatchProposalRow) :
    Except PatchReviewError (List PatchFile) :=
  match array? (row.journal_entry.property "files") with
  | none => .error ⟨"patch_files_missing", 409⟩
  | some files => files.mapM explicitPatchFile

def signedJournalPatchFile (row : RentalPatchProposalRow) : Except PatchReviewError PatchFile :=
  match string? (row.journal_entry.property "path"),
      string? (row.journal_entry.property "afterContent") with
  | some path, some afterContent => .ok { path, operation := .modify, content := some afterContent }
  | _, _ => .error ⟨"patch_files_missing", 409⟩

/-- The map of the sanitized contents by path. -/
def sanitizedByPath (checks : List StoredCheck) : Except PatchReviewError (OrderedMap Text Text) :=
  checks.foldlM (fun sanitized check =>
    match check.sanitizedContent with
    | some content => (normalizePatchPath check.file).map fun path => sanitized.set path content
    | none => .ok sanitized) .empty

def pullRequestFile (sanitized : OrderedMap Text Text) (file : PatchFile) :
    Except PatchReviewError RentalPatchPullRequestFile :=
  match normalizePatchPath file.path with
  | .error error => .error error
  | .ok [] => .error ⟨"patch_files_invalid", 409⟩
  | .ok path =>
    if file.operation = .delete then .ok { path, operation := .delete }
    else
      match (sanitized.get path).or file.content with
      | none => .error ⟨"patch_content_missing", 409⟩
      | some content => .ok { path, operation := file.operation, content := some content }

def extractApprovedPatchFiles (row : RentalPatchProposalRow) :
    Except PatchReviewError (List RentalPatchPullRequestFile) := do
  let files ←
    if row.source = text "signed_change_journal" then (signedJournalPatchFile row).map ([·])
    else explicitPatchFilesFromJournal row
  let checks := storedPatchChecks row
  if checks.any fun check => !check.passed then .error ⟨"patch_checks_not_passed", 409⟩
  else
    let sanitized ← sanitizedByPath checks
    files.mapM (pullRequestFile sanitized)

end LetAgents.Rental.PatchProposals

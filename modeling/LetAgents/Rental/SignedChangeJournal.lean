import LetAgents.Lib.PathSegments
import LetAgents.Lib.UnifiedDiff
import LetAgents.Rental.SecretFirewall
import LetAgents.Workspace.DiffIndex

/-!
# The signed change journal

Source: src/src/api/rental/signed-change-journal.ts. Edits are recorded once for each idempotency
key of a session, and a patch is built from the contents before and after.
-/
namespace LetAgents.Rental.SignedChangeJournal

open Lib.RegExp
open LetAgents.Workspace (jsonString)

/-- The code of an error, with its status. -/
inductive ErrorCode
  | invalid_input (status : Nat)
  | idempotency_conflict

structure SignedChangeJournalError where
  message : String
  code : ErrorCode

def invalidInput (message : String) : SignedChangeJournalError := ⟨message, .invalid_input 400⟩

/-- A content that is no string is none. -/
structure SignedChangeEditInput where
  path : Text
  beforeContent : Option Text
  afterContent : Option Text
  summary : Option Text
  actorAgentKey : Option Text
  toolName : Option Text

structure AppendSignedChangeInput where
  sessionId : Text
  idempotencyKey : Text
  edit : SignedChangeEditInput

structure SignedChangeJournalEntry where
  path : Text
  beforeContent : Text
  afterContent : Text
  beforeHash : Text
  afterHash : Text
  summary : Option Text
  actorAgentKey : Option Text
  toolName : Text
  createdAt : Text

structure RentalPatchProposalRow where
  id : Text
  session_id : Text
  source : Text
  diff_ref : Text
  summary : Option Text
  journal_entry : Option SignedChangeJournalEntry
  idempotency_key : Text
  request_hash : Text
  response_hash : Text

structure AppendSignedChangeResult where
  proposal : RentalPatchProposalRow
  entry : SignedChangeJournalEntry
  patch : Text
  idempotent : Bool

/-! ## Inputs -/

def normalizeRepoPath (path : Text) : Except SignedChangeJournalError Text :=
  let trimmed := path.trim.replaceUnit (u '\\') (u '/')
  if trimmed = [] then .error (invalidInput "edit path is required")
  else if Text.startsWith trimmed (text "/") || Text.hasDrive trimmed ||
      (Text.split (u '/') trimmed).contains (text "..") then
    .error (invalidInput "edit path must be repo-relative")
  else .ok trimmed

def normalizeString (value : Option Text) (label : String) : Except SignedChangeJournalError Text :=
  match value with
  | some value => .ok value
  | none => .error (invalidInput (label ++ " must be a string"))

def normalizeOptionalText (value : Option Text) : Option Text :=
  (value.map Text.trim).filter (· ≠ [])

/-! ## Diffs -/

/-- `t.split(/\r?\n/)` -/
def splitAtNewlines : Text → List Text
  | [] => [[]]
  | c :: rest =>
    if c = 0x0A then [] :: splitAtNewlines rest
    else if c = 0x0D ∧ rest.head? = some 0x0A then splitAtNewlines rest
    else
      match splitAtNewlines rest with
      | [] => [[c]]
      | first :: more => (c :: first) :: more

def splitLinesForWholeFileDiff (content : Text) : List Text :=
  if content = [] then []
  else
    let withoutFinalNewline :=
      if Text.endsWith content (text "\n") then content.dropLast else content
    if withoutFinalNewline = [] then [] else splitAtNewlines withoutFinalNewline

def hunkRange (lineCount : Nat) : Text :=
  if lineCount = 0 then text "0,0" else text "1," ++ SecretFirewall.decimalText lineCount

def buildUnifiedDiff (entry : SignedChangeJournalEntry) : Text :=
  let beforeLines := splitLinesForWholeFileDiff entry.beforeContent
  let afterLines := splitLinesForWholeFileDiff entry.afterContent
  let lines :=
    [text "diff --git a/" ++ entry.path ++ text " b/" ++ entry.path,
      text "--- a/" ++ entry.path,
      text "+++ b/" ++ entry.path,
      text "@@ -" ++ hunkRange beforeLines.length ++ text " +" ++ hunkRange afterLines.length ++
        text " @@"] ++
      beforeLines.map (text "-" ++ ·) ++ afterLines.map (text "+" ++ ·)
  Text.join (u '\n') lines ++ text "\n"

/-! ## Rows -/

/-- `stableJson` of a record of texts, its keys in order. -/
def stableJson (fields : List (String × Option Text)) : Text :=
  text "\x7b" ++ Text.join (u ',') (fields.map fun field =>
    jsonString (text field.1) ++ text ":" ++ field.2.elim (text "null") jsonString) ++ text "\x7d"

def parseJournalEntry (row : RentalPatchProposalRow) :
    Except SignedChangeJournalError SignedChangeJournalEntry :=
  match row.journal_entry with
  | some entry => .ok entry
  | none => .error ⟨"journal_entry is missing", .invalid_input 500⟩

def loadByIdempotency (rows : List RentalPatchProposalRow) (sessionId idempotencyKey : Text) :
    Option RentalPatchProposalRow :=
  rows.find? fun row => row.session_id = sessionId && row.idempotency_key = idempotencyKey

def assertSameRequest (existing : RentalPatchProposalRow) (requestHash : Text) :
    Except SignedChangeJournalError Unit :=
  if existing.request_hash ≠ requestHash then
    .error ⟨"idempotency key already used with a different edit request", .idempotency_conflict⟩
  else .ok ()

/-- The answer for a key that is already used. -/
def replay (existing : RentalPatchProposalRow) (requestHash : Text) :
    Except SignedChangeJournalError AppendSignedChangeResult := do
  assertSameRequest existing requestHash
  let entry ← parseJournalEntry existing
  .ok ⟨existing, entry, buildUnifiedDiff entry, true⟩

section
variable (sha256 : Text → Text)

def contentHash (content : Text) : Text := text "sha256:" ++ sha256 content

/-- What an accepted input records. -/
def newEntry (path beforeContent afterContent : Text) (edit : SignedChangeEditInput) (now : Text) :
    SignedChangeJournalEntry where
  path := path
  beforeContent := beforeContent
  afterContent := afterContent
  beforeHash := contentHash sha256 beforeContent
  afterHash := contentHash sha256 afterContent
  summary := normalizeOptionalText edit.summary
  actorAgentKey := normalizeOptionalText edit.actorAgentKey
  toolName := (normalizeOptionalText edit.toolName).getD (text "rental_propose_edit")
  createdAt := now

def requestHashFor (sessionId : Text) (entry : SignedChangeJournalEntry) : Text :=
  sha256 <| stableJson
    [("actorAgentKey", entry.actorAgentKey), ("afterContent", some entry.afterContent),
      ("beforeContent", some entry.beforeContent), ("path", some entry.path),
      ("sessionId", some sessionId), ("summary", entry.summary), ("toolName", some entry.toolName)]

def newProposal (proposalId sessionId idempotencyKey : Text) (entry : SignedChangeJournalEntry) :
    RentalPatchProposalRow :=
  let diffRef := text "sha256:" ++ sha256 (buildUnifiedDiff entry)
  { id := proposalId
    session_id := sessionId
    source := text "signed_change_journal"
    diff_ref := diffRef
    summary := entry.summary
    journal_entry := some entry
    idempotency_key := idempotencyKey
    request_hash := requestHashFor sha256 sessionId entry
    response_hash := sha256 <| stableJson
      [("diffRef", some diffRef), ("path", some entry.path), ("proposalId", some proposalId),
        ("sessionId", some sessionId), ("source", some (text "signed_change_journal"))] }

/-- `appendSignedChange` with the rows that it loads at first and those that its insert meets: a
row with the key that came in between wins. -/
def appendSignedChange (loaded stored : List RentalPatchProposalRow) (now proposalId : Text)
    (input : AppendSignedChangeInput) :
    Except SignedChangeJournalError (AppendSignedChangeResult × List RentalPatchProposalRow) := do
  let sessionId := input.sessionId.trim
  let idempotencyKey := input.idempotencyKey.trim
  if sessionId = [] then .error (invalidInput "sessionId is required")
  else if idempotencyKey = [] then .error (invalidInput "idempotencyKey is required")
  else
    let path ← normalizeRepoPath input.edit.path
    let beforeContent ← normalizeString input.edit.beforeContent "beforeContent"
    let afterContent ← normalizeString input.edit.afterContent "afterContent"
    if beforeContent = afterContent then .error (invalidInput "edit does not change content")
    else
      let entry := newEntry sha256 path beforeContent afterContent input.edit now
      let requestHash := requestHashFor sha256 sessionId entry
      match loadByIdempotency loaded sessionId idempotencyKey with
      | some existing => (replay existing requestHash).map fun result => (result, stored)
      | none =>
        match loadByIdempotency stored sessionId idempotencyKey with
        | some winner => (replay winner requestHash).map fun result => (result, stored)
        | none =>
          let proposal := newProposal sha256 proposalId sessionId idempotencyKey entry
          .ok (⟨proposal, entry, buildUnifiedDiff entry, false⟩, stored ++ [proposal])

end

/-- The entries of the rows that the journal wrote. -/
def journalEntries (rows : List RentalPatchProposalRow) :
    Except SignedChangeJournalError (List SignedChangeJournalEntry) :=
  (rows.filter (·.source = text "signed_change_journal")).mapM parseJournalEntry

def reconstructPatchFromRows (rows : List RentalPatchProposalRow) :
    Except SignedChangeJournalError Text :=
  (journalEntries rows).map fun entries => Text.join (u '\n') (entries.map buildUnifiedDiff)

end LetAgents.Rental.SignedChangeJournal

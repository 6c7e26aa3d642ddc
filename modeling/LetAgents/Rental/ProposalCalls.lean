import LetAgents.Lib.Machine
import LetAgents.Rental.PullRequestFiles
import LetAgents.Rental.RequestHash

/-!
# Calls of `proposePatch`

Source: src/src/api/rental/patch-proposal.ts:109-242, 286-347.

Calls run at once on one table; between two accesses to it anything may happen, and the checks of
a call meet the exposures and the workspace as they are by then. The index on the session and the
key lets one row in.

Modelling boundary: what a call returns of the gate is what JSON keeps of it.
-/
namespace LetAgents.Rental.PatchProposals

open Lib Lib.RegExp PatchGate
open SecretFirewall (Entropy scanFile)

/-! ## A call -/

structure PatchProposalManifest where
  id : Text
  workspace_path : Option Text
  retention_status : Text

/-- The file system says nothing of a path that is not there, or whether it is a directory. -/
def resolveWorkspaceRoot (isDirectory : Text → Option Bool) (manifest : Option PatchProposalManifest) :
    Except PatchProposalError PatchProposalManifest :=
  match manifest with
  | none => .error ⟨"workspace_not_ready", 409⟩
  | some manifest =>
    if manifest.retention_status ≠ text "active" then .error ⟨"workspace_not_ready", 409⟩
    else
      match manifest.workspace_path with
      | none | some [] => .error ⟨"workspace_path_missing", 409⟩
      | some path =>
        match isDirectory path with
        | some true => .ok manifest
        | some false => .error ⟨"workspace_path_not_directory", 409⟩
        | none => .error ⟨"workspace_path_missing", 409⟩

/-- A gate result as a caller sees it. -/
structure ShownGate where
  verdict : Text
  files : List PatchFile
  checks : List Json
  warnings : List Json
  rejectionReasons : List Json

structure PersistedPatchProposal where
  proposal : RentalPatchProposalRow
  gate : ShownGate
  idempotent : Bool

def shownGate (gate : PatchGateResult) : ShownGate where
  verdict := gate.verdict.name
  files := gate.proposal.files
  checks := gate.checks.map checkJson
  warnings := gate.warnings.map .string
  rejectionReasons := gate.rejectionReasons.map .string

def filesFromStoredProposal (row : RentalPatchProposalRow) : Option (List PatchFile) :=
  (array? (row.journal_entry.property "files")).map fun files =>
    (files.filter isRecord).map fun file =>
      { path := (string? (file.property "path")).getD []
        operation := (patchOperation (file.property "operation")).getD .modify
        content := string? (file.property "content")
        diff := string? (file.property "diff") }

def gateFromStoredProposal (row : RentalPatchProposalRow) (files : List PatchFile) : ShownGate where
  verdict := row.gate_status
  files := files
  checks := (array? (row.check_results.property "checks")).getD []
  warnings := (array? (row.check_results.property "warnings")).getD []
  rejectionReasons := (array? (row.check_results.property "rejectionReasons")).getD []

/-- The answer from a row that stands in the table. -/
def stands (row : RentalPatchProposalRow) (request : PatchProposal) : PersistedPatchProposal where
  proposal := row
  gate := gateFromStoredProposal row ((filesFromStoredProposal row).getD request.files)
  idempotent := true

/-! ## Calls -/

inductive CallError where
  | proposal (error : PatchProposalError)
  /-- An error that is thrown on. -/
  | dependency

/-- Where a call is: before it looks for the key, before the gate, before its insert, behind an
insert that met another row, or at its end. -/
inductive Stage where
  | requested (request : PatchProposal)
  | missing (request : PatchProposal)
  | gated (request : PatchProposal) (row : RentalPatchProposalRow) (gate : PatchGateResult)
  | lost (request : PatchProposal)
  | returned (request : PatchProposal) (result : PersistedPatchProposal)
  | failed (error : CallError)

structure State where
  rows : List RentalPatchProposalRow
  calls : List Stage

def State.set (s : State) (k : Nat) (stage : Stage) : State := { s with calls := s.calls.set k stage }

/-- A call comes in, or one of the calls goes on. -/
inductive Input where
  | call (input : ProposePatchInput)
  | load (k : Nat)
  | validate (k : Nat) (manifest : Option PatchProposalManifest) (isDirectory : Text → Option Bool)
      (views : Nat → View) (proposalId proposedAt : Text)
  | insert (k : Nat)
  | reload (k : Nat)
  /-- A dependency of the call throws. -/
  | fails (k : Nat)

def loadByIdempotency (rows : List RentalPatchProposalRow) (request : PatchProposal) :
    Option RentalPatchProposalRow :=
  rows.find? fun row => row.session_id = request.sessionId ∧ row.idempotency_key = request.idempotencyKey

section

variable (sha256 : Text → Text) (shannonEntropy : Text → Entropy)

/-- What the row that is found first makes of a call. -/
def found (request : PatchProposal) (row : RentalPatchProposalRow) : Stage :=
  if row.request_hash ≠ requestHash sha256 request then
    .failed (.proposal ⟨"idempotency key already used with a different patch request", 409⟩)
  else .returned request (stands row request)

/-- What the winner makes of a call that lost. -/
def won (request : PatchProposal) : Option RentalPatchProposalRow → Stage
  | some winner =>
    if winner.request_hash ≠ requestHash sha256 request then .failed .dependency
    else .returned request (stands winner request)
  | none => .failed .dependency

def validated (request : PatchProposal) (manifest : Option PatchProposalManifest)
    (isDirectory : Text → Option Bool) (views : Nat → View) (proposalId proposedAt : Text) : Stage :=
  match resolveWorkspaceRoot isDirectory manifest with
  | .error error => .failed (.proposal error)
  | .ok manifest =>
    let gate := validateProposal shannonEntropy views request
    .gated request (newProposal proposalId (requestHash sha256 request) proposedAt (some manifest.id) gate) gate

def requested (input : ProposePatchInput) : Stage :=
  match patchRequest input with
  | .error error => .failed (.proposal error)
  | .ok request => .requested request

def step (s : State) : Input → State
  | .call input => { s with calls := s.calls ++ [requested input] }
  | .load k =>
    match s.calls[k]? with
    | some (.requested request) =>
      s.set k ((loadByIdempotency s.rows request).elim (.missing request) (found sha256 request))
    | _ => s
  | .validate k manifest isDirectory views proposalId proposedAt =>
    match s.calls[k]? with
    | some (.missing request) =>
      s.set k (validated sha256 shannonEntropy request manifest isDirectory views proposalId proposedAt)
    | _ => s
  | .insert k =>
    match s.calls[k]? with
    | some (.gated request row gate) =>
      if (loadByIdempotency s.rows request).isSome then s.set k (.lost request)
      else { s with rows := s.rows ++ [row] }.set k (.returned request ⟨row, shownGate gate, false⟩)
    | _ => s
  | .reload k =>
    match s.calls[k]? with
    | some (.lost request) => s.set k (won sha256 request (loadByIdempotency s.rows request))
    | _ => s
  | .fails k =>
    match s.calls[k]? with
    | some (.returned _ _) | none => s
    | _ => s.set k (.failed .dependency)

def initial : State := ⟨[], []⟩

/-! ## The property -/

/-- The row is one that a call with this request inserts. -/
def Stores (request : PatchProposal) (row : RentalPatchProposalRow) : Prop :=
  ∃ views proposalId proposedAt manifestId, row = newProposal proposalId (requestHash sha256 request) proposedAt
    manifestId (validateProposal shannonEntropy views request)

/-- A stored text is what the firewall makes of a text of the request at the stored path. -/
def Scanned (path : Text) (given stored : Option Text) : Prop :=
  ∀ t, stored = some t → ∃ t', given = some t' ∧ (scanFile shannonEntropy path t').content = some t

/-- The files that stand in the row of a request. -/
def Clean (request : PatchProposal) (row : RentalPatchProposalRow) : Prop :=
  ∃ stored, filesFromStoredProposal row = some stored ∧ stored.length = request.files.length ∧
    ∀ (i : Nat) file file', request.files[i]? = some file → stored[i]? = some file' →
      Scanned shannonEntropy file'.path file.content file'.content ∧
      Scanned shannonEntropy file'.path file.diff file'.diff

/-- The check with a number in a row is the one of the file with that number. -/
def Positioned (request : PatchProposal) (row : RentalPatchProposalRow) : Prop :=
  ∃ views, array? (row.check_results.property "checks") =
    some ((validations shannonEntropy views request).map fun validation => checkJson validation.check)

structure Law (s : State) : Prop where
  unique : s.rows.Pairwise fun a b => ¬(a.session_id = b.session_id ∧ a.idempotency_key = b.idempotency_key)
  inserted : ∀ row ∈ s.rows, ∃ request gate, Stage.returned request ⟨row, gate, false⟩ ∈ s.calls
  returned : ∀ request result, Stage.returned request result ∈ s.calls → result.proposal ∈ s.rows ∧
    Stores sha256 shannonEntropy request result.proposal ∧ Positioned shannonEntropy request result.proposal ∧
    Clean shannonEntropy request result.proposal
  same : ∀ request result request' result', Stage.returned request result ∈ s.calls →
    Stage.returned request' result' ∈ s.calls → request.sessionId = request'.sessionId →
    request.idempotencyKey = request'.idempotencyKey →
    request = request' ∧ result.proposal = result'.proposal ∧ result.gate = result'.gate

/-- The gate spells the path of each file as the request does, and the firewall leaves its texts. -/
def Plain (request : PatchProposal) : Prop :=
  ∀ file ∈ request.files, (∀ path, PathPolicy.normalizePatchPath file.path = .ok path → path = file.path) ∧
    ∀ t, file.content = some t ∨ file.diff = some t → (scanFile shannonEntropy file.path t).content = some t

end

/-! ## Rows -/

section

variable {sha256 : Text → Text} {shannonEntropy : Text → Entropy} {request : PatchProposal}
  {row : RentalPatchProposalRow}

theorem filesFromStoredProposal_newProposal (gate : PatchGateResult)
    (proposalId hash proposedAt : Text) (manifestId : Option Text) :
    filesFromStoredProposal (newProposal proposalId hash proposedAt manifestId gate) =
      some (filesWithSanitizedContent gate.proposal.files gate) := by
  have here : (newProposal proposalId hash proposedAt manifestId gate).journal_entry.property "files" =
      some (.array ((filesWithSanitizedContent gate.proposal.files gate).map fileJson)) := rfl
  have records : ((filesWithSanitizedContent gate.proposal.files gate).map fileJson).filter isRecord =
      (filesWithSanitizedContent gate.proposal.files gate).map fileJson := by
    rw [List.filter_eq_self]
    intro json member
    obtain ⟨file, -, rfl⟩ := List.mem_map.mp member
    rfl
  rw [filesFromStoredProposal, here, array?, Option.map_some, records, List.map_map]
  congr 1
  conv_rhs => rw [← List.map_id (filesWithSanitizedContent gate.proposal.files gate)]
  apply List.map_congr_left
  intro file _
  obtain ⟨path, operation, content, diff⟩ := file
  have named := patchOperation_name operation
  cases content <;> cases diff <;>
    simp [fileJson, Json.property, optional, string?, List.lookup_cons, named]

theorem validateProposal_checks (views : Nat → View) (request : PatchProposal) :
    (validateProposal shannonEntropy views request).checks =
      (validations shannonEntropy views request).map (·.check) := by
  unfold validateProposal
  split
  · next none => rw [validations, none]; rfl
  · rfl

theorem Stores.positioned (stores : Stores sha256 shannonEntropy request row) :
    Positioned shannonEntropy request row := by
  obtain ⟨views, proposalId, proposedAt, manifestId, rfl⟩ := stores
  apply Exists.intro views
  change some ((validateProposal shannonEntropy views request).checks.map checkJson) = _
  rw [validateProposal_checks, List.map_map]
  rfl

theorem Stores.key (stores : Stores sha256 shannonEntropy request row) :
    row.session_id = request.sessionId ∧ row.idempotency_key = request.idempotencyKey ∧
      row.request_hash = requestHash sha256 request := by
  obtain ⟨views, proposalId, proposedAt, manifestId, rfl⟩ := stores
  unfold newProposal
  rw [validateProposal_proposal]
  exact ⟨rfl, rfl, rfl⟩

/-- The text that a check keeps is what the firewall makes of the content. -/
theorem sanitizeContent_scanned {view : View} {normalizedPath : Text} {file : PatchFile}
    {check check' : PatchCheckResult} {more : List Text} (fresh : check.sanitizedContent = none)
    (clean : sanitizeContent (gateDeps shannonEntropy view) normalizedPath file check = .ok (check', more)) :
    check'.file = check.file ∧
      Scanned shannonEntropy normalizedPath file.content check'.sanitizedContent := by
  unfold sanitizeContent gateDeps at clean
  dsimp only at clean
  split at clean
  · cases clean
    refine ⟨rfl, ?_⟩
    rw [fresh]
    exact nofun
  split at clean
  · cases clean
  split at clean
  · cases clean
  rename_i nonempty
  obtain ⟨content, given, -⟩ : ∃ content, file.content = some content ∧ content ≠ [] := by
    apply filled_of_truthy
    simpa using nonempty
  rw [given] at clean ⊢
  split at clean
  · cases clean
  rename_i unblocked
  have unblocked : (scanFile shannonEntropy normalizedPath content).verdict ≠ .blocked := by
    simpa using unblocked
  obtain ⟨scanned, counted⟩ := scanFile_unblocked shannonEntropy rfl unblocked
  split at clean
  · cases clean
    refine ⟨rfl, fun t same => ⟨content, rfl, ?_⟩⟩
    rw [← same, Option.getD_some, scanned, Option.getD_some]
  · rename_i none
    cases clean
    refine ⟨rfl, fun t same => ⟨content, rfl, ?_⟩⟩
    rw [← same, Option.getD_some, scanned, SecretFirewall.scanText_unredacted]
    rw [← counted]
    exact Nat.eq_zero_of_not_pos none

theorem validateFile_scanned {view : View} {workspace : Workspace} {sessionId : Text} (file : PatchFile) :
    ((validateFile (gateDeps shannonEntropy view) workspace sessionId file).check.file = file.path ∨
      PathPolicy.normalizePatchPath file.path =
        .ok (validateFile (gateDeps shannonEntropy view) workspace sessionId file).check.file) ∧
    Scanned shannonEntropy (validateFile (gateDeps shannonEntropy view) workspace sessionId file).check.file
      file.content (validateFile (gateDeps shannonEntropy view) workspace sessionId file).check.sanitizedContent := by
  unfold validateFile
  cases normal : PathPolicy.normalizePatchPath file.path with
  | error reason => exact ⟨.inl rfl, nofun⟩
  | ok normalizedPath =>
    unfold validateFileAt
    dsimp only
    split
    · exact ⟨.inr rfl, nofun⟩
    split
    · exact ⟨.inr rfl, nofun⟩
    rename_i check more clean
    obtain ⟨path, scanned⟩ := sanitizeContent_scanned rfl clean
    have file' : check.file = normalizedPath := path
    rw [← file'] at scanned ⊢
    split
    · exact ⟨.inr rfl, scanned⟩
    split
    · exact ⟨.inr rfl, scanned⟩
    · exact ⟨.inr rfl, scanned⟩

/-- The files of a plain request are stored as they are. -/
theorem stored_plain (plain : Plain shannonEntropy request) (views : Nat → View) :
    filesWithSanitizedContent request.files (validateProposal shannonEntropy views request) =
      request.files := by
  apply List.ext_getElem?
  intro i
  rw [filesWithSanitizedContent, List.getElem?_mapIdx, validateProposal_checks, List.getElem?_map,
    validations, List.getElem?_mapIdx]
  cases here : request.files[i]? with
  | none => rfl
  | some file =>
    obtain ⟨spelled, texts⟩ := plain file (List.mem_of_getElem? here)
    obtain ⟨path, scanned⟩ := @validateFile_scanned shannonEntropy (views i) (views i).workspace
      request.sessionId file
    simp only [Option.map_some, Option.bind_some, Option.getD_some]
    generalize (validateFile (gateDeps shannonEntropy (views i)) (views i).workspace request.sessionId
      file).check = check at path scanned ⊢
    have same : check.file = file.path := path.elim id (spelled _)
    have content : check.sanitizedContent.or file.content = file.content := by
      cases sanitized : check.sanitizedContent with
      | none => rfl
      | some t =>
        obtain ⟨t', given, result⟩ := scanned t sanitized
        rw [same, texts t' (.inl given)] at result
        rw [Option.some_or, given, result]
    rw [same, content]

theorem Stores.files (stores : Stores sha256 shannonEntropy request row)
    (plain : Plain shannonEntropy request) : filesFromStoredProposal row = some request.files := by
  obtain ⟨views, proposalId, proposedAt, manifestId, rfl⟩ := stores
  rw [filesFromStoredProposal_newProposal, validateProposal_proposal, stored_plain plain]

theorem Stores.clean (stores : Stores sha256 shannonEntropy request row)
    (plain : Plain shannonEntropy request) : Clean shannonEntropy request row := by
  refine ⟨request.files, stores.files plain, rfl, ?_⟩
  intro i file file' first second
  obtain rfl := Option.some.inj (first.symm.trans second)
  have texts := (plain file (List.mem_of_getElem? first)).2
  exact ⟨fun t given => ⟨t, given, texts t (.inl given)⟩, fun t given => ⟨t, given, texts t (.inr given)⟩⟩

/-! ## Runs -/

/-- The requests of a run: plain, and told apart by their hashes. -/
structure Fit (sha256 : Text → Text) (shannonEntropy : Text → Entropy) (asked : PatchProposal → Prop) : Prop where
  plain : ∀ request, asked request → Plain shannonEntropy request
  distinct : ∀ request request', asked request → asked request' →
    requestHash sha256 request = requestHash sha256 request' → request = request'

/-- What holds of a call whose request was asked. -/
def Stage.Sound (sha256 : Text → Text) (shannonEntropy : Text → Entropy) (asked : PatchProposal → Prop)
    (rows : List RentalPatchProposalRow) : Stage → Prop
  | .requested request | .missing request | .lost request => asked request
  | .gated request row gate => asked request ∧ Stores sha256 shannonEntropy request row ∧
      shownGate gate = gateFromStoredProposal row request.files
  | .returned request result => asked request ∧ result.proposal ∈ rows ∧
      Stores sha256 shannonEntropy request result.proposal ∧
      result.gate = gateFromStoredProposal result.proposal request.files
  | .failed _ => True

structure Sound (sha256 : Text → Text) (shannonEntropy : Text → Entropy) (asked : PatchProposal → Prop)
    (s : State) : Prop where
  unique : s.rows.Pairwise fun a b => ¬(a.session_id = b.session_id ∧ a.idempotency_key = b.idempotency_key)
  inserted : ∀ row ∈ s.rows, ∃ request gate, Stage.returned request ⟨row, gate, false⟩ ∈ s.calls
  calls : ∀ stage ∈ s.calls, stage.Sound sha256 shannonEntropy asked s.rows

def Stage.isReturned : Stage → Bool
  | .returned _ _ => true
  | _ => false

theorem returned_stays {calls : List Stage} {k : Nat} {before : Stage} {result : PersistedPatchProposal}
    (here : calls[k]? = some before) (unreturned : before.isReturned = false)
    (returned : Stage.returned request result ∈ calls) (after : Stage) :
    Stage.returned request result ∈ calls.set k after := by
  obtain ⟨j, place⟩ := List.getElem?_of_mem returned
  apply List.mem_of_getElem? (i := j)
  rw [List.getElem?_set_ne]
  · exact place
  · rintro rfl
    rw [here] at place
    rw [Option.some.inj place] at unreturned
    cases unreturned

theorem loadByIdempotency_some {rows : List RentalPatchProposalRow}
    (present : loadByIdempotency rows request = some row) : row ∈ rows :=
  List.mem_of_find?_eq_some present

variable {asked : PatchProposal → Prop}

theorem Stage.Sound.grows {stage : Stage} {rows : List RentalPatchProposalRow}
    (sound : stage.Sound sha256 shannonEntropy asked rows) (more : List RentalPatchProposalRow) :
    stage.Sound sha256 shannonEntropy asked (rows ++ more) := by
  cases stage with
  | returned request result =>
    obtain ⟨own, member, rest⟩ := sound
    exact ⟨own, List.mem_append_left _ member, rest⟩
  | _ => exact sound

theorem validated_sound (own : asked request) (manifest : Option PatchProposalManifest)
    (isDirectory : Text → Option Bool) (views : Nat → View) (proposalId proposedAt : Text)
    (rows : List RentalPatchProposalRow) :
    (validated sha256 shannonEntropy request manifest isDirectory views proposalId proposedAt).Sound
      sha256 shannonEntropy asked rows := by
  unfold validated
  cases resolveWorkspaceRoot isDirectory manifest with
  | error error => trivial
  | ok manifest =>
    refine ⟨own, ⟨views, proposalId, proposedAt, some manifest.id, rfl⟩, ?_⟩
    rw [shownGate, validateProposal_proposal]
    rfl

section

variable {s : State} (sound : Sound sha256 shannonEntropy asked s)
include sound

/-- A call that has not returned goes on. -/
theorem Sound.set {k : Nat} {before after : Stage}
    (here : s.calls[k]? = some before) (unreturned : before.isReturned = false)
    (next : after.Sound sha256 shannonEntropy asked s.rows) :
    Sound sha256 shannonEntropy asked (s.set k after) := by
  constructor
  · exact sound.unique
  · intro row member
    obtain ⟨request, gate, returned⟩ := sound.inserted row member
    exact ⟨request, gate, returned_stays here unreturned returned after⟩
  · intro stage member
    rcases List.mem_or_eq_of_mem_set member with old | rfl
    · exact sound.calls stage old
    · exact next

theorem Sound.call {given : ProposePatchInput}
    (own : ∀ request, patchRequest given = .ok request → asked request) :
    Sound sha256 shannonEntropy asked { s with calls := s.calls ++ [requested given] } := by
  refine ⟨sound.unique, ?_, ?_⟩
  · intro row member
    obtain ⟨request, gate, returned⟩ := sound.inserted row member
    exact ⟨request, gate, List.mem_append_left _ returned⟩
  · intro stage member
    rcases List.mem_append.mp member with old | new
    · exact sound.calls stage old
    · rw [List.mem_singleton.mp new, requested]
      cases outcome : patchRequest given with
      | error error => trivial
      | ok request => exact own request outcome

/-- A row is inserted for a key that has none. -/
theorem Sound.insert {k : Nat} {gate : PatchGateResult}
    (here : s.calls[k]? = some (.gated request row gate)) (free : loadByIdempotency s.rows request = none) :
    Sound sha256 shannonEntropy asked
      ({ s with rows := s.rows ++ [row] }.set k (.returned request ⟨row, shownGate gate, false⟩)) := by
  obtain ⟨own, stores, shown⟩ := sound.calls _ (List.mem_of_getElem? here)
  have key := stores.key
  have place : k < s.calls.length := (List.getElem?_eq_some_iff.mp here).1
  constructor
  · refine List.pairwise_append.mpr ⟨sound.unique, List.pairwise_singleton _ _, ?_⟩
    intro old member new single both
    rw [List.mem_singleton.mp single, key.1, key.2.1] at both
    exact absurd (decide_eq_true both) (by simpa using List.find?_eq_none.mp free old member)
  · intro other member
    rcases List.mem_append.mp member with old | new
    · obtain ⟨request', gate', returned⟩ := sound.inserted other old
      exact ⟨request', gate', returned_stays here rfl returned _⟩
    · rw [List.mem_singleton.mp new]
      exact ⟨request, shownGate gate, List.mem_set place _⟩
  · intro stage member
    rcases List.mem_or_eq_of_mem_set member with old | rfl
    · exact (sound.calls stage old).grows _
    · exact ⟨own, List.mem_append_right _ (List.mem_singleton_self _), stores, shown⟩

variable (fits : Fit sha256 shannonEntropy asked)
include fits

/-- What is answered from a row of the table, which has the hash of the request, is sound. -/
theorem Sound.stands (own : asked request) (member : row ∈ s.rows)
    (same : ¬row.request_hash ≠ requestHash sha256 request) :
    (Stage.returned request (stands row request)).Sound sha256 shannonEntropy asked s.rows := by
  obtain ⟨request', gate, returned⟩ := sound.inserted row member
  obtain ⟨other, -, stores, -⟩ := sound.calls _ returned
  have equal : request' = request :=
    fits.distinct request' request other own (stores.key.2.2.symm.trans (not_not.mp same))
  rw [equal] at stores
  refine ⟨own, member, stores, ?_⟩
  rw [PatchProposals.stands, stores.files (fits.plain request own), Option.getD_some]

theorem Sound.found (own : asked request) (member : row ∈ s.rows) :
    (found sha256 request row).Sound sha256 shannonEntropy asked s.rows := by
  unfold PatchProposals.found
  split
  · trivial
  · next same => exact sound.stands fits own member same

theorem Sound.won (own : asked request) :
    (won sha256 request (loadByIdempotency s.rows request)).Sound sha256 shannonEntropy asked s.rows := by
  cases loaded : loadByIdempotency s.rows request with
  | none => trivial
  | some winner =>
    unfold PatchProposals.won
    dsimp only
    split
    · trivial
    · next same => exact sound.stands fits own (loadByIdempotency_some loaded) same

theorem Sound.step (input : Input)
    (own : ∀ given, input = .call given → ∀ request, patchRequest given = .ok request → asked request) :
    Sound sha256 shannonEntropy asked (step sha256 shannonEntropy s input) := by
  have stage : ∀ {k : Nat} {stage : Stage}, s.calls[k]? = some stage →
      stage.Sound sha256 shannonEntropy asked s.rows := fun here => sound.calls _ (List.mem_of_getElem? here)
  cases input with
  | call given => exact sound.call (own given rfl)
  | load k =>
    rw [PatchProposals.step]
    split
    · next request here =>
      have request_asked : asked request := stage here
      apply sound.set here rfl
      cases loaded : loadByIdempotency s.rows request with
      | none => exact request_asked
      | some row => exact sound.found fits request_asked (loadByIdempotency_some loaded)
    · exact sound
  | validate k manifest isDirectory views proposalId proposedAt =>
    rw [PatchProposals.step]
    split
    · next request here =>
      exact sound.set here rfl (validated_sound (stage here) manifest isDirectory views proposalId proposedAt _)
    · exact sound
  | insert k =>
    rw [PatchProposals.step]
    split
    · next request row gate here =>
      split
      · exact sound.set here rfl (stage here).1
      · next free => exact sound.insert here (by simpa using free)
    · exact sound
  | reload k =>
    rw [PatchProposals.step]
    split
    · next request here => exact sound.set here rfl (sound.won fits (stage here))
    · exact sound
  | fails k =>
    rw [PatchProposals.step]
    cases here : s.calls[k]? with
    | none => exact sound
    | some before =>
      cases before with
      | returned request result => exact sound
      | _ => exact sound.set here rfl trivial

theorem Sound.law : Law sha256 shannonEntropy s := by
  constructor
  · exact sound.unique
  · exact sound.inserted
  · intro request result member
    obtain ⟨own, inside, stores, -⟩ := sound.calls _ member
    exact ⟨inside, stores, stores.positioned, stores.clean (fits.plain request own)⟩
  · intro request result request' result' first second session key
    obtain ⟨own, inside, stores, shown⟩ := sound.calls _ first
    obtain ⟨own', inside', stores', shown'⟩ := sound.calls _ second
    have proposal : result.proposal = result'.proposal := by
      by_contra other
      have symmetric : Std.Symm fun a b : RentalPatchProposalRow =>
          ¬(a.session_id = b.session_id ∧ a.idempotency_key = b.idempotency_key) :=
        ⟨fun _ _ unlike both => unlike ⟨both.1.symm, both.2.symm⟩⟩
      refine sound.unique.forall inside inside' other ⟨?_, ?_⟩
      · rw [stores.key.1, stores'.key.1, session]
      · rw [stores.key.2.1, stores'.key.2.1, key]
    have equal : request = request' :=
      fits.distinct request request' own own'
        (stores.key.2.2.symm.trans ((congrArg _ proposal).trans stores'.key.2.2))
    refine ⟨equal, proposal, ?_⟩
    rw [shown, shown', proposal, equal]

end

end

/-- The request of some call of a run. -/
def Asked (inputs : Nat → Input) (request : PatchProposal) : Prop :=
  ∃ n given, inputs n = .call given ∧ patchRequest given = .ok request

/-- One call from its begin to its insert. -/
def oneCall (given : ProposePatchInput) : Nat → Input
  | 0 => .call given
  | 1 => .load 0
  | 2 => .validate 0 (some ⟨text "m1", some [u 'w'], text "active"⟩) (fun _ => some true) exposed (text "p1") []
  | _ => .insert 0

theorem asked_oneCall {given : ProposePatchInput} {request : PatchProposal} (asked : Asked (oneCall given) request) :
    patchRequest given = .ok request := by
  obtain ⟨n, given', here, outcome⟩ := asked
  rcases n with _ | _ | _ | n
  · cases here
    exact outcome
  · cases here
  · cases here
  · cases here

/-- A request to write an environment file. -/
def environmentFile : ProposePatchInput where
  sessionId := text "s1"
  idempotencyKey := text "k1"
  summary := none
  files := .array [.object [("path", .string (text ".env")), ("operation", .string (text "create")),
    ("content", .string (text "A=1"))]]

def environmentProposal : PatchProposal where
  sessionId := text "s1"
  idempotencyKey := text "k1"
  files := [{ path := text ".env", operation := .create, content := some (text "A=1") }]

theorem oneCall_returns {sha256 : Text → Text} {shannonEntropy : Text → Entropy} {given : ProposePatchInput}
    {request : PatchProposal} (outcome : patchRequest given = .ok request) :
    ∃ gate, Stage.returned request ⟨newProposal (text "p1") (requestHash sha256 request) [] (some (text "m1"))
        (validateProposal shannonEntropy exposed request), gate, false⟩ ∈
      (Machine.states (step sha256 shannonEntropy) initial (oneCall given) 4).calls := by
  have one : Machine.states (step sha256 shannonEntropy) initial (oneCall given) 1 =
      ⟨[], [.requested request]⟩ := by
    change (⟨[], [requested given]⟩ : State) = _
    rw [requested, outcome]
  have two : Machine.states (step sha256 shannonEntropy) initial (oneCall given) 2 = ⟨[], [.missing request]⟩ := by
    change step sha256 shannonEntropy (Machine.states (step sha256 shannonEntropy) initial (oneCall given) 1)
      (.load 0) = _
    rw [one]
    rfl
  have checked : validated sha256 shannonEntropy request (some ⟨text "m1", some [u 'w'], text "active"⟩)
      (fun _ => some true) exposed (text "p1") [] = .gated request (newProposal (text "p1")
        (requestHash sha256 request) [] (some (text "m1")) (validateProposal shannonEntropy exposed request))
        (validateProposal shannonEntropy exposed request) := by
    rw [validated, resolveWorkspaceRoot, if_neg (not_not.mpr rfl)]
  apply Exists.intro (shownGate (validateProposal shannonEntropy exposed request))
  change _ ∈ (step sha256 shannonEntropy (step sha256 shannonEntropy
    (Machine.states (step sha256 shannonEntropy) initial (oneCall given) 2) (.validate 0 _ _ _ _ _)) (.insert 0)).calls
  rw [two]
  change _ ∈ (step sha256 shannonEntropy ⟨[], [validated sha256 shannonEntropy request _ _ _ _ _]⟩ (.insert 0)).calls
  exact List.mem_singleton_self _

end LetAgents.Rental.PatchProposals

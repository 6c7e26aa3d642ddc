import LetAgents.Lib.Checked
import LetAgents.Rental.PatchAtomicity
import LetAgents.Rental.PatchProposals
import LetAgents.Rental.PathAgreement

/-!
# The files of a pull request

Source: src/src/api/rental/patch-review/files.ts:8-112, patch-gate/apply.ts:41-92.

The review trims and normalises a stored path once more. A path that the gate accepted with
white space at an end, or with a drive behind a dot, is another path then, or none.
-/
namespace LetAgents.Rental.PatchProposals

open Lib Lib.RegExp PatchGate
open PathPolicy (slashed patchPathSegments names Valid)
open SecretFirewall (Entropy scanFile)

/-! ## The property -/

/-- A tree of files by path. -/
abbrev Files := Text → Option Text

/-- The content that stands at a path from now on, or its absence. -/
def writes (operations : List (Text × Option Text)) (files : Files) : Files :=
  operations.foldl (fun files operation => Function.update files operation.1 operation.2) files

/-- What an entry of a pull request does. -/
def RentalPatchPullRequestFile.change (entry : RentalPatchPullRequestFile) : Text × Option Text :=
  (entry.path, if entry.operation = .delete then none else entry.content)

/-- The file operation of `applyPatch` for one file. -/
def fileOperation (result : PatchGateResult) (file : PatchFile) : Except Cause (Text × Option Text) :=
  match PathPolicy.normalizePatchPath file.path with
  | .error reason => .error (.invalidPath reason)
  | .ok normalizedPath =>
    if file.operation = .delete then .ok (normalizedPath, none)
    else
      match contentFor result file normalizedPath with
      | none | some [] => .error (.noContent file.operation normalizedPath)
      | some content => .ok (normalizedPath, some content)

def fileOperations (result : PatchGateResult) : Except Cause (List (Text × Option Text)) :=
  result.proposal.files.mapM (fileOperation result)

section

variable (shannonEntropy : Text → Entropy)

/-- A path whose exposure the gate asked for, and was told of. -/
def WasExposed (views : Nat → View) (proposal : PatchProposal) (path : Text) : Prop :=
  ∃ i file, proposal.files[i]? = some file ∧ PathPolicy.normalizePatchPath file.path = .ok path ∧
    (views i).isPathExposed proposal.sessionId path = true

/-- The pull request of a row is what the patch gate would apply. -/
def Agrees (views : Nat → View) (row : RentalPatchProposalRow) (gate : PatchGateResult) : Prop :=
  ∃ entries operations, extractApprovedPatchFiles row = .ok entries ∧
    fileOperations gate = .ok operations ∧
    (∀ files path, writes (entries.map (·.change)) files path = writes operations files path) ∧
    ∀ entry ∈ entries, WasExposed views gate.proposal entry.path ∧
      (entry.operation ≠ .delete → ∃ check ∈ gate.checks, ∃ content, check.file = entry.path ∧
        check.sanitizedContent = some content ∧ entry.content = some content)

end

/-! ## Writes -/

theorem writes_other {operations : List (Text × Option Text)} {path : Text}
    (untouched : ∀ operation ∈ operations, operation.1 ≠ path) (files : Files) :
    writes operations files path = files path := by
  induction operations generalizing files with
  | nil => rfl
  | cons operation rest ih =>
    have other : path ≠ operation.1 := Ne.symm (untouched operation List.mem_cons_self)
    have more := ih (fun later member => untouched later (.tail _ member))
      (Function.update files operation.1 operation.2)
    rw [Function.update_of_ne other] at more
    exact more

/-- What stands at a path that is written does not depend on what stood there. -/
theorem writes_touched {operations : List (Text × Option Text)} {path : Text}
    (touched : ∃ operation ∈ operations, operation.1 = path) :
    ∃ value, ∀ files, writes operations files path = value := by
  induction operations using List.reverseRecOn with
  | nil =>
    obtain ⟨operation, member, -⟩ := touched
    cases member
  | append_singleton operations last ih =>
    by_cases here : path = last.1
    · apply Exists.intro last.2
      intro files
      rw [writes, List.foldl_concat, here, Function.update_self]
    · have earlier : ∃ operation ∈ operations, operation.1 = path := by
        obtain ⟨operation, member, same⟩ := touched
        rcases List.mem_append.mp member with inside | isLast
        · exact ⟨operation, inside, same⟩
        · rw [List.mem_singleton.mp isLast] at same
          exact absurd same.symm here
      obtain ⟨value, stands⟩ := ih earlier
      apply Exists.intro value
      intro files
      rw [writes, List.foldl_concat, Function.update_of_ne here]
      exact stands files

/-! ## Contents -/

theorem redactPattern_filled {pattern : SecretFirewall.SecretPattern} (named : text pattern.placeholder ≠ [])
    (fuel : Nat) (p : Place) (found : SecretFirewall.Redaction) (filled : p.before.reverse ++ p.after ≠ []) :
    (SecretFirewall.redactPattern pattern fuel p found).content ≠ [] := by
  induction fuel generalizing p found with
  | zero => exact filled
  | succ fuel ih =>
    unfold SecretFirewall.redactPattern
    cases pattern.regex.exec p with
    | none => exact filled
    | some places =>
      apply ih
      simp [named]

theorem redactPatterns_filled {patterns : List SecretFirewall.SecretPattern}
    (named : ∀ pattern ∈ patterns, text pattern.placeholder ≠ []) {content : Text} (filled : content ≠ []) :
    (SecretFirewall.redactPatterns patterns content).content ≠ [] := by
  refine List.foldlRecOn (motive := fun found : SecretFirewall.Redaction => found.content ≠ []) _ _ filled ?_
  intro found some pattern member
  exact redactPattern_filled (named pattern member) _ _ _ some

theorem placeholders_named : ∀ pattern ∈ SecretFirewall.SECRET_PATTERNS, text pattern.placeholder ≠ [] := by
  decide +kernel

variable (shannonEntropy : Text → Entropy)

theorem redactLine_filled (lineNumber : Nat) {line : Text} (filled : line ≠ []) :
    (SecretFirewall.redactLine shannonEntropy lineNumber line).content ≠ [] := by
  refine List.foldlRecOn (motive := fun found : SecretFirewall.Redaction => found.content ≠ []) _ _ filled ?_
  intro found some isMatch _
  unfold SecretFirewall.redactQuoted
  dsimp only
  split
  · simp [text, codeUnits]
  · exact some

/-- The entropy layer leaves no line out. -/
theorem scanAndRedactEntropy_filled {content : Text} (filled : content ≠ []) :
    (SecretFirewall.scanAndRedactEntropy shannonEntropy content).content ≠ [] := by
  intro nothing
  unfold SecretFirewall.scanAndRedactEntropy at nothing
  have whole := @join_split 0x0A content
  obtain ⟨first, more, parts⟩ := @split_cons 0x0A content
  rw [parts] at nothing whole
  cases more with
  | nil =>
    have some : first ≠ [] := by
      rintro rfl
      exact filled whole.symm
    exact redactLine_filled shannonEntropy _ some nothing
  | cons second more => simp [Text.join] at nothing

theorem scanLayers_filled {patterns : List SecretFirewall.SecretPattern}
    (named : ∀ pattern ∈ patterns, text pattern.placeholder ≠ []) {content : Text} (filled : content ≠ []) :
    (SecretFirewall.scanLayers shannonEntropy patterns content).content ≠ [] := by
  have known := redactPatterns_filled named filled
  unfold SecretFirewall.scanLayers
  dsimp only
  split
  · exact scanAndRedactEntropy_filled shannonEntropy known
  · exact known

/-- What stands in the result of a scan that blocks nothing. -/
theorem scanFile_unblocked {filePath content : Text} {found : SecretFirewall.Redaction}
    (scanned : SecretFirewall.scanText shannonEntropy content = found)
    (unblocked : (scanFile shannonEntropy filePath content).verdict ≠ .blocked) :
    (scanFile shannonEntropy filePath content).content = some found.content ∧
      (scanFile shannonEntropy filePath content).redactionCount = found.redactionCount := by
  unfold scanFile at unblocked ⊢
  rw [scanned] at unblocked ⊢
  split at unblocked
  · exact absurd rfl unblocked
  split at unblocked
  · exact absurd rfl unblocked
  · exact ⟨rfl, rfl⟩

/-- What the firewall lets through is not empty, unless the content was. -/
theorem scanFile_filled {filePath content : Text} (filled : content ≠ [])
    (unblocked : (scanFile shannonEntropy filePath content).verdict ≠ .blocked) :
    (scanFile shannonEntropy filePath content).content.getD [] ≠ [] := by
  rw [(scanFile_unblocked shannonEntropy rfl unblocked).1, Option.getD_some, SecretFirewall.scanText]
  exact scanLayers_filled shannonEntropy placeholders_named filled

/-! ## What the gate lets through -/

/-- The check of a file that is not rejected. -/
structure Passed (view : View) (sessionId : Text) (file : PatchFile) (check : PatchCheckResult) : Prop where
  normalized : PathPolicy.normalizePatchPath file.path = .ok check.file
  operation : check.operation = file.operation
  exposed : view.isPathExposed sessionId check.file = true
  passed : check.passed = true
  content : file.operation ≠ .delete → ∃ content, check.sanitizedContent = some content
  filled : ∀ content, check.sanitizedContent = some content → content ≠ []

theorem sanitizeContent_passed {view : View} {normalizedPath : Text} {file : PatchFile}
    {check check' : PatchCheckResult} {more : List Text} (fresh : check.sanitizedContent = none)
    (clean : sanitizeContent (gateDeps shannonEntropy view) normalizedPath file check = .ok (check', more)) :
    check'.file = check.file ∧ check'.operation = check.operation ∧
      (file.operation ≠ .delete → ∃ content, check'.sanitizedContent = some content) ∧
      ∀ content, check'.sanitizedContent = some content → content ≠ [] := by
  unfold sanitizeContent gateDeps at clean
  dsimp only at clean
  split at clean
  · rename_i removed
    cases clean
    refine ⟨rfl, rfl, fun other => absurd removed other, ?_⟩
    intro content given
    rw [fresh] at given
    cases given
  split at clean
  · cases clean
  split at clean
  · cases clean
  rename_i nonempty
  obtain ⟨content, given, filled⟩ : ∃ content, file.content = some content ∧ content ≠ [] := by
    apply filled_of_truthy
    simpa using nonempty
  rw [given] at clean
  split at clean
  · cases clean
  rename_i unblocked
  split at clean
  · cases clean
    refine ⟨rfl, rfl, fun _ => ⟨_, rfl⟩, ?_⟩
    intro sanitized same
    cases Option.some.inj same
    apply scanFile_filled shannonEntropy filled
    simpa using unblocked
  · cases clean
    refine ⟨rfl, rfl, fun _ => ⟨_, rfl⟩, ?_⟩
    intro sanitized same
    cases Option.some.inj same
    exact filled

theorem validateFile_passed {view : View} {workspace : Workspace} {sessionId : Text} {file : PatchFile}
    (accepted : (validateFile (gateDeps shannonEntropy view) workspace sessionId file).rejectionReasons = []) :
    Passed view sessionId file (validateFile (gateDeps shannonEntropy view) workspace sessionId file).check := by
  unfold validateFile at accepted ⊢
  cases normal : PathPolicy.normalizePatchPath file.path with
  | error reason => simp [normal] at accepted
  | ok normalizedPath =>
    rw [normal] at accepted
    unfold validateFileAt at accepted ⊢
    dsimp only at accepted ⊢
    split at accepted
    · cases accepted
    rename_i exposed
    rw [if_neg exposed]
    split at accepted
    · cases accepted
    rename_i check more clean
    obtain ⟨path, operation, content, filled⟩ := sanitizeContent_passed shannonEntropy rfl clean
    have shown : view.isPathExposed sessionId normalizedPath = true := by
      simpa [gateDeps] using exposed
    split at accepted
    · cases accepted
    rename_i stands
    rw [if_neg stands]
    split
    · rename_i absent
      exact ⟨normal.trans (congrArg _ path.symm), operation, path ▸ shown, rfl, content, filled⟩
    · exact ⟨normal.trans (congrArg _ path.symm), operation, path ▸ shown, rfl, content, filled⟩

/-- A proposal that is not rejected has a check for each file, and each of them passed. -/
theorem validateProposal_passed {views : Nat → View} {proposal : PatchProposal}
    (accepted : (validateProposal shannonEntropy views proposal).verdict ≠ .rejected) (i : Nat) :
    (proposal.files[i]? = none ∧ (validateProposal shannonEntropy views proposal).checks[i]? = none) ∨
    ∃ file check, proposal.files[i]? = some file ∧
      (validateProposal shannonEntropy views proposal).checks[i]? = some check ∧
      Passed (views i) proposal.sessionId file check := by
  unfold validateProposal at accepted ⊢
  split at accepted
  · exact absurd rfl accepted
  rename_i some
  rw [if_neg some]
  dsimp only at accepted ⊢
  have kept : (validations shannonEntropy views proposal).flatMap (·.rejectionReasons) = [] := by
    unfold patchGateVerdict at accepted
    split at accepted
    · exact absurd rfl accepted
    rename_i none
    simpa using none
  have found : (validations shannonEntropy views proposal)[i]? = proposal.files[i]?.map fun file =>
      validateFile (gateDeps shannonEntropy (views i)) (views i).workspace proposal.sessionId file := by
    rw [validations, List.getElem?_mapIdx]
  rw [List.getElem?_map, found]
  cases here : proposal.files[i]? with
  | none => exact .inl ⟨rfl, rfl⟩
  | some file =>
    refine .inr ⟨file, _, rfl, rfl, validateFile_passed shannonEntropy ?_⟩
    rw [here] at found
    exact List.flatMap_eq_nil_iff.mp kept _ (List.mem_of_getElem? found)

/-! ## Paths -/

theorem join_cons_length (part : Text) (more : List Text) :
    part.length ≤ (Text.join (u '/') (part :: more)).length ∧
      (Text.join (u '/') more).length ≤ (Text.join (u '/') (part :: more)).length := by
  cases more with
  | nil => exact ⟨le_rfl, Nat.zero_le _⟩
  | cons second more =>
    simp only [Text.join, List.length_append, List.length_cons]
    omega

theorem join_sublist {parts whole : List Text} (sublist : parts.Sublist whole) :
    (Text.join (u '/') parts).length ≤ (Text.join (u '/') whole).length := by
  induction sublist with
  | slnil => exact le_rfl
  | cons part _ ih => exact Nat.le_trans ih (join_cons_length part _).2
  | @cons_cons shorter longer part inside ih =>
    cases shorter with
    | nil => exact (join_cons_length part longer).1
    | cons first shorter =>
      cases longer with
      | nil => cases inside
      | cons second longer =>
        simp only [Text.join, List.length_append, List.length_cons] at ih ⊢
        omega

theorem trim_sublist (t : Text) : t.trim.Sublist t := by
  have inner : ((t.trimStart.reverse.dropWhile isSpace).reverse).Sublist t.trimStart := by
    have sublist := (List.dropWhile_sublist (l := t.trimStart.reverse) isSpace).reverse
    rwa [List.reverse_reverse] at sublist
  exact inner.trans (List.dropWhile_sublist isSpace)

theorem trim_shorter {t : Text} (changed : t.trim ≠ t) : t.trim.length < t.length := by
  have sublist := trim_sublist t
  have bound := sublist.length_le
  by_contra same
  exact changed (sublist.eq_of_length (by omega))

/-- A drive is no white space. -/
theorem hasDrive_trim {t : Text} (drive : Text.hasDrive t = true) : Text.hasDrive t.trim = true := by
  cases t with
  | nil => cases drive
  | cons c t =>
    cases t with
    | nil => cases drive
    | cons d rest =>
      simp only [Text.hasDrive, isUpper, Bool.and_eq_true, Bool.or_eq_true, decide_eq_true_eq] at drive
      obtain ⟨letter, rfl⟩ := drive
      have bounds : u 'A' = 65 ∧ u 'Z' = 90 ∧ u 'a' = 97 ∧ u 'z' = 122 := by decide
      have solid : isSpace c = false := by
        rw [isSpace, Bool.or_eq_false_iff]
        constructor
        · simp
          omega
        · simp
          omega
      have colon : isSpace (u ':') = false := by decide
      have kept : ∀ t, (t ++ [u ':', c]).dropWhile isSpace = t.dropWhile isSpace ++ [u ':', c] := by
        intro t
        induction t with
        | nil => simp [colon]
        | cons e t ih =>
          rw [List.cons_append, List.dropWhile_cons, List.dropWhile_cons, ih]
          split <;> rfl
      have trimmed : Text.trim (c :: u ':' :: rest) = c :: u ':' :: (rest.reverse.dropWhile isSpace).reverse := by
        have start : Text.trimStart (c :: u ':' :: rest) = c :: u ':' :: rest := by
          rw [Text.trimStart, List.dropWhile_cons_of_neg (by simp [solid])]
        rw [Text.trim, start, List.reverse_cons, List.reverse_cons, List.append_assoc]
        change ((rest.reverse ++ [u ':', c]).dropWhile isSpace).reverse = _
        rw [kept]
        simp
      rw [trimmed]
      simp [Text.hasDrive, isUpper, letter]

/-- A path that the review takes gets no longer. -/
theorem normalizePatchPath_ok {t path : Text} (normal : normalizePatchPath t = .ok path) :
    path.length ≤ t.length ∧ Text.hasDrive (slashed t) = false := by
  unfold normalizePatchPath at normal
  dsimp only at normal
  split at normal
  · cases normal
  rename_i accepted
  obtain rfl := Except.ok.inj normal
  constructor
  · have inside := join_sublist (List.filter_sublist (p := PathPolicy.kept) (l := Text.split (u '/') (slashed t)))
    rw [join_split, ← PathPolicy.patchPathSegments_eq] at inside
    simpa [slashed, Text.replaceUnit] using inside
  · simp only [Bool.or_eq_true, not_or, Bool.not_eq_true] at accepted
    exact accepted.2

/-- A path of the gate. -/
structure Normal (path : Text) : Prop where
  spelled : slashed path = path
  segments : Text.join (u '/') (patchPathSegments path) = path
  nonempty : path ≠ []
  relative : Text.startsWith path (text "/") = false
  null : Text.includes path [0] = false
  plain : (patchPathSegments path).contains (text "..") = false

theorem normal_of_gate {p path : Text} (normal : PathPolicy.normalizePatchPath p = .ok path) : Normal path := by
  have valid : Valid p := by
    apply (PathPolicy.validatePatchPath_valid p).mp
    unfold PathPolicy.normalizePatchPath at normal
    dsimp only at normal
    split at normal
    · assumption
    · cases normal
  rw [valid.normalized.1] at normal
  obtain rfl := Except.ok.inj normal
  obtain ⟨clean, -, same, relative⟩ := PathPolicy.joined_names valid.filled (PathPolicy.names_free p)
  have segments : patchPathSegments (Text.join (u '/') (names p)) = names p := by
    rw [← clean, PathPolicy.patchPathSegments_names, same]
  constructor
  · exact clean
  · rw [segments]
  · exact fun none => valid.filled ((PathPolicy.join_eq_nil (PathPolicy.names_filled p)).mp none)
  · exact relative
  · rw [← Bool.not_eq_true, PathPolicy.includes_unit]
    intro inside
    rcases mem_join inside with slash | ⟨name, member, null⟩
    · exact absurd slash (by decide)
    · exact valid.null (mem_of_split (List.mem_filter.mp member).1 null)
  · rw [segments]
    simpa using valid.plain

/-- The review keeps a path of the gate as it is, unless it begins with a drive. -/
theorem Normal.kept {path : Text} (normal : Normal path) (undriven : Text.hasDrive path = false) :
    normalizePatchPath path = .ok path := by
  unfold normalizePatchPath
  dsimp only
  rw [normal.spelled, normal.relative, normal.null, normal.plain, undriven]
  exact congrArg Except.ok normal.segments

/-! ## The row, read back -/

/-- A check as the review finds it. -/
def stored (check : PatchCheckResult) : StoredCheck where
  file := check.file
  operation := check.operation.name
  passed := check.passed
  reason := check.reason
  warnings := check.warnings
  secretsRedacted := check.secretsRedacted
  sanitizedContent := check.sanitizedContent

theorem storedPatchCheck_checkJson (check : PatchCheckResult) :
    storedPatchCheck (checkJson check) = some (stored check) := by
  obtain ⟨file, operation, passed, reason, warnings, secretsRedacted, sanitizedContent⟩ := check
  cases reason <;> cases sanitizedContent <;>
    simp [storedPatchCheck, checkJson, stored, isRecord, Json.property, optional, string?, array?,
      List.lookup_cons]

theorem storedPatchChecks_newProposal (gate : PatchGateResult) (proposalId requestHash proposedAt : Text)
    (manifestId : Option Text) :
    storedPatchChecks (newProposal proposalId requestHash proposedAt manifestId gate) =
      gate.checks.map stored := by
  have here : (newProposal proposalId requestHash proposedAt manifestId gate).check_results.property "checks" =
      some (.array (gate.checks.map checkJson)) := rfl
  rw [storedPatchChecks, here, array?, Option.getD_some, List.filterMap_map]
  have each : storedPatchCheck ∘ checkJson = some ∘ stored := funext storedPatchCheck_checkJson
  rw [each, List.filterMap_eq_map]

/-- A stored file as the review finds it. -/
def trimmed (file : PatchFile) : Except PatchReviewError PatchFile :=
  if file.path.trim = [] then .error ⟨"patch_files_invalid", 409⟩ else .ok { file with path := file.path.trim }

theorem explicitPatchFile_fileJson (file : PatchFile) : explicitPatchFile (fileJson file) = trimmed file := by
  have path : (fileJson file).property "path" = some (.string file.path) := rfl
  have operation : (fileJson file).property "operation" = some (.string file.operation.name) := rfl
  have content : string? ((fileJson file).property "content") = file.content ∧
      string? ((fileJson file).property "diff") = file.diff := by
    cases given : file.content <;> cases other : file.diff <;>
      simp [fileJson, given, other, Json.property, optional, string?, List.lookup_cons]
  have record : isRecord (fileJson file) = true := rfl
  unfold explicitPatchFile trimmed
  rw [path, operation, content.1, content.2, record, patchOperation_name]
  rfl

theorem explicitPatchFiles_newProposal (gate : PatchGateResult) (proposalId requestHash proposedAt : Text)
    (manifestId : Option Text) :
    explicitPatchFilesFromJournal (newProposal proposalId requestHash proposedAt manifestId gate) =
      (filesWithSanitizedContent gate.proposal.files gate).mapM trimmed := by
  have here : (newProposal proposalId requestHash proposedAt manifestId gate).journal_entry.property "files" =
      some (.array ((filesWithSanitizedContent gate.proposal.files gate).map fileJson)) := rfl
  rw [explicitPatchFilesFromJournal, here, array?]
  dsimp only
  rw [List.mapM_map]
  exact congrArg (List.mapM · _) (funext explicitPatchFile_fileJson)

/-- The way from a row to the files of its pull request. -/
theorem extract_newProposal {gate : PatchGateResult} (passed : ∀ check ∈ gate.checks, check.passed = true)
    (proposalId requestHash proposedAt : Text) (manifestId : Option Text) :
    extractApprovedPatchFiles (newProposal proposalId requestHash proposedAt manifestId gate) =
      ((filesWithSanitizedContent gate.proposal.files gate).mapM trimmed).bind fun files =>
        (sanitizedByPath (gate.checks.map stored)).bind fun sanitized =>
          files.mapM (pullRequestFile sanitized) := by
  have source : (newProposal proposalId requestHash proposedAt manifestId gate).source ≠
      text "signed_change_journal" := by
    change text "explicit_patch" ≠ text "signed_change_journal"
    decide
  have all : ((gate.checks.map stored).any fun check => !check.passed) = false := by
    simp only [List.any_map, List.any_eq_false]
    intro check member
    simp [stored, passed check member]
  unfold extractApprovedPatchFiles
  rw [if_neg source, explicitPatchFiles_newProposal, storedPatchChecks_newProposal]
  simp only [all, Bool.false_eq_true, if_false]
  rfl

/-! ## A gate that let everything through -/

theorem mapM_ok_iff {α β ε : Type} {f : α → Except ε β} {xs : List α} {ys : List β} :
    xs.mapM f = .ok ys ↔ List.Forall₂ (fun x y => f x = .ok y) xs ys := by
  induction xs generalizing ys with
  | nil =>
    rw [List.mapM_nil, List.forall₂_nil_left_iff]
    exact ⟨fun same => (Except.ok.inj same).symm, fun same => congrArg Except.ok same.symm⟩
  | cons x xs ih =>
    rw [List.mapM_cons, List.forall₂_cons_left_iff]
    constructor
    · intro done
      obtain ⟨y, first, rest⟩ := Checked.bind_ok done
      obtain ⟨others, more, last⟩ := Checked.bind_ok rest
      exact ⟨y, others, first, ih.mp more, (Except.ok.inj last).symm⟩
    · rintro ⟨y, others, first, more, rfl⟩
      rw [first, ih.mpr more]
      rfl

theorem forall₂_of_getElem? {α β : Type} {related : α → β → Prop} {xs : List α} {ys : List β}
    (each : ∀ i : Nat, (xs[i]? = none ∧ ys[i]? = none) ∨
      ∃ x y, xs[i]? = some x ∧ ys[i]? = some y ∧ related x y) : List.Forall₂ related xs ys := by
  induction xs generalizing ys with
  | nil =>
    have ends : ys = [] := by
      rcases each 0 with ⟨-, none⟩ | ⟨x, y, some, -⟩
      · simpa using none
      · cases some
    rw [ends]
    exact .nil
  | cons x xs ih =>
    cases ys with
    | nil =>
      rcases each 0 with ⟨none, -⟩ | ⟨_, _, -, some, -⟩
      · cases none
      · cases some
    | cons y ys =>
      rcases each 0 with ⟨none, -⟩ | ⟨_, _, first, second, head⟩
      · cases none
      · cases first
        cases second
        exact .cons head (ih fun i => each (i + 1))

theorem mem_of_forall₂ {α β : Type} {related : α → β → Prop} {xs : List α} {ys : List β}
    (each : List.Forall₂ related xs ys) {x : α} (member : x ∈ xs) : ∃ y ∈ ys, related x y := by
  induction each with
  | nil => cases member
  | @cons x' y xs ys head tail ih =>
    rcases List.mem_cons.mp member with rfl | later
    · exact ⟨y, .head _, head⟩
    · obtain ⟨y', inside, found⟩ := ih later
      exact ⟨y', .tail _ inside, found⟩

/-- A file of a proposal with the check that let it through. -/
def Accepted (views : Nat → View) (proposal : PatchProposal) (file : PatchFile)
    (check : PatchCheckResult) : Prop :=
  ∃ i, proposal.files[i]? = some file ∧ Passed (views i) proposal.sessionId file check

theorem accepted_files {views : Nat → View} {proposal : PatchProposal}
    (accepted : (validateProposal shannonEntropy views proposal).verdict ≠ .rejected) :
    List.Forall₂ (Accepted views proposal) proposal.files
      (validateProposal shannonEntropy views proposal).checks := by
  apply forall₂_of_getElem?
  intro i
  rcases validateProposal_passed shannonEntropy accepted i with ends | ⟨file, check, here, found, passed⟩
  · exact .inl ends
  · exact .inr ⟨file, check, here, found, i, here, passed⟩

theorem validateProposal_proposal (views : Nat → View) (proposal : PatchProposal) :
    (validateProposal shannonEntropy views proposal).proposal = proposal := by
  unfold validateProposal
  split <;> rfl

/-- What a check that let a file through stands for. -/
def entryOf (gate : PatchGateResult) (check : PatchCheckResult) : RentalPatchPullRequestFile where
  path := check.file
  operation := check.operation
  content := if check.operation = .delete then none else (sanitizedContentMap gate).get check.file

theorem sanitizedContentMap_some {gate : PatchGateResult} {check : PatchCheckResult} {content : Text}
    (member : check ∈ gate.checks) (sanitized : check.sanitizedContent = some content) :
    ∃ last, (sanitizedContentMap gate).get check.file = some last := by
  unfold sanitizedContentMap
  generalize gate.checks = checks at member ⊢
  induction checks using List.reverseRecOn with
  | nil => cases member
  | append_singleton checks last ih =>
    rw [List.foldl_concat]
    rcases List.mem_append.mp member with earlier | isLast
    · obtain ⟨value, found⟩ := ih earlier
      cases other : last.sanitizedContent with
      | none => exact ⟨value, found⟩
      | some newer =>
        by_cases same : check.file = last.file
        · rw [same, OrderedMap.get_set_self]
          exact ⟨newer, rfl⟩
        · rw [OrderedMap.get_set_of_ne _ newer same]
          exact ⟨value, found⟩
    · rw [List.mem_singleton] at isLast
      subst isLast
      rw [sanitized]
      rw [OrderedMap.get_set_self]
      exact ⟨content, rfl⟩

section

variable {views : Nat → View} {gate : PatchGateResult}

/-- Every check let its file through. -/
abbrev AllAccepted (views : Nat → View) (gate : PatchGateResult) : Prop :=
  List.Forall₂ (Accepted views gate.proposal) gate.proposal.files gate.checks

/-- The map gives a check that let a file through a content, and none that is empty. -/
theorem content_accepted (accepted : AllAccepted views gate)
    {check : PatchCheckResult} (member : check ∈ gate.checks) (kept : check.operation ≠ .delete) :
    ∃ content, (sanitizedContentMap gate).get check.file = some content ∧ content ≠ [] ∧
      ∃ last ∈ gate.checks, last.file = check.file ∧ last.sanitizedContent = some content := by
  obtain ⟨file, -, i, -, passed⟩ := mem_of_forall₂ accepted.flip member
  obtain ⟨own, sanitized⟩ := passed.content (passed.operation ▸ kept)
  obtain ⟨content, found⟩ := sanitizedContentMap_some member sanitized
  obtain ⟨before, last, behind, whole, path, given, -⟩ := (sanitizedContentMap_get gate _ _).mp found
  have inside : last ∈ gate.checks := by simp [whole]
  obtain ⟨_, -, _, -, other⟩ := mem_of_forall₂ accepted.flip inside
  exact ⟨content, found, other.filled content given, last, inside, path, given⟩

theorem fileOperations_accepted (accepted : AllAccepted views gate) :
    fileOperations gate = .ok (gate.checks.map fun check => (entryOf gate check).change) := by
  rw [fileOperations, mapM_ok_iff, List.forall₂_map_right_iff]
  have members := (List.forall₂_and_left _ _).mpr ⟨fun _ member => member, accepted.flip⟩
  refine members.flip.imp fun file check related => ?_
  obtain ⟨member, i, -, passed⟩ := related
  unfold fileOperation entryOf RentalPatchPullRequestFile.change
  rw [passed.normalized, passed.operation]
  dsimp only
  split
  · rfl
  · rename_i kept
    obtain ⟨content, found, filled, -⟩ := content_accepted accepted member (passed.operation.symm ▸ kept)
    rw [contentFor, found]
    cases content with
    | nil => exact absurd rfl filled
    | cons c rest => rfl

/-- What is stored of a file that passed. -/
theorem stored_files (accepted : AllAccepted views gate) :
    List.Forall₂ (fun file check => file.path = check.file ∧ file.operation = check.operation)
      (filesWithSanitizedContent gate.proposal.files gate) gate.checks := by
  obtain ⟨same, each⟩ := List.forall₂_iff_get.mp accepted
  apply forall₂_of_getElem?
  intro i
  rw [filesWithSanitizedContent, List.getElem?_mapIdx]
  by_cases bound : i < gate.proposal.files.length
  · obtain ⟨_, -, passed⟩ := each i bound (same ▸ bound)
    rw [List.getElem?_eq_getElem bound, List.getElem?_eq_getElem (same ▸ bound)]
    exact .inr ⟨_, _, rfl, rfl, rfl, passed.operation.symm⟩
  · rw [List.getElem?_eq_none (Nat.le_of_not_lt bound), List.getElem?_eq_none (by omega)]
    exact .inl ⟨rfl, rfl⟩

/-- The sanitized contents by path, where the review keeps every path. -/
theorem sanitizedByPath_accepted
    (kept : ∀ check ∈ gate.checks, normalizePatchPath check.file = .ok check.file) :
    sanitizedByPath (gate.checks.map stored) = .ok (sanitizedContentMap gate) := by
  unfold sanitizedByPath sanitizedContentMap
  generalize OrderedMap.empty = start
  generalize gate.checks = checks at kept ⊢
  induction checks generalizing start with
  | nil => rfl
  | cons check checks ih =>
    have path : normalizePatchPath (stored check).file = .ok check.file := kept check List.mem_cons_self
    have content : (stored check).sanitizedContent = check.sanitizedContent := rfl
    have rest := fun start => ih start fun other member => kept other (.tail _ member)
    rw [List.map_cons, List.foldlM_cons, List.foldl_cons, content, path]
    cases check.sanitizedContent with
    | none => exact rest start
    | some content => exact rest _

variable {proposalId requestHash proposedAt : Text} {manifestId : Option Text}

/-- A path that the review leaves as it is. -/
def Kept (path : Text) : Prop := path.trim = path ∧ Text.hasDrive path = false

theorem accepted_normal (accepted : AllAccepted views gate)
    {check : PatchCheckResult} (member : check ∈ gate.checks) : Normal check.file ∧ check.passed = true := by
  obtain ⟨file, -, i, -, passed⟩ := mem_of_forall₂ accepted.flip member
  exact ⟨normal_of_gate passed.normalized, passed.passed⟩

theorem extract_accepted (accepted : AllAccepted views gate)
    (kept : ∀ check ∈ gate.checks, Kept check.file) :
    extractApprovedPatchFiles (newProposal proposalId requestHash proposedAt manifestId gate) =
      .ok (gate.checks.map (entryOf gate)) := by
  have files := stored_files accepted
  have same : (filesWithSanitizedContent gate.proposal.files gate).mapM trimmed =
      .ok (filesWithSanitizedContent gate.proposal.files gate) := by
    rw [mapM_ok_iff, List.forall₂_same]
    intro file member
    obtain ⟨check, inside, path, -⟩ := mem_of_forall₂ files member
    rw [trimmed, path, (kept check inside).1, if_neg (accepted_normal accepted inside).1.nonempty, ← path]
  have normal : ∀ check ∈ gate.checks, normalizePatchPath check.file = .ok check.file :=
    fun check member => (accepted_normal accepted member).1.kept (kept check member).2
  have entries : (filesWithSanitizedContent gate.proposal.files gate).mapM
      (pullRequestFile (sanitizedContentMap gate)) = .ok (gate.checks.map (entryOf gate)) := by
    rw [mapM_ok_iff, List.forall₂_map_right_iff]
    have members := (List.forall₂_and_left _ _).mpr ⟨fun _ member => member, files.flip⟩
    refine members.flip.imp fun file check related => ?_
    obtain ⟨member, path, operation⟩ := related
    unfold pullRequestFile entryOf
    rw [path, normal check member, operation]
    have filled := (accepted_normal accepted member).1.nonempty
    cases named : check.file with
    | nil => exact absurd named filled
    | cons c rest =>
      dsimp only
      by_cases removed : check.operation = .delete
      · rw [if_pos removed, if_pos removed, removed]
      · obtain ⟨content, found, -⟩ := content_accepted accepted member removed
        rw [← named, if_neg removed, if_neg removed, found]
        rfl
  rw [extract_newProposal (fun check member => (accepted_normal accepted member).2), same,
    sanitizedByPath_accepted normal]
  exact entries

theorem pullRequestFile_ok {sanitized : OrderedMap Text Text} {file : PatchFile}
    {entry : RentalPatchPullRequestFile} (done : pullRequestFile sanitized file = .ok entry) :
    normalizePatchPath file.path = .ok entry.path := by
  unfold pullRequestFile at done
  split at done
  · cases done
  · cases done
  rename_i path normal
  rw [normal]
  split at done
  · cases done
    rfl
  split at done
  · cases done
  · cases done
    rfl

section

variable (accepted : AllAccepted views gate)
include accepted

/-- Each check has an entry and each entry a check: the path of the entry is that of the check,
trimmed and normalised once more. -/
theorem extract_paths {entries : List RentalPatchPullRequestFile}
    (extracted : extractApprovedPatchFiles (newProposal proposalId requestHash proposedAt manifestId gate) = .ok entries) :
    List.Forall₂ (fun check entry => normalizePatchPath check.file.trim = .ok entry.path)
      gate.checks entries := by
  rw [extract_newProposal fun check member => (accepted_normal accepted member).2] at extracted
  obtain ⟨files, trims, rest⟩ := Checked.bind_ok extracted
  obtain ⟨sanitized, -, last⟩ := Checked.bind_ok rest
  rw [mapM_ok_iff] at trims last
  have first := (stored_files accepted).flip
  obtain ⟨length₁, each₁⟩ := List.forall₂_iff_get.mp first
  obtain ⟨length₂, each₂⟩ := List.forall₂_iff_get.mp trims
  obtain ⟨length₃, each₃⟩ := List.forall₂_iff_get.mp last
  refine List.forall₂_iff_get.mpr ⟨by omega, fun i bound bound' => ?_⟩
  have path := (each₁ i bound (by omega)).1
  have trim := each₂ i (by omega) (by omega)
  have entry := pullRequestFile_ok (each₃ i (by omega) bound')
  unfold trimmed at trim
  split at trim
  · cases trim
  · rw [← path]
    rw [← Except.ok.inj trim] at entry
    exact entry

theorem pullRequest_of_kept (kept : ∀ check ∈ gate.checks, Kept check.file) :
    Agrees views (newProposal proposalId requestHash proposedAt manifestId gate) gate := by
  refine ⟨_, _, extract_accepted accepted kept, fileOperations_accepted accepted, ?_, ?_⟩
  · intro files path
    rw [List.map_map]
    rfl
  · intro entry member
    obtain ⟨check, inside, rfl⟩ := List.mem_map.mp member
    obtain ⟨file, -, i, found, passed⟩ := mem_of_forall₂ accepted.flip inside
    refine ⟨⟨i, file, found, passed.normalized, passed.exposed⟩, fun remains => ?_⟩
    obtain ⟨content, given, -, last, among, path, sanitized⟩ := content_accepted accepted inside remains
    exact ⟨last, among, content, path, sanitized, (if_neg remains).trans given⟩

/-- A path that is not kept is written by the gate, and so by an entry whose check has a longer
path that is not kept. -/
theorem longer_of_unkept
    (agrees : Agrees views (newProposal proposalId requestHash proposedAt manifestId gate) gate)
    {check : PatchCheckResult} (member : check ∈ gate.checks) (changed : ¬Kept check.file) :
    ∃ longer ∈ gate.checks, ¬Kept longer.file ∧ check.file.length < longer.file.length := by
  obtain ⟨entries, operations, extracted, performed, same, -⟩ := agrees
  have paths := extract_paths accepted extracted
  rw [fileOperations_accepted accepted] at performed
  obtain rfl := Except.ok.inj performed
  have touched : ∃ entry ∈ entries, entry.path = check.file := by
    by_contra untouched
    have other : ∀ operation ∈ entries.map (·.change), operation.1 ≠ check.file := by
      intro operation inside
      obtain ⟨entry, among, rfl⟩ := List.mem_map.mp inside
      exact fun here => untouched ⟨entry, among, here⟩
    obtain ⟨value, stands⟩ := @writes_touched (gate.checks.map fun check => (entryOf gate check).change)
      check.file ⟨_, List.mem_map_of_mem member, rfl⟩
    have first := same (fun _ => none) check.file
    have second := same (fun _ => some []) check.file
    rw [writes_other other, stands] at first second
    exact absurd (first.trans second.symm) (by simp)
  obtain ⟨entry, among, path⟩ := touched
  obtain ⟨source, inside, normal⟩ := mem_of_forall₂ paths.flip among
  rw [path] at normal
  have undriven : Text.hasDrive source.file = false := by
    rw [← Bool.not_eq_true]
    intro drive
    have clean : slashed source.file.trim = source.file.trim := by
      apply PathPolicy.slashed_of_free
      intro slash
      have kept := (accepted_normal accepted inside).1.spelled
      rw [← kept] at slash
      exact PathPolicy.slashed_free _ ((trim_sublist _).mem slash)
    have no := (normalizePatchPath_ok normal).2
    rw [clean, hasDrive_trim drive] at no
    cases no
  by_cases trim : source.file.trim = source.file
  · rw [trim, (accepted_normal accepted inside).1.kept undriven] at normal
    rw [← Except.ok.inj normal] at changed
    exact absurd ⟨trim, undriven⟩ changed
  · refine ⟨source, inside, fun kept => trim kept.1, ?_⟩
    exact Nat.lt_of_le_of_lt (normalizePatchPath_ok normal).1 (trim_shorter trim)

theorem kept_of_agrees
    (agrees : Agrees views (newProposal proposalId requestHash proposedAt manifestId gate) gate) :
    ∀ check ∈ gate.checks, Kept check.file := by
  by_contra unkept
  push Not at unkept
  have chain : ∀ n, ∃ check ∈ gate.checks, ¬Kept check.file ∧ n ≤ check.file.length := by
    intro n
    induction n with
    | zero =>
      obtain ⟨check, member, changed⟩ := unkept
      exact ⟨check, member, changed, Nat.zero_le _⟩
    | succ n ih =>
      obtain ⟨check, member, changed, bound⟩ := ih
      obtain ⟨longer, inside, unkept, more⟩ := longer_of_unkept accepted agrees member changed
      exact ⟨longer, inside, unkept, by omega⟩
  obtain ⟨check, member, -, bound⟩ := chain ((gate.checks.map fun check => check.file.length).sum + 1)
  have least := List.le_sum_of_mem (List.mem_map_of_mem (f := fun check => check.file.length) member)
  omega

end

end

/-- The pull request of a stored proposal is what the patch gate would apply, exactly if the
review leaves every path of it as it is. -/
theorem pullRequest_agrees_iff {views : Nat → View} {proposal : PatchProposal}
    (accepted : (validateProposal shannonEntropy views proposal).verdict ≠ .rejected)
    (proposalId requestHash proposedAt : Text) (manifestId : Option Text) :
    Agrees views (newProposal proposalId requestHash proposedAt manifestId
        (validateProposal shannonEntropy views proposal)) (validateProposal shannonEntropy views proposal) ↔
      ∀ file ∈ proposal.files, ∀ path, PathPolicy.normalizePatchPath file.path = .ok path → Kept path := by
  have files := accepted_files shannonEntropy accepted
  have same := validateProposal_proposal shannonEntropy views proposal
  have whole : List.Forall₂ (Accepted views (validateProposal shannonEntropy views proposal).proposal)
      (validateProposal shannonEntropy views proposal).proposal.files
      (validateProposal shannonEntropy views proposal).checks := by
    rw [same]
    exact files
  constructor
  · intro agrees file member path normal
    obtain ⟨check, inside, i, -, passed⟩ := mem_of_forall₂ files member
    rw [passed.normalized] at normal
    rw [← Except.ok.inj normal]
    exact kept_of_agrees whole agrees check inside
  · intro kept
    apply pullRequest_of_kept whole
    intro check member
    obtain ⟨file, inside, i, -, passed⟩ := mem_of_forall₂ files.flip member
    exact kept file inside check.file passed.normalized

/-- A request to delete one file. -/
def deletion (path : Text) : ProposePatchInput where
  sessionId := text "s1"
  idempotencyKey := text "k1"
  summary := none
  files := .array [.object [("path", .string path), ("operation", .string (text "delete"))]]

def deletionProposal (path : Text) : PatchProposal where
  sessionId := text "s1"
  idempotencyKey := text "k1"
  files := [{ path, operation := .delete }]

/-- Every path is exposed, and the workspace has one file. -/
def exposed (_ : Nat) : View := ⟨fun _ _ => true, oneFile⟩

/-- Nothing is random. -/
def plainEntropy (_ : Text) : Entropy := ⟨false, []⟩

/-- The gate on such a request. -/
def deletionGate (path : Text) : PatchGateResult :=
  validateProposal plainEntropy exposed (deletionProposal path)

theorem plainDeletion_agrees :
    Agrees exposed (newProposal [] [] [] none (deletionGate (text "./a"))) (deletionGate (text "./a")) := by
  have facts : (deletionGate (text "./a")).verdict ≠ .rejected ∧
      PathPolicy.normalizePatchPath (text "./a") = .ok (text "a") ∧
      Text.trim (text "a") = text "a" ∧ Text.hasDrive (text "a") = false := by
    decide +kernel
  obtain ⟨accepted, normal, kept⟩ := facts
  refine (pullRequest_agrees_iff plainEntropy accepted [] [] [] none).mpr ?_
  intro file member path same
  obtain rfl := List.mem_singleton.mp member
  rw [← Except.ok.inj (normal.symm.trans same)]
  exact kept

/-- A manifest with a space behind its name is no sensitive path, and the pull request deletes the
manifest without it. -/
theorem spacedManifest_disagrees : ¬ ∀ (input : ProposePatchInput) (proposal : PatchProposal)
    (views : Nat → View), patchRequest input = .ok proposal →
    (validateProposal plainEntropy views proposal).verdict = .passed_with_warnings →
    Agrees views (newProposal [] [] [] none (validateProposal plainEntropy views proposal))
      (validateProposal plainEntropy views proposal) := by
  intro every
  have facts : patchRequest (deletion (text "package.json /")) =
        .ok (deletionProposal (text "package.json /")) ∧
      (deletionGate (text "package.json /")).verdict = .passed_with_warnings ∧
      (extractApprovedPatchFiles (newProposal [] [] [] none (deletionGate (text "package.json /")))).toOption =
        some [⟨text "package.json", .delete, none⟩] ∧
      PathPolicy.normalizePatchPath (text "package.json /") ≠ .ok (text "package.json") := by
    decide +kernel
  obtain ⟨request, accepted, extracted, other⟩ := facts
  obtain ⟨entries, _, found, -, -, each⟩ := every _ _ exposed request accepted
  rw [deletionGate, found] at extracted
  obtain rfl := Option.some.inj extracted
  obtain ⟨⟨i, file, here, normal, -⟩, -⟩ := each _ List.mem_cons_self
  rw [validateProposal_proposal] at here
  obtain rfl := List.mem_singleton.mp (List.mem_of_getElem? here)
  exact other normal

end LetAgents.Rental.PatchProposals

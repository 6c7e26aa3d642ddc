import LetAgents.Rental.ContextBroker

/-!
# What the context broker shows of hidden text

Source: src/api/rental/context-broker.ts:118-290, secret-firewall.ts:68-142. Two sites
differ only in text that the firewall hides. Reading shows no difference, unless a
symbolic link gives a blocked file another name; a search does where the raw lines that
contain the query differ.
-/
namespace LetAgents.Rental.ContextLeaks

open Lib.RegExp (Text text)
open Lib.FileTree PathDenylist SecretFirewall ContextBroker

variable {language : Language}

/-! ## Scans -/

/-- The firewall gives the same verdict and the same sanitized content. -/
def SameScan (language : Language) (path left right : Text) : Prop :=
  (scanFile language.shannonEntropy path left).verdict =
      (scanFile language.shannonEntropy path right).verdict ∧
    (scanFile language.shannonEntropy path left).content =
      (scanFile language.shannonEntropy path right).content

theorem scanFile_blocked (blocked : isPathBlocked path = true) (content : Text) :
    (scanFile language.shannonEntropy path content).verdict = .blocked ∧
      (scanFile language.shannonEntropy path content).content = none := by
  unfold isPathBlocked at blocked
  unfold scanFile
  cases byPath : checkPathDenylist path with
  | some finding => exact ⟨rfl, rfl⟩
  | none =>
    cases byExtension : checkExtensionDenylist path with
    | some finding => exact ⟨rfl, rfl⟩
    | none =>
      rw [byPath, byExtension] at blocked
      cases blocked

theorem scanFile_open (passes : isPathBlocked path = false) (content : Text) :
    scanFile language.shannonEntropy path content =
      ⟨if 0 < (scanText language.shannonEntropy content).redactionCount then .redacted else .passed,
        some (scanText language.shannonEntropy content).content,
        (scanText language.shannonEntropy content).findings,
        (scanText language.shannonEntropy content).redactionCount, path⟩ := by
  unfold isPathBlocked at passes
  rw [Bool.or_eq_false_iff, Option.isSome_eq_false_iff, Option.isSome_eq_false_iff,
    Option.isNone_iff_eq_none, Option.isNone_iff_eq_none] at passes
  unfold scanFile
  rw [passes.1, passes.2]

/-- The verdict is `blocked` just when the path is. -/
theorem verdict_blocked (path content : Text) :
    (scanFile language.shannonEntropy path content).verdict = .blocked ↔
      isPathBlocked path = true := by
  cases passes : isPathBlocked path with
  | true => exact iff_of_true (scanFile_blocked passes content).1 rfl
  | false =>
    rw [scanFile_open passes]
    refine iff_of_false ?_ Bool.false_ne_true
    split
    · rintro ⟨⟩
    · rintro ⟨⟩

/-- What an open path hides, every path hides. -/
theorem SameScan.elsewhere (same : SameScan language path left right)
    (passes : isPathBlocked path = false) (other : Text) : SameScan language other left right := by
  cases here : isPathBlocked other with
  | true =>
    have first := @scanFile_blocked language other here left
    have second := @scanFile_blocked language other here right
    exact ⟨first.1.trans second.1.symm, first.2.trans second.2.symm⟩
  | false =>
    unfold SameScan at same ⊢
    rw [scanFile_open passes, scanFile_open passes] at same
    rw [scanFile_open here, scanFile_open here]
    exact same

/-! ## Sites that differ in hidden text -/

/-- The name under which the broker scans a file that it found itself. -/
def repoName (path : List Text) : Text := toRepoPath (ContextBroker.relative path)

def SameEntry (language : Language) (path : List Text) : Entry → Entry → Prop
  | .file left size, .file right size' => size = size' ∧ SameScan language (repoName path) left right
  | .link target, .link target' => target = target'
  | .special, .special => True
  | _, _ => False

/-- The same tree, with files that the firewall does not tell apart; `path` leads to it. -/
def SameTree (language : Language) : List Text → Workspace → Workspace → Prop
  | _, .nil, .nil => True
  | path, .leaf name entry rest, .leaf name' entry' rest' =>
    name = name' ∧ SameEntry language (path ++ [name]) entry entry' ∧
      SameTree language path rest rest'
  | path, .directory name inner rest, .directory name' inner' rest' =>
    name = name' ∧ SameTree language (path ++ [name]) inner inner' ∧
      SameTree language path rest rest'
  | _, _, _ => False

def SameRoot (language : Language) : Root → Root → Prop
  | .directory left, .directory right => SameTree language [] left right
  | .notDirectory, .notDirectory => True
  | .missing, .missing => True
  | _, _ => False

structure SameSites (language : Language) (left right : Site) : Prop where
  manifests : left.getActiveManifest = right.getActiveManifest
  roots : ∀ path, SameRoot language (left.root path) (right.root path)

/-! ## The same things are found -/

def SameFound (language : Language) (path : List Text) : Found Entry → Found Entry → Prop
  | .nothing, .nothing => True
  | .directory, .directory => True
  | .leaf left, .leaf right => SameEntry language path left right
  | _, _ => False

theorem SameTree.find (same : SameTree language path left right) (below : List Text) :
    SameFound language (path ++ below) (left.find below) (right.find below) := by
  induction left generalizing path right below with
  | nil =>
    cases right with
    | nil =>
      unfold Tree.find
      split
      · trivial
      · trivial
    | leaf _ _ _ | directory _ _ _ => exact same.elim
  | leaf name entry rest ih =>
    cases right with
    | nil | directory _ _ _ => exact same.elim
    | leaf name' entry' rest' =>
      obtain ⟨rfl, entries, others⟩ := same
      unfold Tree.find
      split
      · rename_i here
        rw [here]
        exact entries
      · exact ih others below
  | directory name inner rest ihInner ihRest =>
    cases right with
    | nil | leaf _ _ _ => exact same.elim
    | directory name' inner' rest' =>
      obtain ⟨rfl, inners, others⟩ := same
      unfold Tree.find
      cases below with
      | nil => trivial
      | cons first more =>
        dsimp only
        split
        · rename_i here
          subst here
          have found := ihInner inners more
          rwa [List.append_assoc] at found
        · exact ihRest others (first :: more)

/-- What is found is the same, or a file with the same name and size. -/
theorem SameFound.cases (same : SameFound language path left right) : left = right ∨
      ∃ content content' size, left = .leaf (.file content size) ∧
        right = .leaf (.file content' size) ∧
        SameScan language (repoName path) content content' := by
  cases left with
  | nothing =>
    cases right with
    | nothing => exact .inl rfl
    | leaf _ | directory => exact same.elim
  | directory =>
    cases right with
    | directory => exact .inl rfl
    | leaf _ | nothing => exact same.elim
  | leaf entry =>
    cases right with
    | nothing | directory => exact same.elim
    | leaf entry' =>
      cases entry with
      | file content size =>
        cases entry' with
        | file content' size' =>
          obtain ⟨rfl, scans⟩ := same
          exact .inr ⟨content, content', size, rfl, rfl, scans⟩
        | link _ | special => exact same.elim
      | link target =>
        cases entry' with
        | link target' => exact .inl (congrArg _ (congrArg _ same))
        | file _ _ | special => exact same.elim
      | special =>
        cases entry' with
        | special => exact .inl rfl
        | file _ _ | link _ => exact same.elim

theorem SameTree.enterDirectory (same : SameTree language [] left right) (spot : Spot)
    (name : Text) :
    ContextBroker.enterDirectory left spot name = ContextBroker.enterDirectory right spot name := by
  cases spot with
  | outside below path | missing => rfl
  | inside path =>
    unfold ContextBroker.enterDirectory
    dsimp only
    rcases (same.find (path ++ [name])).cases with
      alike | ⟨content, content', size, first, second, -⟩
    · rw [alike]
    · rw [first, second]

/-- Both files are found at the same place, with the same size and text that scans alike. -/
structure SameFile (language : Language) (left right : WorkspaceFile) : Prop where
  realPath : left.realPath = right.realPath
  size : left.size = right.size
  scans : SameScan language (repoName left.realPath) left.content right.content

/-- A file is found on both sides or the same error is. -/
inductive SameTarget (language : Language) :
    Except Text WorkspaceFile → Except Text WorkspaceFile → Prop where
  | error (error : Text) : SameTarget language (.error error) (.error error)
  | file {left right : WorkspaceFile} (same : SameFile language left right) :
      SameTarget language (.ok left) (.ok right)

theorem SameTree.resolve (same : SameTree language [] left right) (relPath : List Text) :
    SameTarget language (resolveWorkspaceFile left relPath)
      (resolveWorkspaceFile right relPath) := by
  have enters : ContextBroker.enterDirectory left = ContextBroker.enterDirectory right :=
    funext fun spot => funext fun name => same.enterDirectory spot name
  unfold resolveWorkspaceFile
  rw [enters]
  split
  · exact .error _
  split
  · exact .error _
  · split
    · exact .error _
    · exact .error _
    · exact .error _
    · exact .error _
  · rename_i path _
    dsimp only
    rcases (same.find (path ++ relPath.getLast?.toList)).cases with
      alike | ⟨content, content', size, first, second, scans⟩
    · rw [alike]
      split
      · exact .error _
      · exact .error _
      · exact .error _
      · exact .error _
      · split
        · exact .file ⟨rfl, rfl, rfl, rfl⟩
        · exact .error _
    · rw [first, second]
      dsimp only
      split
      · exact .file ⟨rfl, rfl, scans⟩
      · exact .error _

/-! ## Reading -/

/-- The workspaces of a session, or the same error. -/
inductive SameWorkspace (language : Language) :
    Except Text (ContextWorkspaceManifest × Workspace) →
      Except Text (ContextWorkspaceManifest × Workspace) → Prop where
  | error (error : Text) : SameWorkspace language (.error error) (.error error)
  | workspace (manifest : ContextWorkspaceManifest) {left right : Workspace}
      (same : SameTree language [] left right) :
      SameWorkspace language (.ok (manifest, left)) (.ok (manifest, right))

theorem SameSites.resolve (same : SameSites language left right)
    (manifest : Option ContextWorkspaceManifest) :
    SameWorkspace language (resolveWorkspace left manifest) (resolveWorkspace right manifest) := by
  unfold resolveWorkspace
  cases manifest with
  | none => exact .error _
  | some manifest =>
    dsimp only
    split
    · exact .error _
    cases manifest.workspacePath with
    | none => exact .error _
    | some path =>
      dsimp only
      split
      · exact .error _
      have roots := same.roots path
      cases first : left.root path with
      | directory workspace =>
        cases second : right.root path with
        | directory workspace' =>
          rw [first, second] at roots
          exact .workspace manifest roots
        | notDirectory | missing =>
          rw [first, second] at roots
          exact roots.elim
      | notDirectory =>
        cases second : right.root path with
        | notDirectory => exact .error _
        | directory workspace' | missing =>
          rw [first, second] at roots
          exact roots.elim
      | missing =>
        cases second : right.root path with
        | missing => exact .error _
        | directory workspace' | notDirectory =>
          rw [first, second] at roots
          exact roots.elim

/-- What the renter agreed to show: the outcome, the content and the places found. -/
structure View where
  success : Bool
  content : Option Text
  results : List (Text × Nat × Text)

def viewItem (item : ContextSearchResultItem) : Text × Nat × Text :=
  (item.path, item.line, item.preview)

def readView (language : Language) (site : Site) (input : ContextReadFileInput) : View :=
  let result := (readContextFile language site input).1
  ⟨result.success, result.content, []⟩

/-- The file that is read is no blocked one under another name. -/
def DiscreetRead (site : Site) (input : ContextReadFileInput) : Prop :=
  ∀ manifest workspace normalized target,
    resolveWorkspace site (site.getActiveManifest input.sessionId) = .ok (manifest, workspace) →
    normalizeRepoPath input.path = .ok normalized →
    resolveWorkspaceFile workspace normalized = .ok target →
    isPathBlocked (repoName target.realPath) = true →
      isPathBlocked (ContextBroker.relative normalized) = true

theorem read_same (same : SameSites language left right) (discreet : DiscreetRead left input) :
    readView language left input = readView language right input := by
  have workspaces := same.resolve (left.getActiveManifest input.sessionId)
  unfold readView readContextFile
  rw [← same.manifests]
  unfold DiscreetRead at discreet
  generalize resolveWorkspace left (left.getActiveManifest input.sessionId) = first
    at workspaces discreet ⊢
  generalize resolveWorkspace right (left.getActiveManifest input.sessionId) = second
    at workspaces ⊢
  cases workspaces with
  | error error => rfl
  | @workspace manifest workspace workspace' trees =>
    cases normal : normalizeRepoPath input.path with
    | error error => rfl
    | ok normalized =>
      have targets := trees.resolve normalized
      replace discreet := fun target => discreet manifest workspace normalized target rfl normal
      dsimp only
      generalize resolveWorkspaceFile workspace normalized = here at targets discreet ⊢
      generalize resolveWorkspaceFile workspace' normalized = there at targets ⊢
      cases targets with
      | error error => rfl
      | @file target target' files =>
        have scans : SameScan language (ContextBroker.relative normalized)
            target.content target'.content := by
          cases open' : isPathBlocked (repoName target.realPath) with
          | false => exact files.scans.elsewhere open' _
          | true =>
            have blocked := discreet target rfl open'
            exact ⟨(scanFile_blocked blocked _).1.trans (scanFile_blocked blocked _).1.symm,
              (scanFile_blocked blocked _).2.trans (scanFile_blocked blocked _).2.symm⟩
        dsimp only
        rw [← files.size, ← scans.1, ← scans.2]
        split
        · rfl
        · split
          · rfl
          · split
            · rfl
            · rfl

/-! ## Searching -/

section

variable (language : Language) (caseSensitive : Bool) (needle relPath : Text)

/-- What a search shows of a line, if the line contains the needle. -/
def shownLine (lines : List Text) (i : Nat) : Option Text :=
  (lines[i]?.filter (lineMatches language caseSensitive needle)).map fun line =>
    (scanFile language.shannonEntropy relPath line).content.getD []

/-- What a search shows of a line of a text; of a binary text it shows none. -/
def shownText (content : Text) (i : Nat) : Option Text :=
  if content.includes [0] then none
  else shownLine language caseSensitive needle relPath (splitLines content) i

end

section

variable {caseSensitive : Bool} {needle relPath : Text} {maxResults : Nat}

theorem shownLine_zero : shownLine language caseSensitive needle relPath (line :: rest) 0 =
      if lineMatches language caseSensitive needle line then
        some ((scanFile language.shannonEntropy relPath line).content.getD [])
      else none := by
  unfold shownLine
  rw [List.getElem?_cons_zero, Option.filter_some]
  split
  · rfl
  · rfl

theorem shownLine_succ (i : Nat) :
    shownLine language caseSensitive needle relPath (line :: rest) (i + 1) =
      shownLine language caseSensitive needle relPath rest i := rfl

/-- A search that shows nothing finds nothing. -/
theorem searchLines_none
    (nothing : ∀ i, shownLine language caseSensitive needle relPath lines i = none) (k : Nat)
    (results : List ContextSearchResultItem) :
    searchLines language caseSensitive needle maxResults relPath k lines results = results := by
  induction lines generalizing k with
  | nil => rfl
  | cons line rest ih =>
    have first := nothing 0
    rw [shownLine_zero] at first
    have other : ¬lineMatches language caseSensitive needle line = true := by
      intro here
      rw [if_pos here] at first
      exact absurd first nofun
    unfold searchLines
    split
    · rfl
    · exact ih (fun i => nothing (i + 1)) (k + 1)

/-- The lines of two texts that show the same add the same results. -/
theorem searchLines_same (shown : ∀ i, shownLine language caseSensitive needle relPath lines i =
      shownLine language caseSensitive needle relPath lines' i) (k : Nat)
    (same : results.map viewItem = results'.map viewItem) :
    (searchLines language caseSensitive needle maxResults relPath k lines results).map viewItem =
      (searchLines language caseSensitive needle maxResults relPath k lines' results').map
        viewItem := by
  induction lines generalizing lines' k results results' with
  | nil =>
    rw [searchLines_none fun i => (shown i).symm]
    exact same
  | cons line rest ih =>
    cases lines' with
    | nil =>
      rw [searchLines_none shown]
      exact same
    | cons line' rest' =>
      have lengths : results.length = results'.length := by
        rw [← List.length_map viewItem, same, List.length_map]
      have tails : ∀ i, shownLine language caseSensitive needle relPath rest i =
          shownLine language caseSensitive needle relPath rest' i := fun i => shown (i + 1)
      have heads := shown 0
      rw [shownLine_zero, shownLine_zero] at heads
      unfold searchLines
      rw [lengths]
      split
      · exact same
      by_cases here : lineMatches language caseSensitive needle line = true
      · rw [if_pos here] at heads ⊢
        by_cases there : lineMatches language caseSensitive needle line' = true
        · rw [if_pos there] at heads ⊢
          refine ih tails (k + 1) ?_
          rw [List.map_append, List.map_append, same]
          simp only [List.map_cons, viewItem, resultItem, Option.some.inj heads]
        · rw [if_neg there] at heads
          exact absurd heads nofun
      · rw [if_neg here] at heads ⊢
        by_cases there : lineMatches language caseSensitive needle line' = true
        · rw [if_pos there] at heads
          exact absurd heads.symm nofun
        · rw [if_neg there]
          exact ih tails (k + 1) same

end

/-- The walks find the same files. -/
theorem SameTree.walk (same : SameTree language path left right) (depth : Nat)
    (before : List.Forall₂ (SameFile language) files files') :
    List.Forall₂ (SameFile language) (ContextBroker.walk depth path left files)
      (ContextBroker.walk depth path right files') := by
  induction left generalizing path right depth files files' with
  | nil =>
    cases right with
    | nil => exact before
    | leaf _ _ _ | directory _ _ _ => exact same.elim
  | leaf name entry rest ih =>
    cases right with
    | nil | directory _ _ _ => exact same.elim
    | leaf name' entry' rest' =>
      obtain ⟨rfl, entries, others⟩ := same
      unfold ContextBroker.walk
      rw [before.length_eq]
      split
      · exact before
      refine ih others depth ?_
      cases entry with
      | file content size =>
        cases entry' with
        | file content' size' =>
          obtain ⟨rfl, scans⟩ := entries
          exact List.rel_append before (.cons ⟨rfl, rfl, scans⟩ .nil)
        | link _ | special => exact entries.elim
      | link target =>
        cases entry' with
        | link _ => exact before
        | file _ _ | special => exact entries.elim
      | special =>
        cases entry' with
        | special => exact before
        | file _ _ | link _ => exact entries.elim
  | directory name inner rest ihInner ihRest =>
    cases right with
    | nil | leaf _ _ _ => exact same.elim
    | directory name' inner' rest' =>
      obtain ⟨rfl, inners, others⟩ := same
      unfold ContextBroker.walk
      rw [before.length_eq]
      split
      · exact before
      refine ihRest others depth ?_
      split
      · exact before
      · exact ihInner inners (depth + 1) before

/-- Of a file that is neither too large nor blocked a search shows the same lines, each as
the firewall leaves it alone. -/
def AlikeFile (language : Language) (caseSensitive : Bool) (needle : Text)
    (left right : WorkspaceFile) : Prop :=
  left.size ≤ DEFAULT_MAX_SEARCH_FILE_BYTES → isPathBlocked (repoName left.realPath) = false →
    ∀ i, shownText language caseSensitive needle (repoName left.realPath) left.content i =
      shownText language caseSensitive needle (repoName left.realPath) right.content i

theorem searchFiles_same (found : List.Forall₂ (SameFile language) files files')
    (alike : List.Forall₂ (AlikeFile language caseSensitive needle) files files') (total : Nat)
    {results results' : List ContextSearchResultItem}
    (same : results.map viewItem = results'.map viewItem) :
    (searchFiles language caseSensitive needle maxResults files total results).map viewItem =
      (searchFiles language caseSensitive needle maxResults files' total results').map viewItem := by
  induction found generalizing total results results' with
  | nil => exact same
  | @cons file file' files files' same' tail ih =>
    obtain ⟨shows, others⟩ := List.forall₂_cons.mp alike
    replace ih := ih others
    have lengths : results.length = results'.length := by
      rw [← List.length_map viewItem, same, List.length_map]
    unfold AlikeFile repoName at shows
    unfold searchFiles
    rw [lengths, ← same'.size, ← same'.realPath]
    dsimp only
    split
    · exact same
    split
    · exact ih total same
    rename_i small
    split
    · exact same
    split
    · exact ih _ same
    rename_i passes
    rw [verdict_blocked, Bool.not_eq_true] at passes
    have shown := shows (Nat.le_of_not_lt small) passes
    unfold shownText at shown
    by_cases here : file.content.includes [0] = true
    · rw [if_pos here]
      by_cases there : file'.content.includes [0] = true
      · rw [if_pos there]
        exact ih _ same
      · simp only [here, there] at shown
        rw [if_neg there, searchLines_none fun i => (shown i).symm]
        exact ih _ same
    · rw [if_neg here]
      by_cases there : file'.content.includes [0] = true
      · simp only [here, there] at shown
        rw [if_pos there, searchLines_none shown]
        exact ih _ same
      · simp only [here, there] at shown
        rw [if_neg there]
        exact ih _ (searchLines_same shown 0 same)

def searchView (language : Language) (site : Site) (input : ContextSearchInput) : View :=
  let result := (searchContext language site input).1
  ⟨result.success, none, result.results.map viewItem⟩

/-- Whatever files the search opens, it shows the same of them at both sites. -/
def DiscreetSearch (language : Language) (left right : Site) (input : ContextSearchInput) : Prop :=
  ∀ manifest workspace workspace',
    resolveWorkspace left (left.getActiveManifest input.sessionId) = .ok (manifest, workspace) →
    resolveWorkspace right (right.getActiveManifest input.sessionId) = .ok (manifest, workspace') →
    List.Forall₂ (AlikeFile language input.caseSensitive
        (if input.caseSensitive then input.query.trim else language.toLowerCase input.query.trim))
      (listWorkspaceFiles workspace) (listWorkspaceFiles workspace')

theorem search_same (same : SameSites language left right)
    (discreet : DiscreetSearch language left right input) :
    searchView language left input = searchView language right input := by
  have workspaces := same.resolve (left.getActiveManifest input.sessionId)
  unfold searchView searchContext
  unfold DiscreetSearch at discreet
  rw [← same.manifests] at discreet ⊢
  dsimp only
  split
  · rfl
  generalize resolveWorkspace left (left.getActiveManifest input.sessionId) = first
    at workspaces discreet ⊢
  generalize resolveWorkspace right (left.getActiveManifest input.sessionId) = second
    at workspaces discreet ⊢
  cases workspaces with
  | error error => rfl
  | @workspace manifest workspace workspace' trees =>
    have alike := discreet manifest workspace workspace' rfl rfl
    have files : List.Forall₂ (SameFile language) (listWorkspaceFiles workspace)
        (listWorkspaceFiles workspace') := trees.walk 0 .nil
    exact congrArg (View.mk true none) (searchFiles_same files alike 0 rfl)

/-! ## Runs of calls -/

inductive Call where
  | read (input : ContextReadFileInput)
  | search (input : ContextSearchInput)

def view (language : Language) (site : Site) : Call → View
  | .read input => readView language site input
  | .search input => searchView language site input

/-- The call does not reach the text that the firewall hides. -/
def Discreet (language : Language) (left right : Site) : Call → Prop
  | .read input => DiscreetRead left input
  | .search input => DiscreetSearch language left right input

theorem view_same (same : SameSites language left right)
    (discreet : Discreet language left right call) :
    view language left call = view language right call := by
  cases call with
  | read input => exact read_same same discreet
  | search input => exact search_same same discreet

/-- Of a file that the firewall passes on as it is, both sites hold the same text. -/
theorem alike_of_passed (same : SameFile language left right)
    (passes : isPathBlocked (repoName left.realPath) = false → (scanFile language.shannonEntropy
      (repoName left.realPath) left.content).verdict = .passed)
    (caseSensitive : Bool) (needle : Text) : AlikeFile language caseSensitive needle left right := by
  intro _ open' i
  have scans := same.scans
  have passed := passes open'
  unfold SameScan at scans
  rw [scanFile_open open', scanFile_open open'] at scans
  rw [scanFile_open open'] at passed
  dsimp only at scans passed
  obtain ⟨verdicts, contents⟩ := scans
  -- a text is passed on only without a redaction
  have unredacted : ∀ content, (if 0 < (scanText language.shannonEntropy content).redactionCount
      then FirewallVerdict.redacted else .passed) = .passed →
        (scanText language.shannonEntropy content).content = content := by
    intro content verdict
    refine scanText_unredacted language.shannonEntropy ?_
    by_contra some'
    rw [if_pos (Nat.pos_of_ne_zero some')] at verdict
    cases verdict
  have first := unredacted left.content passed
  have second := unredacted right.content (verdicts.symm.trans passed)
  rw [first.symm.trans ((Option.some.inj contents).trans second)]

/-- Every file that the search may open is passed on as it is. -/
def NothingHidden (language : Language) (site : Site) (input : ContextSearchInput) : Prop :=
  ∀ manifest workspace,
    resolveWorkspace site (site.getActiveManifest input.sessionId) = .ok (manifest, workspace) →
    ∀ file ∈ listWorkspaceFiles workspace, isPathBlocked (repoName file.realPath) = false →
      (scanFile language.shannonEntropy (repoName file.realPath) file.content).verdict = .passed

theorem discreet_of_passed (same : SameSites language left right)
    (passes : NothingHidden language left input) : DiscreetSearch language left right input := by
  intro manifest workspace workspace' first second
  have workspaces := same.resolve (left.getActiveManifest input.sessionId)
  rw [← same.manifests] at second
  rw [first, second] at workspaces
  cases workspaces with
  | workspace _ trees =>
    have files : List.Forall₂ (SameFile language) (listWorkspaceFiles workspace)
        (listWorkspaceFiles workspace') := trees.walk 0 .nil
    have open' := passes manifest workspace first
    generalize listWorkspaceFiles workspace = found at files open' ⊢
    generalize listWorkspaceFiles workspace' = found' at files ⊢
    induction files with
    | nil => exact .nil
    | cons head tail ih =>
      rw [List.forall_mem_cons] at open'
      exact .cons (alike_of_passed head open'.1 _ _) (ih open'.2)

def plainLanguage : Language := ⟨Text.toLowerCase, fun _ => ⟨false, []⟩⟩

def withSecret (secret : String) : Text := text ("k\nsecret=\"" ++ secret ++ "\"")

def guardedWorkspace (secret : String) : Workspace :=
  .leaf (text "a") (.file (withSecret secret) 19) .nil

/-- One session whose workspace holds one file with a secret. -/
def guarding (secret : String) : Site where
  getActiveManifest _ := some ⟨text "m", some (text "w"), text "active"⟩
  root _ := .directory (guardedWorkspace secret)

theorem guarding_files (secret : String) :
    listWorkspaceFiles (guardedWorkspace secret) = [⟨[text "a"], withSecret secret, 19⟩] := rfl

def searchFor (query : String) : ContextSearchInput :=
  ⟨text "s", text query, none, false, none⟩

theorem guarding_evaluates :
    SameScan plainLanguage (text "a") (withSecret "aaaaaaaa") (withSecret "bbbbbbbb") ∧
      (searchView plainLanguage (guarding "aaaaaaaa") (searchFor "bbb")).results.length = 0 ∧
      (searchView plainLanguage (guarding "bbbbbbbb") (searchFor "bbb")).results.length = 1 := by
  unfold SameScan
  decide +kernel

theorem guarding_same : SameSites plainLanguage (guarding "aaaaaaaa") (guarding "bbbbbbbb") :=
  ⟨rfl, fun _ => ⟨rfl, ⟨rfl, guarding_evaluates.1⟩, trivial⟩⟩

/-- The file is read, and searched for a line that holds no secret. -/
def discreetCalls : List Call := [.read ⟨text "s", text "a", none, none⟩, .search (searchFor "k")]

theorem shownText_k (secret : String) (split : splitLines (withSecret secret) =
      [text "k", text ("secret=\"" ++ secret ++ "\"")])
    (other : lineMatches plainLanguage false (text "k") (text ("secret=\"" ++ secret ++ "\"")) = false)
    (textual : (withSecret secret).includes [0] = false) (i : Nat) :
    shownText plainLanguage false (text "k") (text "a") (withSecret secret) i =
      shownLine plainLanguage false (text "k") (text "a") [text "k"] i := by
  unfold shownText
  rw [textual, if_neg Bool.false_ne_true, split]
  rcases i with _ | _ | i
  · rw [shownLine_zero, shownLine_zero]
  · rw [shownLine_succ, shownLine_zero, other]
    rfl
  · rfl

theorem discreetCalls_discreet : ∀ call ∈ discreetCalls,
    Discreet plainLanguage (guarding "aaaaaaaa") (guarding "bbbbbbbb") call := by
  intro call member
  rcases List.mem_cons.mp member with rfl | member
  · intro manifest workspace normalized target first second found blocked
    obtain ⟨-, rfl⟩ := Prod.mk.inj (Except.ok.inj first)
    have path : normalizeRepoPath (text "a") = .ok [text "a"] := by decide +kernel
    obtain rfl := Except.ok.inj (path.symm.trans second)
    obtain rfl : ⟨[text "a"], withSecret "aaaaaaaa", 19⟩ = target := Except.ok.inj found
    exact absurd blocked (by decide +kernel)
  · obtain rfl := List.mem_singleton.mp member
    intro manifest workspace workspace' first second
    obtain ⟨-, rfl⟩ := Prod.mk.inj (Except.ok.inj first)
    obtain ⟨-, rfl⟩ := Prod.mk.inj (Except.ok.inj second)
    have named : repoName [text "a"] = text "a" := by decide +kernel
    have shown : ∀ i, shownText plainLanguage false (text "k") (repoName [text "a"])
        (withSecret "aaaaaaaa") i = shownText plainLanguage false (text "k") (repoName [text "a"])
          (withSecret "bbbbbbbb") i := by
      intro i
      rw [named, shownText_k "aaaaaaaa" (by decide +kernel) (by decide +kernel) (by decide +kernel),
        shownText_k "bbbbbbbb" (by decide +kernel) (by decide +kernel) (by decide +kernel)]
    have query : (searchFor "k").query.trim = text "k" := by decide +kernel
    exact .cons (fun _ _ => shown) .nil

end LetAgents.Rental.ContextLeaks

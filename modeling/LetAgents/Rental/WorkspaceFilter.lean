import LetAgents.Lib.Checked
import LetAgents.Lib.FileTree
import LetAgents.Rental.PathDenylist
import LetAgents.Rental.ScopeGlobs

/-!
# The filter of a materialised workspace

Source: src/api/rental/workspace-materializer.ts:577-671. The filter walks the extracted
tree and unlinks what the always-blocked list or the scope leaves out; it does not ask the
Secret Firewall.

Modelling boundary: sizes in bytes and the log are left out.
-/
namespace LetAgents.Rental.WorkspaceFilter

open Lib.Checked Lib.FileTree Lib.RegExp PathDenylist ScopeGlobs

variable {α : Type}

/-- `path.relative` of the workspace and a path below it. -/
def relative (path : List Text) : Text := Text.join (u '/') path

def walkDir (tree : Tree Text α) : List (List Text) := tree.leaves.map Prod.fst

/-- One round of the loop of `applyScopeAndDenylist`. -/
def filterFile (scopeGlobs : List Text) (tree : Tree Text α) (absPath : List Text) :
    Except SyntaxError (Tree Text α) := do
  let relPath := relative absPath
  let blocked ← isAlwaysBlocked relPath
  if blocked then .ok (tree.unlink absPath)
  else if 0 < scopeGlobs.length then do
    let isMatch ← someGlob scopeGlobs relPath
    if isMatch then .ok tree else .ok (tree.unlink absPath)
  else .ok tree

/-- The filtered workspace and its number of files. -/
def applyScopeAndDenylist (tree : Tree Text α) (scopeGlobs : List Text) :
    Except SyntaxError (Tree Text α × Nat) := do
  let filtered ← (walkDir tree).foldlM (filterFile scopeGlobs) tree
  let cleaned := filtered.cleanEmptyDirs
  .ok (cleaned, (walkDir cleaned).length)

/-! ## What the filter keeps -/

/-- The globs take the path in; no glob takes in all. -/
def scopeAllows (scopeGlobs : List Text) (relPath : Text) : Except SyntaxError Bool :=
  if 0 < scopeGlobs.length then someGlob scopeGlobs relPath else .ok true

/-- The filter keeps the path. -/
def keeps (scopeGlobs : List Text) (relPath : Text) : Except SyntaxError Bool := do
  let blocked ← isAlwaysBlocked relPath
  if blocked then .ok false else scopeAllows scopeGlobs relPath

variable {scopeGlobs : List Text} {tree after : Tree Text α} {paths : List (List Text)}

theorem filterFile_of (evaluates : keeps scopeGlobs (relative absPath) = .ok kept)
    (tree : Tree Text α) :
    filterFile scopeGlobs tree absPath = .ok (if kept then tree else tree.unlink absPath) := by
  obtain ⟨blocked, listed, rest⟩ := bind_ok evaluates
  unfold filterFile
  dsimp only
  rw [listed, ok_bind]
  cases blocked with
  | true =>
    obtain rfl := Except.ok.inj rest
    rfl
  | false =>
    simp only [Bool.false_eq_true, if_false] at rest ⊢
    unfold scopeAllows at rest
    by_cases some' : 0 < scopeGlobs.length
    · rw [if_pos some'] at rest ⊢
      rw [rest, ok_bind]
      cases kept with
      | true | false => rfl
    · rw [if_neg some'] at rest ⊢
      obtain rfl := Except.ok.inj rest
      rfl

theorem keeps_of (filtered : filterFile scopeGlobs tree absPath = .ok after) :
    ∃ kept, keeps scopeGlobs (relative absPath) = .ok kept := by
  obtain ⟨blocked, listed, rest⟩ := bind_ok filtered
  unfold keeps
  rw [listed, ok_bind]
  cases blocked with
  | true => exact ⟨false, rfl⟩
  | false =>
    unfold scopeAllows
    by_cases some' : 0 < scopeGlobs.length
    · rw [if_pos some'] at rest ⊢
      obtain ⟨kept, found, -⟩ := bind_ok rest
      exact ⟨kept, found⟩
    · exact ⟨true, if_neg some'⟩

/-- The loop goes through when every path can be decided. -/
theorem filter_goes
    (decided : ∀ path ∈ paths, ∃ kept, keeps scopeGlobs (relative path) = .ok kept)
    (tree : Tree Text α) : ∃ after, paths.foldlM (filterFile scopeGlobs) tree = .ok after := by
  induction paths generalizing tree with
  | nil => exact ⟨tree, rfl⟩
  | cons path paths ih =>
    obtain ⟨kept, evaluates⟩ := decided path List.mem_cons_self
    rw [List.foldlM_cons, filterFile_of evaluates, ok_bind]
    exact ih (fun other member => decided other (.tail _ member)) _

theorem filter_decided (ok : paths.foldlM (filterFile scopeGlobs) tree = .ok after) :
    ∀ path ∈ paths, ∃ kept, keeps scopeGlobs (relative path) = .ok kept := by
  induction paths generalizing tree with
  | nil => exact nofun
  | cons path paths ih =>
    obtain ⟨middle, first, rest⟩ := bind_ok ok
    exact List.forall_mem_cons.mpr ⟨keeps_of first, ih rest⟩

/-- What the loop leaves. -/
theorem filter_leaves (ok : paths.foldlM (filterFile scopeGlobs) tree = .ok after)
    (file : List Text × α) : file ∈ after.leaves ↔ file ∈ tree.leaves ∧
      (file.1 ∈ paths → keeps scopeGlobs (relative file.1) = .ok true) := by
  induction paths generalizing tree with
  | nil =>
    obtain rfl := Except.ok.inj ok
    simp
  | cons path paths ih =>
    obtain ⟨kept, evaluates⟩ := filter_decided ok path List.mem_cons_self
    rw [List.foldlM_cons, filterFile_of evaluates, ok_bind] at ok
    rw [ih ok]
    have here : file ∈ (if kept then tree else tree.unlink path).leaves ↔
        file ∈ tree.leaves ∧ (file.1 = path → keeps scopeGlobs (relative file.1) = .ok true) := by
      cases kept with
      | true =>
        refine (and_iff_left ?_).symm
        rintro rfl
        exact evaluates
      | false =>
        simp only [Bool.false_eq_true, if_false, Tree.leaves_unlink, List.mem_filter, ne_eq,
          decide_not, Bool.not_eq_true', decide_eq_false_iff_not]
        refine and_congr Iff.rfl ⟨fun other same => absurd same other, fun keepsIt same => ?_⟩
        have wrong := keepsIt same
        rw [same, evaluates] at wrong
        exact Bool.false_ne_true (Except.ok.inj wrong)
    rw [here, List.mem_cons, or_imp, and_assoc]

theorem applyScopeAndDenylist_inv (ok : applyScopeAndDenylist tree scopeGlobs = .ok (after, count)) :
    ∃ filtered, (walkDir tree).foldlM (filterFile scopeGlobs) tree = .ok filtered ∧
      after = filtered.cleanEmptyDirs ∧ count = after.leaves.length := by
  obtain ⟨filtered, walked, rest⟩ := bind_ok ok
  obtain ⟨rfl, rfl⟩ := Prod.mk.inj (Except.ok.inj rest)
  exact ⟨filtered, walked, rfl, List.length_map _⟩

/-- The filter leaves the files it keeps, and counts them. -/
theorem applyScopeAndDenylist_leaves
    (ok : applyScopeAndDenylist tree scopeGlobs = .ok (after, count)) (file : List Text × α) :
    file ∈ after.leaves ↔
      file ∈ tree.leaves ∧ keeps scopeGlobs (relative file.1) = .ok true := by
  obtain ⟨filtered, walked, rfl, -⟩ := applyScopeAndDenylist_inv ok
  rw [Tree.leaves_cleanEmptyDirs, filter_leaves walked]
  exact and_congr_right fun member => ⟨fun kept => kept (List.mem_map_of_mem member), fun kept _ => kept⟩

/-! ## The agreed files -/

/-- The renter and the denylists agree to the path. -/
structure Agreed (scopeGlobs : List Text) (relPath : Text) : Prop where
  inScope : scopeGlobs = [] ∨ ∃ glob ∈ scopeGlobs, Matches glob relPath
  allowed : isAlwaysBlocked relPath = .ok false
  passes : isPathBlocked relPath = false

/-- The filter does not throw and leaves exactly the agreed files. -/
def Exact (tree : Tree Text α) (scopeGlobs : List Text) : Prop :=
  ∃ after count, applyScopeAndDenylist tree scopeGlobs = .ok (after, count) ∧
    count = after.leaves.length ∧
    ∀ file, file ∈ after.leaves ↔ file ∈ tree.leaves ∧ Agreed scopeGlobs (relative file.1)

/-- A path that is always blocked, or one that the globs as compiled take in when it is in scope and
the firewall lets it pass, and only then. -/
def Fits (scopeGlobs : List Text) (relPath : Text) : Prop :=
  isAlwaysBlocked relPath = .ok true ∨ ∃ taken, scopeAllows scopeGlobs relPath = .ok taken ∧
    (taken = true ↔ (scopeGlobs = [] ∨ ∃ glob ∈ scopeGlobs, Matches glob relPath) ∧
      isPathBlocked relPath = false)

theorem fits_iff (scopeGlobs : List Text) (relPath : Text) : Fits scopeGlobs relPath ↔
    ∃ kept, keeps scopeGlobs relPath = .ok kept ∧ (kept = true ↔ Agreed scopeGlobs relPath) := by
  obtain ⟨blocked, listed⟩ := isAlwaysBlocked_ok relPath
  unfold Fits keeps
  rw [listed, ok_bind]
  cases blocked with
  | true =>
    refine iff_of_true (.inl rfl) ⟨false, rfl, iff_of_false Bool.false_ne_true fun agreed => ?_⟩
    have wrong := agreed.allowed
    rw [listed] at wrong
    exact Bool.false_ne_true (Except.ok.inj wrong).symm
  | false =>
    have same : Agreed scopeGlobs relPath ↔
        (scopeGlobs = [] ∨ ∃ glob ∈ scopeGlobs, Matches glob relPath) ∧
          isPathBlocked relPath = false :=
      ⟨fun agreed => ⟨agreed.inScope, agreed.passes⟩, fun parts => ⟨parts.1, listed, parts.2⟩⟩
    rw [or_iff_right fun wrong => Bool.false_ne_true (Except.ok.inj wrong)]
    simp only [Bool.false_eq_true, if_false, same]

theorem exact_iff (tree : Tree Text α) (scopeGlobs : List Text) : Exact tree scopeGlobs ↔
    ∀ file ∈ tree.leaves, Fits scopeGlobs (relative file.1) := by
  simp only [fits_iff]
  constructor
  · rintro ⟨after, count, ok, -, leaves⟩ file member
    obtain ⟨filtered, walked, -, -⟩ := applyScopeAndDenylist_inv ok
    obtain ⟨kept, evaluates⟩ := filter_decided walked file.1 (List.mem_map_of_mem member)
    refine ⟨kept, evaluates, ?_⟩
    have both := (leaves file).symm.trans (applyScopeAndDenylist_leaves ok file)
    rw [and_congr_right_iff] at both
    rw [both member, evaluates]
    exact ⟨congrArg _, Except.ok.inj⟩
  · intro fit
    have decided : ∀ path ∈ walkDir tree, ∃ kept, keeps scopeGlobs (relative path) = .ok kept := by
      intro path member
      obtain ⟨file, inTree, rfl⟩ := List.mem_map.mp member
      obtain ⟨kept, evaluates, -⟩ := fit file inTree
      exact ⟨kept, evaluates⟩
    obtain ⟨filtered, walked⟩ := filter_goes decided tree
    have ok : applyScopeAndDenylist tree scopeGlobs =
        .ok (filtered.cleanEmptyDirs, (walkDir filtered.cleanEmptyDirs).length) := by
      unfold applyScopeAndDenylist
      rw [walked]
      rfl
    refine ⟨_, _, ok, List.length_map _, fun file => ?_⟩
    rw [applyScopeAndDenylist_leaves ok]
    refine and_congr_right fun member => ?_
    obtain ⟨kept, evaluates, means⟩ := fit file member
    rw [evaluates, ← means]
    exact ⟨Except.ok.inj, congrArg _⟩

/-- With plain globs and paths of one line only the firewall's own denylist is missed. -/
theorem exact_plain (plain : ∀ glob ∈ scopeGlobs, Plain glob)
    (lines : ∀ file ∈ tree.leaves, OneLine (relative file.1)) : Exact tree scopeGlobs ↔
      ∀ file ∈ tree.leaves, isAlwaysBlocked (relative file.1) = .ok false →
        (scopeGlobs = [] ∨ ∃ glob ∈ scopeGlobs, Matches glob (relative file.1)) →
        isPathBlocked (relative file.1) = false := by
  rw [exact_iff]
  refine forall₂_congr fun file member => ?_
  obtain ⟨blocked, listed⟩ := isAlwaysBlocked_ok (relative file.1)
  have allows : ∃ taken, scopeAllows scopeGlobs (relative file.1) = .ok taken ∧
      (taken = true ↔ scopeGlobs = [] ∨ ∃ glob ∈ scopeGlobs, Matches glob (relative file.1)) := by
    unfold scopeAllows
    cases scopeGlobs with
    | nil => exact ⟨true, rfl, iff_of_true rfl (.inl rfl)⟩
    | cons glob globs =>
      obtain ⟨taken, evaluates⟩ := someGlob_ok plain (relative file.1)
      refine ⟨taken, evaluates, ?_⟩
      rw [someGlob_plain plain (lines file member) evaluates]
      exact (or_iff_right (List.cons_ne_nil _ _)).symm
  obtain ⟨taken, evaluates, means⟩ := allows
  unfold Fits
  rw [listed, evaluates]
  cases blocked with
  | true => exact iff_of_true (.inl rfl) fun wrong => absurd (Except.ok.inj wrong) Bool.false_ne_true.symm
  | false =>
    rw [or_iff_right fun wrong => Bool.false_ne_true (Except.ok.inj wrong)]
    constructor
    · rintro ⟨_, same, fits⟩ - inScope
      obtain rfl := Except.ok.inj same
      exact (fits.mp (means.mpr inScope)).2
    · intro openOnes
      exact ⟨taken, rfl, means.trans ⟨fun inScope => ⟨inScope, openOnes rfl inScope⟩, And.left⟩⟩

end LetAgents.Rental.WorkspaceFilter

import LetAgents.Rental.Materializer

/-!
# The files of a command root

Source: src/api/rental/workspace-materializer.ts:38-115, 468-566 and 577-613,
secret-firewall.ts:148-243. An approved file has to pass both denylists, for the workspace
is the root in which commands run; the filter of the whole tree asks one of them.
-/
namespace LetAgents.Rental.AgreedFiles

open Lib.Checked Lib.FileTree Lib.RegExp PathDenylist ScopeGlobs WorkspaceFilter Materializer

/-- Neither denylist blocks the path. -/
def Allowed (relPath : Text) : Prop :=
  isAlwaysBlocked relPath = .ok false ∧ isPathBlocked relPath = false

instance (relPath : Text) : Decidable (Allowed relPath) :=
  inferInstanceAs (Decidable (isAlwaysBlocked relPath = .ok false ∧ isPathBlocked relPath = false))

/-- No command root holds a file that a denylist blocks. -/
def NothingBlocked (world : World) : Prop :=
  ∀ id workspace, world.roots id = some workspace →
    ∀ file ∈ workspace.leaves, Allowed (relative file.1)

/-! ## Approved files -/

/-- No symbolic link stands between the root and the approved path. -/
def Direct (world : World) (input : MaterializeApprovedFileInput) : Prop :=
  ∀ relPath id workspace, normalizeApprovedPath input.filePath = some relPath →
    input.manifest.workspace = some id → world.roots id = some workspace →
      ∀ parent, realParent workspace relPath.dropLast = .inside parent → parent = relPath.dropLast

/-- An approval changes nothing, or it writes an allowed path. -/
inductive Approval (world : World) (input : MaterializeApprovedFileInput) (after : World) :
    Prop where
  | refused (same : after = world)
  | written (relPath parent : List Text) (id : Text) (workspace : Workspace) (content : List Nat)
      (path : normalizeApprovedPath input.filePath = some relPath)
      (allowed : Allowed (relative relPath)) (named : input.manifest.workspace = some id)
      (there : world.roots id = some workspace)
      (leads : realParent workspace relPath.dropLast = .inside parent)
      (wrote : after = { world with
        roots := Function.update world.roots id
          (some (workspace.write (.file content) (parent ++ relPath.getLast?.toList))) })

theorem writeApproved_written (ok : writeApproved workspace relPath content = .ok (some written)) :
    ∃ parent, realParent workspace relPath.dropLast = .inside parent ∧
      written = workspace.write (.file content) (parent ++ relPath.getLast?.toList) := by
  unfold writeApproved at ok
  split at ok
  · cases ok
  · split at ok
    · cases ok
    · cases ok
    · rename_i parent leads
      dsimp only at ok
      split at ok
      · cases ok
      · cases ok
      · exact ⟨parent, leads, (Option.some.inj (Except.ok.inj ok)).symm⟩
      · exact ⟨parent, leads, (Option.some.inj (Except.ok.inj ok)).symm⟩

theorem approve_cases (host : Host) (world : World) (input : MaterializeApprovedFileInput)
    (shown : Option (List Nat)) :
    Approval world input (materializeApprovedFile host world input shown).1 := by
  unfold materializeApprovedFile
  split
  · exact .refused rfl
  rename_i relPath path
  split
  · exact .refused rfl
  rename_i blocked listed
  split
  · exact .refused rfl
  rename_i passes
  rw [Bool.or_eq_true, not_or, Bool.not_eq_true, Bool.not_eq_true] at passes
  obtain ⟨rfl, notBlocked⟩ := passes
  split
  · exact .refused rfl
  rename_i id workspace present
  obtain ⟨id', named, mapped⟩ := Option.bind_eq_some_iff.mp present
  obtain ⟨workspace', there, same⟩ := Option.map_eq_some_iff.mp mapped
  obtain ⟨rfl, rfl⟩ := Prod.mk.inj same
  split
  · exact .refused rfl
  split
  · exact .refused rfl
  split
  · exact .refused rfl
  split
  · exact .refused rfl
  split
  · exact .refused rfl
  · exact .refused rfl
  rename_i written ok
  obtain ⟨parent, leads, rfl⟩ := writeApproved_written ok
  exact .written relPath parent id' workspace' _ path ⟨listed, notBlocked⟩ named there leads rfl

theorem dropLast_append_last (path : List Text) :
    path.dropLast ++ path.getLast?.toList = path := by
  cases last : path.getLast? with
  | none =>
    rw [List.getLast?_eq_none_iff.mp last]
    rfl
  | some name => exact List.dropLast_append_getLast? name last

/-! ## One call -/

/-- The call brings no blocked file in: the filter fits what it extracts, or the approved
path is written where it says. -/
def Careful (world : World) : Call → Prop
  | .materialize input outcomes => ∀ extracted ∈ outcomes.extracted,
      ∀ file ∈ extracted.leaves, Fits input.scopeGlobs (relative file.1)
  | .approve input _ => Direct world input

theorem extractWorkspace_filtered
    (ok : extractWorkspace input repoUrl outcomes = .ok (workspace, result)) :
    ∃ extracted count, outcomes.extracted = some extracted ∧
      applyScopeAndDenylist extracted input.scopeGlobs = .ok (workspace, count) := by
  obtain ⟨-, ok⟩ := require_bind_ok ok
  obtain ⟨_, -, ok⟩ := bind_ok ok
  obtain ⟨-, ok⟩ := require_bind_ok ok
  obtain ⟨extracted, there, ok⟩ := found_bind_ok ok
  obtain ⟨⟨filtered, count⟩, applied, ok⟩ := bind_ok ok
  obtain ⟨-, ok⟩ := require_bind_ok ok
  obtain ⟨rfl, -⟩ := Prod.mk.inj (Except.ok.inj ok)
  refine ⟨extracted, count, there, ?_⟩
  cases evaluates : applyScopeAndDenylist extracted input.scopeGlobs with
  | error e =>
    rw [evaluates] at applied
    cases applied
  | ok pair =>
    rw [evaluates] at applied
    exact congrArg _ (Except.ok.inj applied)

theorem bareClone_roots (world : World) (repoUrl : Text) (clone : CloneOutcome) :
    (bareClone world repoUrl clone).1.roots = world.roots := by
  unfold bareClone
  dsimp only
  split
  · rfl
  · split
    · rfl
    · rfl

theorem materialize_roots (host : Host) (world : World) (input : MaterializeWorkspaceInput)
    (outcomes : WorkspaceOutcomes) :
    (materializeWorkspace host world input outcomes).1.roots = world.roots ∨
      ∃ id extracted workspace count, outcomes.extracted = some extracted ∧
        applyScopeAndDenylist extracted input.scopeGlobs = .ok (workspace, count) ∧
        (materializeWorkspace host world input outcomes).1.roots =
          Function.update world.roots id (some workspace) := by
  unfold materializeWorkspace
  split
  · exact .inl rfl
  split
  · exact .inl rfl
  rename_i repoUrl _
  have unchanged := bareClone_roots world repoUrl outcomes.clone
  split
  · rename_i after failure does
    rw [does] at unchanged
    exact .inl unchanged
  rename_i after clone does
  rw [does] at unchanged
  split
  · exact .inl unchanged
  rename_i workspace result ok
  obtain ⟨extracted, count, there, applied⟩ := extractWorkspace_filtered ok
  refine .inr ⟨result.manifestId, extracted, workspace, count, there, applied, ?_⟩
  exact congrArg (Function.update · result.manifestId (some workspace)) unchanged

/-- A new root with allowed files keeps the others as they are. -/
theorem NothingBlocked.update {world : World} (clean : NothingBlocked world) {after : World}
    {id : Text} (changed : after.roots = Function.update world.roots id (some workspace))
    (allowed : ∀ file ∈ workspace.leaves, Allowed (relative file.1)) : NothingBlocked after := by
  intro id' workspace' there
  rw [changed] at there
  by_cases here : id' = id
  · subst here
    rw [Function.update_self] at there
    obtain rfl := Option.some.inj there
    exact allowed
  · rw [Function.update_of_ne here] at there
    exact clean id' workspace' there

theorem step_clean (clean : NothingBlocked world) (careful : Careful world call) :
    NothingBlocked (step host world call).1 := by
  cases call with
  | materialize input outcomes =>
    rcases materialize_roots host world input outcomes with
      same | ⟨id, extracted, workspace, count, there, applied, changed⟩
    · intro id workspace present
      exact clean id workspace (same ▸ present)
    · refine clean.update changed fun file member => ?_
      obtain ⟨inTree, kept⟩ := (applyScopeAndDenylist_leaves applied file).mp member
      obtain ⟨_, evaluates, means⟩ :=
        (fits_iff _ _).mp (careful extracted there file inTree)
      have agreed := means.mp (Except.ok.inj (evaluates.symm.trans kept))
      exact ⟨agreed.allowed, agreed.passes⟩
  | approve input shown =>
    have approval := approve_cases host world input shown
    cases approval with
    | refused same =>
      intro id workspace present
      exact clean id workspace (congrFun (congrArg World.roots same) id ▸ present)
    | written relPath parent id workspace content path allowed named there leads wrote =>
      refine clean.update (congrArg World.roots wrote) fun file member => ?_
      rcases Tree.leaves_write member with rfl | old
      · obtain rfl := careful relPath id workspace path named there parent leads
        rw [dropLast_append_last]
        exact allowed
      · exact clean id workspace there file old

/-! ## The agreed files -/

/-- Every call of the run is careful at the world it meets. -/
def CarefulRun (host : Host) (calls : List Call) : Prop :=
  ∀ before call after, calls = before ++ call :: after → Careful (run host before) call

theorem run_clean (careful : CarefulRun host calls) : NothingBlocked (run host calls) := by
  induction calls using List.reverseRecOn with
  | nil => exact fun _ _ there => absurd there (Option.some_ne_none _).symm
  | append_singleton calls call ih =>
    rw [run_concat]
    refine step_clean (ih ?_) (careful calls call [] rfl)
    rintro before earlier after rfl
    exact careful before earlier (after ++ [call]) (List.append_assoc _ _ _)

/-- A repository with an environment file and one source. -/
def smallRepository : Workspace :=
  .leaf (text ".env") (.file [0]) (.leaf (text "a.ts") (.file [1]) .nil)

/-- One session with the whole repository in scope, and a file approved later. -/
def approvedCalls : List Call := [
  .materialize ⟨text "s", text "/r", text "abcdef0", []⟩
    ⟨text "m", .done, true, true, some smallRepository, true⟩,
  .approve ⟨⟨text "abcdef0", some (text "m")⟩, text "/r", text "b.ts"⟩ (some [2])]

theorem approvedCalls_careful : CarefulRun ⟨text "/tmp", true⟩ approvedCalls := by
  intro before call after split
  rcases before with _ | ⟨first, _ | ⟨second, before⟩⟩
  · obtain ⟨rfl, rfl⟩ := List.cons.inj split
    rintro _ ⟨⟩ file member
    rcases List.mem_cons.mp member with rfl | member
    · exact .inl (by decide +kernel)
    · obtain rfl := List.mem_singleton.mp member
      exact .inr ⟨true, rfl, iff_of_true rfl ⟨.inl rfl, by decide +kernel⟩⟩
  · obtain ⟨-, rest⟩ := List.cons.inj split
    obtain ⟨rfl, rfl⟩ := List.cons.inj rest
    intro relPath id workspace path named there parent leads
    obtain rfl : [text "b.ts"] = relPath := Option.some.inj (Eq.trans (by decide +kernel) path)
    exact (RealParent.inside.inj leads).symm
  · exact absurd (congrArg List.length split) (by simp [approvedCalls])

end LetAgents.Rental.AgreedFiles

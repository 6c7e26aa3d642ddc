import LetAgents.Rental.PatchApply

/-!
# What an application of a patch leaves

Source: src/api/rental/patch-gate/apply.ts:24-165. An application that returns leaves what the
last operation on each path says. One that throws restores every file, unless it put a
directory where a file stood.
-/
namespace LetAgents.Rental.PatchGate

open Lib Lib.Disks Lib.RegExp PathPolicy

/-! ## The outcome of a call -/

/-- Every file has the content it had. -/
def SameFiles (before after : Workspace) : Prop := ∀ path, after.content path = before.content path

/-- The last check of a path with a sanitized content. -/
def Sanitized (checks : List PatchCheckResult) (normalizedPath content : Text) : Prop :=
  ∃ earlier check later, checks = earlier ++ check :: later ∧ check.file = normalizedPath ∧
    check.sanitizedContent = some content ∧
    ∀ other ∈ later, other.file = normalizedPath → other.sanitizedContent = none

/-- The last operation on a path decides what stands there, and no other file changes. -/
structure Applied (result : PatchGateResult) (before after : Workspace) : Prop where
  deleted : ∀ earlier file later normalizedPath,
    result.proposal.files = earlier ++ file :: later →
    normalizePatchPath file.path = .ok normalizedPath →
    (∀ other ∈ later, normalizePatchPath other.path ≠ .ok normalizedPath) →
    file.operation = .delete → after.content (fullPath normalizedPath) = none
  sanitized : ∀ earlier file later normalizedPath content,
    result.proposal.files = earlier ++ file :: later →
    normalizePatchPath file.path = .ok normalizedPath →
    (∀ other ∈ later, normalizePatchPath other.path ≠ .ok normalizedPath) →
    file.operation ≠ .delete → Sanitized result.checks normalizedPath content →
    after.content (fullPath normalizedPath) = some (utf8 content)
  unchecked : ∀ earlier file later normalizedPath,
    result.proposal.files = earlier ++ file :: later →
    normalizePatchPath file.path = .ok normalizedPath →
    (∀ other ∈ later, normalizePatchPath other.path ≠ .ok normalizedPath) →
    file.operation ≠ .delete → (¬ ∃ content, Sanitized result.checks normalizedPath content) →
    after.content (fullPath normalizedPath) = file.content.map utf8
  others : ∀ path,
    (∀ file ∈ result.proposal.files, ∀ normalizedPath,
      normalizePatchPath file.path = .ok normalizedPath → fullPath normalizedPath ≠ path) →
    after.content path = before.content path

/-- A call that throws leaves the files as they were, and one that returns has applied the
patch. -/
def Atomic (world : World) (workspace : Workspace) (result : PatchGateResult)
    (renterApproved : Bool) : Prop :=
  (∀ after error, applyPatch world workspace result renterApproved = (after, .error error) →
    SameFiles workspace after) ∧
  ∀ after applied, applyPatch world workspace result renterApproved = (after, .ok applied) →
    Applied result workspace after

/-! ## Buried files -/

/-- The operation puts a directory where a file stood before the call: the file is gone by
now, and the directories of the new file lead over its path. -/
def Buries (world : World) (result : PatchGateResult) (before : Workspace) (file : PatchFile)
    (s : Progress) : Prop :=
  file.operation ≠ .delete ∧ ∃ normalizedPath path,
    normalizePatchPath file.path = .ok normalizedPath ∧
    truthy (contentFor result file normalizedPath) = true ∧
    before.content path ≠ none ∧ s.workspace.entry path = none ∧
    path <+: (fullPath normalizedPath).dropLast ∧
    -- `mkdirSync` may fail on the way
    ∀ damage, world.fails s.clock = some damage → path.length ≤ damage.made

/-- None of the operations that are executed buries a file. -/
def SparesFrom (world : World) (result : PatchGateResult) (before : Workspace) :
    List PatchFile → Progress → Prop
  | [], _ => True
  | file :: rest, s => ¬ Buries world result before file s ∧
      ∀ s', applyFile world result file s = (s', none) → SparesFrom world result before rest s'

/-- If the body of the `try` throws, none of the operations it has executed buried a file. -/
def Spared (world : World) (workspace : Workspace) (result : PatchGateResult) : Prop :=
  (attempt world result ⟨workspace, 0, .empty⟩).2 ≠ none →
    ∀ s, Statement.each (backUp world) result.proposal.files ⟨workspace, 0, .empty⟩ = (s, none) →
      SparesFrom world result workspace result.proposal.files s

/-! ## Statements -/

section

variable {α : Type} {statement : α → Statement}

theorem Statement.then_some {first second : Statement} {s s' : Progress} {cause : Cause}
    (failed : first s = (s', some cause)) : first.then second s = (s', some cause) := by
  unfold Statement.then
  rw [failed]

theorem Statement.then_none {first second : Statement} {s s' : Progress}
    (done : first s = (s', none)) : first.then second s = second s' := by
  unfold Statement.then
  rw [done]

/-- What every statement keeps, they keep together, whether or not one of them throws. -/
theorem Statement.then_keeps {first second : Statement} {keeps : Progress → Prop}
    (one : ∀ s, keeps s → keeps (first s).1) (other : ∀ s, keeps s → keeps (second s).1)
    (s : Progress) (here : keeps s) : keeps (first.then second s).1 := by
  cases data : first s with
  | mk s' outcome =>
    have after := one s here
    rw [data] at after
    cases outcome with
    | none =>
      rw [Statement.then_none data]
      exact other s' after
    | some cause =>
      rw [Statement.then_some data]
      exact after

theorem Statement.each_keeps {keeps : Progress → Prop} {items : List α}
    (one : ∀ x ∈ items, ∀ s, keeps s → keeps (statement x s).1) (s : Progress) (here : keeps s) :
    keeps (Statement.each statement items s).1 := by
  induction items generalizing s with
  | nil => exact here
  | cons x rest ih =>
    exact Statement.then_keeps (one x List.mem_cons_self)
      (ih fun y member => one y (.tail _ member)) s here

end

/-- A file operation leaves the disk as it was, or does its work or part of it. -/
theorem fileOperation_cases (world : World) (name : String)
    (act : Workspace → Option Workspace) (damaged : Damage → Workspace → Option Workspace)
    (s : Progress) :
    (fileOperation world name act damaged s).1.backups = s.backups ∧
      ((fileOperation world name act damaged s).1.workspace = s.workspace ∨
        act s.workspace = some (fileOperation world name act damaged s).1.workspace ∨
        ∃ damage, world.fails s.clock = some damage ∧
          damaged damage s.workspace = some (fileOperation world name act damaged s).1.workspace) := by
  unfold fileOperation
  cases failing : world.fails s.clock with
  | some damage =>
    refine ⟨rfl, ?_⟩
    dsimp only
    cases data : damaged damage s.workspace with
    | none => exact .inl rfl
    | some workspace => exact .inr (.inr ⟨damage, rfl, data⟩)
  | none =>
    cases data : act s.workspace with
    | none => exact ⟨rfl, .inl rfl⟩
    | some workspace => exact ⟨rfl, .inr (.inl rfl)⟩

theorem fileOperation_none (done : fileOperation world name act damaged s = (s', none)) :
    act s.workspace = some s'.workspace := by
  unfold fileOperation at done
  cases failing : world.fails s.clock with
  | some damage =>
    rw [failing] at done
    cases done
  | none =>
    rw [failing] at done
    cases data : act s.workspace with
    | none =>
      rw [data] at done
      cases done
    | some workspace =>
      rw [data] at done
      cases done
      rfl

theorem writeFileSync_cases (world : World) (path : List Text) (content : List UInt8) (s : Progress) :
    (writeFileSync world path content s).1.backups = s.backups ∧
      ((writeFileSync world path content s).1.workspace = s.workspace ∨
        ∃ left, s.workspace.write path left =
          some (writeFileSync world path content s).1.workspace) := by
  obtain ⟨same, unchanged | written | ⟨damage, -, damaged⟩⟩ := fileOperation_cases world
    "writeFileSync" (fun workspace => workspace.write path content)
    (fun damage workspace => damage.written.bind fun left => workspace.write path left) s
  · exact ⟨same, .inl unchanged⟩
  · exact ⟨same, .inr ⟨content, written⟩⟩
  · obtain ⟨left, -, written⟩ := Option.bind_eq_some_iff.mp damaged
    exact ⟨same, .inr ⟨left, written⟩⟩

theorem unlinkSync_cases (world : World) (path : List Text) (s : Progress) :
    (unlinkSync world path s).1.backups = s.backups ∧
      ((unlinkSync world path s).1.workspace = s.workspace ∨
        s.workspace.unlink path = some (unlinkSync world path s).1.workspace) := by
  obtain ⟨same, unchanged | unlinked | ⟨damage, -, damaged⟩⟩ := fileOperation_cases world
    "unlinkSync" (fun workspace => workspace.unlink path)
    (fun damage workspace => if damage.unlinked then workspace.unlink path else none) s
  · exact ⟨same, .inl unchanged⟩
  · exact ⟨same, .inr unlinked⟩
  · split at damaged
    · exact ⟨same, .inr damaged⟩
    · cases damaged

/-- `mkdirSync` makes the directories down to the depth at which it fails. -/
theorem mkdirSync_depth (world : World) (dir : List Text) (s : Progress) :
    (mkdirSync world dir s).1.backups = s.backups ∧ ∃ depth,
      (mkdirSync world dir s).1.workspace = (s.workspace.mkdir dir depth).getD s.workspace ∧
      ∀ path, path <+: dir → (path.length ≤ depth ↔
        ∀ damage, world.fails s.clock = some damage → path.length ≤ damage.made) := by
  unfold mkdirSync fileOperation
  cases failing : world.fails s.clock with
  | some damage =>
    refine ⟨rfl, damage.made, rfl, fun path _ => ?_⟩
    constructor
    · rintro short _ ⟨⟩
      exact short
    · intro short
      exact short damage rfl
  | none =>
    dsimp only
    cases data : s.workspace.mkdir dir dir.length with
    | none | some workspace =>
      refine ⟨rfl, dir.length, ?_, fun path above => ?_⟩
      · rw [data]
        rfl
      · exact iff_of_true above.length_le fun _ none' => absurd none' (Option.some_ne_none _).symm

/-! ## One operation -/

/-- The operation makes a directory at a path. -/
def Makes (world : World) (result : PatchGateResult) (file : PatchFile) (s : Progress)
    (path : List Text) : Prop :=
  file.operation ≠ .delete ∧ ∃ normalizedPath,
    normalizePatchPath file.path = .ok normalizedPath ∧
    truthy (contentFor result file normalizedPath) = true ∧ s.workspace.entry path = none ∧
    path <+: (fullPath normalizedPath).dropLast ∧
    ∀ damage, world.fails s.clock = some damage → path.length ≤ damage.made

/-- What an operation on a file does to the disk, whether or not it throws. -/
structure Effect (world : World) (result : PatchGateResult) (file : PatchFile)
    (s s' : Progress) : Prop where
  backups : s'.backups = s.backups
  /-- Only the file itself changes. -/
  contents : ∀ path, (∀ normalizedPath, normalizePatchPath file.path = .ok normalizedPath →
    fullPath normalizedPath ≠ path) → s'.workspace.content path = s.workspace.content path
  directories : ∀ path, s.workspace.entry path = some .directory →
    s'.workspace.entry path = some .directory
  made : ∀ path, s'.workspace.entry path = some .directory →
    s.workspace.entry path = some .directory ∨ Makes world result file s path
  makes : ∀ path, Makes world result file s path →
    (∀ normalizedPath, normalizePatchPath file.path = .ok normalizedPath →
      ∀ above, above <+: (fullPath normalizedPath).dropLast → s.workspace.content above = none) →
    s'.workspace.entry path = some .directory

section

variable {world : World} {result : PatchGateResult} {file : PatchFile} {s s' : Progress}

/-- An operation that does nothing. -/
theorem Effect.nothing (same : s'.workspace = s.workspace) (backups : s'.backups = s.backups)
    (makesNothing : ∀ path, ¬ Makes world result file s path) : Effect world result file s s' := by
  constructor
  · exact backups
  · intro path _
    rw [same]
  · intro path here
    rw [same]
    exact here
  · intro path here
    rw [same] at here
    exact .inl here
  · intro path makes
    exact absurd makes (makesNothing path)

/-- A write behind another effect. -/
theorem Effect.write {normalizedPath : Text} {left : List UInt8} {s'' : Progress}
    (here : normalizePatchPath file.path = .ok normalizedPath)
    (effect : Effect world result file s s') (backups : s''.backups = s'.backups)
    (written : s'.workspace.write (fullPath normalizedPath) left = some s''.workspace) :
    Effect world result file s s'' := by
  obtain ⟨entry, -, notDirectory⟩ := Disk.write_some written
  -- a write changes no directory
  have same : ∀ path, s''.workspace.entry path = some .directory ↔
      s'.workspace.entry path = some .directory := by
    intro path
    rw [entry]
    by_cases at' : path = fullPath normalizedPath
    · rw [at', Function.update_self]
      refine iff_of_false ?_ notDirectory
      rintro ⟨⟩
    · rw [Function.update_of_ne at']
  constructor
  · exact backups.trans effect.backups
  · intro path other
    rw [Disk.content_write written, if_neg (Ne.symm (other normalizedPath here))]
    exact effect.contents path other
  · intro path directory
    exact (same path).mpr (effect.directories path directory)
  · intro path directory
    exact effect.made path ((same path).mp directory)
  · intro path makes free
    exact (same path).mpr (effect.makes path makes free)

theorem makeDirectory_effect (here : normalizePatchPath file.path = .ok normalizedPath)
    (notDelete : file.operation ≠ .delete)
    (filled : truthy (contentFor result file normalizedPath) = true) (s : Progress) :
    Effect world result file s
      (makeDirectory world (fullPath normalizedPath).dropLast s).1 := by
  unfold makeDirectory
  split
  · rename_i stands
    refine Effect.nothing rfl rfl ?_
    rintro path ⟨-, _, here', -, missing, above, -⟩
    rw [here, Except.ok.injEq] at here'
    obtain rfl := here'
    obtain ⟨more, split⟩ := above
    rw [Disk.present, Option.isSome_iff_ne_none, ← split] at stands
    by_cases last : more = []
    · rw [last, List.append_nil] at stands
      exact stands missing
    · rw [Disk.above last stands] at missing
      cases missing
  · obtain ⟨backups, depth, workspace, reach⟩ :=
      mkdirSync_depth world (fullPath normalizedPath).dropLast s
    have makes_iff : ∀ path, Makes world result file s path ↔ s.workspace.entry path = none ∧
        path <+: (fullPath normalizedPath).dropLast ∧ path.length ≤ depth := by
      intro path
      constructor
      · rintro ⟨-, _, here', -, missing, above, far⟩
        rw [here, Except.ok.injEq] at here'
        obtain rfl := here'
        exact ⟨missing, above, (reach path above).mpr far⟩
      · rintro ⟨missing, above, short⟩
        exact ⟨notDelete, normalizedPath, here, filled, missing, above, (reach path above).mp short⟩
    cases data : s.workspace.mkdir (fullPath normalizedPath).dropLast depth with
    | none =>
      rw [data, Option.getD_none] at workspace
      constructor
      · exact backups
      · intro path _
        rw [workspace]
      · intro path directory
        rw [workspace]
        exact directory
      · intro path directory
        rw [workspace] at directory
        exact .inl directory
      · intro path _ free
        -- nothing is in the way of `mkdirSync`
        unfold Disk.mkdir at data
        rw [dif_pos] at data
        · cases data
        · intro above member
          exact free normalizedPath here above ((List.mem_inits _ _).mp member)
    | some made =>
      rw [data, Option.getD_some] at workspace
      constructor
      · exact backups
      · intro path _
        rw [workspace]
        exact Disk.content_mkdir data path
      · intro path directory
        rw [workspace, Disk.mkdir_some data, directory, if_neg]
        rintro ⟨⟨⟩, -⟩
      · intro path directory
        rw [workspace, Disk.mkdir_some data] at directory
        split at directory
        · rename_i new
          exact .inr ((makes_iff path).mpr new)
        · exact .inl directory
      · intro path makes _
        rw [workspace, Disk.mkdir_some data, if_pos ((makes_iff path).mp makes)]

theorem applyFile_invalid (here : normalizePatchPath file.path = .error reason) :
    applyFile world result file s = (s, some (.invalidPath reason)) := by
  unfold applyFile withPath
  rw [here]

section

variable (here : normalizePatchPath file.path = .ok normalizedPath)
include here

theorem applyFile_deletes (deletes : file.operation = .delete) : applyFile world result file s =
      if s.workspace.present (fullPath normalizedPath) then
        unlinkSync world (fullPath normalizedPath) s
      else (s, none) := by
  unfold applyFile withPath
  rw [here, deletes]

theorem applyFile_empty (notDelete : file.operation ≠ .delete)
    (empty : truthy (contentFor result file normalizedPath) = false) :
    applyFile world result file s = (s, some (.noContent file.operation normalizedPath)) := by
  unfold applyFile withPath
  rw [here]
  cases operation : file.operation with
  | delete => exact absurd operation notDelete
  | modify | create =>
    dsimp only
    rcases data : contentFor result file normalizedPath with _ | _ | ⟨c, rest⟩
    · rfl
    · rfl
    · rw [data] at empty
      cases empty

theorem applyFile_filled (notDelete : file.operation ≠ .delete)
    (filled : contentFor result file normalizedPath = some content) (nonempty : content ≠ []) :
    applyFile world result file s =
      (makeDirectory world (fullPath normalizedPath).dropLast).then
        (writeFileSync world (fullPath normalizedPath) (utf8 content)) s := by
  unfold applyFile withPath
  rw [here]
  cases operation : file.operation with
  | delete => exact absurd operation notDelete
  | modify | create =>
    dsimp only
    rw [filled]
    cases content with
    | nil => exact absurd rfl nonempty
    | cons c rest => rfl

end

theorem filled_of_truthy (filled : truthy value = true) :
    ∃ content, value = some content ∧ content ≠ [] := by
  obtain ⟨content, rfl, nonempty⟩ := (Option.any_eq_true _ _).mp filled
  exact ⟨content, rfl, of_decide_eq_true nonempty⟩

theorem applyFile_effect (world : World) (result : PatchGateResult) (file : PatchFile)
    (s : Progress) : Effect world result file s (applyFile world result file s).1 := by
  cases here : normalizePatchPath file.path with
  | error reason =>
    rw [applyFile_invalid here]
    refine Effect.nothing rfl rfl ?_
    rintro path ⟨-, _, here', -⟩
    rw [here] at here'
    cases here'
  | ok normalizedPath =>
    by_cases deletes : file.operation = .delete
    · have makesNothing : ∀ path, ¬ Makes world result file s path :=
        fun _ makes => makes.1 deletes
      rw [applyFile_deletes here deletes]
      split
      · obtain ⟨backups, unchanged | unlinked⟩ :=
          unlinkSync_cases world (fullPath normalizedPath) s
        · exact Effect.nothing unchanged backups makesNothing
        · obtain ⟨entry, isFile⟩ := Disk.unlink_some unlinked
          constructor
          · exact backups
          · intro path other
            rw [Disk.content_unlink unlinked, if_neg (Ne.symm (other normalizedPath here))]
          · intro path directory
            rw [entry, Function.update_of_ne]
            · exact directory
            · rintro rfl
              rw [Disk.content_of_directory directory] at isFile
              cases isFile
          · intro path directory
            rw [entry] at directory
            by_cases at' : path = fullPath normalizedPath
            · rw [at', Function.update_self] at directory
              cases directory
            · rw [Function.update_of_ne at'] at directory
              exact .inl directory
          · intro path makes
            exact absurd makes (makesNothing path)
      · exact Effect.nothing rfl rfl makesNothing
    · cases filled : truthy (contentFor result file normalizedPath) with
      | false =>
        rw [applyFile_empty here deletes filled]
        refine Effect.nothing rfl rfl ?_
        rintro path ⟨-, _, here', filled', -⟩
        rw [here, Except.ok.injEq] at here'
        rw [← here', filled] at filled'
        cases filled'
      | true =>
        obtain ⟨content, value, nonempty⟩ := filled_of_truthy filled
        rw [applyFile_filled here deletes value nonempty]
        have effect := @makeDirectory_effect world result file _ here deletes filled s
        cases data : makeDirectory world (fullPath normalizedPath).dropLast s with
        | mk s' outcome =>
          rw [data] at effect
          cases outcome with
          | some cause =>
            rw [Statement.then_some data]
            exact effect
          | none =>
            rw [Statement.then_none data]
            obtain ⟨backups, unchanged | ⟨left, written⟩⟩ :=
              writeFileSync_cases world (fullPath normalizedPath) (utf8 content) s'
            · constructor
              · exact backups.trans effect.backups
              · rw [unchanged]
                exact effect.contents
              · rw [unchanged]
                exact effect.directories
              · rw [unchanged]
                exact effect.made
              · rw [unchanged]
                exact effect.makes
            · exact effect.write here backups written

/-- An operation that goes well leaves on its path what it says. -/
theorem applyFile_done (here : normalizePatchPath file.path = .ok normalizedPath)
    (done : applyFile world result file s = (s', none)) :
    s'.workspace.content (fullPath normalizedPath) =
      if file.operation = .delete then none
      else (contentFor result file normalizedPath).map utf8 := by
  by_cases deletes : file.operation = .delete
  · rw [if_pos deletes]
    rw [applyFile_deletes here deletes] at done
    split at done
    · have unlinked := fileOperation_none done
      rw [Disk.content_unlink unlinked, if_pos rfl]
    · rename_i absent
      cases done
      rw [Disk.present, Option.isSome_iff_ne_none, not_not] at absent
      rw [Disk.content, absent]
  · rw [if_neg deletes]
    cases filled : truthy (contentFor result file normalizedPath) with
    | false =>
      rw [applyFile_empty here deletes filled] at done
      cases done
    | true =>
      obtain ⟨content, value, nonempty⟩ := filled_of_truthy filled
      rw [applyFile_filled here deletes value nonempty] at done
      cases data : makeDirectory world (fullPath normalizedPath).dropLast s with
      | mk s₁ outcome =>
        cases outcome with
        | some cause =>
          rw [Statement.then_some data] at done
          cases done
        | none =>
          rw [Statement.then_none data] at done
          have written := fileOperation_none done
          rw [Disk.content_write written, if_pos rfl, value]
          rfl

end

/-! ## The backups -/

/-- A backup tells what stood at its path, which was no directory. -/
def Backup.Tells (before : Workspace) (entry : Text × Backup) : Prop :=
  entry.2.content = before.content (fullPath entry.1) ∧
    entry.2.existed = entry.2.content.isSome ∧
    before.entry (fullPath entry.1) ≠ some .directory

/-- The backups so far tell what stood on the disk, which is as it was. -/
structure BackedUp (before : Workspace) (s : Progress) : Prop where
  workspace : s.workspace = before
  tells : ∀ entry ∈ s.backups.entries, Backup.Tells before entry

theorem backUp_keeps (file : PatchFile) (s : Progress) (here : BackedUp before s) :
    BackedUp before (backUp world file s).1 := by
  unfold backUp withPath
  cases path : normalizePatchPath file.path with
  | error reason => exact here
  | ok normalizedPath =>
    dsimp only
    have set : ∀ backup clock, Backup.Tells before (normalizedPath, backup) →
        BackedUp before ⟨s.workspace, clock, s.backups.set normalizedPath backup⟩ := by
      intro backup clock tells
      refine ⟨here.workspace, fun entry member => ?_⟩
      rcases OrderedMap.mem_set.mp member with rfl | ⟨old, -⟩
      · exact tells
      · exact here.tells entry old
    split
    · split
      · rename_i content _ data
        refine set _ _ ⟨?_, rfl, ?_⟩
        · rw [← here.workspace, data]
        · intro directory
          rw [here.workspace, Disk.content_of_directory directory] at data
          cases data
      · exact ⟨here.workspace, here.tells⟩
    · rename_i absent
      rw [Disk.present, Option.isSome_iff_ne_none, not_not, here.workspace] at absent
      refine set _ _ ⟨?_, rfl, ?_⟩
      · rw [Disk.content, absent]
      · rw [absent]
        rintro ⟨⟩

theorem backUp_set (done : backUp world file s = (s', none)) : ∃ normalizedPath backup,
      normalizePatchPath file.path = .ok normalizedPath ∧
        s'.backups = s.backups.set normalizedPath backup := by
  unfold backUp withPath at done
  cases path : normalizePatchPath file.path with
  | error reason =>
    rw [path] at done
    cases done
  | ok normalizedPath =>
    rw [path] at done
    dsimp only at done
    split at done
    · split at done
      · cases done
        exact ⟨normalizedPath, _, rfl, rfl⟩
      · cases done
    · cases done
      exact ⟨normalizedPath, _, rfl, rfl⟩

theorem has_set {backups : OrderedMap Text Backup} {key other : Text} {backup : Backup}
    (has : (backups.get key).isSome = true) : ((backups.set other backup).get key).isSome = true := by
  by_cases same : key = other
  · rw [same, OrderedMap.get_set_self]
    rfl
  · rw [OrderedMap.get_set_of_ne backups backup same]
    exact has

/-- Once all files are backed up, every path of the patch has a backup. -/
theorem backUps_cover (done : Statement.each (backUp world) files s = (s', none)) :
    (∀ key, (s.backups.get key).isSome = true → (s'.backups.get key).isSome = true) ∧
      ∀ file ∈ files, ∃ normalizedPath, normalizePatchPath file.path = .ok normalizedPath ∧
        (s'.backups.get normalizedPath).isSome = true := by
  induction files generalizing s with
  | nil =>
    cases done
    exact ⟨fun _ has => has, nofun⟩
  | cons file rest ih =>
    unfold Statement.each at done
    cases data : backUp world file s with
    | mk s₁ outcome =>
      cases outcome with
      | some cause =>
        rw [Statement.then_some data] at done
        cases done
      | none =>
        rw [Statement.then_none data] at done
        obtain ⟨keeps, covers⟩ := ih done
        obtain ⟨normalizedPath, backup, path, set⟩ := backUp_set data
        refine ⟨fun key has => keeps key ?_, List.forall_mem_cons.mpr ⟨?_, covers⟩⟩
        · rw [set]
          exact has_set has
        · refine ⟨normalizedPath, path, keeps normalizedPath ?_⟩
          rw [set, OrderedMap.get_set_self]
          rfl

/-! ## The operations -/

/-- What holds before and after each operation: directories stay, and only files that have
a backup have changed. -/
structure Underway (before : Workspace) (kept : OrderedMap Text Backup) (s : Progress) :
    Prop where
  backups : s.backups = kept
  directories : ∀ path, before.entry path = some .directory →
    s.workspace.entry path = some .directory
  changed : ∀ path, s.workspace.content path ≠ before.content path →
    ∃ entry ∈ kept.entries, fullPath entry.1 = path

/-- A file of the disk before the call is below a directory now. -/
def Buried (before after : Workspace) : Prop :=
  ∃ path, before.content path ≠ none ∧ after.entry path = some .directory

section

variable {world : World} {result : PatchGateResult} {before : Workspace}
  {kept : OrderedMap Text Backup}

theorem Underway.step {file : PatchFile} {s : Progress} (here : Underway before kept s)
    (covered : ∃ normalizedPath, normalizePatchPath file.path = .ok normalizedPath ∧
      (kept.get normalizedPath).isSome = true) :
    Underway before kept (applyFile world result file s).1 := by
  have effect := applyFile_effect world result file s
  obtain ⟨normalizedPath, normal, has⟩ := covered
  obtain ⟨backup, has⟩ := Option.isSome_iff_exists.mp has
  constructor
  · exact effect.backups.trans here.backups
  · intro path directory
    exact effect.directories path (here.directories path directory)
  · intro path changed
    by_cases at' : fullPath normalizedPath = path
    · exact ⟨(normalizedPath, backup), OrderedMap.get_eq_some.mp has, at'⟩
    · refine here.changed path ?_
      rw [← effect.contents path]
      · exact changed
      · intro other normal'
        rw [normal, Except.ok.injEq] at normal'
        rw [← normal']
        exact at'

/-- Nothing is in the way of a directory that would stand where a file was. -/
theorem Underway.free (here : Underway before kept s) (file : before.content path ≠ none)
    (missing : s.workspace.entry path = none) (above : path <+: dir) (other : List Text)
    (otherAbove : other <+: dir) : s.workspace.content other = none := by
  rcases List.prefix_or_prefix_of_prefix otherAbove above with ⟨more, split⟩ | ⟨more, split⟩
  · -- `other` leads to the file that was there
    by_cases last : more = []
    · rw [last, List.append_nil] at split
      rw [Disk.content, split, missing]
    · apply Disk.content_of_directory
      apply here.directories
      refine Disk.above last ?_
      rw [split]
      intro none'
      exact file (by rw [Disk.content, none'])
  · by_cases last : more = []
    · rw [last, List.append_nil] at split
      rw [Disk.content, ← split, missing]
    · rw [← split, Disk.content]
      cases data : s.workspace.entry (path ++ more) with
      | none => rfl
      | some entry =>
        have directory := Disk.above last (by
          rw [data]
          exact Option.some_ne_none _)
        rw [directory] at missing
        cases missing

/-- An operation buries a file just when a file is buried behind it. -/
theorem Underway.buries_iff {file : PatchFile} {s : Progress} (here : Underway before kept s)
    (unburied : ¬ Buried before s.workspace) :
    Buried before (applyFile world result file s).1.workspace ↔ Buries world result before file s := by
  have effect := applyFile_effect world result file s
  constructor
  · rintro ⟨path, stood, directory⟩
    rcases effect.made path directory with old | ⟨notDelete, normalizedPath, normal, filled, missing, above, far⟩
    · exact absurd ⟨path, stood, old⟩ unburied
    · exact ⟨notDelete, normalizedPath, path, normal, filled, stood, missing, above, far⟩
  · rintro ⟨notDelete, normalizedPath, path, normal, filled, stood, missing, above, far⟩
    refine ⟨path, stood, effect.makes path
      ⟨notDelete, normalizedPath, normal, filled, missing, above, far⟩ ?_⟩
    intro other normal' above' inside
    rw [normal, Except.ok.injEq] at normal'
    subst normal'
    exact here.free stood missing above above' inside

/-- The run of the operations: it buries a file unless all of them spare the files. -/
theorem Underway.run {files : List PatchFile} {s : Progress} (here : Underway before kept s)
    (covered : ∀ file ∈ files, ∃ normalizedPath,
      normalizePatchPath file.path = .ok normalizedPath ∧
        (kept.get normalizedPath).isSome = true)
    (unburied : ¬ Buried before s.workspace) :
    Underway before kept (Statement.each (applyFile world result) files s).1 ∧
      (¬ Buried before (Statement.each (applyFile world result) files s).1.workspace ↔
        SparesFrom world result before files s) := by
  constructor
  · exact Statement.each_keeps
      (fun file member s here => here.step (covered file member)) s here
  induction files generalizing s with
  | nil => exact iff_of_true unburied trivial
  | cons file rest ih =>
    have buries := @Underway.buries_iff world result before kept file s here unburied
    have next := @Underway.step world result before kept file s here
      (covered file List.mem_cons_self)
    have later := fun other member => covered other (.tail _ member)
    unfold Statement.each SparesFrom
    cases data : applyFile world result file s with
    | mk s₁ outcome =>
      rw [data] at buries next
      rw [← buries]
      cases outcome with
      | some cause =>
        rw [Statement.then_some data]
        refine ⟨fun spared => ⟨spared, nofun⟩, fun spared => spared.1⟩
      | none =>
        rw [Statement.then_none data]
        by_cases buried : Buried before s₁.workspace
        · refine iff_of_false ?_ fun spared => spared.1 buried
          rw [not_not]
          -- a directory stays
          have stays := @Statement.each_keeps _ (applyFile world result)
            (fun s => Buried before s.workspace) rest
            (fun file _ s ⟨path, stood, directory⟩ =>
              ⟨path, stood, (applyFile_effect world result file s).directories path directory⟩)
          exact stays s₁ buried
        · rw [ih next later buried]
          constructor
          · intro spares
            refine ⟨buried, fun s' done => ?_⟩
            cases done
            exact spares
          · intro spares
            exact spares.2 s₁ rfl

end

/-! ## Rolling back -/

/-- What holds before and after each step of a rollback. -/
structure RollingBack (before : Workspace) (remaining : List (Text × Backup))
    (workspace : Workspace) : Prop where
  directories : ∀ path, before.entry path = some .directory →
    workspace.entry path = some .directory
  unburied : ¬ Buried before workspace
  changed : ∀ path, workspace.content path ≠ before.content path →
    ∃ entry ∈ remaining, fullPath entry.1 = path

section

variable {before workspace : Workspace} {entry : Text × Backup} {rest : List (Text × Backup)}

/-- A step that changes one file, and leaves it as it was before the call. -/
theorem RollingBack.restored (here : RollingBack before (entry :: rest) workspace)
    (others : ∀ path, path ≠ fullPath entry.1 → after.entry path = workspace.entry path)
    (itself : after.entry (fullPath entry.1) = before.entry (fullPath entry.1) ∨
      after.content (fullPath entry.1) = before.content (fullPath entry.1) ∧
        after.entry (fullPath entry.1) = workspace.entry (fullPath entry.1))
    (noDirectory : before.entry (fullPath entry.1) ≠ some .directory) :
    RollingBack before rest after := by
  constructor
  · intro path directory
    by_cases same : path = fullPath entry.1
    · rw [same] at directory
      exact absurd directory noDirectory
    · rw [others path same]
      exact here.directories path directory
  · rintro ⟨path, stood, directory⟩
    by_cases same : path = fullPath entry.1
    · rw [same] at directory stood
      rcases itself with restored | ⟨-, unchanged⟩
      · rw [restored] at directory
        exact noDirectory directory
      · rw [unchanged] at directory
        exact here.unburied ⟨_, stood, directory⟩
    · rw [others path same] at directory
      exact here.unburied ⟨path, stood, directory⟩
  · intro path changed
    by_cases same : path = fullPath entry.1
    · rw [same] at changed
      rcases itself with restored | ⟨restored, -⟩
      · exact absurd (Disk.content_congr restored) changed
      · exact absurd restored changed
    · rw [Disk.content_congr (others path same)] at changed
      obtain ⟨other, member, at'⟩ := here.changed path changed
      rcases List.mem_cons.mp member with rfl | later
      · exact absurd at'.symm same
      · exact ⟨other, later, at'⟩

theorem RollingBack.step (here : RollingBack before (entry :: rest) workspace)
    (tells : Backup.Tells before entry) : RollingBack before rest (restore workspace entry) := by
  obtain ⟨content, existed, noDirectory⟩ := tells
  unfold restore
  cases kept : entry.2.content with
  | some value =>
    rw [kept] at content existed
    rw [existed]
    -- the file is written into its directory, which is still there
    have stood := Disk.content_eq_some_iff.mp content.symm
    have parent : workspace.entry (fullPath entry.1).dropLast = some .directory := by
      apply here.directories
      have nonempty : fullPath entry.1 ≠ [] := split_ne_nil _
      apply before.nested _ ((fullPath entry.1).getLast nonempty)
      rw [List.dropLast_append_getLast nonempty, stood]
      nofun
    have clear : workspace.entry (fullPath entry.1) ≠ some .directory := by
      intro directory
      refine here.unburied ⟨fullPath entry.1, ?_, directory⟩
      rw [← content]
      nofun
    obtain ⟨after, written⟩ := Disk.write_ready parent clear
    dsimp only [Option.isSome_some]
    rw [written, Option.getD_some]
    have update := (Disk.write_some written).1
    refine here.restored (fun path other => ?_) (.inl ?_) noDirectory
    · rw [update, Function.update_of_ne other]
    · rw [update, Function.update_self, stood]
  | none =>
    rw [kept] at content existed
    rw [existed]
    dsimp only [Option.isSome_none]
    split
    · cases data : workspace.unlink (fullPath entry.1) with
      | some after =>
        rw [Option.getD_some]
        have update := (Disk.unlink_some data).1
        have missing : before.entry (fullPath entry.1) = none := by
          cases stood : before.entry (fullPath entry.1) with
          | none => rfl
          | some entry =>
            cases entry with
            | directory => exact absurd stood noDirectory
            | file value =>
              rw [Disk.content_eq_some_iff.mpr stood] at content
              cases content
        refine here.restored (fun path other => ?_) (.inl ?_) noDirectory
        · rw [update, Function.update_of_ne other]
        · rw [update, Function.update_self, missing]
      | none =>
        rw [Option.getD_none]
        refine here.restored (fun _ _ => rfl) (.inr ⟨?_, rfl⟩) noDirectory
        rw [← content]
        by_contra isFile
        obtain ⟨after, done⟩ := Disk.unlink_ready (Option.isSome_iff_ne_none.mpr isFile)
        rw [data] at done
        cases done
    · rename_i absent
      refine here.restored (fun _ _ => rfl) (.inr ⟨?_, rfl⟩) noDirectory
      rw [Disk.present, Option.isSome_iff_ne_none, not_not] at absent
      rw [← content, Disk.content, absent]

/-- A rollback restores every file if none is buried. -/
theorem RollingBack.restores (here : RollingBack before entries workspace)
    (tells : ∀ entry ∈ entries, Backup.Tells before entry) :
    SameFiles before (entries.foldl restore workspace) := by
  induction entries generalizing workspace with
  | nil =>
    intro path
    by_contra changed
    obtain ⟨entry, member, -⟩ := here.changed path changed
    exact List.not_mem_nil member
  | cons entry rest ih =>
    exact ih (here.step (tells entry List.mem_cons_self))
      fun other member => tells other (.tail _ member)

/-- A rollback removes no directory. -/
theorem restore_directory (directory : workspace.entry path = some .directory)
    (entry : Text × Backup) : (restore workspace entry).entry path = some .directory := by
  unfold restore
  dsimp only
  split
  · rename_i content _ _
    cases data : workspace.write (fullPath entry.1) content with
    | none => exact directory
    | some after =>
      obtain ⟨update, -, notDirectory⟩ := Disk.write_some data
      rw [Option.getD_some, update, Function.update_of_ne]
      · exact directory
      · rintro rfl
        exact notDirectory directory
  · exact directory
  · split
    · cases data : workspace.unlink (fullPath entry.1) with
      | none => exact directory
      | some after =>
        obtain ⟨update, isFile⟩ := Disk.unlink_some data
        rw [Option.getD_some, update, Function.update_of_ne]
        · exact directory
        · rintro rfl
          rw [Disk.content_of_directory directory] at isFile
          cases isFile
    · exact directory

theorem rollback_buried {entries : List (Text × Backup)} (buried : Buried before workspace) :
    ¬ SameFiles before (entries.foldl restore workspace) := by
  obtain ⟨path, stood, directory⟩ := buried
  intro same
  have stays : (entries.foldl restore workspace).entry path = some .directory := by
    induction entries generalizing workspace with
    | nil => exact directory
    | cons entry rest ih => exact ih (restore_directory directory entry) same
  apply stood
  rw [← same path]
  exact Disk.content_of_directory stays

end

theorem not_buried_itself (before : Workspace) : ¬ Buried before before := by
  rintro ⟨path, stood, directory⟩
  exact stood (Disk.content_of_directory directory)

/-! ## What the operations leave -/

theorem fullPath_injective {first second : Text} (same : fullPath first = fullPath second) :
    first = second := by
  have joined := congrArg (Text.join (u '/')) same
  unfold fullPath at joined
  rwa [join_split, join_split] at joined

theorem Statement.then_assoc (first second third : Statement) :
    (first.then second).then third = first.then (second.then third) := by
  funext s
  unfold Statement.then
  cases first s with
  | mk middle outcome => cases outcome <;> rfl

theorem Statement.each_append {α : Type} (statement : α → Statement) (front back : List α) :
    Statement.each statement (front ++ back) =
      (Statement.each statement front).then (Statement.each statement back) := by
  induction front with
  | nil => rfl
  | cons x rest ih =>
    rw [List.cons_append, Statement.each, ih, Statement.each, Statement.then_assoc]

theorem Statement.then_done {first second : Statement} {s s' : Progress}
    (done : first.then second s = (s', none)) :
    ∃ middle, first s = (middle, none) ∧ second middle = (s', none) := by
  cases data : first s with
  | mk middle outcome =>
    cases outcome with
    | none =>
      rw [Statement.then_none data] at done
      exact ⟨middle, rfl, done⟩
    | some cause =>
      rw [Statement.then_some data] at done
      cases done

section

variable {world : World} {result : PatchGateResult} {files : List PatchFile} {s s' : Progress}

/-- Files that no operation is about keep their content. -/
theorem run_others {path : List Text}
    (apart : ∀ file ∈ files, ∀ normalizedPath, normalizePatchPath file.path = .ok normalizedPath →
      fullPath normalizedPath ≠ path) :
    (Statement.each (applyFile world result) files s).1.workspace.content path =
      s.workspace.content path :=
  @Statement.each_keeps _ _ (fun other => other.workspace.content path = s.workspace.content path) _
    (fun file member other same =>
      ((applyFile_effect world result file other).contents path (apart file member)).trans same)
    s rfl

theorem run_last (done : Statement.each (applyFile world result) files s = (s', none))
    {earlier later : List PatchFile} {file : PatchFile} {normalizedPath : Text}
    (split : files = earlier ++ file :: later)
    (here : normalizePatchPath file.path = .ok normalizedPath)
    (last : ∀ other ∈ later, normalizePatchPath other.path ≠ .ok normalizedPath) :
    s'.workspace.content (fullPath normalizedPath) =
      if file.operation = .delete then none
      else (contentFor result file normalizedPath).map utf8 := by
  rw [split, Statement.each_append] at done
  obtain ⟨middle, -, done⟩ := Statement.then_done done
  obtain ⟨next, applied, done⟩ := Statement.then_done done
  have rest := @run_others world result later next (fullPath normalizedPath)
    (fun other member path normal same => last other member (fullPath_injective same ▸ normal))
  rw [done] at rest
  rw [rest]
  exact applyFile_done here applied

end

/-! ## The sanitized contents -/

theorem sanitized_concat (checks : List PatchCheckResult) (check : PatchCheckResult)
    (normalizedPath content : Text) : Sanitized (checks ++ [check]) normalizedPath content ↔
      (check.file = normalizedPath ∧ check.sanitizedContent = some content) ∨
      ((check.file = normalizedPath → check.sanitizedContent = none) ∧
        Sanitized checks normalizedPath content) := by
  constructor
  · rintro ⟨earlier, found, later, split, file, sanitized, last⟩
    rcases List.eq_nil_or_concat later with rfl | ⟨later, other, rfl⟩
    · obtain ⟨-, same⟩ := List.append_inj' split rfl
      obtain rfl := List.singleton_inj.mp same
      exact .inl ⟨file, sanitized⟩
    · rw [List.concat_eq_append, ← List.cons_append, ← List.append_assoc] at split
      obtain ⟨rfl, same⟩ := List.append_inj' split rfl
      obtain rfl := List.singleton_inj.mp same
      refine .inr ⟨last check (by simp), earlier, found, later, rfl, file, sanitized, ?_⟩
      intro other member
      exact last other (by simp [member])
  · rintro (⟨file, sanitized⟩ | ⟨last, earlier, found, later, rfl, file, sanitized, rest⟩)
    · exact ⟨checks, check, [], rfl, file, sanitized, nofun⟩
    · refine ⟨earlier, found, later ++ [check], by simp, file, sanitized, ?_⟩
      intro other member
      rcases List.mem_append.mp member with inLater | isLast
      · exact rest other inLater
      · rw [List.mem_singleton.mp isLast]
        exact last

/-- The map holds the content of the last check that has one. -/
theorem sanitizedContentMap_get (result : PatchGateResult) (normalizedPath content : Text) :
    (sanitizedContentMap result).get normalizedPath = some content ↔
      Sanitized result.checks normalizedPath content := by
  unfold sanitizedContentMap
  induction result.checks using List.reverseRecOn with
  | nil =>
    refine iff_of_false (Option.some_ne_none _).symm ?_
    rintro ⟨earlier, check, later, split, -⟩
    exact absurd split.symm (List.append_ne_nil_of_right_ne_nil _ (List.cons_ne_nil _ _))
  | append_singleton checks check ih =>
    rw [List.foldl_concat, sanitized_concat]
    cases sanitized : check.sanitizedContent with
    | none =>
      rw [ih]
      simp
    | some value =>
      by_cases same : check.file = normalizedPath
      · rw [same, OrderedMap.get_set_self]
        simp
      · rw [OrderedMap.get_set_of_ne _ value (Ne.symm same), ih]
        simp [same]

/-! ## The call -/

section

variable {world : World} {workspace : Workspace} {result : PatchGateResult}

theorem commit_keeps (s : Progress) : (commit world result s).1 = s := by
  have one : ∀ command other, other = s → (git world command other).1 = s := by
    intro command other same
    unfold git
    split
    · exact same
    · exact same
  refine Statement.then_keeps (one _) ?_ s rfl
  refine Statement.then_keeps ?_ (one _)
  intro other same
  split
  · exact same
  · exact one _ other same

theorem backUps_keep (files : List PatchFile) :
    BackedUp workspace (Statement.each (backUp world) files ⟨workspace, 0, .empty⟩).1 :=
  Statement.each_keeps (fun file _ => backUp_keeps file) _
    ⟨rfl, nofun⟩

/-- An application that throws restores the files just if it has buried none. -/
theorem attempt_throws {s : Progress} {cause : Cause}
    (throws : attempt world result ⟨workspace, 0, .empty⟩ = (s, some cause)) :
    SameFiles workspace (rollbackPatch s.workspace s.backups) ↔ Spared world workspace result := by
  have outcome : (attempt world result ⟨workspace, 0, .empty⟩).2 ≠ none := by
    rw [throws]
    nofun
  have backed := @backUps_keep world workspace result.proposal.files
  unfold Spared
  simp only [outcome, ne_eq, not_false_eq_true, forall_const]
  unfold attempt at throws
  cases data : Statement.each (backUp world) result.proposal.files ⟨workspace, 0, .empty⟩ with
  | mk s₀ outcome =>
    rw [data] at backed
    cases outcome with
    | some cause =>
      -- nothing was done yet
      rw [Statement.then_some data] at throws
      cases throws
      refine iff_of_true ?_ fun _ none' => by cases none'
      refine RollingBack.restores ⟨?_, ?_, ?_⟩ backed.tells
      · intro path directory
        rw [backed.workspace]
        exact directory
      · rw [backed.workspace]
        exact not_buried_itself workspace
      · intro path changed
        rw [backed.workspace] at changed
        exact absurd rfl changed
    | none =>
      rw [Statement.then_none data] at throws
      have start : Underway workspace s₀.backups s₀ := by
        refine ⟨rfl, ?_, ?_⟩
        · intro path directory
          rw [backed.workspace]
          exact directory
        · intro path changed
          rw [backed.workspace] at changed
          exact absurd rfl changed
      have unburied : ¬ Buried workspace s₀.workspace := by
        rw [backed.workspace]
        exact not_buried_itself workspace
      obtain ⟨underway, spares⟩ := @Underway.run world result workspace s₀.backups
        result.proposal.files s₀ start (backUps_cover data).2 unburied
      -- git leaves the work tree as it is
      have last : s = (Statement.each (applyFile world result) result.proposal.files s₀).1 := by
        cases run : Statement.each (applyFile world result) result.proposal.files s₀ with
        | mk s₁ outcome =>
          cases outcome with
          | some cause =>
            rw [Statement.then_some run] at throws
            cases throws
            rfl
          | none =>
            rw [Statement.then_none run] at throws
            have same := @commit_keeps world result s₁
            rw [throws] at same
            exact same
      rw [← last] at underway spares
      constructor
      · intro same s' done
        cases done
        rw [← spares]
        exact fun buried => rollback_buried buried same
      · intro spared
        rw [rollbackPatch, underway.backups]
        exact RollingBack.restores
          ⟨underway.directories, spares.mpr (spared s₀ rfl), underway.changed⟩ backed.tells

theorem attempt_returns {s : Progress}
    (returns : attempt world result ⟨workspace, 0, .empty⟩ = (s, none)) :
    Applied result workspace s.workspace := by
  obtain ⟨s₀, backups, returns⟩ := Statement.then_done returns
  obtain ⟨s₁, run, committed⟩ := Statement.then_done returns
  have same := @commit_keeps world result s₁
  rw [committed] at same
  rw [show s = s₁ from same]
  have start := (@backUps_keep world workspace result.proposal.files).workspace
  rw [backups] at start
  constructor
  · intro earlier file later normalizedPath split here last deletes
    rw [run_last run split here last, if_pos deletes]
  · intro earlier file later normalizedPath content split here last notDelete sanitized
    rw [run_last run split here last, if_neg notDelete, contentFor,
      (sanitizedContentMap_get result normalizedPath content).mpr sanitized]
    rfl
  · intro earlier file later normalizedPath split here last notDelete unsanitized
    have nothing : (sanitizedContentMap result).get normalizedPath = none := by
      cases data : (sanitizedContentMap result).get normalizedPath with
      | none => rfl
      | some content =>
        exact absurd ⟨content, (sanitizedContentMap_get _ _ _).mp data⟩ unsanitized
    rw [run_last run split here last, if_neg notDelete, contentFor, nothing, Option.none_or]
  · intro path apart
    have others := @run_others world result result.proposal.files s₀ path apart
    rw [run] at others
    rw [others, show s₀.workspace = workspace from start]

end

/-- A call is atomic just if, when the body of its `try` throws, no operation that it has
executed put a directory where a file stood. -/
theorem applyPatch_atomic_iff (world : World) (workspace : Workspace) (result : PatchGateResult)
    (renterApproved : Bool) : Atomic world workspace result renterApproved ↔
      (result.verdict = .rejected ∨
        result.verdict = .needs_renter_approval ∧ renterApproved = false ∨
        Spared world workspace result) := by
  have refused : ∀ error : ApplyError,
      applyPatch world workspace result renterApproved = (workspace, .error error) →
        Atomic world workspace result renterApproved := by
    intro error same
    constructor
    · rw [same]
      rintro after _ ⟨⟩ path
      rfl
    · rw [same]
      rintro after _ ⟨⟩
  by_cases rejected : result.verdict = .rejected
  · refine iff_of_true (refused .rejected ?_) (.inl rejected)
    rw [applyPatch, if_pos rejected]
  by_cases unapproved : result.verdict = .needs_renter_approval ∧ renterApproved = false
  · refine iff_of_true (refused .notApproved ?_) (.inr (.inl unapproved))
    rw [applyPatch, if_neg rejected, if_pos unapproved]
  simp only [rejected, unapproved, false_or]
  unfold Atomic applyPatch
  rw [if_neg rejected, if_neg unapproved]
  cases data : attempt world result ⟨workspace, 0, .empty⟩ with
  | mk s outcome =>
    cases outcome with
    | none =>
      refine iff_of_true ⟨?_, ?_⟩ ?_
      · rintro after error ⟨⟩
      · rintro after applied ⟨⟩
        exact attempt_returns data
      · intro throws
        rw [data] at throws
        exact absurd rfl throws
    | some cause =>
      rw [← attempt_throws data]
      constructor
      · intro atomic
        exact atomic.1 _ _ rfl
      · intro same
        constructor
        · rintro after error ⟨⟩
          exact same
        · rintro after applied ⟨⟩

/-- A workspace with the file `a`. -/
def oneFile : Workspace where
  entry := fun path =>
    if path = [] then some .directory else if path = [text "a"] then some (.file [0x31]) else none
  root := rfl
  nested := by
    intro path name here
    rw [if_neg (List.append_ne_nil_of_right_ne_nil _ (List.cons_ne_nil _ _))] at here
    split at here
    · rename_i single
      have parts : path ++ [name] = [] ++ [text "a"] := single
      obtain ⟨rfl, -⟩ := List.append_inj' parts rfl
      rfl
    · exact absurd rfl here

/-- Delete the file `a`, and create `a/b`. -/
def fileToDirectory : PatchProposal where
  sessionId := text "s1"
  idempotencyKey := text "k1"
  files := [{ path := text "a", operation := .delete },
    { path := text "a/b", operation := .create, content := some (text "x") }]

/-- The result of the gate when every path is exposed and nothing is scanned. -/
def fileToDirectoryResult : PatchGateResult :=
  validatePatch ⟨fun _ _ => true, none⟩ oneFile fileToDirectory

/-- Everything goes well, but git fails. -/
def brokenGit : World := ⟨fun _ => none, fun _ => false, 0⟩

theorem file_lost :
    (applyPatch brokenGit oneFile fileToDirectoryResult false).2.toOption.isNone = true ∧
      (applyPatch brokenGit oneFile fileToDirectoryResult false).1.content [text "a"] ≠
        oneFile.content [text "a"] := by
  decide +kernel

/-- The file that the patch deletes is not restored. -/
theorem rollback_loses_file : ¬ ∀ (world : World) (workspace : Workspace) (result : PatchGateResult)
    (renterApproved : Bool),
    (∀ file ∈ result.proposal.files, (validatePatchPath file.path).valid = true) →
      Atomic world workspace result renterApproved := by
  intro atomic
  have valid : ∀ file ∈ fileToDirectoryResult.proposal.files,
      (validatePatchPath file.path).valid = true := by decide +kernel
  have here := (atomic brokenGit oneFile fileToDirectoryResult false valid).1
  obtain ⟨throws, differs⟩ := file_lost
  cases data : applyPatch brokenGit oneFile fileToDirectoryResult false with
  | mk after outcome =>
    rw [data] at throws differs
    cases outcome with
    | error error => exact differs (here after error data [text "a"])
    | ok applied => cases throws

end LetAgents.Rental.PatchGate

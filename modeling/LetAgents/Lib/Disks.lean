import Mathlib.Data.List.Infix
import Mathlib.Logic.Function.Basic

/-!
# Disks

Files and directories by their paths. An entry stands in a directory, so a file has nothing
below it. The operations fail as the system calls do: there is no writing into a directory or
below a file, and no unlinking of a directory.
-/
namespace LetAgents.Lib.Disks

inductive Entry (Content : Type) where
  | file (content : Content)
  | directory

/-- A root directory with what is below it. -/
structure Disk (Name Content : Type) where
  entry : List Name → Option (Entry Content)
  root : entry [] = some .directory
  nested : ∀ path name, entry (path ++ [name]) ≠ none → entry path = some .directory

variable {Name Content : Type}

variable {disk : Disk Name Content} {path : List Name} {value : Content}

namespace Disk

def present (disk : Disk Name Content) (path : List Name) : Bool := (disk.entry path).isSome

/-- The content of the file at a path, if a file stands there. -/
def content (disk : Disk Name Content) (path : List Name) : Option Content :=
  match disk.entry path with
  | some (.file content) => some content
  | _ => none

def isDirectory (disk : Disk Name Content) (path : List Name) : Bool :=
  match disk.entry path with
  | some .directory => true
  | _ => false

theorem isDirectory_iff : disk.isDirectory path = true ↔ disk.entry path = some .directory := by
  unfold isDirectory
  split
  · rename_i here
    exact iff_of_true rfl here
  · rename_i other
    exact iff_of_false Bool.false_ne_true other

theorem content_eq_some_iff :
    disk.content path = some value ↔ disk.entry path = some (.file value) := by
  unfold content
  split
  · rename_i here
    rw [here, Option.some.injEq, Option.some.injEq, Entry.file.injEq]
  · rename_i other
    exact iff_of_false (Option.some_ne_none _).symm (other value)

theorem content_of_directory (here : disk.entry path = some .directory) :
    disk.content path = none := by
  unfold content
  rw [here]

theorem content_congr {disk' : Disk Name Content} (same : disk'.entry path = disk.entry path) :
    disk'.content path = disk.content path := by
  unfold content
  rw [same]

/-- What is above an entry is a directory. -/
theorem above (below : more ≠ []) (here : disk.entry (path ++ more) ≠ none) :
    disk.entry path = some .directory := by
  induction more using List.reverseRecOn with
  | nil => exact absurd rfl below
  | append_singleton more name ih =>
    rw [← List.append_assoc] at here
    have parent := disk.nested _ _ here
    by_cases direct : more = []
    · rw [direct, List.append_nil] at parent
      exact parent
    · refine ih direct ?_
      rw [parent]
      nofun

variable [DecidableEq Name]

/-- Write a file into a directory that is there. -/
def write (disk : Disk Name Content) (path : List Name) (value : Content) :
    Option (Disk Name Content) :=
  if ready : disk.isDirectory path.dropLast = true ∧ disk.isDirectory path = false then
    some {
      entry := Function.update disk.entry path (some (.file value))
      root := by
        rw [Function.update_of_ne]
        · exact disk.root
        · rintro rfl
          rw [isDirectory_iff.mpr disk.root] at ready
          cases ready.2
      nested := by
        intro parent name here
        have directory : disk.entry parent = some .directory := by
          by_cases same : parent ++ [name] = path
          · have above := isDirectory_iff.mp ready.1
            rw [← same, List.dropLast_concat] at above
            exact above
          · rw [Function.update_of_ne same] at here
            exact disk.nested parent name here
        rw [Function.update_of_ne]
        · exact directory
        · rintro rfl
          rw [isDirectory_iff.mpr directory] at ready
          cases ready.2 }
  else none

/-- Remove a file. -/
def unlink (disk : Disk Name Content) (path : List Name) : Option (Disk Name Content) :=
  if isFile : (disk.content path).isSome = true then
    some {
      entry := Function.update disk.entry path none
      root := by
        rw [Function.update_of_ne]
        · exact disk.root
        · rintro rfl
          rw [content_of_directory disk.root] at isFile
          cases isFile
      nested := by
        intro parent name here
        have directory : disk.entry parent = some .directory := by
          by_cases same : parent ++ [name] = path
          · rw [same, Function.update_self] at here
            exact absurd rfl here
          · rw [Function.update_of_ne same] at here
            exact disk.nested parent name here
        rw [Function.update_of_ne]
        · exact directory
        · rintro rfl
          rw [content_of_directory directory] at isFile
          cases isFile }
  else none

/-- Make the directories on the way to `path` that are missing, down to a depth; none if a
file is in the way. -/
def mkdir (disk : Disk Name Content) (path : List Name) (depth : Nat) :
    Option (Disk Name Content) :=
  if free : ∀ above ∈ path.inits, disk.content above = none then
    some {
      entry := fun other =>
        if disk.entry other = none ∧ other <+: path ∧ other.length ≤ depth then some .directory
        else disk.entry other
      root := by
        rw [if_neg]
        · exact disk.root
        · rintro ⟨missing, -⟩
          rw [disk.root] at missing
          cases missing
      nested := by
        intro parent name here
        split at here
        · rename_i made
          have above : parent <+: path := (List.prefix_append parent [name]).trans made.2.1
          have short : parent.length ≤ depth := by
            have := made.2.2
            rw [List.length_append] at this
            omega
          split
          · rfl
          · rename_i stood
            cases data : disk.entry parent with
            | none => exact absurd ⟨data, above, short⟩ stood
            | some entry =>
              cases entry with
              | directory => rfl
              | file value =>
                have none' := free parent ((List.mem_inits _ _).mpr above)
                rw [content_eq_some_iff.mpr data] at none'
                cases none'
        · have directory := disk.nested parent name here
          rw [if_neg]
          · exact directory
          · rintro ⟨missing, -⟩
            rw [directory] at missing
            cases missing }
  else none

/-! ## What an operation leaves -/

variable {disk disk' : Disk Name Content} {path : List Name}

theorem write_some (done : disk.write path value = some disk') :
    disk'.entry = Function.update disk.entry path (some (.file value)) ∧
      disk.entry path.dropLast = some .directory ∧ disk.entry path ≠ some .directory := by
  unfold write at done
  split at done
  · rename_i ready
    obtain rfl := Option.some.inj done
    refine ⟨rfl, isDirectory_iff.mp ready.1, fun here => ?_⟩
    rw [isDirectory_iff.mpr here] at ready
    cases ready.2
  · cases done

theorem write_ready (parent : disk.entry path.dropLast = some .directory)
    (here : disk.entry path ≠ some .directory) : ∃ disk', disk.write path value = some disk' := by
  unfold write
  rw [dif_pos]
  · exact ⟨_, rfl⟩
  · refine ⟨isDirectory_iff.mpr parent, ?_⟩
    rw [← Bool.not_eq_true, isDirectory_iff]
    exact here

theorem unlink_some (done : disk.unlink path = some disk') :
    disk'.entry = Function.update disk.entry path none ∧ (disk.content path).isSome = true := by
  unfold unlink at done
  split at done
  · rename_i isFile
    obtain rfl := Option.some.inj done
    exact ⟨rfl, isFile⟩
  · cases done

theorem unlink_ready (isFile : (disk.content path).isSome = true) :
    ∃ disk', disk.unlink path = some disk' := by
  unfold unlink
  rw [dif_pos isFile]
  exact ⟨_, rfl⟩

theorem mkdir_some (done : disk.mkdir path depth = some disk') (other : List Name) :
    disk'.entry other = (if disk.entry other = none ∧ other <+: path ∧ other.length ≤ depth then
      some .directory else disk.entry other) := by
  unfold mkdir at done
  split at done
  · obtain rfl := Option.some.inj done
    rfl
  · cases done

/-- Making directories changes no file. -/
theorem content_mkdir (done : disk.mkdir path depth = some disk') (other : List Name) :
    disk'.content other = disk.content other := by
  have made := mkdir_some done other
  split at made
  · rename_i missing
    rw [content_of_directory made, content, missing.1]
  · exact content_congr made

theorem content_write (done : disk.write path value = some disk') (other : List Name) :
    disk'.content other = if other = path then some value else disk.content other := by
  have entry := (write_some done).1
  split
  · rename_i same
    rw [content_eq_some_iff, entry, same, Function.update_self]
  · rename_i different
    apply content_congr
    rw [entry, Function.update_of_ne different]

theorem content_unlink (done : disk.unlink path = some disk') (other : List Name) :
    disk'.content other = if other = path then none else disk.content other := by
  have entry := (unlink_some done).1
  split
  · rename_i same
    rw [content, entry, same, Function.update_self]
  · rename_i different
    apply content_congr
    rw [entry, Function.update_of_ne different]

end Disk

end LetAgents.Lib.Disks

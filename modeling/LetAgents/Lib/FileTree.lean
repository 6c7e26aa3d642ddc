import Mathlib.Data.List.Basic

/-!
# File trees

A directory lists its entries: leaves (files and links) and directories. Paths are lists of
names. What a tree holds is the list of its leaves with their paths.
-/
namespace LetAgents.Lib.FileTree

inductive Tree (Name α : Type) where
  | nil
  | leaf (name : Name) (value : α) (rest : Tree Name α)
  | directory (name : Name) (inner rest : Tree Name α)

variable {Name α : Type}

/-- The leaves with their paths, in the order of a walk. -/
def Tree.leaves : Tree Name α → List (List Name × α)
  | .nil => []
  | .leaf name value rest => ([name], value) :: rest.leaves
  | .directory name inner rest =>
    (inner.leaves.map fun leaf => (name :: leaf.1, leaf.2)) ++ rest.leaves

/-- Remove the directories that hold no leaf. -/
def Tree.cleanEmptyDirs : Tree Name α → Tree Name α
  | .nil => .nil
  | .leaf name value rest => .leaf name value rest.cleanEmptyDirs
  | .directory name inner rest =>
    match inner.cleanEmptyDirs with
    | .nil => rest.cleanEmptyDirs
    | inner => .directory name inner rest.cleanEmptyDirs

@[simp] theorem Tree.leaves_cleanEmptyDirs (tree : Tree Name α) :
    tree.cleanEmptyDirs.leaves = tree.leaves := by
  induction tree with
  | nil => rfl
  | leaf name value rest ih => simp [cleanEmptyDirs, leaves, ih]
  | directory name inner rest ihInner ihRest =>
    unfold cleanEmptyDirs
    split
    · rename_i empty
      rw [empty] at ihInner
      simp [leaves, ← ihInner, ihRest]
    · simp [leaves, ihInner, ihRest]

/-- A leaf below new directories. -/
def Tree.fresh (value : α) : List Name → Tree Name α
  | [] => .nil
  | [name] => .leaf name value .nil
  | name :: more => .directory name (fresh value more) .nil

theorem Tree.leaves_fresh {leaf : List Name × α} (member : leaf ∈ (fresh value path).leaves) :
    leaf = (path, value) := by
  induction path generalizing leaf with
  | nil => cases member
  | cons name more ih =>
    cases more with
    | nil => exact List.mem_singleton.mp member
    | cons next more =>
      simp only [fresh, leaves, List.append_nil, List.mem_map] at member
      obtain ⟨inner, inInner, rfl⟩ := member
      rw [ih inInner]

variable [DecidableEq Name]

/-- Remove the leaf at a path. -/
def Tree.unlink : Tree Name α → List Name → Tree Name α
  | .nil, _ => .nil
  | .leaf name value rest, path =>
    if path = [name] then rest.unlink path else .leaf name value (rest.unlink path)
  | .directory name inner rest, path =>
    match path with
    | first :: more =>
      if first = name then .directory name (inner.unlink more) (rest.unlink path)
      else .directory name inner (rest.unlink path)
    | [] => .directory name inner (rest.unlink path)

theorem Tree.leaves_unlink (tree : Tree Name α) (path : List Name) :
    (tree.unlink path).leaves = tree.leaves.filter fun leaf => leaf.1 ≠ path := by
  induction tree generalizing path with
  | nil => rfl
  | leaf name value rest ih =>
    unfold unlink
    by_cases here : path = [name]
    · simp [here, ih, leaves]
    · simp [here, ih, leaves, Ne.symm here]
  | directory name inner rest ihInner ihRest =>
    unfold unlink
    cases path with
    | nil => simp [leaves, ihRest, List.filter_map, Function.comp_def]
    | cons first more =>
      by_cases here : first = name
      · subst here
        simp [leaves, ihInner, ihRest, List.filter_map, Function.comp_def]
      · simp [here, leaves, ihRest, List.filter_map, Function.comp_def, Ne.symm here]

/-! ## Single files -/

/-- What stands at a path. -/
inductive Found (α : Type) where
  | nothing
  | leaf (value : α)
  | directory

def Tree.find : Tree Name α → List Name → Found α
  | .nil, path => if path = [] then .directory else .nothing
  | .leaf name value rest, path => if path = [name] then .leaf value else rest.find path
  | .directory name inner rest, path =>
    match path with
    | [] => .directory
    | first :: more => if first = name then inner.find more else rest.find path

/-- Write a leaf, with the directories above it; a leaf that stands there is replaced. -/
def Tree.write (value : α) : Tree Name α → List Name → Tree Name α
  | .nil, path => fresh value path
  | .leaf name old rest, path =>
    if path = [name] then .leaf name value rest else .leaf name old (rest.write value path)
  | .directory name inner rest, path =>
    match path with
    | [] => .directory name inner rest
    | first :: more =>
      if first = name then .directory name (inner.write value more) rest
      else .directory name inner (rest.write value path)

/-- A leaf of the new tree is the one that was written, or was there. -/
theorem Tree.leaves_write {tree : Tree Name α} {leaf : List Name × α}
    (member : leaf ∈ (tree.write value path).leaves) :
    leaf = (path, value) ∨ leaf ∈ tree.leaves := by
  induction tree generalizing path leaf with
  | nil => exact .inl (leaves_fresh member)
  | leaf name old rest ih =>
    unfold write at member
    split at member
    · rename_i here
      rcases List.mem_cons.mp member with rfl | inRest
      · exact .inl (by rw [here])
      · exact .inr (.tail _ inRest)
    · rcases List.mem_cons.mp member with rfl | inRest
      · exact .inr List.mem_cons_self
      · exact (ih inRest).imp_right (List.mem_cons_of_mem _)
  | directory name inner rest ihInner ihRest =>
    unfold write at member
    split at member
    · exact .inr member
    · rename_i first more
      split at member
      · rename_i here
        rcases List.mem_append.mp member with inInner | inRest
        · obtain ⟨below, inBelow, rfl⟩ := List.mem_map.mp inInner
          rcases ihInner inBelow with rfl | old
          · exact .inl (by rw [here])
          · exact .inr (List.mem_append_left _ (List.mem_map_of_mem old))
        · exact .inr (List.mem_append_right _ inRest)
      · rcases List.mem_append.mp member with inInner | inRest
        · exact .inr (List.mem_append_left _ inInner)
        · exact (ihRest inRest).imp_right (List.mem_append_right _)

end LetAgents.Lib.FileTree

import Mathlib.Data.List.Nodup
import Mathlib.Data.List.Perm.Basic

/-!
# Sets in insertion order

A set is a list without repetition. A set names an element if it is the only one; when a set
grows by one element, it names what it named, nothing, or the new element.
-/
namespace LetAgents.Lib.KeySets

variable {α β : Type} [DecidableEq α]

/-- `set.add(x)` -/
def add (set : List α) (x : α) : List α := if x ∈ set then set else set ++ [x]

@[simp] theorem mem_add {set : List α} : y ∈ add set x ↔ y ∈ set ∨ y = x := by
  unfold add
  split
  · rename_i member
    constructor
    · exact .inl
    · rintro (here | rfl)
      · exact here
      · exact member
  · simp

theorem nodup_add {set : List α} (nodup : set.Nodup) (x : α) : (add set x).Nodup := by
  unfold add
  split
  · exact nodup
  · rename_i absent
    rw [List.nodup_append]
    refine ⟨nodup, List.nodup_singleton x, ?_⟩
    rintro y member z single rfl
    rw [List.mem_singleton] at single
    exact absent (single ▸ member)

/-- `for (const x of xs) set.add(x)` -/
def addAll (set xs : List α) : List α := xs.foldl add set

@[simp] theorem mem_addAll {set xs : List α} : y ∈ addAll set xs ↔ y ∈ set ∨ y ∈ xs := by
  unfold addAll
  induction xs generalizing set with
  | nil => simp
  | cons x rest ih =>
    rw [List.foldl_cons, ih, mem_add, List.mem_cons, or_assoc]

theorem nodup_addAll {set : List α} (nodup : set.Nodup) (xs : List α) : (addAll set xs).Nodup := by
  induction xs generalizing set with
  | nil => exact nodup
  | cons x rest ih => exact ih (nodup_add nodup x)

/-- `new Set(xs)` -/
def ofList (xs : List α) : List α := addAll [] xs

@[simp] theorem mem_ofList {xs : List α} : y ∈ ofList xs ↔ y ∈ xs := by simp [ofList]

theorem nodup_ofList (xs : List α) : (ofList xs).Nodup := nodup_addAll List.nodup_nil xs

/-- The element of a set that has only one. -/
def sole : List β → Option β
  | [x] => some x
  | _ => none

theorem sole_eq_some {set : List β} (nodup : set.Nodup) :
    sole set = some x ↔ ∀ y, y ∈ set ↔ y = x := by
  rcases set with _ | ⟨a, _ | ⟨b, rest⟩⟩
  · constructor
    · rintro ⟨⟩
    · intro only
      exact absurd ((only x).mpr rfl) List.not_mem_nil
  · constructor
    · rintro ⟨⟩ y
      exact List.mem_singleton
    · intro only
      rw [sole, (only a).mp List.mem_cons_self]
  · constructor
    · rintro ⟨⟩
    · intro only
      have first := (only a).mp (by simp)
      have second := (only b).mp (by simp)
      rw [first, second] at nodup
      simp at nodup

/-- Two sets with the same elements name the same. -/
theorem sole_congr {set other : List β} (nodup : set.Nodup) (nodup' : other.Nodup)
    (same : ∀ y, y ∈ set ↔ y ∈ other) : sole set = sole other := by
  apply Option.ext
  intro x
  rw [sole_eq_some nodup, sole_eq_some nodup']
  simp only [same]

/-- The longer set has at most one element more. -/
structure Grown (short long : List β) (added : β) : Prop where
  keeps : ∀ x ∈ short, x ∈ long
  adds : ∀ x ∈ long, x ∈ short ∨ x = added

/-- What is named later: the same, nothing, or the new element. -/
def Undiverted (short long : Option β) (added : β) : Prop :=
  long = short ∨ long = none ∨ long = some added

theorem undiverted_of_some (names : ∀ x, long = some x → short = some x ∨ x = added) :
    Undiverted short long added := by
  cases data : long with
  | none => exact .inr (.inl rfl)
  | some x =>
    rcases names x data with same | rfl
    · exact .inl same.symm
    · exact .inr (.inr rfl)

theorem Grown.sole {short long : List β} (grown : Grown short long added) (nodup : short.Nodup)
    (nodup' : long.Nodup) : Undiverted (sole short) (sole long) added := by
  apply undiverted_of_some
  intro x names
  rw [sole_eq_some nodup'] at names
  by_cases new : x = added
  · exact .inr new
  · refine .inl ((sole_eq_some nodup).mpr fun y => ?_)
    constructor
    · intro member
      exact (names y).mp (grown.keeps y member)
    · rintro rfl
      exact (grown.adds y ((names y).mpr rfl)).resolve_right new

/-- A set that was not empty grows to one that names the same or nothing. -/
theorem Grown.nonempty (grown : Grown short long added) (some : short ≠ []) : long ≠ [] := by
  obtain ⟨x, member⟩ := List.exists_mem_of_ne_nil short some
  exact List.ne_nil_of_mem (grown.keeps x member)

end LetAgents.Lib.KeySets

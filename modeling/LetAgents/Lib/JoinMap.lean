import Mathlib.Data.List.AList
import Mathlib.Order.Lattice
import Mathlib.Order.BoundedOrder.Lattice

/-!
# Joins over the values of a finite map

`joinOf weight m` is the join of `weight v` over the values `v` of an
association map. The rule a keyed accumulator needs is `joinOf_insert_raise`:
when one entry is replaced by one whose weight grew by `d`, the join of the map
grows by exactly `d`.
-/
namespace LetAgents.Lib.JoinMap

variable {κ ν ω : Type*} [SemilatticeSup ω] [OrderBot ω] (weight : ν → ω)

/-- Join of the weights of a list of entries. -/
def joinEntries (entries : List (Sigma fun _ : κ => ν)) : ω :=
  entries.foldr (fun entry total => weight entry.2 ⊔ total) ⊥

def joinOf (m : AList fun _ : κ => ν) : ω :=
  joinEntries weight m.entries

@[simp] theorem joinEntries_cons (entry : Sigma fun _ : κ => ν)
    (rest : List (Sigma fun _ : κ => ν)) :
    joinEntries weight (entry :: rest) = weight entry.2 ⊔ joinEntries weight rest := rfl

theorem joinEntries_append (left right : List (Sigma fun _ : κ => ν)) :
    joinEntries weight (left ++ right) = joinEntries weight left ⊔ joinEntries weight right := by
  induction left with
  | nil => simp [joinEntries]
  | cons entry rest ih => simp only [List.cons_append, joinEntries_cons, ih, sup_assoc]

variable [DecidableEq κ]

theorem joinOf_insert (k : κ) (v : ν) (m : AList fun _ : κ => ν) :
    joinOf weight (m.insert k v) = weight v ⊔ joinOf weight (m.erase k) := rfl

/-- Any one entry can be taken out of the join. -/
theorem joinOf_eq_erase {k : κ} (found : m.lookup k = some v) :
    joinOf weight m = weight v ⊔ joinOf weight (m.erase k) := by
  have present : k ∈ m.entries.keys := AList.lookup_isSome.1 (by rw [found]; rfl)
  obtain ⟨b, left, right, absent, split, erased⟩ := List.exists_of_kerase present
  have entry : b = v := by
    have looked : m.entries.dlookup k = some v := found
    rw [split, List.dlookup_append, List.dlookup_eq_none.2 absent] at looked
    simpa using looked
  subst entry
  calc
    joinOf weight m = joinEntries weight left ⊔ (weight b ⊔ joinEntries weight right) := by
      rw [joinOf, split, joinEntries_append, joinEntries_cons]
    _ = weight b ⊔ (joinEntries weight left ⊔ joinEntries weight right) := sup_left_comm _ _ _
    _ = weight b ⊔ joinOf weight (m.erase k) := by
      rw [← joinEntries_append, ← erased]; rfl

/-- Raising one entry by `d` raises the join by `d`; a missing entry counts as `⊥`. -/
theorem joinOf_insert_raise {k : κ} (raised : weight v = ((m.lookup k).elim ⊥ weight) ⊔ d) :
    joinOf weight (m.insert k v) = joinOf weight m ⊔ d := by
  rw [joinOf_insert, raised]
  cases found : m.lookup k with
  | none =>
    have absent : m.erase k = m := by
      apply AList.ext
      exact List.kerase_of_notMem_keys (AList.lookup_eq_none.1 found)
    rw [Option.elim_none, bot_sup_eq, absent, sup_comm]
  | some old =>
    rw [joinOf_eq_erase weight found]
    ac_rfl

end LetAgents.Lib.JoinMap

import Mathlib.Algebra.Order.Ring.Nat
import Mathlib.Data.List.Basic
import Mathlib.Data.List.Forall2
import Mathlib.Data.List.Nodup

/-!
# Tables

A table is a list of rows with a key. `find`, `put` and `update` are the reads and
writes of one row by its key; a statement that changes many rows is `List.map`, one
that deletes is `List.filter`, one that inserts is `++`.
-/
namespace LetAgents.Lib.Table

section Keys

variable {α κ : Type*} {key : α → κ}

/-- No two rows share a key. -/
def Keyed (key : α → κ) (rows : List α) : Prop := (rows.map key).Nodup

theorem Keyed.eq (keyed : Keyed key rows) (left : a ∈ rows) (right : b ∈ rows)
    (same : key a = key b) : a = b :=
  List.inj_on_of_nodup_map keyed left right same

theorem Keyed.map (keyed : Keyed key rows) (keeps : ∀ row ∈ rows, key (f row) = key row) :
    Keyed key (rows.map f) := by
  have same : (rows.map f).map key = rows.map key := by
    rw [List.map_map]
    exact List.map_congr_left keeps
  rw [Keyed, same]
  exact keyed

theorem Keyed.sublist (keyed : Keyed key rows) (sub : fewer.Sublist rows) : Keyed key fewer :=
  List.Nodup.sublist (List.Sublist.map key sub) keyed

theorem Keyed.append (keyed : Keyed key rows) (addedKeyed : Keyed key added)
    (fresh : ∀ row ∈ rows, ∀ other ∈ added, key row ≠ key other) : Keyed key (rows ++ added) := by
  rw [Keyed, List.map_append]
  refine List.nodup_append.mpr ⟨keyed, addedKeyed, ?_⟩
  intro k inRows k' inAdded
  obtain ⟨row, rowMember, rfl⟩ := List.mem_map.mp inRows
  obtain ⟨other, otherMember, rfl⟩ := List.mem_map.mp inAdded
  exact fresh row rowMember other otherMember

/-- What two conditions cover is counted by them. -/
theorem countP_le_add {rows : List α}
    (covers : ∀ row ∈ rows, p row = true → q row = true ∨ r row = true) :
    rows.countP p ≤ rows.countP q + rows.countP r := by
  induction rows with
  | nil => exact Nat.zero_le _
  | cons row rest ih =>
    have tail := ih fun other member => covers other (.tail _ member)
    have head := covers row List.mem_cons_self
    simp only [List.countP_cons]
    by_cases counted : p row = true
    · rcases head counted with left | right
      · rw [if_pos counted, if_pos left]
        omega
      · rw [if_pos counted, if_pos right]
        omega
    · rw [if_neg counted]
      omega

end Keys

section Rows

variable {α κ : Type*} [DecidableEq κ] {key : α → κ}

/-- The first row with the key. -/
def find (key : α → κ) (k : κ) (rows : List α) : Option α :=
  rows.find? fun row => key row = k

/-- The rows with the key of `row` become `row`. -/
def put (key : α → κ) (row : α) (rows : List α) : List α :=
  rows.map fun old => if key old = key row then row else old

theorem mem_of_find (found : find key k rows = some row) : row ∈ rows ∧ key row = k := by
  have holds := List.find?_some found
  simp only [decide_eq_true_eq] at holds
  exact ⟨List.mem_of_find?_eq_some found, holds⟩

theorem Keyed.find (keyed : Keyed key rows) (member : row ∈ rows) :
    find key (key row) rows = some row := by
  cases result : Table.find key (key row) rows with
  | none =>
    have absent := List.find?_eq_none.mp result row member
    simp at absent
  | some other =>
    obtain ⟨otherMember, same⟩ := mem_of_find result
    rw [keyed.eq otherMember member same]

theorem Keyed.put (keyed : Keyed key rows) (row : α) : Keyed key (put key row rows) := by
  refine keyed.map fun old _ => ?_
  split
  · next same => exact same.symm
  · rfl

/-- A row of the table after a `put` is the new row, or an old row with another key. -/
theorem mem_put (member : r ∈ put key row rows) :
    (r = row ∧ ∃ old ∈ rows, key old = key row) ∨ (r ∈ rows ∧ key r ≠ key row) := by
  obtain ⟨old, oldMember, rfl⟩ := List.mem_map.mp member
  by_cases same : key old = key row
  · exact .inl ⟨by simp only [same, if_true], old, oldMember, same⟩
  · rw [if_neg same]
    exact .inr ⟨oldMember, same⟩

theorem put_mem (member : old ∈ rows) (same : key old = key row) : row ∈ put key row rows :=
  List.mem_map.mpr ⟨old, member, by simp only [same, if_true]⟩

theorem mem_put_of_ne (member : old ∈ rows) (other : key old ≠ key row) : old ∈ put key row rows :=
  List.mem_map.mpr ⟨old, member, by rw [if_neg other]⟩

/-- A change of rows that keeps the keys commutes with finding a row. -/
theorem find_map (keeps : ∀ row, key (f row) = key row) (k : κ) (rows : List α) :
    find key k (rows.map f) = (find key k rows).map f := by
  unfold Table.find
  rw [List.find?_map]
  congr 1
  refine congrArg (List.find? · rows) (funext fun row => ?_)
  rw [Function.comp_apply, keeps]

/-- A key counts at most one row. -/
theorem Keyed.countP_le_one (keyed : Keyed key rows) (k : κ) :
    rows.countP (fun row => key row = k) ≤ 1 := by
  have counted : (rows.map key).count k ≤ 1 := List.nodup_iff_count_le_one.mp keyed k
  rw [List.count, List.countP_map] at counted
  refine Nat.le_trans (List.countP_mono_left fun row _ same => ?_) counted
  simpa using same

theorem put_of_absent (absent : ∀ old ∈ rows, key old ≠ key row) : put key row rows = rows := by
  have same : rows.map (fun old => if key old = key row then row else old) = rows.map id :=
    List.map_congr_left fun old member => if_neg (absent old member)
  rw [put, same, List.map_id]

/-- Updating the row that was just inserted. -/
theorem put_append (absent : ∀ other ∈ rows, key other ≠ key row) (same : key old = key row) :
    put key row (rows ++ [old]) = rows ++ [row] := by
  have front := put_of_absent absent
  unfold put at front ⊢
  rw [List.map_append, front, List.map_singleton, if_pos same]

/-- The rows with the key are changed by `change`. -/
def update (key : α → κ) (k : κ) (change : α → α) (rows : List α) : List α :=
  rows.map fun row => if key row = k then change row else row

theorem Keyed.update (keyed : Keyed key rows) (keeps : ∀ row, key (change row) = key row) :
    Keyed key (update key k change rows) := by
  refine keyed.map fun row _ => ?_
  split
  · exact keeps row
  · rfl

/-- An update that keeps the keys finds the row, changed where it has the key. -/
theorem find_update (keeps : ∀ row, key (change row) = key row) (j : κ) (rows : List α) :
    find key j (update key k change rows) =
      (find key j rows).map fun row => if key row = k then change row else row := by
  refine find_map (fun row => ?_) j rows
  split
  · exact keeps row
  · rfl

theorem find_append (k : κ) (rows more : List α) :
    find key k (rows ++ more) = (find key k rows).or (find key k more) := List.find?_append

end Rows

end LetAgents.Lib.Table

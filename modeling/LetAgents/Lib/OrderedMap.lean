import LetAgents.Lib.Table

/-!
# Maps in insertion order

A map keeps its entries in the order in which their keys came in. `set` leaves a key that
is there at its place and puts a new one at the end; a key that is deleted and set again
comes last.
-/
namespace LetAgents.Lib

structure OrderedMap (κ α : Type*) where
  entries : List (κ × α)
  keyed : Table.Keyed Prod.fst entries

namespace OrderedMap

variable {κ α : Type*}

def empty : OrderedMap κ α := ⟨[], List.nodup_nil⟩

def size (m : OrderedMap κ α) : Nat := m.entries.length

def keys (m : OrderedMap κ α) : List κ := m.entries.map Prod.fst

def values (m : OrderedMap κ α) : List α := m.entries.map Prod.snd

variable [DecidableEq κ]

def get (m : OrderedMap κ α) (k : κ) : Option α := (Table.find Prod.fst k m.entries).map Prod.snd

def delete (m : OrderedMap κ α) (k : κ) : OrderedMap κ α where
  entries := m.entries.filter fun entry => entry.1 ≠ k
  keyed := m.keyed.sublist List.filter_sublist

theorem mem_delete {m : OrderedMap κ α} :
    entry ∈ (m.delete k).entries ↔ entry ∈ m.entries ∧ entry.1 ≠ k := by
  simp [delete]

/-- A key without a value goes to the end. -/
def add (m : OrderedMap κ α) (k : κ) (v : α) (absent : ∀ entry ∈ m.entries, entry.1 ≠ k) :
    OrderedMap κ α where
  entries := m.entries ++ [(k, v)]
  keyed := by
    refine m.keyed.append (List.nodup_singleton k) fun entry member other single => ?_
    rw [List.mem_singleton] at single
    rw [single]
    exact absent entry member

def set (m : OrderedMap κ α) (k : κ) (v : α) : OrderedMap κ α :=
  if absent : ∀ entry ∈ m.entries, entry.1 ≠ k then m.add k v absent
  else ⟨Table.put Prod.fst (k, v) m.entries, m.keyed.put (k, v)⟩

/-- `delete`, then `set`: the key comes last. -/
def setLast (m : OrderedMap κ α) (k : κ) (v : α) : OrderedMap κ α :=
  (m.delete k).add k v fun _ member => (mem_delete.mp member).2

theorem get_eq_some {m : OrderedMap κ α} : m.get k = some v ↔ (k, v) ∈ m.entries := by
  unfold get
  constructor
  · intro found
    obtain ⟨entry, has, same⟩ := Option.map_eq_some_iff.mp found
    obtain ⟨member, key⟩ := Table.mem_of_find has
    rwa [← key, ← same]
  · intro member
    rw [m.keyed.find member, Option.map_some]

theorem get_eq_none {m : OrderedMap κ α} : m.get k = none ↔ ∀ entry ∈ m.entries, entry.1 ≠ k := by
  simp [get, Table.find]

theorem mem_set {m : OrderedMap κ α} :
    entry ∈ (m.set k v).entries ↔ entry = (k, v) ∨ entry ∈ m.entries ∧ entry.1 ≠ k := by
  unfold set
  split
  · rename_i absent
    rw [add, List.mem_append, List.mem_singleton, or_comm]
    exact or_congr_right ⟨fun member => ⟨member, absent entry member⟩, And.left⟩
  · rename_i present
    push Not at present
    obtain ⟨old, member, same⟩ := present
    constructor
    · intro put
      exact (Table.mem_put put).imp And.left id
    · rintro (rfl | ⟨member, other⟩)
      · exact Table.put_mem member same
      · exact Table.mem_put_of_ne member other

theorem mem_setLast {m : OrderedMap κ α} :
    entry ∈ (m.setLast k v).entries ↔ entry = (k, v) ∨ entry ∈ m.entries ∧ entry.1 ≠ k := by
  rw [setLast, add, List.mem_append, List.mem_singleton, mem_delete, or_comm]

/-- What holds of the entries of two maps as members holds of their values. -/
theorem get_of_entries {m m' : OrderedMap κ α}
    (same : ∀ v, (k, v) ∈ m.entries ↔ (k, v) ∈ m'.entries) : m.get k = m'.get k :=
  Option.ext fun v => by rw [get_eq_some, get_eq_some, same]

@[simp] theorem get_empty (k : κ) : (empty : OrderedMap κ α).get k = none := rfl

section

variable (m : OrderedMap κ α)
include m

@[simp] theorem get_set_self (k : κ) (v : α) : (m.set k v).get k = some v :=
  get_eq_some.mpr (mem_set.mpr (.inl rfl))

@[simp] theorem get_set_of_ne (v : α) (other : j ≠ k) : (m.set k v).get j = m.get j :=
  get_of_entries fun v' => by simp [mem_set, other]

@[simp] theorem get_delete_self (k : κ) : (m.delete k).get k = none :=
  get_eq_none.mpr fun _ member => (mem_delete.mp member).2

@[simp] theorem get_delete_of_ne (other : j ≠ k) : (m.delete k).get j = m.get j :=
  get_of_entries fun v' => by simp [mem_delete, other]

end

theorem mem_keys {m : OrderedMap κ α} : k ∈ m.keys ↔ ∃ v, m.get k = some v := by
  simp only [keys, List.mem_map, get_eq_some]
  constructor
  · rintro ⟨⟨key, v⟩, member, rfl⟩
    exact ⟨v, member⟩
  · rintro ⟨v, member⟩
    exact ⟨(k, v), member, rfl⟩

theorem keys_delete_le (m : OrderedMap κ α) (k : κ) : (m.delete k).keys.length ≤ m.keys.length := by
  simpa [keys, delete] using List.length_filter_le ..

theorem keys_delete_lt {m : OrderedMap κ α} (has : m.get k = some v) :
    (m.delete k).keys.length < m.keys.length := by
  simp only [keys, List.length_map]
  exact List.length_filter_lt_length_iff_exists.mpr ⟨(k, v), get_eq_some.mp has, by simp⟩

theorem keys_set {m : OrderedMap κ α} (v : α) (absent : m.get k = none) :
    (m.set k v).keys.length = m.keys.length + 1 := by
  unfold set
  rw [dif_pos (get_eq_none.mp absent)]
  simp [keys, add]

theorem mem_values {m : OrderedMap κ α} (has : m.get k = some v) : v ∈ m.values :=
  List.mem_map.mpr ⟨(k, v), get_eq_some.mp has, rfl⟩

theorem exists_of_mem_values {m : OrderedMap κ α} (member : v ∈ m.values) :
    ∃ k, m.get k = some v := by
  obtain ⟨entry, here, rfl⟩ := List.mem_map.mp member
  exact ⟨entry.1, get_eq_some.mpr here⟩

end OrderedMap

end LetAgents.Lib

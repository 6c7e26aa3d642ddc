import Mathlib.Logic.Equiv.Basic
import Mathlib.Data.Nat.Basic
import Mathlib.Order.Lattice

/-!
# Binary heaps in a list

A heap is a list whose elements do not come before their parents. While one element is sifted,
the list is a heap but for the pairs of that place with its parent, or with its children; one
swap moves the place, and where it needs none the list is a heap.
-/
namespace LetAgents.Lib.BinaryHeap

variable {α κ : Type*} [LinearOrder κ]

def parent (i : Nat) : Nat := (i - 1) / 2

theorem parent_lt (positive : 0 < i) : parent i < i := by
  unfold parent
  omega

def swap (l : List α) (i j : Nat) : List α :=
  match l[i]?, l[j]? with
  | some a, some b => (l.set i b).set j a
  | _, _ => l

@[simp] theorem length_swap (l : List α) (i j : Nat) : (swap l i j).length = l.length := by
  unfold swap
  split
  · rw [List.length_set, List.length_set]
  · rfl

theorem getElem?_swap {l : List α} (left : i < l.length) (right : j < l.length) (k : Nat) :
    (swap l i j)[k]? = l[Equiv.swap i j k]? := by
  simp only [swap, List.getElem?_eq_getElem left, List.getElem?_eq_getElem right]
  rw [List.getElem?_set, List.getElem?_set, List.length_set, Equiv.swap_apply_def]
  by_cases atRight : k = j
  · subst atRight
    rw [if_pos rfl, if_pos right]
    by_cases same : k = i
    · subst same
      rw [if_pos rfl, List.getElem?_eq_getElem left]
    · rw [if_neg same, if_pos rfl, List.getElem?_eq_getElem left]
  · rw [if_neg (Ne.symm atRight)]
    by_cases atLeft : k = i
    · subst atLeft
      rw [if_pos rfl, if_pos rfl, if_pos left, List.getElem?_eq_getElem right]
    · rw [if_neg (Ne.symm atLeft), if_neg atLeft, if_neg atRight]

theorem mem_swap {l : List α} (left : i < l.length) (right : j < l.length) :
    a ∈ swap l i j ↔ a ∈ l := by
  simp only [List.mem_iff_getElem?, getElem?_swap left right]
  exact (Equiv.swap i j).exists_congr_left.trans (by simp)

/-! ## The order -/

/-- What is at the one place does not come after what is at the other. -/
def Ordered (rank : α → κ) (l : List α) (i j : Nat) : Prop :=
  ∀ a b, l[i]? = some a → l[j]? = some b → rank a ≤ rank b

def Heap (rank : α → κ) (l : List α) : Prop := ∀ i, 0 < i → Ordered rank l (parent i) i

/-- A heap but for one place and its parent. -/
structure UpHeap (rank : α → κ) (l : List α) (hole : Nat) : Prop where
  others : ∀ i, 0 < i → i ≠ hole → Ordered rank l (parent i) i
  across : ∀ i, 0 < i → parent i = hole → 0 < hole → Ordered rank l (parent hole) i

/-- A heap but for one place and its children. -/
structure DownHeap (rank : α → κ) (l : List α) (hole : Nat) : Prop where
  others : ∀ i, 0 < i → parent i ≠ hole → Ordered rank l (parent i) i
  across : ∀ i, 0 < i → parent i = hole → 0 < hole → Ordered rank l (parent hole) i

variable {rank : α → κ} {l : List α}

theorem Ordered.trans (first : Ordered rank l i j) (second : Ordered rank l j k)
    (inside : j < l.length) : Ordered rank l i k :=
  fun a b here there => (first a _ here (List.getElem?_eq_getElem inside)).trans
    (second _ b (List.getElem?_eq_getElem inside) there)

theorem ordered_swap (left : i < l.length) (right : j < l.length) :
    Ordered rank (swap l i j) m n ↔ Ordered rank l (Equiv.swap i j m) (Equiv.swap i j n) := by
  simp only [Ordered, getElem?_swap left right]

theorem UpHeap.heap (up : UpHeap rank l hole)
    (stop : 0 < hole → Ordered rank l (parent hole) hole) : Heap rank l := by
  intro i positive
  by_cases same : i = hole
  · exact same ▸ stop (same ▸ positive)
  · exact up.others i positive same

theorem DownHeap.heap (down : DownHeap rank l hole)
    (stop : ∀ i, 0 < i → parent i = hole → Ordered rank l hole i) : Heap rank l := by
  intro i positive
  by_cases same : parent i = hole
  · exact same ▸ stop i positive same
  · exact down.others i positive same

theorem UpHeap.swap (up : UpHeap rank l hole) (positive : 0 < hole) (inside : hole < l.length)
    (wrong : Ordered rank l hole (parent hole)) :
    UpHeap rank (BinaryHeap.swap l (parent hole) hole) (parent hole) := by
  have above := parent_lt positive
  have within : parent hole < l.length := above.trans inside
  constructor
  case others =>
    intro i child apart
    rw [ordered_swap within inside]
    by_cases same : i = hole
    · subst same
      rwa [Equiv.swap_apply_left, Equiv.swap_apply_right]
    · rw [Equiv.swap_apply_of_ne_of_ne apart same]
      by_cases ofHole : parent i = hole
      · rw [ofHole, Equiv.swap_apply_right]
        exact up.across i child ofHole positive
      · by_cases ofParent : parent i = parent hole
        · rw [ofParent, Equiv.swap_apply_left]
          exact wrong.trans (ofParent ▸ up.others i child same) within
        · rw [Equiv.swap_apply_of_ne_of_ne ofParent ofHole]
          exact up.others i child same
  case across =>
    intro i child ofParent root
    rw [ordered_swap within inside]
    have grand := parent_lt root
    have below := parent_lt child
    have upper := up.others (parent hole) root above.ne
    rw [Equiv.swap_apply_of_ne_of_ne grand.ne (grand.trans above).ne]
    by_cases same : i = hole
    · subst same
      rwa [Equiv.swap_apply_right]
    · rw [Equiv.swap_apply_of_ne_of_ne (by omega) same]
      exact upper.trans (ofParent ▸ up.others i child same) within

theorem DownHeap.swap (down : DownHeap rank l hole) (positive : 0 < child)
    (own : parent child = hole) (inside : child < l.length) (wrong : Ordered rank l child hole)
    (least : ∀ i, 0 < i → parent i = hole → Ordered rank l child i) :
    DownHeap rank (BinaryHeap.swap l hole child) child := by
  have above : hole < child := own ▸ parent_lt positive
  have within : hole < l.length := above.trans inside
  constructor
  case others =>
    intro i some apart
    rw [ordered_swap within inside]
    have below := parent_lt some
    by_cases same : i = child
    · rw [same, own, Equiv.swap_apply_left, Equiv.swap_apply_right]
      exact wrong
    · by_cases atHole : i = hole
      · subst atHole
        rw [Equiv.swap_apply_left, Equiv.swap_apply_of_ne_of_ne below.ne (below.trans above).ne]
        exact down.across child positive own some
      · rw [Equiv.swap_apply_of_ne_of_ne atHole same]
        by_cases ofHole : parent i = hole
        · rw [ofHole, Equiv.swap_apply_left]
          exact least i some ofHole
        · rw [Equiv.swap_apply_of_ne_of_ne ofHole apart]
          exact down.others i some ofHole
  case across =>
    intro i some ofChild _
    rw [ordered_swap within inside, own, Equiv.swap_apply_left]
    have below := parent_lt some
    rw [Equiv.swap_apply_of_ne_of_ne (by omega) (by omega)]
    exact ofChild ▸ down.others i some (by omega)

/-- The root comes first. -/
theorem Heap.root (heap : Heap rank l) (first : l[0]? = some a) (member : b ∈ l) :
    rank a ≤ rank b := by
  obtain ⟨i, here⟩ := List.mem_iff_getElem?.mp member
  induction i using Nat.strong_induction_on generalizing b with
  | _ i ih =>
    by_cases root : i = 0
    · rw [root, first] at here
      exact (Option.some.inj here ▸ le_rfl)
    · have positive := Nat.pos_of_ne_zero root
      have above := parent_lt positive
      obtain ⟨inside, -⟩ := List.getElem?_eq_some_iff.mp here
      have there := List.getElem?_eq_getElem (above.trans inside)
      exact (ih _ above (List.getElem_mem _) there).trans (heap i positive _ _ there here)

/-! ## Changes of a heap -/

theorem Heap.concat (heap : Heap rank l) (a : α) : UpHeap rank (l ++ [a]) l.length := by
  have before : ∀ {i b}, (l ++ [a])[i]? = some b → i ≠ l.length → l[i]? = some b := by
    intro i b here apart
    obtain ⟨inside, -⟩ := List.getElem?_eq_some_iff.mp here
    rw [List.length_append, List.length_singleton] at inside
    rwa [List.getElem?_append_left (by omega)] at here
  constructor
  case others =>
    intro i positive apart b c here there
    obtain ⟨inside, -⟩ := List.getElem?_eq_some_iff.mp there
    rw [List.length_append, List.length_singleton] at inside
    have above := parent_lt positive
    exact heap i positive b c (before here (by omega)) (before there apart)
  case across =>
    intro i positive own _ b c _ there
    obtain ⟨inside, -⟩ := List.getElem?_eq_some_iff.mp there
    rw [List.length_append, List.length_singleton] at inside
    have above := parent_lt positive
    omega

theorem Heap.dropLast (heap : Heap rank l) : Heap rank l.dropLast := by
  intro i positive a b here there
  rw [List.getElem?_dropLast] at here there
  split at here
  · split at there
    · exact heap i positive a b here there
    · cases there
  · cases here

theorem ordered_set_of_ne (above : m ≠ i) (below : n ≠ i) :
    Ordered rank (l.set i a) m n ↔ Ordered rank l m n := by
  simp only [Ordered, List.getElem?_set_ne (Ne.symm above), List.getElem?_set_ne (Ne.symm below)]

/-- Across a place that is in a heap. -/
theorem Heap.across_set (heap : Heap rank l) (a : α) (positive : 0 < i) (own : parent i = hole)
    (below : 0 < hole) : Ordered rank (l.set hole a) (parent hole) i := by
  have above := parent_lt below
  have under := parent_lt positive
  rw [ordered_set_of_ne above.ne (by omega)]
  intro b c here there
  obtain ⟨inside, -⟩ := List.getElem?_eq_some_iff.mp there
  exact (heap hole below).trans (own ▸ heap i positive) (by omega) b c here there

theorem Heap.set_up (heap : Heap rank l) (inside : hole < l.length) (positive : 0 < hole)
    (wrong : Ordered rank (l.set hole a) hole (parent hole)) : UpHeap rank (l.set hole a) hole := by
  have above := parent_lt positive
  constructor
  case others =>
    intro i child apart
    by_cases own : parent i = hole
    · rw [own]
      refine wrong.trans (heap.across_set a child own positive) ?_
      rw [List.length_set]
      exact above.trans inside
    · rw [ordered_set_of_ne own apart]
      exact heap i child
  case across => exact fun i child own below => heap.across_set a child own below

theorem Heap.set_down (heap : Heap rank l)
    (right : 0 < hole → Ordered rank (l.set hole a) (parent hole) hole) :
    DownHeap rank (l.set hole a) hole := by
  constructor
  case others =>
    intro i child apart
    by_cases same : i = hole
    · exact same ▸ right (same ▸ child)
    · rw [ordered_set_of_ne apart same]
      exact heap i child
  case across => exact fun i child own below => heap.across_set a child own below

end LetAgents.Lib.BinaryHeap

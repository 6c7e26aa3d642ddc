import LetAgents.Rooms.DeliveryReleases

/-!
# The queue of releases is a heap

A sift keeps the entries and an exact index; what it makes of their order are the rules of
`BinaryHeap`.
-/
namespace LetAgents.Rooms.DeliveryReleases

open Lib BinaryHeap

namespace ReleaseQueue

variable {q : ReleaseQueue}

/-- The index has exactly the keys of the queue, at their places. -/
def Exact (q : ReleaseQueue) : Prop :=
  ∀ key index, q.indexes key = some index ↔ ∃ entry, q.entries[index]? = some entry ∧ entry.key = key

abbrev IsHeap (q : ReleaseQueue) : Prop := Heap PendingDeliveryRelease.dueAt q.entries

abbrev Due (q : ReleaseQueue) (i j : Nat) : Prop := BinaryHeap.Ordered PendingDeliveryRelease.dueAt q.entries i j

theorem Exact.index (exact : Exact q) {index : Nat} (here : q.entries[index]? = some entry) :
    q.indexes entry.key = some index :=
  (exact _ _).mpr ⟨entry, here, rfl⟩

/-- A key is at one place. -/
theorem Exact.unique (exact : Exact q) {i j : Nat} (here : q.entries[i]? = some a)
    (there : q.entries[j]? = some b) (same : a.key = b.key) : i = j := by
  have first := exact.index here
  rw [same, exact.index there] at first
  exact (Option.some.inj first).symm

theorem isBefore_ordered (before : q.isBefore i j = true) : q.Due i j := by
  intro a b here there
  simp only [isBefore, here, there, decide_eq_true_eq] at before
  exact before.le

theorem ordered_of_not (after : ¬q.isBefore i j) : q.Due j i := by
  intro a b here there
  simp only [isBefore, here, there, decide_eq_true_eq] at after
  exact not_lt.mp after

/-- The same entries, at other places. -/
structure Rearranged (q q' : ReleaseQueue) : Prop where
  exact : Exact q'
  members : ∀ entry, entry ∈ q'.entries ↔ entry ∈ q.entries

theorem mark_here (here : q.entries[index]? = some entry) :
    q.mark index = { q with indexes := Function.update q.indexes entry.key (some index) } := by
  unfold mark
  rw [here]

theorem swap_here (here : q.entries[i]? = some a) (there : q.entries[j]? = some b) :
    q.swap i j = ⟨BinaryHeap.swap q.entries i j,
      Function.update (Function.update q.indexes b.key (some i)) a.key (some j)⟩ := by
  obtain ⟨left, -⟩ := List.getElem?_eq_some_iff.mp here
  obtain ⟨right, -⟩ := List.getElem?_eq_some_iff.mp there
  have atLeft : (BinaryHeap.swap q.entries i j)[i]? = some b := by
    rw [getElem?_swap left right, Equiv.swap_apply_left, there]
  have atRight : (BinaryHeap.swap q.entries i j)[j]? = some a := by
    rw [getElem?_swap left right, Equiv.swap_apply_right, here]
  unfold ReleaseQueue.swap
  rw [mark_here (q := { q with entries := BinaryHeap.swap q.entries i j }) atLeft, mark_here atRight]

/-- A swap moves the index with the entries. -/
theorem Exact.swap_indexes (exact : Exact q) (left : i < q.entries.length)
    (right : j < q.entries.length) (key : String) :
    (q.swap i j).indexes key = (q.indexes key).map (Equiv.swap i j) := by
  have there := List.getElem?_eq_getElem left
  have here := List.getElem?_eq_getElem right
  rw [swap_here there here]
  change Function.update (Function.update q.indexes q.entries[j].key (some i)) q.entries[i].key (some j) key = _
  by_cases first : key = q.entries[i].key
  · rw [first, Function.update_self, exact.index there, Option.map_some, Equiv.swap_apply_left]
  · rw [Function.update_of_ne first]
    by_cases second : key = q.entries[j].key
    · rw [second, Function.update_self, exact.index here, Option.map_some, Equiv.swap_apply_right]
    · rw [Function.update_of_ne second]
      cases place : q.indexes key with
      | none => rfl
      | some index =>
        obtain ⟨entry, found, rfl⟩ := (exact key index).mp place
        have other : ∀ {k : Nat} {e : PendingDeliveryRelease}, q.entries[k]? = some e → entry.key ≠ e.key → index ≠ k :=
          fun has apart same => apart (Option.some.inj (found.symm.trans (same ▸ has)) ▸ rfl)
        rw [Option.map_some, Equiv.swap_apply_of_ne_of_ne (other there first) (other here second)]

theorem Exact.swap (exact : Exact q) (left : i < q.entries.length) (right : j < q.entries.length) :
    Rearranged q (q.swap i j) := by
  refine ⟨fun key index => ?_, fun entry => by rw [swap_entries]; exact mem_swap left right⟩
  rw [exact.swap_indexes left right, swap_entries, getElem?_swap left right, ← exact]
  cases q.indexes key with
  | none => simp
  | some place => simp [Equiv.swap_apply_eq_iff]

theorem Rearranged.refl (exact : Exact q) : Rearranged q q := ⟨exact, fun _ => Iff.rfl⟩

theorem Rearranged.trans (first : Rearranged q q') (second : Rearranged q' q'') :
    Rearranged q q'' :=
  ⟨second.exact, fun entry => (second.members entry).trans (first.members entry)⟩

theorem siftUp_spec (exact : Exact q) (inside : index < q.entries.length)
    (up : UpHeap PendingDeliveryRelease.dueAt q.entries index) :
    (q.siftUp index).IsHeap ∧ Rearranged q (q.siftUp index) := by
  induction index using Nat.strong_induction_on generalizing q with
  | _ index ih =>
    rw [siftUp]
    split
    · next positive =>
      have above := parent_lt positive
      split
      · next before =>
        have within := above.trans inside
        have swapped := exact.swap within inside
        have moved := up.swap positive inside (isBefore_ordered before)
        rw [← swap_entries] at moved
        obtain ⟨heap, rearranged⟩ := ih _ above swapped.exact
          (by rw [swap_entries, length_swap]; exact within) moved
        exact ⟨heap, swapped.trans rearranged⟩
      · next stops => exact ⟨up.heap fun _ => ordered_of_not stops, .refl exact⟩
    · next root => exact ⟨up.heap fun positive => absurd positive root, .refl exact⟩

theorem children (positive : 0 < i) :
    parent i = index ↔ i = index * 2 + 1 ∨ i = index * 2 + 1 + 1 := by
  unfold parent
  omega

/-- The smallest of a place and its children. -/
theorem smallest_spec (q : ReleaseQueue) (inside : index < q.entries.length) :
    (∀ i, 0 < i → parent i = index → q.Due (q.smallest index) i) ∧
      (q.smallest index ≠ index → parent (q.smallest index) = index ∧ q.Due (q.smallest index) index) := by
  have either : ∀ {least}, q.Due least (index * 2 + 1) → q.Due least (index * 2 + 1 + 1) →
      ∀ i, 0 < i → parent i = index → q.Due least i := by
    intro least low high i positive own
    obtain rfl | rfl := (children positive).mp own
    · exact low
    · exact high
  have self : ∀ i, q.Due i i := fun i a b here there => by
    rw [here] at there
    exact (Option.some.inj there ▸ le_rfl)
  unfold smallest
  dsimp only
  by_cases low : q.isBefore (index * 2 + 1) index = true
  · rw [if_pos low]
    have left := (isBefore_inside low).1
    by_cases high : q.isBefore (index * 2 + 1 + 1) (index * 2 + 1) = true
    · rw [if_pos high]
      exact ⟨either (isBefore_ordered high) (self _), fun _ =>
        ⟨(children (by omega)).mpr (.inr rfl), (isBefore_ordered high).trans (isBefore_ordered low) left⟩⟩
    · rw [if_neg high]
      exact ⟨either (self _) (ordered_of_not high), fun _ =>
        ⟨(children (by omega)).mpr (.inl rfl), isBefore_ordered low⟩⟩
  · rw [if_neg low]
    by_cases high : q.isBefore (index * 2 + 1 + 1) index = true
    · rw [if_pos high]
      exact ⟨either ((isBefore_ordered high).trans (ordered_of_not low) inside) (self _), fun _ =>
        ⟨(children (by omega)).mpr (.inr rfl), isBefore_ordered high⟩⟩
    · rw [if_neg high]
      exact ⟨either (ordered_of_not low) (ordered_of_not high), fun other => absurd rfl other⟩

theorem siftDown_spec (exact : Exact q) (inside : index < q.entries.length)
    (down : DownHeap PendingDeliveryRelease.dueAt q.entries index) :
    (q.siftDown index).IsHeap ∧ Rearranged q (q.siftDown index) := by
  induction distance : q.entries.length - index using Nat.strong_induction_on generalizing q index with
  | _ n ih =>
    obtain ⟨least, child⟩ := q.smallest_spec inside
    rw [siftDown]
    split
    · next stops =>
      rw [stops] at least
      exact ⟨down.heap least, .refl exact⟩
    · next other =>
      obtain ⟨below, within⟩ := smallest_bounds other
      obtain ⟨own, wrong⟩ := child other
      have swapped := exact.swap inside within
      have moved := down.swap (Nat.zero_lt_of_lt below) own within wrong least
      rw [← swap_entries] at moved
      have length : (q.swap index (q.smallest index)).entries.length = q.entries.length := by
        rw [swap_entries, length_swap]
      obtain ⟨heap, rearranged⟩ := ih _ (by omega) swapped.exact (length ▸ within) moved rfl
      exact ⟨heap, swapped.trans rearranged⟩

/-! ## Operations -/

theorem push_spec (exact : Exact q) (heap : q.IsHeap)
    (absent : ∀ other ∈ q.entries, other.key ≠ entry.key) :
    (q.push entry).IsHeap ∧ Exact (q.push entry) ∧
      ∀ other, other ∈ (q.push entry).entries ↔ other ∈ q.entries ∨ other = entry := by
  have pushed : Exact ⟨q.entries ++ [entry], Function.update q.indexes entry.key (some q.entries.length)⟩ := by
    intro key index
    change Function.update q.indexes entry.key (some q.entries.length) key = some index ↔
      ∃ other, (q.entries ++ [entry])[index]? = some other ∧ other.key = key
    by_cases own : key = entry.key
    · subst own
      rw [Function.update_self, Option.some.injEq]
      constructor
      · rintro rfl
        exact ⟨entry, List.getElem?_concat_length .., rfl⟩
      · rintro ⟨other, here, same⟩
        obtain ⟨inside, -⟩ := List.getElem?_eq_some_iff.mp here
        rw [List.length_append, List.length_singleton] at inside
        by_contra apart
        rw [List.getElem?_append_left (by omega)] at here
        exact absent other (List.mem_of_getElem? here) same
    · rw [Function.update_of_ne own, exact key index]
      refine exists_congr fun other => and_congr_left fun same => ?_
      by_cases last : index = q.entries.length
      · subst last
        rw [List.getElem?_concat_length, List.getElem?_eq_none le_rfl]
        exact iff_of_false (nofun) fun here => own (Option.some.inj here ▸ same.symm)
      · by_cases inside : index < q.entries.length
        · rw [List.getElem?_append_left inside]
        · rw [List.getElem?_eq_none (by omega), List.getElem?_eq_none (by simp; omega)]
  have inside : q.entries.length < (q.entries ++ [entry]).length := by simp
  obtain ⟨heap', rearranged⟩ := siftUp_spec pushed inside (heap.concat entry)
  refine ⟨heap', rearranged.exact, fun other => (rearranged.members other).trans ?_⟩
  rw [List.mem_append, List.mem_singleton]

/-- The last entry is removed. -/
theorem Exact.pop (exact : Exact q) (here : q.entries[q.entries.length - 1]? = some removed) :
    Exact ⟨q.entries.dropLast, Function.update q.indexes removed.key none⟩ ∧
      ∀ entry, entry ∈ q.entries.dropLast ↔ entry ∈ q.entries ∧ entry.key ≠ removed.key := by
  have places : ∀ (i : Nat) (entry : PendingDeliveryRelease), q.entries.dropLast[i]? = some entry ↔
      q.entries[i]? = some entry ∧ entry.key ≠ removed.key := by
    intro i entry
    rw [List.getElem?_dropLast]
    split
    · next inside =>
      refine (and_iff_left_of_imp fun there same => ?_).symm
      have place := exact.unique there here same
      omega
    · next beyond =>
      refine iff_of_false (nofun) ?_
      rintro ⟨there, other⟩
      obtain ⟨inside, -⟩ := List.getElem?_eq_some_iff.mp there
      rw [show i = q.entries.length - 1 by omega, here] at there
      exact other (Option.some.inj there ▸ rfl)
  constructor
  · intro key i
    simp only [places]
    by_cases gone : key = removed.key
    · subst gone
      rw [Function.update_self]
      refine iff_of_false (nofun) ?_
      rintro ⟨entry, ⟨-, other⟩, same⟩
      exact other same
    · rw [Function.update_of_ne gone, exact key i]
      refine exists_congr fun entry => and_congr_left fun own => ?_
      exact (and_iff_left fun same => gone (own.symm.trans same)).symm
  · intro entry
    simp only [List.mem_iff_getElem?, places, exists_and_right]

/-- The last entry takes the place of one that is removed: it is swapped with it, which then goes. -/
theorem Exact.place (exact : Exact q) {index : Nat} (here : q.entries[index]? = some removed)
    (final : q.entries[q.entries.length - 1]? = some last)
    (earlier : index < q.entries.length - 1) :
    Exact ⟨q.entries.dropLast.set index last,
        Function.update (Function.update q.indexes removed.key none) last.key (some index)⟩ ∧
      ∀ entry, entry ∈ q.entries.dropLast.set index last ↔ entry ∈ q.entries ∧ entry.key ≠ removed.key := by
  have apart : last.key ≠ removed.key := fun same => by
    have place := exact.unique final here same
    omega
  have inside : index < q.entries.length := by omega
  have atEnd : q.entries.length - 1 < q.entries.length := by omega
  have swapped := exact.swap inside atEnd
  have gone : (q.swap index (q.entries.length - 1)).entries[(q.swap index (q.entries.length - 1)).entries.length - 1]? =
      some removed := by
    rw [swap_entries, length_swap, getElem?_swap inside atEnd, Equiv.swap_apply_right, here]
  have dropped : (BinaryHeap.swap q.entries index (q.entries.length - 1)).dropLast =
      q.entries.dropLast.set index last := by
    refine List.ext_getElem? fun i => ?_
    rw [List.getElem?_dropLast, length_swap, getElem?_swap inside atEnd]
    by_cases own : i = index
    · rw [own, if_pos earlier, Equiv.swap_apply_left, final, List.getElem?_set_self]
      rw [List.length_dropLast]
      exact earlier
    · rw [List.getElem?_set_ne (Ne.symm own), List.getElem?_dropLast]
      split
      · next before => rw [Equiv.swap_apply_of_ne_of_ne own before.ne]
      · rfl
  obtain ⟨popped, members⟩ := swapped.exact.pop gone
  rw [swap_entries, dropped] at members
  rw [swap_here here final] at popped
  rw [dropped, Function.update_idem, Function.update_comm apart] at popped
  exact ⟨popped, fun entry => (members entry).trans (and_congr_left' (by rw [← swap_entries]; exact swapped.members entry))⟩

theorem removeAt_spec (exact : Exact q) (heap : q.IsHeap)
    (here : q.entries[index]? = some removed) :
    (q.removeAt index).IsHeap ∧ Exact (q.removeAt index) ∧
      ∀ entry, entry ∈ (q.removeAt index).entries ↔ entry ∈ q.entries ∧ entry.key ≠ removed.key := by
  obtain ⟨inside, -⟩ := List.getElem?_eq_some_iff.mp here
  obtain ⟨last, final⟩ : ∃ last, q.entries[q.entries.length - 1]? = some last :=
    ⟨_, List.getElem?_eq_getElem (by omega)⟩
  have ends : q.entries.getLast? = some last := List.getLast?_eq_getElem?.trans final
  simp only [removeAt, here, ends, List.length_dropLast]
  split
  · next earlier =>
    have spot : (q.entries.dropLast.set index last)[index]? = some last :=
      List.getElem?_set_self (by rw [List.length_dropLast]; exact earlier)
    rw [mark_here (q := ⟨q.entries.dropLast.set index last, Function.update q.indexes removed.key none⟩) spot]
    obtain ⟨placed, members⟩ := exact.place here final earlier
    have room : index < (q.entries.dropLast.set index last).length := by
      rw [List.length_set, List.length_dropLast]
      exact earlier
    have popped := heap.dropLast
    split
    · next rises =>
      have up := popped.set_up (by rw [List.length_dropLast]; exact earlier) rises.1 (isBefore_ordered rises.2)
      obtain ⟨heap', rearranged⟩ := siftUp_spec placed room up
      exact ⟨heap', rearranged.exact, fun entry => (rearranged.members entry).trans (members entry)⟩
    · next stays =>
      have down := popped.set_down fun positive => ordered_of_not fun before => stays ⟨positive, before⟩
      obtain ⟨heap', rearranged⟩ := siftDown_spec placed room down
      exact ⟨heap', rearranged.exact, fun entry => (rearranged.members entry).trans (members entry)⟩
  · next atEnd =>
    obtain rfl : index = q.entries.length - 1 := by omega
    obtain ⟨popped, members⟩ := exact.pop here
    exact ⟨heap.dropLast, popped, members⟩

end ReleaseQueue

end LetAgents.Rooms.DeliveryReleases

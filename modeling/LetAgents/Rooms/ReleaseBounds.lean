import LetAgents.Rooms.ReleaseHeap

/-!
# The structures of the delivery releases agree

The queue, the map of what is pending and the groups hold the same entries before and after
every operation; an eviction takes from all of them, so that the loops end.
-/
namespace LetAgents.Rooms.DeliveryReleases

open Lib

namespace Releases

structure Consistent (s : Releases) : Prop where
  heap : s.queue.IsHeap
  exact : s.queue.Exact
  own : ∀ key entry, s.pending.get key = some entry → entry.key = key
  queued : ∀ entry, entry ∈ s.queue.entries ↔ s.pending.get entry.key = some entry
  grouped : ∀ leaseKey key, key ∈ s.group leaseKey ↔ ∃ entry, s.pending.get key = some entry ∧ entry.leaseKey = leaseKey
  distinct : ∀ leaseKey, (s.group leaseKey).Nodup
  few : ∀ leaseKey, (s.group leaseKey).length ≤ MAX_PENDING_DELIVERY_RELEASES_PER_LEASE
  bounded : s.pending.keys.length ≤ MAX_PENDING_DELIVERY_RELEASES
  least : ∀ removal ∈ s.pumped, removal.1 ∈ removal.2 ∧ ∀ entry ∈ removal.2, removal.1.dueAt ≤ entry.dueAt

variable {s : Releases}

/-- An entry goes out of every structure. -/
structure Without (s : Releases) (key : String) (s' : Releases) : Prop where
  get : ∀ other, s'.pending.get other = if other = key then none else s.pending.get other
  group : ∀ leaseKey, s'.group leaseKey = (s.group leaseKey).erase key
  size : s'.pending.keys.length ≤ s.pending.keys.length ∧
    (s.pending.get key ≠ none → s'.pending.keys.length < s.pending.keys.length)
  queue : s'.queue.IsHeap ∧ s'.queue.Exact ∧
    ∀ entry, entry ∈ s'.queue.entries ↔ entry ∈ s.queue.entries ∧ entry.key ≠ key
  pumped : s'.pumped = s.pumped

theorem Consistent.remove (consistent : Consistent s) (key : String) : Without s key (s.remove key) := by
  unfold Releases.remove
  split
  · next absent =>
    have outside : ∀ leaseKey, key ∉ s.group leaseKey := by
      intro leaseKey member
      obtain ⟨entry, here, -⟩ := (consistent.grouped leaseKey key).mp member
      cases absent.symm.trans here
    constructor
    case get =>
      intro other
      split
      · next same => rw [same, absent]
      · rfl
    case group => exact fun leaseKey => (List.erase_of_not_mem (outside leaseKey)).symm
    case size => exact ⟨le_rfl, fun has => absurd absent has⟩
    case queue =>
      refine ⟨consistent.heap, consistent.exact, fun entry => (and_iff_left_of_imp fun member same => ?_).symm⟩
      have here := (consistent.queued entry).mp member
      rw [same, absent] at here
      cases here
    case pumped => rfl
  · next entry here =>
    obtain rfl := consistent.own key entry here
    have member := (consistent.queued entry).mpr here
    obtain ⟨index, place⟩ := List.mem_iff_getElem?.mp member
    have inside : entry.key ∈ s.group entry.leaseKey := (consistent.grouped _ _).mpr ⟨entry, here, rfl⟩
    obtain ⟨group, some⟩ : ∃ group, s.groups entry.leaseKey = some group := by
      refine Option.ne_none_iff_exists'.mp fun none => ?_
      rw [Releases.group, none] at inside
      cases inside
    constructor
    case get =>
      intro other
      change (s.pending.delete entry.key).get other = _
      split
      · next same => rw [same, OrderedMap.get_delete_self]
      · next apart => exact OrderedMap.get_delete_of_ne _ apart
    case group =>
      intro leaseKey
      unfold Releases.group
      simp only [some]
      by_cases same : leaseKey = entry.leaseKey
      · subst same
        rw [Function.update_self, some, Option.getD_some]
        split
        · next empty => rw [empty, Option.getD_none]
        · rw [Option.getD_some]
      · rw [Function.update_of_ne same]
        refine (List.erase_of_not_mem fun member => ?_).symm
        obtain ⟨other, there, lease⟩ := (consistent.grouped leaseKey _).mp member
        rw [here, Option.some.injEq] at there
        exact same (there ▸ lease.symm)
    case size => exact ⟨OrderedMap.keys_delete_le .., fun _ => OrderedMap.keys_delete_lt here⟩
    case queue =>
      simp only [consistent.exact.index place]
      exact ReleaseQueue.removeAt_spec consistent.exact consistent.heap place
    case pumped => rfl

theorem Without.consistent (without : Without s key s') (consistent : Consistent s) :
    Consistent s' := by
  constructor
  case heap => exact without.queue.1
  case exact => exact without.queue.2.1
  case own =>
    intro other entry here
    rw [without.get] at here
    split at here
    · cases here
    · exact consistent.own other entry here
  case queued =>
    intro entry
    rw [without.queue.2.2, consistent.queued, without.get]
    split
    · next same => simp [same]
    · next apart => simp [apart]
  case grouped =>
    intro leaseKey other
    rw [without.group, (consistent.distinct leaseKey).mem_erase_iff, consistent.grouped, without.get]
    split
    · next same => simp [same]
    · next apart => simp [apart]
  case distinct => exact fun leaseKey => without.group leaseKey ▸ (consistent.distinct leaseKey).erase key
  case few => exact fun leaseKey => without.group leaseKey ▸ List.length_erase_le.trans (consistent.few leaseKey)
  case bounded => exact without.size.1.trans consistent.bounded
  case least => exact without.pumped ▸ consistent.least

theorem Consistent.insert (consistent : Consistent s) {entry : PendingDeliveryRelease}
    (absent : s.pending.get entry.key = none)
    (room : (s.group entry.leaseKey).length < MAX_PENDING_DELIVERY_RELEASES_PER_LEASE)
    (space : s.pending.keys.length < MAX_PENDING_DELIVERY_RELEASES) : Consistent (s.insert entry) := by
  have outside : ∀ other ∈ s.queue.entries, other.key ≠ entry.key := by
    intro other member same
    have here := (consistent.queued other).mp member
    rw [same, absent] at here
    cases here
  have fresh : entry.key ∉ s.group entry.leaseKey := by
    intro member
    obtain ⟨other, here, -⟩ := (consistent.grouped _ _).mp member
    cases absent.symm.trans here
  obtain ⟨heap, exact, members⟩ := ReleaseQueue.push_spec consistent.exact consistent.heap outside
  have get : ∀ key, (s.insert entry).pending.get key = if key = entry.key then some entry else s.pending.get key := by
    intro key
    change (s.pending.set entry.key entry).get key = _
    split
    · next same => rw [same, OrderedMap.get_set_self]
    · next apart => exact OrderedMap.get_set_of_ne _ _ apart
  have group : ∀ leaseKey, (s.insert entry).group leaseKey =
      if leaseKey = entry.leaseKey then s.group leaseKey ++ [entry.key] else s.group leaseKey := by
    intro leaseKey
    change ((Function.update s.groups entry.leaseKey _) leaseKey).getD [] = _
    rw [if_neg fresh]
    by_cases same : leaseKey = entry.leaseKey
    · subst same
      rw [Function.update_self, if_pos rfl, Option.getD_some]
    · rw [Function.update_of_ne same, if_neg same]
      rfl
  constructor
  case heap => exact heap
  case exact => exact exact
  case own =>
    intro key other here
    rw [get] at here
    split at here
    · next same => rw [← Option.some.inj here, same]
    · exact consistent.own key other here
  case queued =>
    intro other
    change other ∈ (s.queue.push entry).entries ↔ _
    rw [members, get]
    split
    · next same =>
      rw [Option.some.injEq]
      exact ⟨fun either => (either.resolve_left fun member => outside other member same).symm,
        fun same => .inr same.symm⟩
    · next apart =>
      rw [← consistent.queued]
      exact or_iff_left fun same => apart (same ▸ rfl)
  case grouped =>
    intro leaseKey key
    rw [group, get]
    by_cases same : key = entry.key
    · rw [if_pos same]
      split
      · next lease => exact iff_of_true (by simp [same]) ⟨entry, rfl, lease.symm⟩
      · next lease =>
        refine iff_of_false (fun member => ?_) ?_
        · obtain ⟨other, here, -⟩ := (consistent.grouped _ _).mp member
          rw [same, absent] at here
          cases here
        · rintro ⟨other, here, own⟩
          exact lease (Option.some.inj here ▸ own.symm)
    · rw [if_neg same]
      split
      · rw [← consistent.grouped, List.mem_append, List.mem_singleton]
        exact or_iff_left same
      · exact consistent.grouped leaseKey key
  case distinct =>
    intro leaseKey
    rw [group]
    split
    · next same =>
      rw [← List.concat_eq_append]
      exact (consistent.distinct leaseKey).concat (same ▸ fresh)
    · exact consistent.distinct leaseKey
  case few =>
    intro leaseKey
    rw [group]
    split
    · next same =>
      rw [same, List.length_append, List.length_singleton]
      exact room
    · exact consistent.few leaseKey
  case bounded =>
    change (s.pending.set entry.key entry).keys.length ≤ _
    rw [OrderedMap.keys_set _ absent]
    exact space
  case least => exact consistent.least

/-! ## Evictions -/

/-- What evictions leave. -/
structure Evicted (s s' : Releases) : Prop where
  consistent : Consistent s'
  absent : ∀ key, s.pending.get key = none → s'.pending.get key = none
  fewer : ∀ leaseKey, (s'.group leaseKey).length ≤ (s.group leaseKey).length

theorem Evicted.refl (consistent : Consistent s) : Evicted s s := ⟨consistent, fun _ none => none, fun _ => le_rfl⟩

theorem Evicted.trans (first : Evicted s s') (second : Evicted s' s'') : Evicted s s'' :=
  ⟨second.consistent, fun key none => second.absent key (first.absent key none),
    fun leaseKey => (second.fewer leaseKey).trans (first.fewer leaseKey)⟩

theorem Consistent.evicted (consistent : Consistent s) (key : String) : Evicted s (s.remove key) := by
  have without := consistent.remove key
  refine ⟨without.consistent consistent, fun other none => ?_, fun leaseKey => ?_⟩
  · rw [without.get, none, ite_self]
  · rw [without.group]
    exact List.length_erase_le

/-- A loop ends that takes away keys which are pending. -/
theorem evict_ends (positive : 0 < limit)
    (pending : ∀ {s}, Consistent s → ∀ key ∈ keys s, ∃ entry, s.pending.get key = some entry)
    (shorter : ∀ {s}, Consistent s → ∀ key ∈ keys s, (keys (s.remove key)).length < (keys s).length)
    (consistent : Consistent s) (enough : (keys s).length < fuel) :
    ∃ s', evict limit keys s fuel = some s' ∧ Evicted s s' ∧ (keys s').length < limit := by
  induction fuel generalizing s with
  | zero => exact absurd enough (Nat.not_lt_zero _)
  | succ fuel ih =>
    rw [evict]
    split
    · next full =>
      cases here : keys s with
      | nil =>
        rw [here] at full
        exact absurd (positive.trans_le full) (Nat.lt_irrefl 0)
      | cons oldest rest =>
        have member : oldest ∈ keys s := here ▸ .head _
        obtain ⟨entry, has⟩ := pending consistent oldest member
        have named : oldest ≠ "" := consistent.own oldest entry has ▸ entry.named
        have less := shorter consistent oldest member
        have evicted := consistent.evicted oldest
        obtain ⟨s', ends, further, few⟩ := ih evicted.consistent (by omega)
        refine ⟨s', ?_, evicted.trans further, few⟩
        simp only [List.head?_cons, if_neg named]
        exact ends
    · next room => exact ⟨s, rfl, .refl consistent, Nat.not_le.mp room⟩

theorem evictGroup_ends (leaseKey : String) (consistent : Consistent s) :
    ∃ s', s.evictGroup leaseKey ((s.group leaseKey).length + 1) = some s' ∧ Evicted s s' ∧
      (s'.group leaseKey).length < MAX_PENDING_DELIVERY_RELEASES_PER_LEASE := by
  refine evict_ends (by decide) ?_ ?_ consistent (Nat.lt_succ_self _)
  · intro s consistent key member
    obtain ⟨entry, here, -⟩ := (consistent.grouped leaseKey key).mp member
    exact ⟨entry, here⟩
  · intro s consistent key member
    have positive := List.length_pos_of_mem member
    rw [(consistent.remove key).group, List.length_erase_of_mem member]
    omega

section

variable (consistent : Consistent s)
include consistent

theorem evictAll_ends :
    ∃ s', s.evictAll (s.pending.keys.length + 1) = some s' ∧ Evicted s s' ∧
      s'.pending.keys.length < MAX_PENDING_DELIVERY_RELEASES := by
  refine evict_ends (by decide) (fun _ _ member => OrderedMap.mem_keys.mp member) ?_ consistent (Nat.lt_succ_self _)
  intro s consistent key member
  obtain ⟨entry, here⟩ := OrderedMap.mem_keys.mp member
  exact (consistent.remove key).size.2 (by rw [here]; nofun)

theorem Consistent.displace (entry : PendingDeliveryRelease) :
    Consistent (s.displace entry) ∧ (s.displace entry).pending.get entry.key = none := by
  unfold Releases.displace
  split
  · next existing here =>
    have own := consistent.own _ _ here
    refine ⟨(consistent.evicted _).consistent, ?_⟩
    rw [(consistent.remove existing.key).get, if_pos own.symm]
  · next none => exact ⟨consistent, none⟩

/-- A new group has no keys. -/
theorem Consistent.openGroup (leaseKey : String) :
    Consistent (s.openGroup leaseKey) ∧ (s.openGroup leaseKey).pending = s.pending := by
  unfold Releases.openGroup
  split
  · exact ⟨consistent, rfl⟩
  · next none =>
    have same : Releases.group { s with groups := Function.update s.groups leaseKey (some []) } = s.group := by
      funext other
      change (Function.update s.groups leaseKey (some []) other).getD [] = (s.groups other).getD []
      by_cases own : other = leaseKey
      · rw [own, none, Function.update_self]
        rfl
      · rw [Function.update_of_ne own]
    refine ⟨{ consistent with grouped := ?_, distinct := ?_, few := ?_ }, rfl⟩
    · exact same ▸ consistent.grouped
    · exact same ▸ consistent.distinct
    · exact same ▸ consistent.few

theorem Consistent.retain (entry : PendingDeliveryRelease) :
    ∃ s', s.retain entry = some s' ∧ Consistent s' := by
  obtain ⟨cleared, absent⟩ := consistent.displace entry
  obtain ⟨grouped, same⟩ := cleared.openGroup entry.leaseKey
  obtain ⟨first, ends, left, room⟩ := evictGroup_ends entry.leaseKey grouped
  obtain ⟨second, ends', left', space⟩ := evictAll_ends left.consistent
  refine ⟨second.insert entry, ?_, left'.consistent.insert (left'.absent _ (left.absent _ ?_))
    ((left'.fewer _).trans_lt room) space⟩
  · simp only [Releases.retain, ends, Option.bind_some, ends', Option.map_some]
  · rw [same]
    exact absent

end

/-! ## The pump -/

/-- Only the releases that go on differ. -/
theorem Consistent.others (consistent : Consistent s) (active : List ActiveRelease) (draining : Bool) :
    Consistent { s with active := active, draining := draining } :=
  { consistent with }

theorem Consistent.pumpFrom (consistent : Consistent s) (now : Int)
    (enough : MAX_CONCURRENT_DELIVERY_RELEASES - s.active.length < fuel) :
    ∃ s', s.pumpFrom now fuel = some s' ∧ Consistent s' := by
  induction fuel generalizing s with
  | zero => exact absurd enough (Nat.not_lt_zero _)
  | succ fuel ih =>
    rw [Releases.pumpFrom]
    split
    · next slot =>
      cases first : s.queue.entries.head? with
      | none => exact ⟨s, rfl, consistent⟩
      | some next =>
        dsimp only
        split
        · exact ⟨s, rfl, consistent⟩
        · have member : next ∈ s.queue.entries := List.mem_of_head? first
          have here := (consistent.queued next).mp member
          have root : s.queue.entries[0]? = some next := List.head?_eq_getElem?.symm.trans first
          have removed := (consistent.evicted next.key).consistent
          have least : next ∈ s.pending.values ∧ ∀ entry ∈ s.pending.values, next.dueAt ≤ entry.dueAt := by
            refine ⟨OrderedMap.mem_values here, fun entry pending => ?_⟩
            obtain ⟨key, found⟩ := OrderedMap.exists_of_mem_values pending
            obtain rfl := consistent.own key entry found
            exact consistent.heap.root root ((consistent.queued entry).mpr found)
          rw [here]
          refine ih { removed with least := ?_ } ?_
          · refine List.forall_mem_cons.mpr ⟨least, ?_⟩
            exact consistent.least
          · change MAX_CONCURRENT_DELIVERY_RELEASES - (s.active ++ [_]).length < fuel
            rw [List.length_append, List.length_singleton]
            omega
    · exact ⟨s, rfl, consistent⟩

theorem Consistent.pump (consistent : Consistent s) (now : Int) : ∃ s', s.pump now = some s' ∧ Consistent s' := by
  unfold Releases.pump
  split
  · exact ⟨s, rfl, consistent⟩
  · exact consistent.pumpFrom now (Nat.lt_succ_self _)

theorem Consistent.initial : Consistent initial := by
  constructor
  case heap => exact nofun
  case exact => exact fun key index => iff_of_false (nofun) (by rintro ⟨entry, here, -⟩; cases here)
  case own => exact nofun
  case queued => exact fun entry => iff_of_false List.not_mem_nil (nofun)
  case grouped =>
    exact fun leaseKey key => iff_of_false List.not_mem_nil (by rintro ⟨entry, here, -⟩; cases here)
  case distinct => exact fun leaseKey => List.nodup_nil
  case few => exact fun leaseKey => Nat.zero_le _
  case bounded => exact Nat.zero_le _
  case least => exact nofun

theorem Consistent.step (consistent : Consistent s) (input : Input) :
    ∃ s', DeliveryReleases.step s input = some s' ∧ Consistent s' := by
  cases input with
  | retain entry => exact consistent.retain entry
  | remove key => exact ⟨_, rfl, (consistent.evicted key).consistent⟩
  | pump now => exact consistent.pump now
  | settles k failed =>
    simp only [DeliveryReleases.step]
    split
    · next entry _ =>
      have settled := consistent.others (s.active.set k ⟨entry, true⟩) s.draining
      split
      · split
        · exact ⟨_, rfl, settled⟩
        · exact settled.retain _
      · exact ⟨_, rfl, settled⟩
    · exact ⟨s, rfl, consistent⟩
  | finishes k now =>
    simp only [DeliveryReleases.step]
    split
    · exact (consistent.others (s.active.eraseIdx k) s.draining).pump now
    · exact ⟨s, rfl, consistent⟩
  | drain => exact ⟨_, rfl, consistent.others s.active true⟩
  | clear => exact ⟨_, rfl, { Consistent.initial with least := consistent.least }⟩
  | drained => exact ⟨_, rfl, consistent.others s.active false⟩

theorem Consistent.steps (consistent : Consistent s) (inputs : List Input) :
    ∃ s', inputs.foldlM DeliveryReleases.step s = some s' ∧ Consistent s' := by
  induction inputs generalizing s with
  | nil => exact ⟨s, rfl, consistent⟩
  | cons input inputs ih =>
    obtain ⟨next, moves, further⟩ := consistent.step input
    obtain ⟨s', ends, last⟩ := ih further
    refine ⟨s', ?_, last⟩
    rw [List.foldlM_cons, moves]
    exact ends

theorem Consistent.kept (consistent : Consistent s) : Kept s := by
  constructor
  case heap => exact consistent.heap
  case indexed => exact consistent.exact
  case queued =>
    intro key
    rw [List.mem_map, OrderedMap.mem_keys]
    constructor
    · rintro ⟨entry, member, rfl⟩
      exact ⟨entry, (consistent.queued entry).mp member⟩
    · rintro ⟨entry, here⟩
      obtain rfl := consistent.own key entry here
      exact ⟨entry, (consistent.queued entry).mpr here, rfl⟩
  case grouped =>
    intro key
    rw [OrderedMap.mem_keys]
    constructor
    · rintro ⟨entry, here⟩
      exact ⟨entry.leaseKey, (consistent.grouped _ _).mpr ⟨entry, here, rfl⟩⟩
    · rintro ⟨leaseKey, member⟩
      obtain ⟨entry, here, -⟩ := (consistent.grouped _ _).mp member
      exact ⟨entry, here⟩
  case few => exact consistent.few
  case bounded => exact consistent.bounded
  case least => exact consistent.least

end Releases

/-- Every run ends all its loops, and the structures agree after it. -/
theorem releases_kept (inputs : List Input) : ∃ s, run inputs = some s ∧ Kept s := by
  obtain ⟨s, ends, consistent⟩ := Releases.Consistent.initial.steps inputs
  exact ⟨s, ends, consistent.kept⟩

end LetAgents.Rooms.DeliveryReleases

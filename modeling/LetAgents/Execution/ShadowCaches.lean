import LetAgents.Execution.ShadowTaken

/-!
# The caches of a store

An entry of a cache is what a replay, or the database, would say. Nothing but the stamp keeps this
true while other stores write, so it is claimed of a store whose stamp is the current one.
-/
namespace LetAgents.Execution.ShadowStore

open Lib Lib.Checked Protocol

variable {ingested : Ingested} {s : Store} {stamp : Stamp}

/-- A cached projection is what a replay would find. -/
def RightProjection (ingested : Ingested) (entry : ExecutionIdentity × CachedProjection) : Prop :=
  ∃ replayed, replayFacts (factsOf ingested entry.1) = .ok replayed ∧ entry.2.value = replayed.value

/-- A cached budget is what the database would reckon. -/
def RightBudget (ingested : Ingested) (entry : ExecutionIdentity × RetainedBudget) : Prop :=
  entry.2 = budgetOfFacts (agentFacts ingested entry.1)

structure Valid (ingested : Ingested) (s : Store) : Prop where
  projections : ∀ entry ∈ s.projections.entries, RightProjection ingested entry
  budgets : ∀ entry ∈ s.budgets.entries, RightBudget ingested entry

/-- The caches are valid as long as nothing was written since. -/
def InForce (stamp : Stamp) (ingested : Ingested) (s : Store) : Prop :=
  s.projectionStamp = some stamp → Valid ingested s

theorem Valid.inForce (valid : Valid ingested s) (stamp : Stamp) : InForce stamp ingested s :=
  fun _ => valid

/-- The stamp itself is no part of what is cached. -/
theorem Valid.withStamp (valid : Valid ingested s) (projectionStamp : Option Stamp) :
    Valid ingested { s with projectionStamp } := ⟨valid.projections, valid.budgets⟩

theorem Valid.withObservers (valid : Valid ingested s) (observers : List ShadowObserver) :
    Valid ingested { s with observers } := ⟨valid.projections, valid.budgets⟩

theorem clearProjections_valid (ingested : Ingested) (s : Store) : Valid ingested s.clearProjections :=
  ⟨nofun, nofun⟩

theorem synchronizeCaches_valid (force : InForce stamp ingested s) :
    Valid ingested (s.synchronizeCaches stamp) := by
  unfold Store.synchronizeCaches
  split
  · rename_i same
    exact force same
  · exact (clearProjections_valid ingested s).withStamp _

theorem synchronizeCaches_observers : (s.synchronizeCaches stamp).observers = s.observers := by
  unfold Store.synchronizeCaches
  split <;> rfl

/-! ## Budgets -/

theorem mem_dropOldest (member : entry ∈ (Store.dropOldest m).entries) : entry ∈ m.entries := by
  unfold Store.dropOldest at member
  split at member
  · exact member
  · exact (OrderedMap.mem_delete.mp member).1

/-- The entry of the agent is replaced, the others stay or go. -/
theorem mem_rememberBudget (member : entry ∈ (s.rememberBudget agentId budget).budgets.entries) :
    entry = (agentId, budget) ∨ entry ∈ s.budgets.entries ∧ entry.1 ≠ agentId := by
  rcases OrderedMap.mem_setLast.mp member with rfl | ⟨kept, other⟩
  · exact .inl rfl
  · refine .inr ⟨?_, other⟩
    split at kept
    · exact (OrderedMap.mem_delete.mp (mem_dropOldest kept)).1
    · exact (OrderedMap.mem_delete.mp kept).1

theorem rememberBudget_valid (valid : Valid ingested s)
    (right : budget = budgetOfFacts (agentFacts ingested agentId)) :
    Valid ingested (s.rememberBudget agentId budget) := by
  refine ⟨valid.projections, fun entry member => ?_⟩
  rcases mem_rememberBudget member with rfl | ⟨kept, -⟩
  · exact right
  · exact valid.budgets entry kept

variable {db : Database}

theorem retainedBudget_ok (sound : StoreSound db ingested) (force : InForce stamp ingested s)
    (agentId : ExecutionIdentity) :
    (s.retainedBudget stamp db agentId).2 = budgetOfFacts (agentFacts ingested agentId) ∧
      Valid ingested (s.retainedBudget stamp db agentId).1 ∧
      (s.retainedBudget stamp db agentId).1.observers = s.observers := by
  have valid := synchronizeCaches_valid force
  have right : (s.retainedBudget stamp db agentId).2 =
      budgetOfFacts (agentFacts ingested agentId) := by
    unfold Store.retainedBudget
    dsimp only
    cases has : (s.synchronizeCaches stamp).budgets.get agentId with
    | none =>
      exact sound.aggregates agentId
    | some budget =>
      exact valid.budgets (agentId, budget) (OrderedMap.get_eq_some.mp has)
  exact ⟨right, rememberBudget_valid valid right, synchronizeCaches_observers⟩

theorem checkRetention_ok (sound : StoreSound db ingested) (valid : Valid ingested s) (stamp : Stamp)
    (runtimeId : ExecutionIdentity) :
    ∃ s', s.checkRetention stamp db runtimeId = .ok s' ∧ Valid ingested s' ∧
      s'.observers = s.observers := by
  unfold Store.checkRetention
  split
  · exact ⟨s, rfl, valid, rfl⟩
  · rename_i runtime _
    obtain ⟨budget, valid, observers⟩ := retainedBudget_ok sound (valid.inForce stamp) runtime.agentId
    dsimp only
    rw [budget, if_pos (sound.within runtime.agentId)]
    exact ⟨_, rfl, valid, observers⟩

/-! ## Projections -/

theorem evict_keeps (weight turns : Nat) (s : Store) :
    (∀ entry ∈ (Store.evict weight turns s).projections.entries, entry ∈ s.projections.entries) ∧
      (Store.evict weight turns s).budgets = s.budgets ∧
      (Store.evict weight turns s).observers = s.observers ∧
      (Store.evict weight turns s).projectionStamp = s.projectionStamp := by
  induction turns generalizing s with
  | zero => exact ⟨fun _ member => member, rfl, rfl, rfl⟩
  | succ turns ih =>
    unfold Store.evict
    split
    · split
      · exact ⟨fun _ member => member, rfl, rfl, rfl⟩
      · refine ⟨fun entry member => ?_, (ih _).2⟩
        exact (OrderedMap.mem_delete.mp ((ih _).1 entry member)).1
    · exact ⟨fun _ member => member, rfl, rfl, rfl⟩

theorem forgetProjection_keeps (s : Store) (runtimeId : ExecutionIdentity) :
    (∀ entry ∈ (s.forgetProjection runtimeId).projections.entries,
        entry ∈ s.projections.entries ∧ entry.1 ≠ runtimeId) ∧
      (s.forgetProjection runtimeId).budgets = s.budgets ∧
      (s.forgetProjection runtimeId).observers = s.observers ∧
      (s.forgetProjection runtimeId).projectionStamp = s.projectionStamp := by
  unfold Store.forgetProjection
  split
  · exact ⟨fun entry member => OrderedMap.mem_delete.mp member, rfl, rfl, rfl⟩
  · rename_i absent
    exact ⟨fun entry member => ⟨member, OrderedMap.get_eq_none.mp absent entry member⟩, rfl, rfl, rfl⟩

/-- The entry of the runtime is replaced or gone, the others stay or go. -/
theorem rememberProjection_keeps (s : Store) (runtimeId : ExecutionIdentity)
    (value : RuntimeProjection) :
    (∀ entry ∈ (s.rememberProjection runtimeId value).projections.entries,
        (entry.1 = runtimeId ∧ entry.2.value = value) ∨
          entry ∈ s.projections.entries ∧ entry.1 ≠ runtimeId) ∧
      (s.rememberProjection runtimeId value).budgets = s.budgets ∧
      (s.rememberProjection runtimeId value).observers = s.observers ∧
      (s.rememberProjection runtimeId value).projectionStamp = s.projectionStamp := by
  obtain ⟨forgotten, budgets, observers, stamp⟩ := forgetProjection_keeps s runtimeId
  unfold Store.rememberProjection
  dsimp only
  split
  · exact ⟨fun entry member => .inr (forgotten entry member), budgets, observers, stamp⟩
  · obtain ⟨evicted, budgets', observers', stamp'⟩ := evict_keeps (Store.projectionWeightOf value)
      (s.forgetProjection runtimeId).projections.size (s.forgetProjection runtimeId)
    refine ⟨fun entry member => ?_, budgets'.trans budgets, observers'.trans observers,
      stamp'.trans stamp⟩
    rcases OrderedMap.mem_setLast.mp member with rfl | ⟨kept, -⟩
    · exact .inl ⟨rfl, rfl⟩
    · exact .inr (forgotten entry (evicted entry kept))

theorem rememberProjection_valid (valid : Valid ingested s)
    (right : replayFacts (factsOf ingested runtimeId) = .ok replayed) :
    Valid ingested (s.rememberProjection runtimeId replayed.value) := by
  obtain ⟨projections, budgets, -⟩ := rememberProjection_keeps s runtimeId replayed.value
  refine ⟨fun entry member => ?_, by rw [budgets]; exact valid.budgets⟩
  rcases projections entry member with ⟨own, value⟩ | ⟨kept, -⟩
  · exact ⟨replayed, by rw [own]; exact right, value⟩
  · exact valid.projections entry kept

theorem touchProjection_valid (valid : Valid ingested s)
    (has : s.projections.get runtimeId = some cached) :
    Valid ingested { s with projections := s.projections.setLast runtimeId cached } := by
  refine ⟨fun entry member => ?_, valid.budgets⟩
  rcases OrderedMap.mem_setLast.mp member with rfl | ⟨kept, -⟩
  · exact valid.projections _ (OrderedMap.get_eq_some.mp has)
  · exact valid.projections entry kept

theorem replayRuntime_ok (sound : StoreSound db ingested) (valid : Valid ingested s) (stamp : Stamp)
    (right : replayFacts (factsOf ingested runtimeId) = .ok replayed) :
    ∃ s', s.replayRuntime stamp db runtimeId = .ok (s', replayed.value) ∧ Valid ingested s' ∧
      s'.observers = s.observers := by
  obtain ⟨s', checked, valid', observers⟩ := checkRetention_ok sound valid stamp runtimeId
  refine ⟨s', ?_, valid', observers⟩
  unfold Store.replayRuntime
  rw [checked, ok_bind, sound.replayRows, right]
  rfl

/-- A projection from the caches is the replay. -/
theorem cachedProjection_ok (sound : StoreSound db ingested) (force : InForce stamp ingested s)
    (right : replayFacts (factsOf ingested runtimeId) = .ok replayed) :
    ∃ s', s.cachedProjection stamp db runtimeId = .ok (s', replayed.value) ∧ Valid ingested s' ∧
      s'.observers = s.observers := by
  obtain ⟨s₁, checked, valid₁, observers₁⟩ :=
    checkRetention_ok sound (synchronizeCaches_valid force) stamp runtimeId
  rw [synchronizeCaches_observers] at observers₁
  unfold Store.cachedProjection
  rw [checked, ok_bind]
  cases has : s₁.projections.get runtimeId with
  | some cached =>
    obtain ⟨known, same, value⟩ :=
      valid₁.projections (runtimeId, cached) (OrderedMap.get_eq_some.mp has)
    obtain rfl : replayed = known := Except.ok.inj (right.symm.trans same)
    exact ⟨_, by rw [← value], touchProjection_valid valid₁ has, observers₁⟩
  | none =>
    obtain ⟨s₂, replays, valid₂, observers₂⟩ := replayRuntime_ok sound valid₁ stamp right
    obtain ⟨-, -, observers₃, -⟩ := rememberProjection_keeps s₂ runtimeId replayed.value
    rw [replays]
    exact ⟨_, rfl, rememberProjection_valid valid₂ right,
      observers₃.trans (observers₂.trans observers₁)⟩

end LetAgents.Execution.ShadowStore

import LetAgents.Execution.ShadowReplay

/-!
# The summary columns of the journal

Every replay succeeds, no agent is over its budget, and the states of the runtimes and the turns
are those of their replays. What a body does to this is said by `Quiet` where it stores no fact,
and by `takeFact` where it does.
-/
namespace LetAgents.Execution.ShadowStore

open Lib Lib.Checked Protocol Reducer

variable {db db' : Database} {ingested : Ingested}

/-! ## Budgets -/

theorem exceededBudget_eq_none : exceededBudget budget = none ↔
      budget.facts ≤ MAX_RETAINED_FACTS_PER_AGENT ∧ budget.bytes ≤ MAX_RETAINED_BYTES_PER_AGENT := by
  unfold exceededBudget
  split
  · simp
    omega
  · split
    · simp
      omega
    · simp
      omega

theorem within_of_replay (facts : Ingested) (s : ReplayState) (ok : replayFacts facts = .ok s) :
    exceededBudget (budgetOfFacts facts) = none := by
  rcases List.eq_nil_or_concat facts with rfl | ⟨init, e, rfl⟩
  · rfl
  · rw [List.concat_eq_append] at ok ⊢
    rw [replayFacts_concat] at ok
    obtain ⟨middle, replayed, last⟩ := bind_ok ok
    rw [budgetOfFacts_concat, ← (replays_of_ok init middle replayed).budget]
    exact (replayFact_ok last).1

theorem take_of_within (within : exceededBudget (budgetOfFacts facts) = none) :
    facts.take (MAX_RETAINED_FACTS_PER_AGENT + 1) = facts := by
  have bound := (exceededBudget_eq_none.mp within).1
  exact List.take_of_length_le (Nat.le_succ_of_le bound)

/-! ## The invariant -/

/-- The state and the side effects that a replay gives a turn. -/
def turnColumns (turn : Option TurnProjection) : TurnState × SideEffectState :=
  turn.elim (.none, .none) fun turn => (turn.state, turn.sideEffects)

structure StoreSound (db : Database) (ingested : Ingested) : Prop where
  journal : JournalSound db ingested
  replays : ∀ runtimeId, ∃ s, replayFacts (factsOf ingested runtimeId) = .ok s
  within : ∀ agentId, exceededBudget (budgetOfFacts (agentFacts ingested agentId)) = none
  runtimes : ∀ row ∈ db.runtimes, ∀ s,
    replayFacts (factsOf ingested row.runtimeGenerationId) = .ok s →
      row.runtimeState = s.value.projection.runtime ∧
        row.controlState = s.value.projection.control ∧
        row.continuationState = s.value.projection.continuation
  turns : ∀ row ∈ db.turns, ∀ s, replayFacts (factsOf ingested row.runtimeGenerationId) = .ok s →
    (row.state, row.sideEffects) = turnColumns (s.value.projection.turns.lookup row.turnId)

theorem StoreSound.replayRows (sound : StoreSound db ingested) (runtimeId : ExecutionIdentity) :
    replayRows db runtimeId = replayFacts (factsOf ingested runtimeId) := by
  obtain ⟨s, replayed⟩ := sound.replays runtimeId
  rw [replayRows_eq sound.journal, take_of_within (within_of_replay _ s replayed)]

theorem StoreSound.aggregates (sound : StoreSound db ingested) (agentId : ExecutionIdentity) :
    aggregates db agentId = budgetOfFacts (agentFacts ingested agentId) := by
  rw [aggregates_eq sound.journal, take_of_within (sound.within agentId)]

theorem StoreSound.replayFromScratch (sound : StoreSound db ingested)
    (replayed : replayFacts (factsOf ingested runtimeId) = .ok s) :
    replayFromScratch db runtimeId = .ok s.value := by
  unfold ShadowStore.replayFromScratch
  rw [require_of fun runtime _ => by rw [sound.aggregates]; exact sound.within _, sound.replayRows,
    replayed]
  rfl

/-! ## Bodies that store no fact -/

/-- What later databases keep of the runtimes and the turns. -/
structure Extends (db db' : Database) : Prop where
  runtime : ∀ id row, db.runtime id = some row →
    ∃ row', db'.runtime id = some row' ∧ row'.agentId = row.agentId
  turn : ∀ id row, db.turn id = some row →
    ∃ row', db'.turn id = some row' ∧ row'.toNativeTurnIdentity = row.toNativeTurnIdentity ∧
      row'.runtimeGenerationId = row.runtimeGenerationId

theorem Known.mono (known : Known db fact) (ext : Extends db db') : Known db' fact := by
  obtain ⟨⟨runtime, found, agent⟩, turns⟩ := known
  obtain ⟨runtime', found', agent'⟩ := ext.runtime _ _ found
  refine ⟨⟨runtime', found', agent'.trans agent⟩, fun identity own => ?_⟩
  obtain ⟨row, has, same, own_⟩ := turns identity own
  obtain ⟨row', has', same', own'⟩ := ext.turn _ _ has
  exact ⟨row', has', same'.trans same, own'.trans own_⟩

structure Fresh (row : RuntimeRow) : Prop where
  runtimeState : row.runtimeState = .starting
  controlState : row.controlState = .connecting
  continuationState : row.continuationState = .available

/-- A body that stores no fact adds at most one runtime or one turn. -/
structure Quiet (db db' : Database) : Prop where
  facts : db'.facts = db.facts
  factSequence : db'.factSequence = db.factSequence
  runtimes : db'.runtimes = db.runtimes ∨
    ∃ row, db'.runtimes = db.runtimes ++ [row] ∧ db.runtime row.runtimeGenerationId = none ∧ Fresh row
  turns : db'.turns = db.turns ∨
    ∃ row, db'.turns = db.turns ++ [row] ∧ db.turn row.turnId = none ∧ row.state = .none ∧
      row.sideEffects = .none

theorem Quiet.refl (db : Database) : Quiet db db := ⟨rfl, rfl, .inl rfl, .inl rfl⟩

theorem Quiet.extends (quiet : Quiet db db') : Extends db db' := by
  constructor
  · intro id row found
    rcases quiet.runtimes with same | ⟨added, more, -, -⟩
    · exact ⟨row, by rw [Database.runtime, same]; exact found, rfl⟩
    · refine ⟨row, ?_, rfl⟩
      rw [Database.runtime, more, Table.find_append]
      change (db.runtime id).or _ = _
      rw [found, Option.some_or]
  · intro id row found
    rcases quiet.turns with same | ⟨added, more, -, -⟩
    · exact ⟨row, by rw [Database.turn, same]; exact found, rfl, rfl⟩
    · refine ⟨row, ?_, rfl, rfl⟩
      rw [Database.turn, more, Table.find_append]
      change (db.turn id).or _ = _
      rw [found, Option.some_or]

theorem absent_of_find [DecidableEq κ] {key : α → κ} (absent : Table.find key k rows = none) :
    ∀ row ∈ rows, key row ≠ k := by
  simpa [Table.find] using absent

theorem keyed_concat [DecidableEq κ] {key : α → κ} (keyed : Table.Keyed key rows)
    (absent : Table.find key (key row) rows = none) : Table.Keyed key (rows ++ [row]) := by
  refine keyed.append (List.nodup_singleton _) fun old member other single => ?_
  rw [List.mem_singleton.mp single]
  exact absent_of_find absent old member

theorem Quiet.journal (quiet : Quiet db db') (sound : JournalSound db ingested) :
    JournalSound db' ingested where
  rows := quiet.facts.trans sound.rows
  sequences := by rw [quiet.factSequence]; exact sound.sequences
  runtimes := by
    rcases quiet.runtimes with same | ⟨row, more, absent, -⟩
    · rw [same]
      exact sound.runtimes
    · rw [more]
      exact keyed_concat sound.runtimes absent
  turns := by
    rcases quiet.turns with same | ⟨row, more, absent, -⟩
    · rw [same]
      exact sound.turns
    · rw [more]
      exact keyed_concat sound.turns absent
  known := fun e member => (sound.known e member).mono quiet.extends

/-- Nothing was ingested about a runtime that is not there. -/
theorem factsOf_of_absent (sound : JournalSound db ingested) (absent : db.runtime runtimeId = none) :
    factsOf ingested runtimeId = [] := by
  refine List.filter_eq_nil_iff.mpr fun e member own => ?_
  obtain ⟨⟨runtime, found, -⟩, -⟩ := sound.known e member
  rw [of_decide_eq_true own, absent] at found
  cases found

/-- A replay knows no turn that is not there. -/
theorem lookup_of_absent (sound : JournalSound db ingested) (absent : db.turn turnId = none)
    (replayed : replayFacts (factsOf ingested runtimeId) = .ok s) :
    s.value.projection.turns.lookup turnId = none := by
  cases has : s.value.projection.turns.lookup turnId with
  | none => rfl
  | some turn =>
    obtain ⟨e, member, identity, own, same⟩ := (replays_of_ok _ s replayed).turns turnId turn has
    obtain ⟨row, found, -⟩ := (sound.known e (List.mem_of_mem_filter member)).2 identity own
    rw [same, absent] at found
    cases found

theorem Quiet.sound (quiet : Quiet db db') (sound : StoreSound db ingested) :
    StoreSound db' ingested where
  journal := quiet.journal sound.journal
  replays := sound.replays
  within := sound.within
  runtimes := by
    rcases quiet.runtimes with same | ⟨row, more, absent, fresh⟩
    · rw [same]
      exact sound.runtimes
    · rw [more]
      intro row' member s replayed
      rcases List.mem_append.mp member with old | new
      · exact sound.runtimes row' old s replayed
      · rw [List.mem_singleton.mp new] at replayed ⊢
        rw [factsOf_of_absent sound.journal absent] at replayed
        cases replayed
        exact ⟨fresh.runtimeState, fresh.controlState, fresh.continuationState⟩
  turns := by
    rcases quiet.turns with same | ⟨row, more, absent, state, sideEffects⟩
    · rw [same]
      exact sound.turns
    · rw [more]
      intro row' member s replayed
      rcases List.mem_append.mp member with old | new
      · exact sound.turns row' old s replayed
      · rw [List.mem_singleton.mp new] at replayed ⊢
        rw [lookup_of_absent sound.journal absent replayed, state, sideEffects]
        rfl

end LetAgents.Execution.ShadowStore

import LetAgents.Execution.ShadowSummary

/-!
# What the bodies of the journal write

One lemma for each body that stores no fact, and the checks that a fact has passed when it is stored.
-/
namespace LetAgents.Execution.ShadowStore

open Lib Lib.Js Lib.Checked Protocol FactRows

/-- A body that moves no observer. -/
structure Leaves (t t' : Transaction) : Prop where
  quiet : Quiet t.db t'.db
  changes : t.changes ≤ t'.changes
  observers : t'.db.observers = t.db.observers
  sources : t'.db.observerSources = t.db.observerSources

theorem Leaves.refl (t : Transaction) : Leaves t t := ⟨.refl _, le_rfl, rfl, rfl⟩

variable {t t' : Transaction}

theorem materializeGeneration_ok
    (ok : materializeGeneration t agentId executionGenerationId = .ok t') :
    t' = t ∨ ∃ generations, t' = t.write { t.db with generations } := by
  unfold materializeGeneration at ok
  split at ok
  · split at ok
    · cases ok
      exact .inl rfl
    · cases ok
  · cases ok
    exact .inr ⟨_, rfl⟩

theorem materializeRuntime_leaves (ok : materializeRuntime t input = .ok (t', mode)) :
    Leaves t t' := by
  obtain ⟨t₁, generation, ok⟩ := bind_ok ok
  have first : Leaves t t₁ ∧ t₁.db.runtimes = t.db.runtimes ∧ t₁.db.turns = t.db.turns := by
    rcases materializeGeneration_ok generation with rfl | ⟨generations, rfl⟩
    · exact ⟨.refl _, rfl, rfl⟩
    · exact ⟨⟨⟨rfl, rfl, .inl rfl, .inl rfl⟩, Nat.le_succ _, rfl, rfl⟩, rfl, rfl⟩
  obtain ⟨leaves, runtimes, turns⟩ := first
  split at ok
  · split at ok
    · cases ok
      exact leaves
    · cases ok
  · rename_i absent
    cases ok
    refine ⟨⟨leaves.quiet.facts, leaves.quiet.factSequence, ?_, .inl turns⟩,
      Nat.le_succ_of_le leaves.changes, leaves.observers, leaves.sources⟩
    refine .inr ⟨_, congrArg (· ++ [_]) runtimes, ?_, ⟨rfl, rfl, rfl⟩⟩
    rw [Database.runtime, ← runtimes]
    exact absent

theorem materializeAttempt_leaves (input : AttemptInput) (fresh : ExecutionIdentity) :
    Leaves t (materializeAttempt t input fresh).1 := by
  unfold materializeAttempt
  split
  · exact .refl _
  · exact ⟨⟨rfl, rfl, .inl rfl, .inl rfl⟩, Nat.le_succ _, rfl, rfl⟩

theorem trackMessage_leaves {fresh id : ExecutionIdentity}
    (ok : trackMessage t input fresh = .ok (t', id)) : Leaves t t' := by
  obtain ⟨-, ok⟩ := require_bind_ok ok
  obtain ⟨-, ok⟩ := require_bind_ok ok
  have attempt := materializeAttempt_leaves (t := t) input fresh
  unfold materializeMessage at ok
  dsimp only at ok
  split at ok
  · split at ok
    · obtain rfl : (materializeAttempt t input fresh).1 = t' := congrArg Prod.fst (Except.ok.inj ok)
      exact attempt
    · cases ok
  · cases ok
    exact ⟨⟨attempt.quiet.facts, attempt.quiet.factSequence, attempt.quiet.runtimes,
      attempt.quiet.turns⟩, Nat.le_succ_of_le attempt.changes, attempt.observers, attempt.sources⟩

theorem materializeTurn_leaves (ok : materializeTurn t input = .ok t') : Leaves t t' := by
  unfold materializeTurn at ok
  split at ok
  · split at ok
    · cases ok
      exact .refl _
    · cases ok
  · rename_i absent
    cases ok
    exact ⟨⟨rfl, rfl, .inl rfl, .inr ⟨_, rfl, absent, rfl, rfl⟩⟩, Nat.le_succ _, rfl, rfl⟩

theorem trackNativeTurn_leaves (ok : trackNativeTurn t input = .ok t') : Leaves t t' := by
  obtain ⟨attempt, -, ok⟩ := found_bind_ok ok
  obtain ⟨-, ok⟩ := require_bind_ok ok
  obtain ⟨runtime, -, ok⟩ := found_bind_ok ok
  split at ok
  · exact materializeTurn_leaves ok
  · obtain ⟨-, ok⟩ := require_bind_ok ok
    obtain ⟨-, ok⟩ := require_bind_ok ok
    exact materializeTurn_leaves ok

/-! ## Binding -/

/-- A body that moves observers only. -/
structure Observes (t t' : Transaction) : Prop where
  quiet : Quiet t.db t'.db
  changes : t.changes ≤ t'.changes

theorem admitSource_observes (row : ObserverRow) (sourceId : ExecutionIdentity) :
    Observes t (admitSource t row sourceId) := by
  unfold admitSource
  dsimp only
  split
  · exact ⟨⟨rfl, rfl, .inl rfl, .inl rfl⟩, Nat.le_succ _⟩
  · exact ⟨⟨rfl, rfl, .inl rfl, .inl rfl⟩, Nat.le_succ_of_le (Nat.le_succ _)⟩

/-- What a binding has checked, and what it writes. -/
structure Binds (t : Transaction) (input : ObserverInput) (t' : Transaction)
    (token : ShadowObserver) : Prop where
  epoch : (t.db.observer input.agentId).elim 0 ObserverRow.observerEpoch = input.expectedEpoch.val
  checked : checkBinding t.db input = .ok ()
  subject : ∃ runtime, t.db.runtime token.runtimeGenerationId = some runtime ∧
    runtime.agentId = input.agentId
  observer : ∃ runtime, t.db.runtime token.observerRuntimeGenerationId = some runtime ∧
    runtime.agentId = input.agentId
  agentId : token.agentId = input.agentId
  sourceId : token.sourceId = input.sourceId
  next : token.epoch = input.expectedEpoch.val + 1
  writes : ∃ row : ObserverRow, t' = admitSource t row input.sourceId ∧ row.agentId = input.agentId ∧
    row.observerEpoch = token.epoch ∧ row.sourceId = some input.sourceId ∧
    row.lastSourceSequence = (sourceCursor t.db input).1 ∧
    row.maxObservedSequence = (sourceCursor t.db input).2 ∧
    row.observerRuntimeGenerationId = input.observerRuntimeGenerationId

variable {db : Database} {token : ShadowObserver} {tokens : List ShadowObserver}
  {sourceId : ExecutionIdentity} {fact : ExecutionFact}

theorem runtime_of_filter {id agentId : ExecutionIdentity}
    (has : (db.runtime id).filter (fun row => row.agentId = agentId) = some row) :
    db.runtime row.runtimeGenerationId = some row ∧ row.agentId = agentId ∧
      row.runtimeGenerationId = id := by
  obtain ⟨here, agent⟩ := Option.filter_eq_some_iff.mp has
  obtain ⟨-, same⟩ := Table.mem_of_find here
  have key : row.runtimeGenerationId = id := same
  refine ⟨?_, of_decide_eq_true agent, key⟩
  rw [key]
  exact here

theorem bindObserver_binds (ok : bindObserver t input = .ok (t', token)) :
    Binds t input t' token := by
  obtain ⟨subject, subjectHas, ok⟩ := found_bind_ok ok
  obtain ⟨observer, observerHas, ok⟩ := found_bind_ok ok
  obtain ⟨-, ok⟩ := require_bind_ok ok
  have rest : ∃ checked : Except ExecutionProtocolError Unit, (checked >>= fun _ => do
      require (((t.db.observer input.agentId).elim 0 ObserverRow.observerEpoch) =
        input.expectedEpoch.val ∧ input.expectedEpoch.val ≠ maxSafeInteger) .staleObserver
      checkBinding t.db input
      .ok (admitSource t {
          agentId := input.agentId
          executionGenerationId := subject.executionGenerationId
          runtimeGenerationId := subject.runtimeGenerationId
          observerExecutionGenerationId := observer.executionGenerationId
          observerRuntimeGenerationId := observer.runtimeGenerationId
          daemonGenerationId := input.daemonGenerationId
          observerEpoch := input.expectedEpoch.val + 1
          lastSourceSequence := (sourceCursor t.db input).1
          maxObservedSequence := (sourceCursor t.db input).2
          recoveryTurnId := input.recovery.map fun turn => turn.turnId
          boundAtMs := input.boundAtMs.val
          sourceId := some input.sourceId } input.sourceId, ({
        agentId := input.agentId
        runtimeGenerationId := subject.runtimeGenerationId
        executionGenerationId := subject.executionGenerationId
        observerRuntimeGenerationId := observer.runtimeGenerationId
        observerExecutionGenerationId := observer.executionGenerationId
        daemonGenerationId := input.daemonGenerationId
        epoch := input.expectedEpoch.val + 1
        recoveryTurnId := input.recovery.map fun turn => turn.turnId
        sourceId := input.sourceId
        lastSourceSequence := (sourceCursor t.db input).1
        maxObservedSequence := (sourceCursor t.db input).2 } : ShadowObserver))) = .ok (t', token) := by
    cases recovery : input.recovery with
    | some turn | none =>
      rw [recovery] at ok
      exact ⟨_, ok⟩
  obtain ⟨checked, ok⟩ := rest
  obtain ⟨_, -, ok⟩ := bind_ok ok
  obtain ⟨epoch, ok⟩ := require_bind_ok ok
  obtain ⟨_, binding, ok⟩ := bind_ok ok
  cases ok
  obtain ⟨subjectHere, subjectAgent, -⟩ := runtime_of_filter subjectHas
  obtain ⟨observerHere, observerAgent, observerId⟩ := runtime_of_filter observerHas
  exact ⟨epoch.1, binding, ⟨subject, subjectHere, subjectAgent⟩, ⟨observer, observerHere, observerAgent⟩,
    rfl, rfl, rfl, _, rfl, rfl, rfl, rfl, rfl, rfl, observerId⟩

theorem Binds.observes (binds : Binds t input t' token) : Observes t t' := by
  obtain ⟨row, rfl, -⟩ := binds.writes
  exact admitSource_observes row _

/-! ## Positions -/

theorem updateObserver_observes (agentId : ExecutionIdentity) (change : ObserverRow → ObserverRow) :
    Observes t (t.updateObserver agentId change) :=
  ⟨⟨rfl, rfl, .inl rfl, .inl rfl⟩, Nat.le_succ _⟩

/-- What a token has to match. -/
structure Current (db : Database) (tokens : List ShadowObserver) (sourceId : ExecutionIdentity)
    (token : ShadowObserver) (current : ObserverRow) : Prop where
  issued : token ∈ tokens
  source : sourceId = token.sourceId
  row : db.observer token.agentId = some current
  epoch : current.observerEpoch = token.epoch
  bound : current.sourceId = some token.sourceId
  runtime : current.observerRuntimeGenerationId = token.observerRuntimeGenerationId
  admitted : db.hasSource token.agentId sourceId = true

theorem currentObserver_ok (ok : currentObserver db tokens sourceId token = .ok current) :
    Current db tokens sourceId token current := by
  obtain ⟨issued, ok⟩ := require_bind_ok ok
  obtain ⟨source, ok⟩ := require_bind_ok ok
  obtain ⟨row, has, ok⟩ := found_bind_ok ok
  obtain ⟨same, ok⟩ := require_bind_ok ok
  obtain ⟨admitted, ok⟩ := require_bind_ok ok
  cases ok
  exact ⟨issued, source, has, same.1, same.2.2.1, same.2.2.2, admitted⟩

theorem recordPosition_ok (ok : recordPosition t tokens sourceId token latestSequence = .ok t') :
    ∃ current, Current t.db tokens sourceId token current ∧
      current.lastSourceSequence ≤ latestSequence ∧
      (t' = t ∨ t' = t.updateObserver token.agentId (observePosition latestSequence)) := by
  obtain ⟨current, has, ok⟩ := bind_ok ok
  obtain ⟨above, ok⟩ := require_bind_ok ok
  refine ⟨current, currentObserver_ok has, above, ?_⟩
  split at ok
  · cases ok
    exact .inl rfl
  · cases ok
    exact .inr rfl

/-! ## A fact that is stored -/

/-- The checks of a fact that is neither a duplicate nor out of place. -/
structure Admitted (db : Database) (tokens : List ShadowObserver) (sourceId : ExecutionIdentity)
    (token : ShadowObserver) (fact : ExecutionFact) (current : ObserverRow) (turn : Option TurnRow) :
    Prop where
  holds : Current db tokens sourceId token current
  epoch : fact.envelope.observerEpoch.val = token.epoch
  agent : fact.envelope.agentId = token.agentId
  retained : retainedTurn db token fact = .ok turn
  unique : findDuplicate db fact = none
  above : current.lastSourceSequence + 1 ≤ fact.envelope.sourceSequence.val

theorem admitFact_ok (ok : admitFact db tokens sourceId token fact = .ok admission) :
    ∃ current, Current db tokens sourceId token current ∧
      fact.envelope.observerEpoch.val = token.epoch ∧ fact.envelope.agentId = token.agentId ∧
      ((∃ turn, admission = .fresh current turn ∧
          Admitted db tokens sourceId token fact current turn) ∨
        ∃ row gapPending, admission = .duplicate row.sequence gapPending ∧ row ∈ db.facts ∧
          db.decode row = .ok fact) := by
  obtain ⟨current, has, ok⟩ := bind_ok ok
  obtain ⟨epoch, ok⟩ := require_bind_ok ok
  obtain ⟨agent, ok⟩ := require_bind_ok ok
  obtain ⟨turn, retained, ok⟩ := bind_ok ok
  refine ⟨current, currentObserver_ok has, epoch, agent, ?_⟩
  split at ok
  · rename_i row duplicate
    obtain ⟨known, decoded, ok⟩ := bind_ok ok
    obtain ⟨same, ok⟩ := require_bind_ok ok
    cases ok
    exact .inr ⟨row, _, rfl, List.mem_of_find?_eq_some duplicate, same ▸ decoded⟩
  · rename_i unique
    obtain ⟨above, ok⟩ := require_bind_ok ok
    cases ok
    exact .inl ⟨turn, rfl, currentObserver_ok has, epoch, agent, retained, unique, above⟩

/-- The runtimes of a token belong to its agent. -/
def TokenSound (db : Database) (token : ShadowObserver) : Prop :=
  (∃ runtime, db.runtime token.runtimeGenerationId = some runtime ∧ runtime.agentId = token.agentId) ∧
    ∃ runtime, db.runtime token.observerRuntimeGenerationId = some runtime ∧
      runtime.agentId = token.agentId

theorem TokenSound.mono (sound : TokenSound db token) (ext : Extends db db') :
    TokenSound db' token := by
  obtain ⟨⟨subject, here, agent⟩, observer, there, agent'⟩ := sound
  obtain ⟨subject', here', same⟩ := ext.runtime _ _ here
  obtain ⟨observer', there', same'⟩ := ext.runtime _ _ there
  exact ⟨⟨subject', here', same.trans agent⟩, observer', there', same'.trans agent'⟩

/-- The turn that a fact's identity fence found. -/
theorem retainedTurn_ok (ok : retainedTurn db token fact = .ok turn) :
    (nativeTurnOf fact = none ∧ turn = none ∧
        fact.envelope.runtimeGenerationId = token.observerRuntimeGenerationId) ∨
      ∃ identity row, nativeTurnOf fact = some identity ∧ turn = some row ∧
        fact.envelope.runtimeGenerationId = token.runtimeGenerationId ∧
        db.turn identity.turnId = some row ∧ row.toNativeTurnIdentity = identity ∧
        row.runtimeGenerationId = fact.envelope.runtimeGenerationId := by
  unfold retainedTurn at ok
  split at ok
  · rename_i identity own
    obtain ⟨same, ok⟩ := require_bind_ok ok
    obtain ⟨row, has, ok⟩ := found_bind_ok ok
    obtain ⟨runtime, -, ok⟩ := found_bind_ok ok
    cases ok
    obtain ⟨here, fields⟩ := Option.filter_eq_some_iff.mp has
    have fields := of_decide_eq_true fields
    exact .inr ⟨identity, row, own, rfl, same.1, here, fields.2.2.2, fields.2.2.1⟩
  · rename_i none_
    obtain ⟨same, ok⟩ := require_bind_ok ok
    cases ok
    exact .inl ⟨none_, rfl, same.1⟩

theorem Admitted.known (admitted : Admitted db tokens sourceId token fact current turn)
    (sound : TokenSound db token) : Known db fact := by
  rcases retainedTurn_ok admitted.retained with ⟨none_, -, runtime⟩ |
    ⟨identity, row, own, -, runtime, found, same, same'⟩
  · obtain ⟨observer, here, agent⟩ := sound.2
    refine ⟨⟨observer, by rw [runtime]; exact here, agent.trans admitted.agent.symm⟩, ?_⟩
    rw [none_]
    exact nofun
  · obtain ⟨subject, here, agent⟩ := sound.1
    refine ⟨⟨subject, by rw [runtime]; exact here, agent.trans admitted.agent.symm⟩, ?_⟩
    rintro other has
    obtain rfl : identity = other := Option.some.inj (own.symm.trans has)
    exact ⟨row, found, same, same'⟩

end LetAgents.Execution.ShadowStore

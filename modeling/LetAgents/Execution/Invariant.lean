import LetAgents.Lib.Checked
import LetAgents.Execution.Reducer

/-!
# Execution evidence: what holds in every reachable projection

`ProjectionSound` is the one-state half: settled turns and operations carry their
outcome, a tool stopped before it started shows no trace of a start, and a turn
reports the join of what its operations report. `Evolves` is the two-state half:
what a later projection of the same log keeps. Both are proved for one accepted
fact from inversion lemmas of the four reducing functions, and then for every
log by the replay rules.
-/
namespace LetAgents.Execution.Invariant

open Protocol Reducer Lib Lib.Js Lib.Checked

/-! ## What an accepted fact can do -/

theorem transition_ok [DecidableEq T] {previous next result : T}
    (ok : transition previous next allowed = .ok result) :
    result = next ∧ (previous = next ∨ next ∈ allowed previous) := by
  unfold transition at ok
  split at ok
  · cases ok
  · rename_i permitted
    cases ok
    refine ⟨rfl, ?_⟩
    by_contra rejected
    simp only [not_or] at rejected
    exact permitted rejected

variable {previous : Option OperationProjection} {fact : ExecutionOperationFact}
  {next turn : TurnProjection} {p : ExecutionProjection} {identity : NativeTurnIdentity}
  {value : JsValue}

/-- The four ways an operation takes a fact: a repeated settlement, a start,
output, and the first settlement. -/
theorem reduceOperation_cases {next : OperationProjection}
    (ok : reduceOperation previous fact = .ok next) :
    let operation := previous.getD (newOperation fact)
    let sideEffects := combineSideEffects operation.sideEffects fact.sideEffects
    operation.operation = fact.operation ∧
      ((operation.state = .terminal ∧ next = { operation with sideEffects } ∧
          ∃ outcome, operation.outcome = some outcome ∧
            (outcome.beforeStart = true → fact.sideEffects = .none)) ∨
       (operation.state ≠ .terminal ∧ next = { operation with startObserved := true, sideEffects }) ∨
       (operation.state ≠ .terminal ∧
          ∃ outputBytes, next = { operation with outputBytes, sideEffects }) ∨
       (operation.state ≠ .terminal ∧ ∃ outcome exitCode signalNumber,
          next = { operation with
            state := .terminal, outcome := some outcome, sideEffects, exitCode, signalNumber } ∧
          (outcome.beforeStart = true → operation.startObserved = false ∧
            operation.outputBytes = 0 ∧ operation.sideEffects = .none ∧
            fact.sideEffects = .none))) := by
  intro operation sideEffects
  unfold reduceOperation at ok
  split at ok
  · cases ok
  rename_i sameKind
  have kind : operation.operation = fact.operation := by
    cases previous with
    | none => rfl
    | some known =>
      have agrees : known.operation = fact.operation := by simpa using sameKind
      exact agrees
  refine ⟨kind, ?_⟩
  have refined := fact.refined
  simp only at ok
  split at ok
  · rename_i terminal
    cases event : fact.event with
    | started | output bytes => simp [event] at ok
    | completed outcome exitCode signalNumber =>
      simp only [event] at ok refined
      split at ok
      · rename_i repeated
        cases ok
        refine .inl ⟨terminal, rfl, outcome, repeated.1, fun before => ?_⟩
        simp [OperationEvent.refined, before] at refined
        exact refined.1.1
      · cases ok
  · rename_i running
    cases event : fact.event with
    | started =>
      simp only [event, Except.ok.injEq] at ok
      exact .inr (.inl ⟨running, ok.symm⟩)
    | output bytes =>
      simp only [event] at ok
      split at ok
      · cases ok
        exact .inr (.inr (.inl ⟨running, _, rfl⟩))
      · cases ok
    | completed outcome exitCode signalNumber =>
      simp only [event] at ok refined
      split at ok
      · cases ok
      rename_i fresh
      cases ok
      refine .inr (.inr (.inr ⟨running, outcome, exitCode, signalNumber, rfl, fun before => ?_⟩))
      simp [OperationEvent.refined, before] at refined fresh
      exact ⟨fresh.1, fresh.2.1, fresh.2.2, refined.1.1⟩

theorem reduceTurn_ok (ok : reduceTurn turn state turnOutcome = .ok next) :
    next = { turn with state, outcome := turnOutcome } ∧
      (turn.state = .terminal → state = .terminal ∧ turnOutcome = turn.outcome) := by
  obtain ⟨moved, transitioned, written⟩ := bind_ok ok
  obtain ⟨rfl, permitted⟩ := transition_ok transitioned
  split at written
  · cases written
  rename_i unchanged
  cases written
  refine ⟨rfl, fun terminal => ⟨?_, ?_⟩⟩
  · rw [terminal] at permitted
    rcases permitted with same | listed
    · exact same.symm
    · cases listed
  · by_contra different
    exact unchanged ⟨terminal, fun same => different same.symm⟩

theorem reduceTurnOperation_ok (ok : reduceTurnOperation turn fact = .ok next) :
    ∃ operation,
      reduceOperation (turn.operations.lookup fact.executionId) fact = .ok operation ∧
      next = { turn with
        operations := turn.operations.insert fact.executionId operation
        sideEffects := combineSideEffects turn.sideEffects fact.sideEffects } := by
  unfold reduceTurnOperation at ok
  split at ok
  · cases ok
  obtain ⟨operation, reduced, ok⟩ := bind_ok ok
  cases ok
  exact ⟨operation, reduced, rfl⟩

theorem currentTurn_ok (ok : currentTurn p identity = .ok turn) :
    turn.toNativeTurnIdentity = identity ∧
      (p.turns.lookup identity.turnId = some turn ∨
        p.turns.lookup identity.turnId = none ∧ turn = newTurn identity) := by
  unfold currentTurn at ok
  split at ok
  · rename_i current known
    split at ok
    · rename_i same
      cases ok
      exact ⟨(sameNativeTurn_iff _ _).1 same, .inl known⟩
    · cases ok
  · rename_i unknown
    cases ok
    exact ⟨rfl, .inr ⟨unknown, rfl⟩⟩

/-! ## The one-state invariant -/

structure OperationSound (op : OperationProjection) : Prop where
  terminal_iff_outcome : op.state = .terminal ↔ op.outcome.isSome
  before_start : ∀ outcome, op.outcome = some outcome → outcome.beforeStart = true →
    op.startObserved = false ∧ op.outputBytes = 0 ∧ op.sideEffects = .none

structure TurnSound (turn : TurnProjection) : Prop where
  terminal_iff_outcome : turn.state = .terminal ↔ turn.outcome.isSome
  operations : ∀ id op, turn.operations.lookup id = some op → OperationSound op
  side_effects : turn.sideEffects = JoinMap.joinOf OperationProjection.sideEffects turn.operations

def ProjectionSound (p : ExecutionProjection) : Prop :=
  ∀ id turn, p.turns.lookup id = some turn → TurnSound turn

theorem newOperation_sound (fact : ExecutionOperationFact) : OperationSound (newOperation fact) where
  terminal_iff_outcome := by simp [newOperation]
  before_start := by simp [newOperation]

theorem newTurn_sound (identity : NativeTurnIdentity) : TurnSound (newTurn identity) where
  terminal_iff_outcome := by simp [newTurn]
  operations := by simp [newTurn]
  side_effects := rfl

theorem empty_sound : ProjectionSound emptyExecutionProjection := by
  intro id turn known
  simp [emptyExecutionProjection] at known

/-! ## The two-state relation -/

structure OperationEvolves (op later : OperationProjection) : Prop where
  operation : later.operation = op.operation
  side_effects : op.sideEffects ≤ later.sideEffects
  settled : op.state = .terminal → later.state = .terminal ∧ later.outcome = op.outcome ∧
    later.exitCode = op.exitCode ∧ later.signalNumber = op.signalNumber

structure TurnEvolves (turn later : TurnProjection) : Prop where
  identity : later.toNativeTurnIdentity = turn.toNativeTurnIdentity
  side_effects : turn.sideEffects ≤ later.sideEffects
  settled : turn.state = .terminal → later.state = .terminal ∧ later.outcome = turn.outcome
  operations : ∀ id op, turn.operations.lookup id = some op →
    ∃ op', later.operations.lookup id = some op' ∧ OperationEvolves op op'

structure Evolves (p later : ExecutionProjection) : Prop where
  runtime_exited : p.runtime = .exited → later.runtime = .exited
  turns : ∀ id turn, p.turns.lookup id = some turn →
    ∃ turn', later.turns.lookup id = some turn' ∧ TurnEvolves turn turn'

theorem OperationEvolves.refl (op : OperationProjection) : OperationEvolves op op :=
  ⟨rfl, le_rfl, fun terminal => ⟨terminal, rfl, rfl, rfl⟩⟩

theorem OperationEvolves.trans (ab : OperationEvolves a b) (bc : OperationEvolves b c) :
    OperationEvolves a c where
  operation := bc.operation.trans ab.operation
  side_effects := ab.side_effects.trans bc.side_effects
  settled terminal := by
    obtain ⟨still, outcome, code, signal⟩ := ab.settled terminal
    obtain ⟨last, outcome', code', signal'⟩ := bc.settled still
    exact ⟨last, outcome'.trans outcome, code'.trans code, signal'.trans signal⟩

theorem TurnEvolves.refl (turn : TurnProjection) : TurnEvolves turn turn :=
  ⟨rfl, le_rfl, fun terminal => ⟨terminal, rfl⟩,
    fun _ op known => ⟨op, known, OperationEvolves.refl op⟩⟩

theorem TurnEvolves.trans (ab : TurnEvolves a b) (bc : TurnEvolves b c) : TurnEvolves a c where
  identity := bc.identity.trans ab.identity
  side_effects := ab.side_effects.trans bc.side_effects
  settled terminal := by
    obtain ⟨still, outcome⟩ := ab.settled terminal
    obtain ⟨last, outcome'⟩ := bc.settled still
    exact ⟨last, outcome'.trans outcome⟩
  operations id op known := by
    obtain ⟨op', known', evolved⟩ := ab.operations id op known
    obtain ⟨op'', known'', evolved'⟩ := bc.operations id op' known'
    exact ⟨op'', known'', evolved.trans evolved'⟩

theorem Evolves.refl (p : ExecutionProjection) : Evolves p p :=
  ⟨id, fun _ turn known => ⟨turn, known, TurnEvolves.refl turn⟩⟩

theorem Evolves.trans (ab : Evolves a b) (bc : Evolves b c) : Evolves a c where
  runtime_exited exited := bc.runtime_exited (ab.runtime_exited exited)
  turns id turn known := by
    obtain ⟨turn', known', evolved⟩ := ab.turns id turn known
    obtain ⟨turn'', known'', evolved'⟩ := bc.turns id turn' known'
    exact ⟨turn'', known'', evolved.trans evolved'⟩

/-! ## One accepted fact -/

theorem reduceOperation_sound {next : OperationProjection}
    (before : ∀ op, previous = some op → OperationSound op)
    (ok : reduceOperation previous fact = .ok next) : OperationSound next := by
  have sound : OperationSound (previous.getD (newOperation fact)) := by
    cases previous with
    | none => exact newOperation_sound fact
    | some op => exact before op rfl
  obtain ⟨_, replayed | started | output | settled⟩ := reduceOperation_cases ok
  · obtain ⟨terminal, rfl, outcome, recorded, harmless⟩ := replayed
    refine ⟨sound.terminal_iff_outcome, fun known same before => ?_⟩
    obtain rfl : outcome = known := Option.some.inj (recorded.symm.trans same)
    obtain ⟨unstarted, empty, clean⟩ := sound.before_start outcome recorded before
    refine ⟨unstarted, empty, ?_⟩
    simp only [clean, harmless before]
    rfl
  · obtain ⟨running, rfl⟩ := started
    have open' : (previous.getD (newOperation fact)).outcome = none := by
      simpa using mt sound.terminal_iff_outcome.2 running
    exact ⟨sound.terminal_iff_outcome, by simp [open']⟩
  · obtain ⟨running, bytes, rfl⟩ := output
    have open' : (previous.getD (newOperation fact)).outcome = none := by
      simpa using mt sound.terminal_iff_outcome.2 running
    exact ⟨sound.terminal_iff_outcome, by simp [open']⟩
  · obtain ⟨running, outcome, code, signal, rfl, fresh⟩ := settled
    refine ⟨by simp, fun known same before => ?_⟩
    obtain rfl : outcome = known := Option.some.inj same
    obtain ⟨unstarted, empty, clean, harmless⟩ := fresh before
    refine ⟨unstarted, empty, ?_⟩
    simp only [clean, harmless]
    rfl

theorem reduceOperation_side_effects {next : OperationProjection}
    (ok : reduceOperation previous fact = .ok next) :
    next.sideEffects =
      previous.elim ⊥ OperationProjection.sideEffects ⊔ fact.sideEffects := by
  have start : (previous.getD (newOperation fact)).sideEffects =
      previous.elim ⊥ OperationProjection.sideEffects := by
    cases previous <;> rfl
  rw [← start, ← combineSideEffects_eq_sup]
  obtain ⟨_, ⟨_, rfl, _⟩ | ⟨_, rfl⟩ | ⟨_, _, rfl⟩ | ⟨_, _, _, _, rfl, _⟩⟩ :=
    reduceOperation_cases ok <;> rfl

theorem reduceOperation_evolves {op next : OperationProjection}
    (ok : reduceOperation (some op) fact = .ok next) : OperationEvolves op next := by
  have grown : op.sideEffects ≤ combineSideEffects op.sideEffects fact.sideEffects :=
    le_sup_left
  obtain ⟨_, replayed | started | output | settled⟩ := reduceOperation_cases ok
  · obtain ⟨terminal, rfl, _⟩ := replayed
    exact ⟨rfl, grown, fun _ => ⟨terminal, rfl, rfl, rfl⟩⟩
  · obtain ⟨running, rfl⟩ := started
    exact ⟨rfl, grown, fun terminal => absurd terminal running⟩
  · obtain ⟨running, bytes, rfl⟩ := output
    exact ⟨rfl, grown, fun terminal => absurd terminal running⟩
  · obtain ⟨running, outcome, code, signal, rfl, _⟩ := settled
    exact ⟨rfl, grown, fun terminal => absurd terminal running⟩

theorem reduceTurn_step (refined : state = .terminal ↔ turnOutcome.isSome) (sound : TurnSound turn)
    (ok : reduceTurn turn state turnOutcome = .ok next) :
    TurnSound next ∧ TurnEvolves turn next := by
  obtain ⟨rfl, settled⟩ := reduceTurn_ok ok
  exact ⟨⟨refined, sound.operations, sound.side_effects⟩,
    ⟨rfl, le_rfl, settled, fun _ op known => ⟨op, known, OperationEvolves.refl op⟩⟩⟩

theorem reduceTurnOperation_step (sound : TurnSound turn)
    (ok : reduceTurnOperation turn fact = .ok next) :
    TurnSound next ∧ TurnEvolves turn next := by
  obtain ⟨operation, reduced, rfl⟩ := reduceTurnOperation_ok ok
  refine ⟨⟨sound.terminal_iff_outcome, ?_, ?_⟩, ⟨rfl, le_sup_left, fun terminal => ⟨terminal, rfl⟩, ?_⟩⟩
  · intro id op known
    by_cases same : id = fact.executionId
    · subst same
      rw [AList.lookup_insert] at known
      cases known
      exact reduceOperation_sound (fun op found => sound.operations _ op found) reduced
    · rw [AList.lookup_insert_ne same] at known
      exact sound.operations id op known
  · rw [JoinMap.joinOf_insert_raise _ (reduceOperation_side_effects reduced),
      ← sound.side_effects]
    rfl
  · intro id op known
    by_cases same : id = fact.executionId
    · subst same
      rw [known] at reduced
      exact ⟨operation, AList.lookup_insert _, reduceOperation_evolves reduced⟩
    · exact ⟨op, (AList.lookup_insert_ne same).trans known, OperationEvolves.refl op⟩

/-- Replacing the current turn by a sound one it evolves into. -/
theorem setTurn_step (before : ProjectionSound p) (current : currentTurn p identity = .ok turn)
    (sound : TurnSound next) (evolved : TurnEvolves turn next) :
    ProjectionSound (setTurn p identity next) ∧ Evolves p (setTurn p identity next) := by
  obtain ⟨_, known⟩ := currentTurn_ok current
  refine ⟨fun id other found => ?_, ⟨id, fun id other found => ?_⟩⟩
  · by_cases same : id = identity.turnId
    · subst same
      rw [setTurn, AList.lookup_insert] at found
      cases found
      exact sound
    · rw [setTurn, AList.lookup_insert_ne same] at found
      exact before id other found
  · by_cases same : id = identity.turnId
    · subst same
      rcases known with present | ⟨absent, _⟩
      · obtain rfl : other = turn := Option.some.inj (found.symm.trans present)
        exact ⟨next, AList.lookup_insert _, evolved⟩
      · rw [absent] at found
        cases found
    · exact ⟨other, (AList.lookup_insert_ne same).trans found, TurnEvolves.refl other⟩

theorem currentTurn_sound (before : ProjectionSound p)
    (current : currentTurn p identity = .ok turn) : TurnSound turn := by
  obtain ⟨_, present | ⟨_, rfl⟩⟩ := currentTurn_ok current
  · exact before _ turn present
  · exact newTurn_sound identity

theorem reduceControl_ok {next : ExecutionProjection}
    (ok : reduceControl p epoch state = .ok next) :
    next = { p with control := state, controlObserverEpoch := epoch } ∧
      (p.control = .lost → state ≠ .lost →
        state = .connecting ∧ p.controlObserverEpoch < epoch) := by
  unfold reduceControl at ok
  split at ok
  · rename_i reconnect
    cases ok
    exact ⟨by rw [reconnect.1], fun _ _ => reconnect⟩
  · obtain ⟨control, moved, written⟩ := bind_ok ok
    obtain ⟨rfl, permitted⟩ := transition_ok moved
    cases written
    refine ⟨rfl, fun lost left => ?_⟩
    rw [lost] at permitted
    rcases permitted with same | listed
    · exact absurd same.symm left
    · cases listed

theorem reduceDomain_step {next : ExecutionProjection} {fact : ExecutionFact}
    (before : ProjectionSound p) (ok : reduceDomain p fact = .ok next) :
    ProjectionSound next ∧ Evolves p next := by
  cases fact with
  | runtime shared state evidence refined =>
    obtain ⟨runtime, moved, written⟩ := bind_ok ok
    obtain ⟨rfl, permitted⟩ := transition_ok moved
    cases written
    refine ⟨before, fun exited => ?_, fun id turn known => ⟨turn, known, TurnEvolves.refl turn⟩⟩
    rw [exited] at permitted
    rcases permitted with same | listed
    · exact same.symm
    · cases listed
  | control shared state evidence refined =>
    obtain ⟨rfl, _⟩ := reduceControl_ok ok
    exact ⟨before, id, fun id turn known => ⟨turn, known, TurnEvolves.refl turn⟩⟩
  | continuation shared state =>
    obtain ⟨continuation, moved, ok⟩ := bind_ok ok
    cases ok
    exact ⟨before, id, fun id turn known => ⟨turn, known, TurnEvolves.refl turn⟩⟩
  | turn shared identity state outcome refined =>
    obtain ⟨turn, current, ok⟩ := bind_ok ok
    obtain ⟨next', reduced, ok⟩ := bind_ok ok
    cases ok
    obtain ⟨sound, evolved⟩ := reduceTurn_step refined (currentTurn_sound before current) reduced
    exact setTurn_step before current sound evolved
  | execution fact =>
    obtain ⟨turn, current, ok⟩ := bind_ok ok
    obtain ⟨next', reduced, ok⟩ := bind_ok ok
    cases ok
    obtain ⟨sound, evolved⟩ := reduceTurnOperation_step (currentTurn_sound before current) reduced
    exact setTurn_step before current sound evolved

/-- An accepted value is a fact of a current epoch, reduced in that epoch. -/
theorem reduceExecutionFact_ok {next : ExecutionProjection}
    (ok : reduceExecutionFact p value = .ok next) :
    ∃ fact epoch, parseExecutionFact value = .ok fact ∧
      reduceDomain { p with observerEpoch := epoch } fact = .ok next := by
  obtain ⟨fact, parsed, ok⟩ := bind_ok ok
  simp only at ok
  split at ok
  · cases ok
  · split at ok
    · exact ⟨fact, _, parsed, ok⟩
    · exact ⟨fact, p.observerEpoch, parsed, ok⟩

theorem reduceExecutionFact_step {next : ExecutionProjection} (before : ProjectionSound p)
    (ok : reduceExecutionFact p value = .ok next) : ProjectionSound next ∧ Evolves p next := by
  obtain ⟨fact, epoch, _, reduced⟩ := reduceExecutionFact_ok ok
  have sound : ProjectionSound { p with observerEpoch := epoch } := before
  obtain ⟨invariant, exited, turns⟩ := reduceDomain_step sound reduced
  exact ⟨invariant, exited, turns⟩

/-- Leaving `lost` takes a `connecting` control fact of a newer epoch than the
one control was last observed in. -/
def LeavesLostByReconnect (p : ExecutionProjection) (value : JsValue)
    (next : ExecutionProjection) : Prop :=
  p.control = .lost → next.control ≠ .lost →
    ∃ envelope evidence refined,
      parseExecutionFact value = .ok (.control envelope .connecting evidence refined) ∧
      p.controlObserverEpoch < envelope.observerEpoch.val ∧ next.control = .connecting

theorem reduceExecutionFact_leavesLost {next : ExecutionProjection}
    (ok : reduceExecutionFact p value = .ok next) : LeavesLostByReconnect p value next := by
  intro lost left
  obtain ⟨fact, epoch, parsed, reduced⟩ := reduceExecutionFact_ok ok
  cases fact with
  | control shared state evidence refined =>
    obtain ⟨rfl, reconnect⟩ := reduceControl_ok reduced
    obtain ⟨rfl, newer⟩ := reconnect lost left
    exact ⟨shared, evidence, refined, parsed, newer, rfl⟩
  | runtime shared state evidence refined =>
    obtain ⟨runtime, _, reduced⟩ := bind_ok reduced
    cases reduced
    exact absurd lost left
  | continuation shared state =>
    obtain ⟨continuation, _, reduced⟩ := bind_ok reduced
    cases reduced
    exact absurd lost left
  | turn shared identity state outcome refined | execution fact =>
    obtain ⟨turn, _, reduced⟩ := bind_ok reduced
    obtain ⟨next', _, reduced⟩ := bind_ok reduced
    cases reduced
    exact absurd lost left

/-! ## Every log -/

theorem replayFacts_sound (log : List JsValue) : ProjectionSound (replayFacts log) :=
  Replay.replay_preserves (fun _ _ => True) ProjectionSound
    (fun _ _ _ before _ ok => (reduceExecutionFact_step before ok).1)
    (Replay.meets_of_forall (fun _ _ => trivial) _ log) empty_sound

theorem replayFacts_evolves (earlier later : List JsValue) :
    Evolves (replayFacts earlier) (replayFacts (earlier ++ later)) := by
  rw [replayFacts, replayFacts, Replay.replay_append]
  exact Replay.replay_relates (fun _ _ => True) ProjectionSound Evolves
    (fun _ _ _ before _ ok => (reduceExecutionFact_step before ok).1)
    Evolves.refl Evolves.trans
    (fun _ _ _ before _ ok => (reduceExecutionFact_step before ok).2)
    (Replay.meets_of_forall (fun _ _ => trivial) _ later) (replayFacts_sound earlier)

/-- Every reachable projection is sound, evolves into every later projection of
its log, and leaves a lost control only by an explicit reconnection. -/
theorem execution_projection_runs (earlier later : List JsValue) :
    ProjectionSound (replayFacts earlier) ∧
      Evolves (replayFacts earlier) (replayFacts (earlier ++ later)) ∧
      ∀ value next, reduceExecutionFact (replayFacts earlier) value = .ok next →
        LeavesLostByReconnect (replayFacts earlier) value next :=
  ⟨replayFacts_sound earlier, replayFacts_evolves earlier later,
    fun _ _ ok => reduceExecutionFact_leavesLost ok⟩

end LetAgents.Execution.Invariant

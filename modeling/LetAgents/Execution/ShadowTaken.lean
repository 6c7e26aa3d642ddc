import LetAgents.Execution.ShadowBodies
import Mathlib.Algebra.Order.BigOperators.Group.List

/-!
# A fact that is given a row

The replay of the rows with one fact more is the projection that `ingest` computes, and the columns
that it writes are those of that replay.
-/
namespace LetAgents.Execution.ShadowStore

open Lib Lib.Checked Protocol Reducer FactRows

variable {db : Database} {ingested : Ingested} {fact : ExecutionFact}

/-! ## Evidence of an event that is known -/

theorem Known.agent (known : Known db fact) (there : Known db other)
    (same : other.envelope.runtimeGenerationId = fact.envelope.runtimeGenerationId) :
    other.envelope.agentId = fact.envelope.agentId := by
  obtain ⟨⟨runtime, found, agent⟩, -⟩ := known
  obtain ⟨⟨runtime', found', agent'⟩, -⟩ := there
  rw [same, found] at found'
  rw [← agent', ← agent, Option.some.inj found']

theorem nativeEventKey_some (own : nativeEventKey fact = some key) :
    ∃ nativeEventId, fact.envelope.nativeEventId = some nativeEventId ∧
      key = {
        agentId := fact.envelope.agentId.val
        runtimeGenerationId := fact.envelope.runtimeGenerationId.val
        turnId := (stored 0 fact).turnId
        executionId := (stored 0 fact).executionId
        domain := (stored 0 fact).domain
        kind := (stored 0 fact).kind
        nativeEventId := nativeEventId.val } := by
  obtain ⟨-, agent, runtime, -, -, event, -⟩ := stored_ids 0 fact
  obtain ⟨text, has, rfl⟩ := Option.map_eq_some_iff.mp own
  rw [event] at has
  obtain ⟨nativeEventId, here, rfl⟩ := Option.map_eq_some_iff.mp has
  exact ⟨nativeEventId, here, by rw [agent, runtime]⟩

/-- Whether an ingested fact is evidence of the event with the key. -/
def Observed (key : NativeEventKey) (e : Nat × ExecutionFact) : Bool :=
  nativeEventKey e.2 = some key

theorem observations_eq (sound : JournalSound db ingested) (known : Known db fact)
    (event : fact.envelope.nativeEventId = some nativeEventId)
    (own : nativeEventKey fact = some key) : observations db fact nativeEventId =
      (ingested.filter (Observed key)).map fun e => stored e.1 e.2 := by
  obtain ⟨other, event', rfl⟩ := nativeEventKey_some own
  obtain rfl : nativeEventId = other := Option.some.inj (event.symm.trans event')
  unfold observations
  rw [sound.rows, List.filter_map]
  congr 1
  refine List.filter_congr fun e member => ?_
  rw [Function.comp_apply, Observed, stored_eq e.1 e.2]
  refine decide_eq_decide.mpr ?_
  obtain ⟨-, agent, runtime, -, -, eventText, -⟩ := stored_ids 0 e.2
  obtain ⟨-, -, runtime', -⟩ := stored_ids 0 fact
  constructor
  · rintro ⟨sameRuntime, sameEvent, domain, kind, turn, execution⟩
    have sameAgent : e.2.envelope.agentId = fact.envelope.agentId := by
      refine known.agent (sound.known e member) (Subtype.ext ?_)
      rw [← runtime, sameRuntime, runtime']
    unfold nativeEventKey
    dsimp only
    rw [sameEvent, Option.map_some, agent, sameRuntime, runtime', domain, kind, turn, execution,
      sameAgent]
  · intro same
    obtain ⟨id, has, fields⟩ := nativeEventKey_some same
    simp only [NativeEventKey.mk.injEq] at fields
    obtain ⟨-, sameRuntime, turn, execution, domain, kind, sameEvent⟩ := fields
    refine ⟨?_, ?_, domain.symm, kind.symm, turn.symm, execution.symm⟩
    · rw [runtime, runtime', sameRuntime]
    · rw [eventText, has, sameEvent]
      rfl

theorem isReplay_fold {es : Ingested} (known : ∀ e ∈ es, Known db e.2)
    (ok : (es.map fun e => stored e.1 e.2).foldlM (fun replay row =>
      if unverifiedHistoricalFact row then .ok replay
      else do
        let seen ← db.decode row
        require (semanticFact seen = semanticFact fact) ExecutionProtocolError.sequenceConflict
        .ok true) start = .ok replay) :
    (∀ e ∈ es, semanticFact e.2 = semanticFact fact) ∧ (replay = false → es = [] ∧ start = false) ∧
      (replay = true → es ≠ [] ∨ start = true) := by
  induction es generalizing start with
  | nil =>
    cases ok
    exact ⟨fun _ member => absurd member List.not_mem_nil, fun off => ⟨rfl, off⟩, .inr⟩
  | cons e rest ih =>
    rw [List.map_cons, List.foldlM_cons, verified_stored, if_neg Bool.false_ne_true,
      decode_of_known (known e List.mem_cons_self)] at ok
    obtain ⟨seen, first, ok⟩ := bind_ok ok
    obtain ⟨same, first⟩ := require_bind_ok first
    cases first
    obtain ⟨others, off, -⟩ := ih (fun e member => known e (.tail _ member)) ok
    refine ⟨?_, fun none_ => ?_, fun _ => .inl (List.cons_ne_nil _ _)⟩
    · rintro a (_ | ⟨_, member⟩)
      · exact same
      · exact others a member
    · cases (off none_).2

/-- `ingest` and the replay agree on what is known evidence. -/
theorem isReplay_spec (sound : JournalSound db ingested) (known : Known db fact)
    (replays : Replays (factsOf ingested fact.envelope.runtimeGenerationId) s)
    (ok : isReplay db fact = .ok replay) : (replay = true → ∃ key, nativeEventKey fact = some key ∧
        s.nativeEvents.lookup key = some (semanticFact fact)) ∧
      (replay = false → ∀ key, nativeEventKey fact = some key → s.nativeEvents.lookup key = none) := by
  have here : ∀ e ∈ ingested, ∀ key, nativeEventKey fact = some key → nativeEventKey e.2 = some key →
      e ∈ factsOf ingested fact.envelope.runtimeGenerationId := by
    intro e member key own same
    obtain ⟨_, -, rfl⟩ := nativeEventKey_some own
    obtain ⟨_, -, fields⟩ := nativeEventKey_some same
    refine List.mem_filter.mpr ⟨member, decide_eq_true (Subtype.ext ?_)⟩
    exact (NativeEventKey.mk.inj fields).2.1.symm
  unfold isReplay at ok
  split at ok
  · rename_i event
    cases ok
    refine ⟨by rintro ⟨⟩, fun _ key own => ?_⟩
    obtain ⟨id, has, -⟩ := nativeEventKey_some own
    rw [event] at has
    cases has
  · rename_i nativeEventId event
    obtain ⟨key, own⟩ : ∃ key, nativeEventKey fact = some key := by
      refine ⟨_, Option.map_eq_some_iff.mpr ⟨nativeEventId.val, ?_, rfl⟩⟩
      rw [(stored_ids 0 fact).2.2.2.2.2.1, event]
      rfl
    rw [observations_eq sound known event own] at ok
    obtain ⟨same, off, on⟩ :=
      isReplay_fold (fun e member => sound.known e (List.mem_of_mem_filter member)) ok
    constructor
    · intro yes
      refine ⟨key, own, ?_⟩
      obtain ⟨e, member⟩ := List.exists_mem_of_ne_nil _ ((on yes).resolve_right Bool.false_ne_true)
      have observed : nativeEventKey e.2 = some key := of_decide_eq_true (List.mem_filter.mp member).2
      rw [← same e member]
      exact replays.seen e (here e (List.mem_of_mem_filter member) key own observed) key observed
    · intro no key' own'
      obtain rfl : key = key' := Option.some.inj (own.symm.trans own')
      cases has : s.nativeEvents.lookup key with
      | none => rfl
      | some semantic =>
        obtain ⟨e, member, observed⟩ := replays.events key semantic has
        have kept : e ∈ ingested.filter (Observed key) :=
          List.mem_filter.mpr ⟨List.mem_of_mem_filter member, decide_eq_true observed⟩
        rw [(off no).1] at kept
        cases kept

/-! ## The replay with one fact more -/

theorem budgetOfFacts_le (sub : few.Sublist more) :
    (budgetOfFacts few).facts ≤ (budgetOfFacts more).facts ∧
      (budgetOfFacts few).bytes ≤ (budgetOfFacts more).bytes :=
  ⟨sub.length_le, (sub.map cost).sum_le_sum fun _ _ => Nat.zero_le _⟩

/-- The facts of a runtime are facts of its agent. -/
theorem factsOf_sublist (sound : JournalSound db ingested) (known : Known db fact) :
    (factsOf ingested fact.envelope.runtimeGenerationId).Sublist
      (agentFacts ingested fact.envelope.agentId) := by
  have same : factsOf ingested fact.envelope.runtimeGenerationId =
      (agentFacts ingested fact.envelope.agentId).filter fun e =>
        e.2.envelope.runtimeGenerationId = fact.envelope.runtimeGenerationId := by
    unfold factsOf agentFacts
    rw [List.filter_filter]
    refine List.filter_congr fun e member => ?_
    by_cases own : e.2.envelope.runtimeGenerationId = fact.envelope.runtimeGenerationId
    · have agent := known.agent (sound.known e member) own
      simp [agent]
    · simp [own]
  rw [same]
  exact List.filter_sublist

theorem runtime_within (sound : JournalSound db ingested) (known : Known db fact)
    (within : exceededBudget
      (budgetWith (budgetOfFacts (agentFacts ingested fact.envelope.agentId)) fact) = none) :
    exceededBudget
      (budgetWith (budgetOfFacts (factsOf ingested fact.envelope.runtimeGenerationId)) fact) = none := by
  obtain ⟨facts, bytes⟩ := budgetOfFacts_le (factsOf_sublist sound known)
  obtain ⟨most, mostBytes⟩ := exceededBudget_eq_none.mp within
  refine exceededBudget_eq_none.mpr ⟨?_, ?_⟩
  · exact Nat.le_trans (Nat.succ_le_succ facts) most
  · exact Nat.le_trans (Nat.add_le_add_right bytes _) mostBytes

/-- The next projection, as `ingest` computes it. -/
def nextProjection (replay : Bool) (previous : ExecutionProjection) (fact : ExecutionFact) :
    Except ExecutionProtocolError ExecutionProjection :=
  if replay then .ok previous else reduceFact previous fact

theorem replayFact_of_taken (sound : JournalSound db ingested) (known : Known db fact)
    (replayed : replayFacts (factsOf ingested fact.envelope.runtimeGenerationId) = .ok s)
    (within : exceededBudget
      (budgetWith (budgetOfFacts (agentFacts ingested fact.envelope.agentId)) fact) = none)
    (checked : isReplay db fact = .ok replay)
    (reduced : nextProjection replay s.value.projection fact = .ok next) (sequence : Nat) :
    ∃ s', replayFact s (sequence, fact) = .ok s' ∧
      s'.value = ⟨next, s.value.unverifiedFacts, sequence⟩ := by
  have replays := replays_of_ok _ s replayed
  obtain ⟨on, off⟩ := isReplay_spec sound known replays checked
  have passes : exceededBudget ⟨s.budget.facts + 1, s.budget.bytes + cost (sequence, fact)⟩ = none := by
    have own := runtime_within sound known within
    rw [← replays.budget] at own
    rw [cost_eq]
    exact own
  unfold replayFact
  dsimp only
  rw [require_of passes, ok_bind]
  unfold ReplayState.verified
  cases replay with
  | true =>
    obtain ⟨key, own, seen⟩ := on rfl
    cases reduced
    rw [own]
    dsimp only
    rw [seen]
    dsimp only
    rw [if_pos rfl]
    exact ⟨_, rfl, rfl⟩
  | false =>
    have step : reduceFact s.value.projection fact = .ok next := reduced
    cases own : nativeEventKey fact with
    | none =>
      unfold ReplayState.reduce
      rw [step]
      exact ⟨_, rfl, rfl⟩
    | some key =>
      dsimp only
      rw [off rfl key own]
      unfold ReplayState.reduce
      rw [step]
      exact ⟨_, rfl, rfl⟩

/-! ## The columns -/

/-- What is done to the rows that a fact's columns are in, where `M` says of which projections `next`
is the next one. -/
structure Summarizes (M : ExecutionProjection → Prop) (turn : Option TurnRow) (fact : ExecutionFact)
    (next : ExecutionProjection) (onRuntime : RuntimeRow → RuntimeRow) (onTurn : TurnRow → TurnRow) :
    Prop where
  runtimeId : ∀ row, (onRuntime row).runtimeGenerationId = row.runtimeGenerationId
  runtimeAgent : ∀ row, (onRuntime row).agentId = row.agentId
  otherRuntime : ∀ row, row.runtimeGenerationId ≠ fact.envelope.runtimeGenerationId →
    onRuntime row = row
  ownRuntime : ∀ row p, M p →
    row.runtimeGenerationId = fact.envelope.runtimeGenerationId →
    row.runtimeState = p.runtime ∧ row.controlState = p.control ∧
      row.continuationState = p.continuation →
    (onRuntime row).runtimeState = next.runtime ∧ (onRuntime row).controlState = next.control ∧
      (onRuntime row).continuationState = next.continuation
  turnId : ∀ row, (onTurn row).toNativeTurnIdentity = row.toNativeTurnIdentity
  turnRuntime : ∀ row, (onTurn row).runtimeGenerationId = row.runtimeGenerationId
  otherTurn : ∀ row, (∀ identity ∈ nativeTurnOf fact, identity.turnId ≠ row.turnId) → onTurn row = row
  ownTurn : ∀ row p, M p → turn = some row →
    (∃ identity ∈ nativeTurnOf fact, identity.turnId = row.turnId) →
    (row.state, row.sideEffects) = turnColumns (p.turns.lookup row.turnId) →
    ((onTurn row).state, (onTurn row).sideEffects) = turnColumns (next.turns.lookup row.turnId)

variable {turn : Option TurnRow} {next : ExecutionProjection}

theorem Summarizes.ofRuntime (notTurn : nativeTurnOf fact = none) (change : RuntimeRow → RuntimeRow)
    (id : ∀ row, (change row).runtimeGenerationId = row.runtimeGenerationId)
    (agent : ∀ row, (change row).agentId = row.agentId)
    (own : ∀ row p, Moves p next fact →
      row.runtimeState = p.runtime ∧ row.controlState = p.control ∧
        row.continuationState = p.continuation →
      (change row).runtimeState = next.runtime ∧ (change row).controlState = next.control ∧
        (change row).continuationState = next.continuation) :
    Summarizes (fun p => Moves p next fact) turn fact next
      (fun row =>
        if row.runtimeGenerationId = fact.envelope.runtimeGenerationId then change row else row)
      (fun row => row) where
  runtimeId row := by
    split
    · exact id row
    · rfl
  runtimeAgent row := by
    split
    · exact agent row
    · rfl
  otherRuntime row other := if_neg other
  ownRuntime row p moves here columns := by
    rw [if_pos here]
    exact own row p moves columns
  turnId _ := rfl
  turnRuntime _ := rfl
  otherTurn _ _ := rfl
  ownTurn row p _ _ has := by
    obtain ⟨identity, here, -⟩ := has
    rw [notTurn] at here
    cases here

theorem Summarizes.ofTurn (isTurn : nativeTurnOf fact = some identity) (change : TurnRow → TurnRow)
    (runtimes : ∀ p, Moves p next fact →
      next.runtime = p.runtime ∧ next.control = p.control ∧ next.continuation = p.continuation)
    (id : ∀ row, (change row).toNativeTurnIdentity = row.toNativeTurnIdentity)
    (runtime : ∀ row, (change row).runtimeGenerationId = row.runtimeGenerationId)
    (own : ∀ row p, Moves p next fact → turn = some row →
      (row.state, row.sideEffects) = turnColumns (p.turns.lookup identity.turnId) →
      ((change row).state, (change row).sideEffects) =
        turnColumns (next.turns.lookup identity.turnId)) :
    Summarizes (fun p => Moves p next fact) turn fact next (fun row => row)
      (fun row => if row.turnId = identity.turnId then change row else row) where
  runtimeId _ := rfl
  runtimeAgent _ := rfl
  otherRuntime _ _ := rfl
  ownRuntime row p moves _ columns := by
    obtain ⟨state, control, continuation⟩ := runtimes p moves
    rw [state, control, continuation]
    exact columns
  turnId row := by
    split
    · exact id row
    · rfl
  turnRuntime row := by
    split
    · exact runtime row
    · rfl
  otherTurn row other := if_neg fun same => other identity isTurn same.symm
  ownTurn row p moves has own' columns := by
    obtain ⟨identity', here, same⟩ := own'
    obtain rfl : identity = identity' := Option.some.inj (isTurn.symm.trans here)
    rw [if_pos same.symm]
    rw [← same] at columns ⊢
    exact own row p moves has columns

theorem Summarizes.ofSame (same : ∀ p, M p → next = p) :
    Summarizes M turn fact next (fun row => row) (fun row => row) where
  runtimeId _ := rfl
  runtimeAgent _ := rfl
  otherRuntime _ _ := rfl
  ownRuntime _ p here _ columns := same p here ▸ columns
  turnId _ := rfl
  turnRuntime _ := rfl
  otherTurn _ _ := rfl
  ownTurn _ p here _ _ columns := same p here ▸ columns

/-- A turn that the projection has is the one that a fact reduces. -/
theorem columns_of_current (has : currentTurn p identity = .ok current) :
    turnColumns (p.turns.lookup identity.turnId) = (current.state, current.sideEffects) := by
  unfold currentTurn at has
  split at has
  · rename_i found
    split at has
    · cases has
      rw [found]
      rfl
    · cases has
  · rename_i absent
    cases has
    rw [absent]
    rfl

theorem combineSideEffects_self (a : SideEffectState) : combineSideEffects a a = a := by
  exact sup_idem a

theorem combineSideEffects_absorb (a b : SideEffectState) :
    combineSideEffects a (combineSideEffects a b) = combineSideEffects a b := by
  exact sup_left_idem a b

/-- What the writes of a summary leave. -/
structure SameButRows (db db' : Database) : Prop where
  facts : db'.facts = db.facts
  factSequence : db'.factSequence = db.factSequence
  observers : db'.observers = db.observers
  sources : db'.observerSources = db.observerSources

theorem summarize_maps (db : Database) (turn : Option TurnRow) (next : ExecutionProjection)
    (fact : ExecutionFact) :
    SameButRows db (summarize db turn next fact) ∧ ∃ onRuntime onTurn,
      (summarize db turn next fact).runtimes = db.runtimes.map onRuntime ∧
      (summarize db turn next fact).turns = db.turns.map onTurn ∧
      Summarizes (fun p => Moves p next fact) turn fact next onRuntime onTurn := by
  cases fact with
  | runtime e state evidence refined =>
    refine ⟨⟨rfl, rfl, rfl, rfl⟩, _, _, rfl, (List.map_id' _).symm, ?_⟩
    refine .ofRuntime rfl (endRuntime next.runtime e.observedAtMs.val) (fun _ => rfl) (fun _ => rfl) ?_
    rintro row p ⟨control, continuation, -⟩ ⟨-, control', continuation'⟩
    exact ⟨rfl, control'.trans control.symm, continuation'.trans continuation.symm⟩
  | control e state evidence refined =>
    refine ⟨⟨rfl, rfl, rfl, rfl⟩, _, _, rfl, (List.map_id' _).symm, ?_⟩
    refine .ofRuntime rfl (fun row => { row with controlState := next.control }) (fun _ => rfl)
      (fun _ => rfl) ?_
    rintro row p ⟨runtime, continuation, -⟩ ⟨runtime', -, continuation'⟩
    exact ⟨runtime'.trans runtime.symm, rfl, continuation'.trans continuation.symm⟩
  | continuation e state =>
    refine ⟨⟨rfl, rfl, rfl, rfl⟩, _, _, rfl, (List.map_id' _).symm, ?_⟩
    refine .ofRuntime rfl (fun row => { row with continuationState := next.continuation })
      (fun _ => rfl) (fun _ => rfl) ?_
    rintro row p ⟨runtime, control, -⟩ ⟨runtime', control', -⟩
    exact ⟨runtime'.trans runtime.symm, control'.trans control.symm, rfl⟩
  | turn e identity state outcome refined =>
    unfold summarize
    dsimp only
    split
    · rename_i after has
      refine ⟨⟨rfl, rfl, rfl, rfl⟩, _, _, (List.map_id' _).symm, rfl, ?_⟩
      refine .ofTurn rfl _ (fun p moves => moves.1) (fun _ => rfl) (fun _ => rfl) ?_
      rintro row p ⟨-, current, after', isCurrent, inserted, effects⟩ rfl columns
      rw [inserted, AList.lookup_insert] at has
      obtain rfl := Option.some.inj has
      rw [columns_of_current isCurrent] at columns
      rw [inserted, AList.lookup_insert]
      refine Prod.ext rfl ?_
      change combineSideEffects row.sideEffects after'.sideEffects = after'.sideEffects
      have same : row.sideEffects = current.sideEffects := congrArg Prod.snd columns
      rw [effects, same]
      exact combineSideEffects_self current.sideEffects
    · rename_i absent
      refine ⟨⟨rfl, rfl, rfl, rfl⟩, _, _, (List.map_id' _).symm, (List.map_id' _).symm, .ofSame ?_⟩
      rintro p ⟨-, current, after', -, inserted, -⟩
      rw [inserted, AList.lookup_insert] at absent
      cases absent
  | execution fact =>
    unfold summarize
    dsimp only
    split
    · rename_i after has
      refine ⟨⟨rfl, rfl, rfl, rfl⟩, _, _, (List.map_id' _).symm, rfl, ?_⟩
      refine .ofTurn rfl _ (fun p moves => moves.1) (fun _ => rfl) (fun _ => rfl) ?_
      rintro row p ⟨-, current, after', isCurrent, inserted, state, effects⟩ rfl columns
      rw [inserted, AList.lookup_insert] at has
      obtain rfl := Option.some.inj has
      rw [columns_of_current isCurrent] at columns
      rw [inserted, AList.lookup_insert]
      refine Prod.ext ((congrArg Prod.fst columns).trans state.symm) ?_
      change combineSideEffects row.sideEffects after'.sideEffects = after'.sideEffects
      have same : row.sideEffects = current.sideEffects := congrArg Prod.snd columns
      rw [effects, same]
      exact combineSideEffects_absorb current.sideEffects fact.sideEffects
    · rename_i absent
      refine ⟨⟨rfl, rfl, rfl, rfl⟩, _, _, (List.map_id' _).symm, (List.map_id' _).symm, .ofSame ?_⟩
      rintro p ⟨-, current, after', -, inserted, -⟩
      rw [inserted, AList.lookup_insert] at absent
      cases absent

/-! ## The row and the columns -/

/-- What storing a fact does to the tables but the runtimes and the turns. -/
structure Stores (t t' : Transaction) (fact : ExecutionFact) : Prop where
  facts : t'.db.facts = t.db.facts ++ [stored (t.db.factSequence + 1) fact]
  factSequence : t'.db.factSequence = t.db.factSequence + 1
  changes : t.changes < t'.changes
  observers : t'.db.observers = Table.update ObserverRow.agentId fact.envelope.agentId
    (admitPosition fact.envelope.sourceSequence.val) t.db.observers
  sources : t'.db.observerSources = t.db.observerSources

/-- Of which projections `next` is the next one. -/
def Follows (replay : Bool) (fact : ExecutionFact) (next p : ExecutionProjection) : Prop :=
  if replay then next = p else Moves p next fact

theorem recordFact_maps (t : Transaction) (turn : Option TurnRow) (replay : Bool)
    (next : ExecutionProjection) (fact : ExecutionFact) :
    Stores t (recordFact t turn replay next fact) fact ∧ ∃ onRuntime onTurn,
      (recordFact t turn replay next fact).db.runtimes = t.db.runtimes.map onRuntime ∧
      (recordFact t turn replay next fact).db.turns = t.db.turns.map onTurn ∧
      Summarizes (Follows replay fact next) turn fact next onRuntime onTurn := by
  cases replay with
  | true =>
    exact ⟨⟨rfl, rfl, Nat.lt_succ_of_le (Nat.le_succ _), rfl, rfl⟩, _, _, (List.map_id' _).symm,
      (List.map_id' _).symm, .ofSame fun p same => same⟩
  | false =>
    let before := ((insertFact t fact).updateObserver fact.envelope.agentId
      (admitPosition fact.envelope.sourceSequence.val)).db
    obtain ⟨same, onRuntime, onTurn, runtimes, turns, summarizes⟩ :=
      summarize_maps before turn next fact
    exact ⟨⟨same.facts, same.factSequence, Nat.lt_succ_of_le (Nat.le_succ_of_le (Nat.le_succ _)),
      same.observers, same.sources⟩, onRuntime, onTurn, runtimes, turns, summarizes⟩

/-! ## The invariant, with one fact more -/

/-- What is known of a fact that is about to be stored. -/
structure Ready (db : Database) (ingested : Ingested) (fact : ExecutionFact) (turn : Option TurnRow)
    (replay : Bool) (next : ExecutionProjection) (s : ReplayState) : Prop where
  known : Known db fact
  retained : ∀ identity ∈ nativeTurnOf fact, ∃ row, turn = some row ∧
    db.turn identity.turnId = some row ∧ row.runtimeGenerationId = fact.envelope.runtimeGenerationId
  replayed : replayFacts (factsOf ingested fact.envelope.runtimeGenerationId) = .ok s
  within : exceededBudget
    (budgetWith (budgetOfFacts (agentFacts ingested fact.envelope.agentId)) fact) = none
  checked : isReplay db fact = .ok replay
  reduced : nextProjection replay s.value.projection fact = .ok next

theorem Ready.follows (ready : Ready db ingested fact turn replay next s) :
    Follows replay fact next s.value.projection := by
  have reduced := ready.reduced
  cases replay with
  | true => exact (Except.ok.inj reduced).symm
  | false => exact reduceFact_moves reduced

variable (ingested)

theorem factsOf_concat_self (sequence : Nat) :
    factsOf (ingested ++ [(sequence, fact)]) fact.envelope.runtimeGenerationId =
      factsOf ingested fact.envelope.runtimeGenerationId ++ [(sequence, fact)] := by
  simp [factsOf]

theorem factsOf_concat_of_ne (sequence : Nat)
    (other : runtimeId ≠ fact.envelope.runtimeGenerationId) :
    factsOf (ingested ++ [(sequence, fact)]) runtimeId = factsOf ingested runtimeId := by
  simp [factsOf, other.symm]

theorem agentFacts_concat_self (sequence : Nat) :
    agentFacts (ingested ++ [(sequence, fact)]) fact.envelope.agentId =
      agentFacts ingested fact.envelope.agentId ++ [(sequence, fact)] := by
  simp [agentFacts]

theorem agentFacts_concat_of_ne (sequence : Nat) (other : agentId ≠ fact.envelope.agentId) :
    agentFacts (ingested ++ [(sequence, fact)]) agentId = agentFacts ingested agentId := by
  simp [agentFacts, other.symm]

/-- The agent's budget with the fact is the one that `ingest` reckons. -/
theorem budgetWith_eq (sequence : Nat) :
    budgetOfFacts (agentFacts (ingested ++ [(sequence, fact)]) fact.envelope.agentId) =
      budgetWith (budgetOfFacts (agentFacts ingested fact.envelope.agentId)) fact := by
  rw [agentFacts_concat_self, budgetOfFacts_concat, cost_eq]
  rfl

variable {ingested}

theorem Summarizes.turnKey (summarizes : Summarizes M turn fact next onRuntime onTurn)
    (row : TurnRow) : (onTurn row).turnId = row.turnId :=
  congrArg NativeTurnIdentity.turnId (summarizes.turnId row)

theorem Summarizes.extends (runtimes : db'.runtimes = db.runtimes.map onRuntime)
    (turns : db'.turns = db.turns.map onTurn)
    (summarizes : Summarizes M turn fact next onRuntime onTurn) : Extends db db' := by
  constructor
  · intro id row found
    refine ⟨onRuntime row, ?_, summarizes.runtimeAgent row⟩
    rw [Database.runtime, runtimes, Table.find_map summarizes.runtimeId]
    exact congrArg (Option.map onRuntime) found
  · intro id row found
    refine ⟨onTurn row, ?_, summarizes.turnId row, summarizes.turnRuntime row⟩
    rw [Database.turn, turns, Table.find_map summarizes.turnKey]
    exact congrArg (Option.map onTurn) found

section Taken

variable {t t' : Transaction} {replay : Bool} {s : ReplayState}
  {onRuntime : RuntimeRow → RuntimeRow} {onTurn : TurnRow → TurnRow}

theorem journal_of_stores (sound : JournalSound t.db ingested) (known : Known t.db fact)
    (stores : Stores t t' fact) (runtimes : t'.db.runtimes = t.db.runtimes.map onRuntime)
    (turns : t'.db.turns = t.db.turns.map onTurn)
    (summarizes : Summarizes M turn fact next onRuntime onTurn) :
    JournalSound t'.db (ingested ++ [(t.db.factSequence + 1, fact)]) where
  rows := by
    rw [stores.facts, sound.rows, List.map_append]
    rfl
  sequences := by
    rw [List.map_append, sound.sequences, stores.factSequence, List.range'_concat]
    simp [Nat.add_comm]
  runtimes := by
    rw [runtimes]
    exact sound.runtimes.map fun row _ => summarizes.runtimeId row
  turns := by
    rw [turns]
    exact sound.turns.map fun row _ => summarizes.turnKey row
  known e member := by
    have grows := summarizes.extends runtimes turns
    rcases List.mem_append.mp member with old | new
    · exact (sound.known e old).mono grows
    · rw [List.mem_singleton.mp new]
      exact known.mono grows

section

variable (sound : StoreSound t.db ingested)
include sound

section

variable (ready : Ready t.db ingested fact turn replay next s)
include ready

/-- The turn rows after a fact. -/
theorem turn_columns
    (summarizes : Summarizes (Follows replay fact next) turn fact next onRuntime onTurn)
    (member : row ∈ t.db.turns)
    (own : row.runtimeGenerationId = fact.envelope.runtimeGenerationId) :
    ((onTurn row).state, (onTurn row).sideEffects) = turnColumns (next.turns.lookup row.turnId) := by
  have before := sound.turns row member s (by rw [own]; exact ready.replayed)
  have follows := ready.follows
  by_cases moved : ∃ identity ∈ nativeTurnOf fact, identity.turnId = row.turnId
  · refine summarizes.ownTurn row _ follows ?_ moved before
    obtain ⟨identity, isTurn, same⟩ := moved
    obtain ⟨found, has, here, -⟩ := ready.retained identity isTurn
    rw [same] at here
    rw [has, ← here]
    exact sound.journal.turns.find member
  · push Not at moved
    rw [summarizes.otherTurn row moved, before]
    unfold Follows at follows
    split at follows
    · rw [follows]
    · rw [follows.turns moved]

/-- Another runtime's turn is not the fact's. -/
theorem other_turn (member : row ∈ t.db.turns)
    (other : row.runtimeGenerationId ≠ fact.envelope.runtimeGenerationId) :
    ∀ identity ∈ nativeTurnOf fact, identity.turnId ≠ row.turnId := by
  intro identity isTurn same
  obtain ⟨found, -, here, runtime⟩ := ready.retained identity isTurn
  rw [same] at here
  obtain rfl : row = found := Option.some.inj ((sound.journal.turns.find member).symm.trans here)
  exact other runtime

theorem replays_concat (sequence : Nat) :
    ∃ s', replayFacts (factsOf (ingested ++ [(sequence, fact)]) fact.envelope.runtimeGenerationId) =
        .ok s' ∧
      s'.value = ⟨next, s.value.unverifiedFacts, sequence⟩ := by
  obtain ⟨s', step, value⟩ := replayFact_of_taken sound.journal ready.known ready.replayed ready.within
    ready.checked ready.reduced sequence
  refine ⟨s', ?_, value⟩
  rw [factsOf_concat_self, replayFacts_concat, ready.replayed]
  exact step

theorem recordFact_sound :
    StoreSound (recordFact t turn replay next fact).db
      (ingested ++ [(t.db.factSequence + 1, fact)]) := by
  obtain ⟨stores, onRuntime, onTurn, runtimes, turns, summarizes⟩ :=
    recordFact_maps t turn replay next fact
  obtain ⟨s', replayed', value⟩ := replays_concat sound ready (t.db.factSequence + 1)
  refine ⟨journal_of_stores sound.journal ready.known stores runtimes turns summarizes, ?_, ?_, ?_, ?_⟩
  · intro runtimeId
    by_cases own : runtimeId = fact.envelope.runtimeGenerationId
    · rw [own]
      exact ⟨s', replayed'⟩
    · rw [factsOf_concat_of_ne ingested _ own]
      exact sound.replays runtimeId
  · intro agentId
    by_cases own : agentId = fact.envelope.agentId
    · rw [own, budgetWith_eq]
      exact ready.within
    · rw [agentFacts_concat_of_ne ingested _ own]
      exact sound.within agentId
  · rw [runtimes]
    intro row' member
    obtain ⟨row, here, rfl⟩ := List.mem_map.mp member
    rw [summarizes.runtimeId row]
    intro s₁ replayed
    by_cases own : row.runtimeGenerationId = fact.envelope.runtimeGenerationId
    · rw [own, replayed'] at replayed
      obtain rfl := Except.ok.inj replayed
      rw [value]
      refine summarizes.ownRuntime row _ ready.follows own ?_
      exact sound.runtimes row here s (by rw [own]; exact ready.replayed)
    · rw [factsOf_concat_of_ne ingested _ own] at replayed
      rw [summarizes.otherRuntime row own]
      exact sound.runtimes row here s₁ replayed
  · rw [turns]
    intro row' member
    obtain ⟨row, here, rfl⟩ := List.mem_map.mp member
    rw [summarizes.turnRuntime row, summarizes.turnKey row]
    intro s₁ replayed
    by_cases own : row.runtimeGenerationId = fact.envelope.runtimeGenerationId
    · rw [own, replayed'] at replayed
      obtain rfl := Except.ok.inj replayed
      rw [value]
      exact turn_columns sound ready summarizes here own
    · rw [factsOf_concat_of_ne ingested _ own] at replayed
      rw [summarizes.otherTurn row (other_turn sound ready here own)]
      exact sound.turns row here s₁ replayed

end

end

end Taken

end LetAgents.Execution.ShadowStore

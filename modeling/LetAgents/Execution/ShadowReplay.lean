import LetAgents.Execution.ShadowSystem
import LetAgents.Execution.Invariant

/-!
# Replay over the facts that were ingested

The rows of the journal are the facts that were given a row, and decode to them: so a replay is a
fold over facts. What a fact can do to a projection is said once, by its domain.
-/
namespace LetAgents.Execution.ShadowStore

open Lib Lib.Checked Protocol Reducer FactRows Invariant

abbrev Ingested : Type := List (Nat × ExecutionFact)

def factsOf (ingested : Ingested) (runtimeId : ExecutionIdentity) : Ingested :=
  ingested.filter fun e => e.2.envelope.runtimeGenerationId = runtimeId

def agentFacts (ingested : Ingested) (agentId : ExecutionIdentity) : Ingested :=
  ingested.filter fun e => e.2.envelope.agentId = agentId

def cost (e : Nat × ExecutionFact) : Nat := factBytes (stored e.1 e.2)

def budgetOfFacts (facts : Ingested) : RetainedBudget := ⟨facts.length, (facts.map cost).sum⟩

def replayFact (s : ReplayState) (e : Nat × ExecutionFact) :
    Except ExecutionProtocolError ReplayState := do
  let budget : RetainedBudget := ⟨s.budget.facts + 1, s.budget.bytes + cost e⟩
  require (exceededBudget budget = none) .retentionLimit
  ReplayState.verified { s with value := { s.value with lastJournalSequence := e.1 }, budget } e.2

def replayFacts (facts : Ingested) : Except ExecutionProtocolError ReplayState :=
  facts.foldlM replayFact .initial

/-! ## The journal holds what was ingested -/

/-- The runtime of a fact, and its turn, are there. -/
def Known (db : Database) (fact : ExecutionFact) : Prop :=
  (∃ runtime, db.runtime fact.envelope.runtimeGenerationId = some runtime ∧
    runtime.agentId = fact.envelope.agentId) ∧
  ∀ identity ∈ nativeTurnOf fact, ∃ row, db.turn identity.turnId = some row ∧
    row.toNativeTurnIdentity = identity ∧
    row.runtimeGenerationId = fact.envelope.runtimeGenerationId

structure JournalSound (db : Database) (ingested : Ingested) : Prop where
  rows : db.facts = ingested.map fun e => stored e.1 e.2
  sequences : ingested.map Prod.fst = List.range' 1 db.factSequence
  runtimes : Table.Keyed RuntimeRow.runtimeGenerationId db.runtimes
  turns : Table.Keyed (fun row : TurnRow => row.turnId) db.turns
  known : ∀ e ∈ ingested, Known db e.2

section Stored

variable (sequence : Nat) (fact : ExecutionFact)

theorem stored_ids : (stored sequence fact).factId = fact.envelope.factId.val ∧
    (stored sequence fact).agentId = fact.envelope.agentId.val ∧
    (stored sequence fact).runtimeGenerationId = fact.envelope.runtimeGenerationId.val ∧
    (stored sequence fact).observerEpoch = fact.envelope.observerEpoch.val ∧
    (stored sequence fact).sourceSequence = fact.envelope.sourceSequence.val ∧
    (stored sequence fact).nativeEventId = fact.envelope.nativeEventId.map (·.val) ∧
    (stored sequence fact).sequence = sequence := by
  cases fact with
  | execution fact =>
    obtain ⟨e, turn, executionId, operation, effects, event, refined⟩ := fact
    cases event <;> exact ⟨rfl, rfl, rfl, rfl, rfl, rfl, rfl⟩
  | _ => exact ⟨rfl, rfl, rfl, rfl, rfl, rfl, rfl⟩

theorem stored_turnId :
    (stored sequence fact).turnId = (nativeTurnOf fact).map fun identity => identity.turnId.val := by
  cases fact with
  | execution fact =>
    obtain ⟨e, turn, executionId, operation, effects, event, refined⟩ := fact
    cases event <;> rfl
  | _ => rfl

/-- Only the sequence depends on the place in the journal. -/
theorem stored_eq : stored sequence fact = { stored 0 fact with sequence } := by
  cases fact with
  | execution fact =>
    obtain ⟨e, turn, executionId, operation, effects, event, refined⟩ := fact
    cases event <;> rfl
  | _ => rfl

theorem cost_eq : cost (sequence, fact) = factBytes (stored 0 fact) := by
  unfold cost
  rw [stored_eq, factBytes_sequence]

/-- The schema refuses what a migration left unverified. -/
theorem verified_stored : unverifiedHistoricalFact (stored sequence fact) = false := by
  cases fact with
  | runtime e state evidence refined | control e state evidence refined =>
    cases state <;> cases evidence <;> first | rfl | simp at refined
  | continuation e state => cases state <;> rfl
  | turn e turn state outcome refined =>
    cases state <;> cases outcome <;> first | rfl | simp at refined
  | execution fact =>
    obtain ⟨e, turn, executionId, operation, effects, event, refined⟩ := fact
    cases event <;> rfl

end Stored

variable {db : Database} {ingested : Ingested}

variable {fact : ExecutionFact} {e : Nat × ExecutionFact} {p next : ExecutionProjection}
  {s : ReplayState}

theorem providerIds_of_known (known : Known db fact) (sequence : Nat) :
    db.providerIds (stored sequence fact) = (nativeTurnOf fact).map ProviderIds.of := by
  unfold Database.providerIds
  rw [stored_turnId]
  cases own : nativeTurnOf fact with
  | none => rfl
  | some identity =>
    obtain ⟨row, found, same, -⟩ := known.2 identity own
    have text : (db.turns.find? fun turn => turn.turnId.val = identity.turnId.val) = some row := by
      rw [← found, Database.turn, Table.find]
      exact congrArg (List.find? · db.turns) (funext fun turn => by simp [Subtype.ext_iff])
    rw [Option.map_some, Option.bind_some, text, Option.map_some, same]
    rfl

/-- A row that was stored decodes to its fact. -/
theorem decode_of_known (known : Known db fact) (sequence : Nat) :
    db.decode (stored sequence fact) = .ok fact := by
  rw [Database.decode, providerIds_of_known known, decodeFact_stored]

theorem replayRow_stored (known : Known db e.2) (s : ReplayState) :
    replayRow db s (stored e.1 e.2) = replayFact s e := by
  unfold replayRow replayFact
  dsimp only
  rw [verified_stored, if_neg Bool.false_ne_true, decode_of_known known,
    (stored_ids e.1 e.2).2.2.2.2.2.2]
  rfl

theorem foldlM_map_congr {facts : Ingested} (known : ∀ e ∈ facts, Known db e.2) (s : ReplayState) :
    (facts.map fun e => stored e.1 e.2).foldlM (replayRow db) s = facts.foldlM replayFact s := by
  induction facts generalizing s with
  | nil => rfl
  | cons e rest ih =>
    rw [List.map_cons, List.foldlM_cons, List.foldlM_cons,
      replayRow_stored (known e List.mem_cons_self)]
    exact congrArg (replayFact s e >>= ·)
      (funext fun s => ih (fun e member => known e (.tail _ member)) s)

section

variable (sound : JournalSound db ingested)
include sound

theorem runtimeRows_eq (runtimeId : ExecutionIdentity) :
    runtimeRows db runtimeId = (factsOf ingested runtimeId).map fun e => stored e.1 e.2 := by
  unfold runtimeRows factsOf
  rw [sound.rows, List.filter_map]
  congr 1
  refine List.filter_congr fun e _ => ?_
  simp [(stored_ids e.1 e.2).2.2.1, Subtype.ext_iff]

theorem agentRows_eq (agentId : ExecutionIdentity) :
    agentRows db agentId = (agentFacts ingested agentId).map fun e => stored e.1 e.2 := by
  unfold agentRows agentFacts
  rw [sound.rows, List.filter_map]
  congr 1
  refine List.filter_congr fun e _ => ?_
  simp [(stored_ids e.1 e.2).2.1, Subtype.ext_iff]

theorem replayRows_eq (runtimeId : ExecutionIdentity) :
    replayRows db runtimeId =
      replayFacts ((factsOf ingested runtimeId).take (MAX_RETAINED_FACTS_PER_AGENT + 1)) := by
  unfold replayRows
  rw [runtimeRows_eq sound, ← List.map_take]
  refine foldlM_map_congr (fun e member => sound.known e ?_) _
  exact List.mem_of_mem_filter (List.mem_of_mem_take member)

theorem aggregates_eq (agentId : ExecutionIdentity) :
    aggregates db agentId =
      budgetOfFacts ((agentFacts ingested agentId).take (MAX_RETAINED_FACTS_PER_AGENT + 1)) := by
  unfold aggregates budgetOfFacts
  dsimp only
  rw [agentRows_eq sound, ← List.map_take, List.length_map, List.map_map]
  congr 2
  exact List.map_congr_left fun e _ => factByteCost_eq _

end

/-! ## What a fact does to a projection -/

/-- What a fact of each domain leaves as it was, and what it sets. -/
def Moves (p next : ExecutionProjection) : ExecutionFact → Prop
  | .runtime .. => next.control = p.control ∧ next.continuation = p.continuation ∧ next.turns = p.turns
  | .control .. => next.runtime = p.runtime ∧ next.continuation = p.continuation ∧ next.turns = p.turns
  | .continuation .. => next.runtime = p.runtime ∧ next.control = p.control ∧ next.turns = p.turns
  | .turn _ identity _ _ _ =>
    (next.runtime = p.runtime ∧ next.control = p.control ∧ next.continuation = p.continuation) ∧
      ∃ turn after, currentTurn p identity = .ok turn ∧
        next.turns = p.turns.insert identity.turnId after ∧ after.sideEffects = turn.sideEffects
  | .execution fact =>
    (next.runtime = p.runtime ∧ next.control = p.control ∧ next.continuation = p.continuation) ∧
      ∃ turn after, currentTurn p fact.nativeTurn = .ok turn ∧
        next.turns = p.turns.insert fact.nativeTurn.turnId after ∧ after.state = turn.state ∧
        after.sideEffects = combineSideEffects turn.sideEffects fact.sideEffects

theorem reduceDomain_moves (ok : reduceDomain p fact = .ok next) : Moves p next fact := by
  cases fact with
  | runtime e state evidence refined =>
    obtain ⟨runtime, -, written⟩ := bind_ok ok
    cases written
    exact ⟨rfl, rfl, rfl⟩
  | control e state evidence refined =>
    obtain ⟨rfl, -⟩ := reduceControl_ok ok
    exact ⟨rfl, rfl, rfl⟩
  | continuation e state =>
    obtain ⟨continuation, -, written⟩ := bind_ok ok
    cases written
    exact ⟨rfl, rfl, rfl⟩
  | turn e identity state outcome refined =>
    obtain ⟨turn, current, ok⟩ := bind_ok ok
    obtain ⟨after, reduced, written⟩ := bind_ok ok
    cases written
    obtain ⟨rfl, -⟩ := reduceTurn_ok reduced
    exact ⟨⟨rfl, rfl, rfl⟩, turn, _, current, rfl, rfl⟩
  | execution fact =>
    obtain ⟨turn, current, ok⟩ := bind_ok ok
    obtain ⟨after, reduced, written⟩ := bind_ok ok
    cases written
    obtain ⟨operation, -, rfl⟩ := reduceTurnOperation_ok reduced
    exact ⟨⟨rfl, rfl, rfl⟩, turn, _, current, rfl, rfl, rfl⟩

theorem reduceFact_moves (ok : reduceFact p fact = .ok next) : Moves p next fact := by
  unfold reduceFact at ok
  dsimp only at ok
  split at ok
  · cases ok
  · split at ok
    · have moves := reduceDomain_moves ok
      cases fact <;> exact moves
    · exact reduceDomain_moves ok

/-- A fact moves no turn but its own. -/
theorem Moves.turns (moves : Moves p next fact) {id : ExecutionIdentity}
    (other : ∀ identity ∈ nativeTurnOf fact, identity.turnId ≠ id) :
    next.turns.lookup id = p.turns.lookup id := by
  cases fact with
  | runtime e state evidence refined | control e state evidence refined
  | continuation e state => rw [moves.2.2]
  | turn e identity state outcome refined =>
    obtain ⟨-, turn, after, -, inserted, -⟩ := moves
    rw [inserted]
    exact AList.lookup_insert_ne (other identity rfl).symm
  | execution fact =>
    obtain ⟨-, turn, after, -, inserted, -⟩ := moves
    rw [inserted]
    exact AList.lookup_insert_ne (other fact.nativeTurn rfl).symm

/-! ## What a replay knows -/

/-- What the state of a replay says about the facts that were replayed. -/
structure Replays (facts : Ingested) (s : ReplayState) : Prop where
  budget : s.budget = budgetOfFacts facts
  seen : ∀ e ∈ facts, ∀ key ∈ nativeEventKey e.2, s.nativeEvents.lookup key = some (semanticFact e.2)
  events : ∀ key semantic, s.nativeEvents.lookup key = some semantic →
    ∃ e ∈ facts, nativeEventKey e.2 = some key
  turns : ∀ id turn, s.value.projection.turns.lookup id = some turn →
    ∃ e ∈ facts, ∃ identity ∈ nativeTurnOf e.2, identity.turnId = id

/-- A verified fact is known evidence, or it is reduced. -/
theorem verified_cases {next : ReplayState} (ok : s.verified fact = .ok next) :
    (∃ key ∈ nativeEventKey fact, s.nativeEvents.lookup key = some (semanticFact fact) ∧ next = s) ∨
      ∃ projection, reduceFact s.value.projection fact = .ok projection ∧
        ((nativeEventKey fact = none ∧ next = { s with value := { s.value with projection } }) ∨
          ∃ key, nativeEventKey fact = some key ∧ s.nativeEvents.lookup key = none ∧
            next = { s with
              value := { s.value with projection }
              nativeEvents := (key, semanticFact fact) :: s.nativeEvents }) := by
  unfold ReplayState.verified at ok
  split at ok
  · rename_i none_
    obtain ⟨projection, reduced, written⟩ := bind_ok ok
    cases written
    exact .inr ⟨projection, reduced, .inl ⟨none_, rfl⟩⟩
  · rename_i key own
    split at ok
    · rename_i previous known
      split at ok
      · rename_i same
        cases ok
        exact .inl ⟨key, own, same ▸ known, rfl⟩
      · cases ok
    · rename_i unknown
      obtain ⟨projection, reduced, written⟩ := bind_ok ok
      cases written
      exact .inr ⟨projection, reduced, .inr ⟨key, own, unknown, rfl⟩⟩

theorem replayFact_ok {next : ReplayState} (ok : replayFact s e = .ok next) :
    exceededBudget ⟨s.budget.facts + 1, s.budget.bytes + cost e⟩ = none ∧
      ReplayState.verified { s with
        value := { s.value with lastJournalSequence := e.1 }
        budget := ⟨s.budget.facts + 1, s.budget.bytes + cost e⟩ } e.2 = .ok next := by
  obtain ⟨within, rest⟩ := require_bind_ok ok
  exact ⟨within, rest⟩

theorem budgetOfFacts_concat (facts : Ingested) (e : Nat × ExecutionFact) :
    budgetOfFacts (facts ++ [e]) =
      ⟨(budgetOfFacts facts).facts + 1, (budgetOfFacts facts).bytes + cost e⟩ := by
  simp [budgetOfFacts]

theorem Replays.step {next : ReplayState} (replays : Replays facts s)
    (ok : replayFact s e = .ok next) : Replays (facts ++ [e]) next := by
  obtain ⟨-, verified⟩ := replayFact_ok ok
  have counted : (⟨s.budget.facts + 1, s.budget.bytes + cost e⟩ : RetainedBudget) =
      budgetOfFacts (facts ++ [e]) := by rw [budgetOfFacts_concat, replays.budget]
  have kept : ∀ {a : Nat × ExecutionFact}, a ∈ facts → a ∈ facts ++ [e] := List.mem_append_left _
  have here : e ∈ facts ++ [e] := List.mem_append_right _ List.mem_cons_self
  rcases verified_cases verified with ⟨key, own, known, rfl⟩ | ⟨projection, reduced, cases_⟩
  · refine ⟨counted, ?_, ?_, ?_⟩
    · intro a member key' has
      rcases List.mem_append.mp member with old | new
      · exact replays.seen a old key' has
      · obtain rfl := List.mem_singleton.mp new
        obtain rfl : key = key' := Option.some.inj (own.symm.trans has)
        exact known
    · intro key' semantic has
      obtain ⟨a, member, own'⟩ := replays.events key' semantic has
      exact ⟨a, kept member, own'⟩
    · intro id turn has
      obtain ⟨a, member, own'⟩ := replays.turns id turn has
      exact ⟨a, kept member, own'⟩
  · have turns : ∀ id turn, projection.turns.lookup id = some turn →
        ∃ a ∈ facts ++ [e], ∃ identity ∈ nativeTurnOf a.2, identity.turnId = id := by
      intro id turn has
      by_cases own : ∃ identity ∈ nativeTurnOf e.2, identity.turnId = id
      · exact ⟨e, here, own⟩
      · push Not at own
        rw [(reduceFact_moves reduced).turns own] at has
        obtain ⟨a, member, same⟩ := replays.turns id turn has
        exact ⟨a, kept member, same⟩
    rcases cases_ with ⟨none_, rfl⟩ | ⟨key, own, unknown, rfl⟩
    · refine ⟨counted, ?_, ?_, turns⟩
      · intro a member key' has
        rcases List.mem_append.mp member with old | new
        · exact replays.seen a old key' has
        · rw [List.mem_singleton.mp new, none_] at has
          cases has
      · intro key' semantic has
        obtain ⟨a, member, own'⟩ := replays.events key' semantic has
        exact ⟨a, kept member, own'⟩
    · refine ⟨counted, ?_, ?_, turns⟩
      · intro a member key' has
        rcases List.mem_append.mp member with old | new
        · have before := replays.seen a old key' has
          have other : (key' == key) = false := by
            rw [beq_eq_false_iff_ne]
            rintro rfl
            rw [unknown] at before
            cases before
          rw [List.lookup_cons, other]
          exact before
        · obtain rfl := List.mem_singleton.mp new
          obtain rfl : key = key' := Option.some.inj (own.symm.trans has)
          rw [List.lookup_cons, beq_self_eq_true]
      · intro key' semantic has
        by_cases same : key' = key
        · exact ⟨e, here, same ▸ own⟩
        · rw [List.lookup_cons, beq_eq_false_iff_ne.mpr same] at has
          obtain ⟨a, member, own'⟩ := replays.events key' semantic has
          exact ⟨a, kept member, own'⟩

theorem replays_initial : Replays [] .initial := by
  refine ⟨rfl, fun _ member => absurd member List.not_mem_nil, ?_, ?_⟩
  · rintro _ _ ⟨⟩
  · rintro _ _ ⟨⟩

theorem replayFacts_concat (facts : Ingested) (e : Nat × ExecutionFact) :
    replayFacts (facts ++ [e]) = replayFacts facts >>= fun s => replayFact s e := by
  unfold replayFacts
  rw [List.foldlM_append]
  exact congrArg (_ >>= ·) (funext fun s => by
    exact bind_pure _)

theorem replays_of_ok (facts : Ingested) :
    ∀ s, replayFacts facts = .ok s → Replays facts s := by
  induction facts using List.reverseRecOn with
  | nil =>
    intro s ok
    cases ok
    exact replays_initial
  | append_singleton facts e ih =>
    intro s ok
    rw [replayFacts_concat] at ok
    obtain ⟨middle, replayed, last⟩ := bind_ok ok
    exact (ih middle replayed).step last

end LetAgents.Execution.ShadowStore

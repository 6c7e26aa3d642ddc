import LetAgents.Execution.ShadowStore
import LetAgents.Lib.OrderedMap

/-!
# The execution journal: ingestion, replay and caches

Source: apps/desktop/daemon/execution-shadow-store.ts:38-50, 81-120, 207-307, 474-632, 802-866. What
`ingest` needs to know of the journal, an agent's retained budget and a runtime's projection, it takes
from caches that are dropped when the database may have changed.
-/
namespace LetAgents.Execution.ShadowStore

open Lib Lib.Checked Protocol Reducer FactRows

def MAX_CACHED_RUNTIMES : Nat := 16

def MAX_CACHED_ENTRIES : Nat := 4096

def MAX_CACHED_AGENT_BUDGETS : Nat := 16

def MAX_RETAINED_FACTS_PER_AGENT : Nat := 10000

def MAX_RETAINED_BYTES_PER_AGENT : Nat := 50 * 1024 * 1024

structure RetainedBudget where
  facts : Nat
  bytes : Nat

inductive RetentionLimit where
  | facts
  | bytes

def exceededBudget (budget : RetainedBudget) : Option RetentionLimit :=
  if MAX_RETAINED_FACTS_PER_AGENT < budget.facts then some .facts
  else if MAX_RETAINED_BYTES_PER_AGENT < budget.bytes then some .bytes
  else none

structure RuntimeProjection where
  projection : ExecutionProjection
  unverifiedFacts : Nat
  lastJournalSequence : Nat

/-! ## Facts -/

/-- `reduceExecutionFact`, for a value that is a fact already. -/
def reduceFact (previous : ExecutionProjection) (fact : ExecutionFact) :
    Except ExecutionProtocolError ExecutionProjection :=
  let epoch := fact.envelope.observerEpoch.val
  if epoch < previous.observerEpoch then .error .staleObserver
  else if previous.observerEpoch < epoch then
    reduceDomain { previous with observerEpoch := epoch } fact
  else reduceDomain previous fact

structure NativeEventKey where
  agentId : String
  runtimeGenerationId : String
  turnId : Option String
  executionId : Option String
  domain : String
  kind : String
  nativeEventId : String
  deriving DecidableEq

/-- The key of a fact, from its columns. -/
def nativeEventKey (fact : ExecutionFact) : Option NativeEventKey :=
  let row := stored 0 fact
  row.nativeEventId.map fun nativeEventId =>
    { agentId := row.agentId, runtimeGenerationId := row.runtimeGenerationId, turnId := row.turnId,
      executionId := row.executionId, domain := row.domain, kind := row.kind, nativeEventId }

def ExecutionFact.withEnvelope (fact : ExecutionFact) (envelope : Envelope) : ExecutionFact :=
  match fact with
  | .runtime _ state controlEvidence refined => .runtime envelope state controlEvidence refined
  | .control _ state controlEvidence refined => .control envelope state controlEvidence refined
  | .continuation _ state => .continuation envelope state
  | .turn _ nativeTurn state turnOutcome refined => .turn envelope nativeTurn state turnOutcome refined
  | .execution fact => .execution { fact with envelope }

/-- The fact without its id, epoch, sequence and time. -/
def semanticFact (fact : ExecutionFact) : ExecutionFact :=
  ExecutionFact.withEnvelope fact { fact.envelope with
    factId := ⟨"0", by decide⟩
    observerEpoch := ⟨1, by decide⟩
    sourceSequence := ⟨1, by decide⟩
    observedAtMs := ⟨0, by decide⟩ }

def unverifiedHistoricalFact (row : FactRow) : Bool :=
  (row.domain = "turn" ∧ row.state = some "terminal" ∧ row.turnOutcome = none) ∨
    ((row.domain = "runtime" ∧ row.state = some "exited" ∨
      row.domain = "control" ∧ row.state = some "lost") ∧ row.controlEvidence = none)

/-! ## Replay -/

structure ReplayState where
  value : RuntimeProjection
  budget : RetainedBudget
  nativeEvents : List (NativeEventKey × ExecutionFact)

def ReplayState.initial : ReplayState := ⟨⟨emptyExecutionProjection, 0, 0⟩, ⟨0, 0⟩, []⟩

def ReplayState.reduce (s : ReplayState) (fact : ExecutionFact) :
    Except ExecutionProtocolError ReplayState := do
  let projection ← reduceFact s.value.projection fact
  .ok { s with value := { s.value with projection } }

/-- A fact that is verified: evidence of an event that is known is not reduced again. -/
def ReplayState.verified (s : ReplayState) (fact : ExecutionFact) :
    Except ExecutionProtocolError ReplayState :=
  match nativeEventKey fact with
  | none => s.reduce fact
  | some key =>
    match s.nativeEvents.lookup key with
    | some previous =>
      if previous = semanticFact fact then .ok s else .error .sequenceConflict
    | none =>
      ReplayState.reduce { s with nativeEvents := (key, semanticFact fact) :: s.nativeEvents } fact

def replayRow (db : Database) (s : ReplayState) (row : FactRow) :
    Except ExecutionProtocolError ReplayState := do
  let budget : RetainedBudget := ⟨s.budget.facts + 1, s.budget.bytes + factBytes row⟩
  require (exceededBudget budget = none) .retentionLimit
  let s : ReplayState :=
    { s with value := { s.value with lastJournalSequence := row.sequence }, budget }
  if unverifiedHistoricalFact row then
    .ok { s with value := { s.value with unverifiedFacts := s.value.unverifiedFacts + 1 } }
  else do
    let fact ← db.decode row
    s.verified fact

def runtimeRows (db : Database) (runtimeGenerationId : ExecutionIdentity) : List FactRow :=
  db.facts.filter fun row => row.runtimeGenerationId = runtimeGenerationId.val

def replayRows (db : Database) (runtimeGenerationId : ExecutionIdentity) :
    Except ExecutionProtocolError ReplayState :=
  ((runtimeRows db runtimeGenerationId).take (MAX_RETAINED_FACTS_PER_AGENT + 1)).foldlM
    (replayRow db) .initial

def agentRows (db : Database) (agentId : ExecutionIdentity) : List FactRow :=
  db.facts.filter fun row => row.agentId = agentId.val

/-- The aggregates of the database over an agent's rows. -/
def aggregates (db : Database) (agentId : ExecutionIdentity) : RetainedBudget :=
  let rows := (agentRows db agentId).take (MAX_RETAINED_FACTS_PER_AGENT + 1)
  ⟨rows.length, (rows.map factByteCost).sum⟩

/-- What no cache has part in: a runtime's retained facts, reduced from scratch. -/
def replayFromScratch (db : Database) (runtimeGenerationId : ExecutionIdentity) :
    Except ExecutionProtocolError RuntimeProjection := do
  require (∀ runtime ∈ db.runtime runtimeGenerationId,
    exceededBudget (aggregates db runtime.agentId) = none) .retentionLimit
  let s ← replayRows db runtimeGenerationId
  .ok s.value

/-! ## Caches -/

/-- `total_changes()` of a connection, and the `data_version` that it sees. -/
structure Stamp where
  changes : Nat
  version : Nat
  deriving DecidableEq

structure CachedProjection where
  value : RuntimeProjection
  weight : Nat

structure Store where
  observers : List ShadowObserver
  projections : OrderedMap ExecutionIdentity CachedProjection
  budgets : OrderedMap ExecutionIdentity RetainedBudget
  projectionWeight : Nat
  projectionStamp : Option Stamp

namespace Store

def initial : Store := ⟨[], .empty, .empty, 0, none⟩

def clearProjections (s : Store) : Store :=
  { s with projections := .empty, budgets := .empty, projectionWeight := 0, projectionStamp := none }

def synchronizeCaches (s : Store) (stamp : Stamp) : Store :=
  if s.projectionStamp = some stamp then s
  else { s.clearProjections with projectionStamp := some stamp }

/-- The oldest entry of a map goes. -/
def dropOldest {α : Type} (m : OrderedMap ExecutionIdentity α) : OrderedMap ExecutionIdentity α :=
  match m.entries with
  | [] => m
  | (oldest, _) :: _ => m.delete oldest

def rememberBudget (s : Store) (agentId : ExecutionIdentity) (budget : RetainedBudget) : Store :=
  let budgets := s.budgets.delete agentId
  let budgets := if MAX_CACHED_AGENT_BUDGETS ≤ budgets.size then dropOldest budgets else budgets
  { s with budgets := budgets.setLast agentId budget }

def retainedBudget (s : Store) (stamp : Stamp) (db : Database) (agentId : ExecutionIdentity) :
    Store × RetainedBudget :=
  let s := s.synchronizeCaches stamp
  let budget := (s.budgets.get agentId).getD (aggregates db agentId)
  (s.rememberBudget agentId budget, budget)

def projectionWeightOf (value : RuntimeProjection) : Nat :=
  1 + value.projection.turns.entries.length * 4 +
    (value.projection.turns.entries.map fun turn => turn.2.operations.entries.length).sum

/-- The `while` loop; there is a map entry for each of its turns. -/
def evict (weight : Nat) : Nat → Store → Store
  | 0, s => s
  | turns + 1, s =>
    if MAX_CACHED_RUNTIMES ≤ s.projections.size ∨
        MAX_CACHED_ENTRIES < s.projectionWeight + weight then
      match s.projections.entries with
      | [] => s
      | (oldest, cached) :: _ =>
        evict weight turns { s with
          projectionWeight := s.projectionWeight - cached.weight
          projections := s.projections.delete oldest }
    else s

def forgetProjection (s : Store) (runtimeId : ExecutionIdentity) : Store :=
  match s.projections.get runtimeId with
  | some old =>
    { s with
      projectionWeight := s.projectionWeight - old.weight
      projections := s.projections.delete runtimeId }
  | none => s

def rememberProjection (s : Store) (runtimeId : ExecutionIdentity) (value : RuntimeProjection) :
    Store :=
  let s := s.forgetProjection runtimeId
  let weight := projectionWeightOf value
  if MAX_CACHED_ENTRIES < weight then s
  else
    let s := evict weight s.projections.size s
    { s with
      projections := s.projections.setLast runtimeId ⟨value, weight⟩
      projectionWeight := s.projectionWeight + weight }

/-- An agent whose budget is exceeded is not replayed. -/
def checkRetention (s : Store) (stamp : Stamp) (db : Database) (runtimeId : ExecutionIdentity) :
    Except ExecutionProtocolError Store :=
  match db.runtime runtimeId with
  | none => .ok s
  | some runtime =>
    let budget := s.retainedBudget stamp db runtime.agentId
    if exceededBudget budget.2 = none then .ok budget.1 else .error .retentionLimit

def replayRuntime (s : Store) (stamp : Stamp) (db : Database) (runtimeId : ExecutionIdentity) :
    Except ExecutionProtocolError (Store × RuntimeProjection) := do
  let s ← s.checkRetention stamp db runtimeId
  let replayed ← replayRows db runtimeId
  .ok (s, replayed.value)

def cachedProjection (s : Store) (stamp : Stamp) (db : Database) (runtimeId : ExecutionIdentity) :
    Except ExecutionProtocolError (Store × RuntimeProjection) := do
  let s ← (s.synchronizeCaches stamp).checkRetention stamp db runtimeId
  match s.projections.get runtimeId with
  | some cached =>
    .ok ({ s with projections := s.projections.setLast runtimeId cached }, cached.value)
  | none => do
    let replayed ← s.replayRuntime stamp db runtimeId
    .ok (replayed.1.rememberProjection runtimeId replayed.2, replayed.2)

end Store

/-! ## Ingestion -/

inductive ShadowIngestion where
  | accepted (journalSequence : Nat) (gapPending : Bool)
  | duplicate (journalSequence : Nat) (gapPending : Bool)
  | gap (expectedSourceSequence observedSourceSequence : Nat)
  | retentionLimit (limit : RetentionLimit) (expectedSourceSequence observedSourceSequence : Nat)

/-- The identity fences: the turn that a turn's fact is about, as it is retained. -/
def retainedTurn (db : Database) (token : ShadowObserver) (fact : ExecutionFact) :
    Except ExecutionProtocolError (Option TurnRow) :=
  match nativeTurnOf fact with
  | some identity => do
    require (fact.envelope.runtimeGenerationId = token.runtimeGenerationId ∧
      fact.envelope.executionGenerationId = token.executionGenerationId ∧
      (token.recoveryTurnId = none ∨ token.recoveryTurnId = some identity.turnId)) .identityMismatch
    let turn ← found ((db.turn identity.turnId).filter fun row =>
      row.agentId = fact.envelope.agentId ∧
        row.executionGenerationId = fact.envelope.executionGenerationId ∧
        row.runtimeGenerationId = fact.envelope.runtimeGenerationId ∧
        row.toNativeTurnIdentity = identity) .identityMismatch
    let _ ← found (db.runtime fact.envelope.runtimeGenerationId) .identityMismatch
    .ok (some turn)
  | none => do
    require (fact.envelope.runtimeGenerationId = token.observerRuntimeGenerationId ∧
      fact.envelope.executionGenerationId = token.observerExecutionGenerationId) .identityMismatch
    .ok none

def findDuplicate (db : Database) (fact : ExecutionFact) : Option FactRow :=
  db.facts.find? fun row =>
    row.factId = fact.envelope.factId.val ∨
      (row.agentId = fact.envelope.agentId.val ∧
        row.observerEpoch = fact.envelope.observerEpoch.val ∧
        row.sourceSequence = fact.envelope.sourceSequence.val)

/-- The evidence of the same native event that is retained. -/
def observations (db : Database) (fact : ExecutionFact) (nativeEventId : ExecutionIdentity) :
    List FactRow :=
  let own := stored 0 fact
  db.facts.filter fun row =>
    row.runtimeGenerationId = own.runtimeGenerationId ∧
      row.nativeEventId = some nativeEventId.val ∧ row.domain = own.domain ∧ row.kind = own.kind ∧
      row.turnId = own.turnId ∧ row.executionId = own.executionId

/-- Whether the fact observes an event again. -/
def isReplay (db : Database) (fact : ExecutionFact) : Except ExecutionProtocolError Bool :=
  match fact.envelope.nativeEventId with
  | none => .ok false
  | some nativeEventId =>
    (observations db fact nativeEventId).foldlM (fun replay row =>
      if unverifiedHistoricalFact row then .ok replay
      else do
        let seen ← db.decode row
        require (semanticFact seen = semanticFact fact) .sequenceConflict
        .ok true) false

/-- The lifecycle fences, for a fact that is no replay. -/
def checkLifecycle (db : Database) (token : ShadowObserver) (turn : Option TurnRow)
    (fact : ExecutionFact) : Except ExecutionProtocolError Unit :=
  match fact with
  | .turn _ identity state _ _ => do
    require (turn.any (fun row => row.state = .lost) = true → state = .active →
      token.recoveryTurnId = some identity.turnId) .identityMismatch
    require (turn.any (fun row => row.state = .terminal) = true → state = .terminal)
      .invalidTransition
  | .execution fact =>
    require (turn.any (fun row => row.state = .terminal ∨ row.state = .lost) = true →
      OperationEvent.isCompleted fact.event = true) .invalidTransition
  | .runtime envelope state _ _ =>
    if state = .exited then .ok ()
    else do
      let runtime ← found (db.runtime envelope.runtimeGenerationId) .identityMismatch
      require (runtime.runtimeState ≠ .exited) .invalidTransition
  | _ => .ok ()

/-- The columns that a new fact moves. -/
def updateRuntime (db : Database) (id : ExecutionIdentity) (change : RuntimeRow → RuntimeRow) :
    Database :=
  { db with runtimes := Table.update RuntimeRow.runtimeGenerationId id change db.runtimes }

def updateTurn (db : Database) (id : ExecutionIdentity) (change : TurnRow → TurnRow) : Database :=
  { db with turns := Table.update (fun row => row.turnId) id change db.turns }

def endRuntime (state : RuntimeState) (observedAtMs : Nat) (row : RuntimeRow) : RuntimeRow :=
  { row with
    runtimeState := state
    endedAtMs :=
      if state = .exited then some (row.endedAtMs.getD (max row.createdAtMs observedAtMs)) else none }

def endTurn (state : TurnState) (sideEffects : SideEffectState) (observedAtMs : Nat) (row : TurnRow) :
    TurnRow :=
  { row with
    state := state
    sideEffects := sideEffects
    endedAtMs :=
      if state = .terminal ∨ state = .lost then
        some (row.endedAtMs.getD (max row.createdAtMs observedAtMs))
      else none }

/-- `combineSideEffects(retainedTurn.side_effects, turn.sideEffects)`. -/
def turnSideEffects (turn : Option TurnRow) (next : TurnProjection) : SideEffectState :=
  combineSideEffects (turn.elim .none TurnRow.sideEffects) next.sideEffects

def summarize (db : Database) (turn : Option TurnRow) (next : ExecutionProjection)
    (fact : ExecutionFact) : Database :=
  match fact with
  | .runtime envelope _ _ _ =>
    updateRuntime db envelope.runtimeGenerationId (endRuntime next.runtime envelope.observedAtMs.val)
  | .control envelope _ _ _ =>
    updateRuntime db envelope.runtimeGenerationId fun row =>
      { row with controlState := next.control }
  | .continuation envelope _ =>
    updateRuntime db envelope.runtimeGenerationId fun row =>
      { row with continuationState := next.continuation }
  | .turn envelope identity _ _ _ =>
    match next.turns.lookup identity.turnId with
    | some after =>
      updateTurn db identity.turnId
        (endTurn after.state (turnSideEffects turn after) envelope.observedAtMs.val)
    | none => db
  | .execution fact =>
    match next.turns.lookup fact.nativeTurn.turnId with
    | some after =>
      updateTurn db fact.nativeTurn.turnId fun row =>
        { row with sideEffects := turnSideEffects turn after }
    | none => db

/-- The insert of a fact's row. -/
def insertFact (t : Transaction) (fact : ExecutionFact) : Transaction :=
  t.write { t.db with
    facts := t.db.facts ++ [stored (t.db.factSequence + 1) fact]
    factSequence := t.db.factSequence + 1 }

def admitPosition (sequence : Nat) (row : ObserverRow) : ObserverRow :=
  { row with
    lastSourceSequence := sequence
    maxObservedSequence := max row.maxObservedSequence sequence }

/-- The writes of an accepted fact. -/
def recordFact (t : Transaction) (turn : Option TurnRow) (replay : Bool) (next : ExecutionProjection)
    (fact : ExecutionFact) : Transaction :=
  let t := insertFact t fact
  let t := t.updateObserver fact.envelope.agentId (admitPosition fact.envelope.sourceSequence.val)
  if replay then t else t.write (summarize t.db turn next fact)

/-- What an ingestion leaves for the caches. -/
structure Committed where
  value : RuntimeProjection
  budget : RetainedBudget

/-- An exact duplicate, or a fact at a position of its own. -/
inductive Admission where
  | duplicate (journalSequence : Nat) (gapPending : Bool)
  | fresh (current : ObserverRow) (turn : Option TurnRow)

def admitFact (db : Database) (tokens : List ShadowObserver) (sourceId : ExecutionIdentity)
    (token : ShadowObserver) (fact : ExecutionFact) : Except ExecutionProtocolError Admission := do
  let current ← currentObserver db tokens sourceId token
  require (fact.envelope.observerEpoch.val = token.epoch) .staleObserver
  require (fact.envelope.agentId = token.agentId) .identityMismatch
  let turn ← retainedTurn db token fact
  match findDuplicate db fact with
  | some row => do
    let known ← db.decode row
    require (known = fact) .sequenceConflict
    .ok (.duplicate row.sequence (current.lastSourceSequence < current.maxObservedSequence))
  | none => do
    require (current.lastSourceSequence + 1 ≤ fact.envelope.sourceSequence.val) .sequenceConflict
    .ok (.fresh current turn)

/-- The budget with one fact more. -/
def budgetWith (retained : RetainedBudget) (fact : ExecutionFact) : RetainedBudget :=
  ⟨retained.facts + 1, retained.bytes + factBytes (stored 0 fact)⟩

/-- The positions of facts that are not taken are remembered. -/
def rememberPosition (t : Transaction) (fact : ExecutionFact) : Transaction :=
  t.updateObserver fact.envelope.agentId (observePosition fact.envelope.sourceSequence.val)

/-- Whether the fact is a replay, after the fences of one that is not. -/
def checkReplay (db : Database) (token : ShadowObserver) (turn : Option TurnRow)
    (fact : ExecutionFact) : Except ExecutionProtocolError Bool := do
  let replay ← isReplay db fact
  onlyIf (replay = false) (checkLifecycle db token turn fact)
  .ok replay

/-- The end of the body, from what is known of the runtime. -/
def takeFact (t : Transaction) (current : ObserverRow) (turn : Option TurnRow) (replay : Bool)
    (previous : RuntimeProjection) (budget : RetainedBudget) (fact : ExecutionFact) :
    Except ExecutionProtocolError (Transaction × ShadowIngestion × Committed) := do
  let next ← if replay then .ok previous.projection else reduceFact previous.projection fact
  let journalSequence := t.db.factSequence + 1
  let gapPending : Bool := fact.envelope.sourceSequence.val < current.maxObservedSequence
  .ok (recordFact t turn replay next fact,
    if replay then .duplicate journalSequence gapPending else .accepted journalSequence gapPending,
    ⟨⟨next, previous.unverifiedFacts, journalSequence⟩, budget⟩)

/-- The body of `ingest`'s transaction, after the fact was parsed. -/
def ingest (s : Store) (version : Nat) (t : Transaction) (sourceId : ExecutionIdentity)
    (token : ShadowObserver) (fact : ExecutionFact) :
    Except ExecutionProtocolError (Store × Transaction × ShadowIngestion × Option Committed) := do
  let stamp : Stamp := ⟨t.changes, version⟩
  match ← admitFact t.db s.observers sourceId token fact with
  | .duplicate journalSequence gapPending => .ok (s, t, .duplicate journalSequence gapPending, none)
  | .fresh current turn => do
    let expected := current.lastSourceSequence + 1
    let sequence := fact.envelope.sourceSequence.val
    let retained := s.retainedBudget stamp t.db fact.envelope.agentId
    let budget := budgetWith retained.2 fact
    match exceededBudget budget with
    | some limit =>
      .ok (retained.1, rememberPosition t fact, .retentionLimit limit expected sequence, none)
    | none =>
      if expected < sequence then
        .ok (retained.1, rememberPosition t fact, .gap expected sequence, none)
      else do
        let replay ← checkReplay t.db token turn fact
        let previous ← retained.1.cachedProjection stamp t.db fact.envelope.runtimeGenerationId
        let taken ← takeFact t current turn replay previous.2 budget fact
        .ok (previous.1, taken.1, taken.2.1, some taken.2.2)

end LetAgents.Execution.ShadowStore

import LetAgents.Execution.FactRows
import LetAgents.Lib.Table

/-!
# The execution journal: tables and transactions

Source: apps/desktop/daemon/execution-shadow-store.ts:16-37, 71-90, 190-230, 308-632, 800-866 and
runtime-recovery-journal.ts:357-367. A body runs inside `BEGIN IMMEDIATE` and sees its own writes;
an error rolls it back.

Modelling boundary: the inputs are what the schemas accept, the uuid of a new attempt is an
argument, and a statement that the storage refuses is a transaction that is rolled back. The
lifecycle effects and the projection ledger are written beside the journal and never read here.
-/
namespace LetAgents.Execution.ShadowStore

open Lib Lib.Js Lib.Checked Protocol FactRows

/-! ## Inputs -/

inductive Provider where
  | codex
  | claudeCode
  | cursor
  | openModel
  deriving DecidableEq

inductive AuthorityMode where
  | legacy
  | typedShadow
  | typed
  deriving DecidableEq

def isTypedCaptureAuthority (mode : AuthorityMode) : Bool := mode = .typedShadow ∨ mode = .typed

structure RuntimeInput where
  agentId : ExecutionIdentity
  executionGenerationId : ExecutionIdentity
  runtimeGenerationId : ExecutionIdentity
  provider : Provider
  authorityMode : AuthorityMode
  configRevision : SafeInteger 1
  createdAtMs : SafeInteger 0

structure AttemptInput where
  agentId : ExecutionIdentity
  roomId : ExecutionIdentity
  sourceMessageId : ExecutionIdentity
  executionGenerationId : ExecutionIdentity
  workspaceId : ExecutionIdentity

structure TurnInput extends NativeTurnIdentity where
  attemptId : ExecutionIdentity
  agentId : ExecutionIdentity
  roomId : ExecutionIdentity
  executionGenerationId : ExecutionIdentity
  runtimeGenerationId : ExecutionIdentity
  createdAtMs : SafeInteger 0

structure ObserverInput where
  agentId : ExecutionIdentity
  subjectRuntimeGenerationId : ExecutionIdentity
  observerRuntimeGenerationId : ExecutionIdentity
  daemonGenerationId : ExecutionIdentity
  sourceId : ExecutionIdentity
  expectedEpoch : SafeInteger 0
  boundAtMs : SafeInteger 0
  recovery : Option NativeTurnIdentity

structure ShadowObserver where
  agentId : ExecutionIdentity
  runtimeGenerationId : ExecutionIdentity
  executionGenerationId : ExecutionIdentity
  observerRuntimeGenerationId : ExecutionIdentity
  observerExecutionGenerationId : ExecutionIdentity
  daemonGenerationId : ExecutionIdentity
  epoch : Nat
  recoveryTurnId : Option ExecutionIdentity
  sourceId : ExecutionIdentity
  lastSourceSequence : Nat
  maxObservedSequence : Nat
  deriving DecidableEq

/-! ## Tables -/

structure GenerationRow where
  executionGenerationId : ExecutionIdentity
  agentId : ExecutionIdentity

structure RuntimeRow where
  runtimeGenerationId : ExecutionIdentity
  executionGenerationId : ExecutionIdentity
  agentId : ExecutionIdentity
  provider : Provider
  authorityMode : AuthorityMode
  runtimeState : RuntimeState
  controlState : ControlState
  continuationState : ContinuationState
  configRevision : Nat
  createdAtMs : Nat
  endedAtMs : Option Nat

inductive AttemptState where
  | active
  | cleanlyConcluded
  | failed
  | interrupted
  | lost
  deriving DecidableEq

structure AttemptRow where
  attemptId : ExecutionIdentity
  agentId : ExecutionIdentity
  roomId : ExecutionIdentity
  sourceMessageId : ExecutionIdentity
  state : AttemptState

structure AttemptGenerationRow where
  attemptId : ExecutionIdentity
  executionGenerationId : ExecutionIdentity
  agentId : ExecutionIdentity
  roomId : ExecutionIdentity
  workspaceId : ExecutionIdentity

structure TurnRow extends NativeTurnIdentity where
  attemptId : ExecutionIdentity
  agentId : ExecutionIdentity
  roomId : ExecutionIdentity
  executionGenerationId : ExecutionIdentity
  runtimeGenerationId : ExecutionIdentity
  state : TurnState
  sideEffects : SideEffectState
  createdAtMs : Nat
  endedAtMs : Option Nat

structure ObserverRow where
  agentId : ExecutionIdentity
  executionGenerationId : ExecutionIdentity
  runtimeGenerationId : ExecutionIdentity
  observerExecutionGenerationId : ExecutionIdentity
  observerRuntimeGenerationId : ExecutionIdentity
  daemonGenerationId : ExecutionIdentity
  observerEpoch : Nat
  lastSourceSequence : Nat
  maxObservedSequence : Nat
  recoveryTurnId : Option ExecutionIdentity
  boundAtMs : Nat
  sourceId : Option ExecutionIdentity

/-- A row of `agent_runtime_recoveries`, with what its `observer_json` says. -/
structure RuntimeRecovery where
  agentId : ExecutionIdentity
  runtimeGenerationId : ExecutionIdentity
  /-- `phase IN ('stopped','complete')`. -/
  stopped : Bool
  observerRuntimeGenerationId : Option ExecutionIdentity
  sourceId : Option ExecutionIdentity

structure Database where
  generations : List GenerationRow
  runtimes : List RuntimeRow
  attempts : List AttemptRow
  attemptGenerations : List AttemptGenerationRow
  turns : List TurnRow
  observers : List ObserverRow
  observerSources : List (ExecutionIdentity × ExecutionIdentity)
  facts : List FactRow
  /-- The greatest `sequence` that was ever given. -/
  factSequence : Nat
  recoveries : List RuntimeRecovery

namespace Database

def empty : Database := ⟨[], [], [], [], [], [], [], [], 0, []⟩

def runtime (db : Database) (id : ExecutionIdentity) : Option RuntimeRow :=
  Table.find RuntimeRow.runtimeGenerationId id db.runtimes

def turn (db : Database) (id : ExecutionIdentity) : Option TurnRow :=
  Table.find (fun row => row.turnId) id db.turns

def observer (db : Database) (agentId : ExecutionIdentity) : Option ObserverRow :=
  Table.find ObserverRow.agentId agentId db.observers

def hasSource (db : Database) (agentId sourceId : ExecutionIdentity) : Bool :=
  db.observerSources.contains (agentId, sourceId)

/-- `LEFT JOIN execution_turns t ON t.turn_id=f.turn_id`. -/
def providerIds (db : Database) (row : FactRow) : Option ProviderIds :=
  row.turnId.bind fun id =>
    (db.turns.find? fun turn => turn.turnId.val = id).map fun turn =>
      ProviderIds.of turn.toNativeTurnIdentity

def decode (db : Database) (row : FactRow) : Except ExecutionProtocolError ExecutionFact :=
  decodeFact row (db.providerIds row)

end Database

/-- A database inside a transaction. -/
structure Transaction where
  db : Database
  /-- `total_changes()`. -/
  changes : Nat

/-- A statement that changes one row. -/
def Transaction.write (t : Transaction) (db : Database) : Transaction := ⟨db, t.changes + 1⟩

/-! ## Identities -/

def materializeGeneration (t : Transaction) (agentId executionGenerationId : ExecutionIdentity) :
    Except ExecutionProtocolError Transaction :=
  match Table.find GenerationRow.executionGenerationId executionGenerationId t.db.generations with
  | some row => if row.agentId = agentId then .ok t else .error .identityMismatch
  | none =>
    .ok (t.write { t.db with
      generations := t.db.generations ++ [⟨executionGenerationId, agentId⟩] })

/-- The first exact materialization freezes the authority. -/
def materializeRuntime (t : Transaction) (input : RuntimeInput) :
    Except ExecutionProtocolError (Transaction × AuthorityMode) := do
  let t ← materializeGeneration t input.agentId input.executionGenerationId
  match t.db.runtime input.runtimeGenerationId with
  | some existing =>
    if existing.executionGenerationId = input.executionGenerationId ∧
        existing.agentId = input.agentId ∧ existing.provider = input.provider ∧
        existing.configRevision = input.configRevision.val then
      .ok (t, existing.authorityMode)
    else .error .identityMismatch
  | none =>
    .ok (t.write { t.db with
      runtimes := t.db.runtimes ++ [{
        runtimeGenerationId := input.runtimeGenerationId
        executionGenerationId := input.executionGenerationId
        agentId := input.agentId
        provider := input.provider
        authorityMode := input.authorityMode
        runtimeState := .starting
        controlState := .connecting
        continuationState := .available
        configRevision := input.configRevision.val
        createdAtMs := input.createdAtMs.val
        endedAtMs := none }] }, input.authorityMode)

def findAttempt (db : Database) (input : AttemptInput) : Option AttemptRow :=
  db.attempts.find? fun row =>
    row.agentId = input.agentId ∧ row.roomId = input.roomId ∧
      row.sourceMessageId = input.sourceMessageId

def findAttemptGeneration (db : Database) (attemptId executionGenerationId : ExecutionIdentity) :
    Option AttemptGenerationRow :=
  db.attemptGenerations.find? fun row =>
    row.attemptId = attemptId ∧ row.executionGenerationId = executionGenerationId

/-- The message's attempt; `fresh` is the id of a new one. -/
def materializeAttempt (t : Transaction) (input : AttemptInput) (fresh : ExecutionIdentity) :
    Transaction × ExecutionIdentity :=
  match findAttempt t.db input with
  | some attempt => (t, attempt.attemptId)
  | none =>
    (t.write { t.db with
      attempts := t.db.attempts ++
        [⟨fresh, input.agentId, input.roomId, input.sourceMessageId, .active⟩] }, fresh)

def materializeMessage (t : Transaction) (input : AttemptInput) (fresh : ExecutionIdentity) :
    Except ExecutionProtocolError (Transaction × ExecutionIdentity) :=
  let attempt := materializeAttempt t input fresh
  match findAttemptGeneration attempt.1.db attempt.2 input.executionGenerationId with
  | some bound =>
    if bound.workspaceId = input.workspaceId then .ok attempt else .error .identityMismatch
  | none =>
    .ok (attempt.1.write { attempt.1.db with
      attemptGenerations := attempt.1.db.attemptGenerations ++
        [⟨attempt.2, input.executionGenerationId, input.agentId, input.roomId,
          input.workspaceId⟩] }, attempt.2)

def materializeTurn (t : Transaction) (input : TurnInput) :
    Except ExecutionProtocolError Transaction :=
  match t.db.turn input.turnId with
  | some row =>
    if row.attemptId = input.attemptId ∧ row.agentId = input.agentId ∧
        row.roomId = input.roomId ∧ row.executionGenerationId = input.executionGenerationId ∧
        row.runtimeGenerationId = input.runtimeGenerationId ∧
        row.providerContinuationId = input.providerContinuationId ∧
        row.providerTurnId = input.providerTurnId then .ok t
    else .error .identityMismatch
  | none =>
    .ok (t.write { t.db with
      turns := t.db.turns ++ [{
        toNativeTurnIdentity := input.toNativeTurnIdentity
        attemptId := input.attemptId
        agentId := input.agentId
        roomId := input.roomId
        executionGenerationId := input.executionGenerationId
        runtimeGenerationId := input.runtimeGenerationId
        state := .none
        sideEffects := .none
        createdAtMs := input.createdAtMs.val
        endedAtMs := none }] })

def trackMessage (t : Transaction) (input : AttemptInput) (fresh : ExecutionIdentity) :
    Except ExecutionProtocolError (Transaction × ExecutionIdentity) := do
  require (∃ row ∈ t.db.generations, row.agentId = input.agentId ∧
    row.executionGenerationId = input.executionGenerationId) .identityMismatch
  require (∀ attempt ∈ findAttempt t.db input, attempt.state ≠ .active →
    (findAttemptGeneration t.db attempt.attemptId input.executionGenerationId).isSome = true)
    .attemptSettled
  materializeMessage t input fresh

/-- A recovery retired the runtime of the turn. -/
def recovered (db : Database) (turn : TurnRow) : Bool :=
  db.recoveries.any fun row =>
    row.agentId = turn.agentId ∧ row.runtimeGenerationId = turn.runtimeGenerationId ∧ row.stopped

def TurnRow.open (turn : TurnRow) : Bool :=
  turn.state = .none ∨ turn.state = .active ∨ turn.state = .lost

def trackNativeTurn (t : Transaction) (input : TurnInput) :
    Except ExecutionProtocolError Transaction := do
  let attempt ← found (t.db.attempts.find? fun row => row.attemptId = input.attemptId ∧
    row.agentId = input.agentId ∧ row.roomId = input.roomId) .identityMismatch
  require ((findAttemptGeneration t.db input.attemptId input.executionGenerationId).isSome = true)
    .identityMismatch
  let runtime ← found ((t.db.runtime input.runtimeGenerationId).filter fun row =>
    row.agentId = input.agentId ∧ row.executionGenerationId = input.executionGenerationId)
    .identityMismatch
  if (t.db.turn input.turnId).isSome then materializeTurn t input
  else do
    require (attempt.state = .active) .attemptSettled
    require (runtime.runtimeState ≠ .exited ∧ isTypedCaptureAuthority runtime.authorityMode = true ∧
      ∀ turn ∈ t.db.turns, turn.agentId = input.agentId → turn.open = true →
        recovered t.db turn = true) .invalidTransition
    materializeTurn t input

/-! ## The observer of an agent -/

def hasRuntimeRecoveryBoundary (db : Database) (agentId oldRuntime newRuntime : ExecutionIdentity)
    (sourceId : Option ExecutionIdentity) : Bool :=
  decide (oldRuntime ≠ newRuntime) && db.recoveries.any fun row =>
    row.agentId = agentId ∧ row.runtimeGenerationId = oldRuntime ∧ row.stopped ∧
      row.observerRuntimeGenerationId = some oldRuntime ∧ row.sourceId = sourceId

/-- The turn of a recovery is the one that was retained. -/
def retainsTurn (db : Database) (subject : RuntimeRow) (agentId : ExecutionIdentity)
    (turn : NativeTurnIdentity) : Bool :=
  (db.turn turn.turnId).any fun row =>
    row.agentId = agentId ∧ row.executionGenerationId = subject.executionGenerationId ∧
      row.runtimeGenerationId = subject.runtimeGenerationId ∧
      row.toNativeTurnIdentity = turn

/-- The checks against the observer that is there. -/
def checkCurrentObserver (db : Database) (input : ObserverInput) (current : ObserverRow) :
    Except ExecutionProtocolError Unit := do
  let boundary := hasRuntimeRecoveryBoundary db input.agentId current.observerRuntimeGenerationId
    input.observerRuntimeGenerationId current.sourceId
  require (current.sourceId = none → boundary = true) .sourceUnverified
  require (boundary = true ∨ ∃ source ∈ current.sourceId, db.hasSource input.agentId source = true)
    .sourceUnverified
  if current.sourceId = some input.sourceId then .ok ()
  else do
    require (db.hasSource input.agentId input.sourceId = false) .staleObserver
    require (boundary = true ∨ current.maxObservedSequence ≤ current.lastSourceSequence) .sourceGap

/-- The checks where the agent has no observer. -/
def checkNoObserver (db : Database) (input : ObserverInput) : Except ExecutionProtocolError Unit := do
  require (db.hasSource input.agentId input.sourceId = false) .staleObserver
  require ((∀ entry ∈ db.observerSources, entry.1 ≠ input.agentId) ∧
    ∀ row ∈ db.facts, row.agentId ≠ input.agentId.val) .sourceUnverified

def checkBinding (db : Database) (input : ObserverInput) : Except ExecutionProtocolError Unit :=
  match db.observer input.agentId with
  | some current => checkCurrentObserver db input current
  | none => checkNoObserver db input

/-- The cursor that the source has at the agent. -/
def sourceCursor (db : Database) (input : ObserverInput) : Nat × Nat :=
  match db.observer input.agentId with
  | some current =>
    if current.sourceId = some input.sourceId then
      (current.lastSourceSequence, current.maxObservedSequence)
    else (0, 0)
  | none => (0, 0)

/-- `INSERT … ON CONFLICT(agent_id) DO UPDATE`. -/
def upsertObserver (db : Database) (row : ObserverRow) : List ObserverRow :=
  match db.observer row.agentId with
  | some _ => Table.put ObserverRow.agentId row db.observers
  | none => db.observers ++ [row]

/-- The row and the admission of a source, in two statements where the source is new. -/
def admitSource (t : Transaction) (row : ObserverRow) (sourceId : ExecutionIdentity) : Transaction :=
  let same := (t.db.observer row.agentId).any fun current => current.sourceId = some sourceId
  let t' := t.write { t.db with observers := upsertObserver t.db row }
  if same then t'
  else t'.write { t'.db with observerSources := t'.db.observerSources ++ [(row.agentId, sourceId)] }

def bindObserver (t : Transaction) (input : ObserverInput) :
    Except ExecutionProtocolError (Transaction × ShadowObserver) := do
  let subject ← found ((t.db.runtime input.subjectRuntimeGenerationId).filter fun row =>
    row.agentId = input.agentId) .identityMismatch
  let observer ← found ((t.db.runtime input.observerRuntimeGenerationId).filter fun row =>
    row.agentId = input.agentId) .identityMismatch
  require (observer.runtimeState ≠ .exited ∧ isTypedCaptureAuthority observer.authorityMode = true ∧
    isTypedCaptureAuthority subject.authorityMode = true ∧ observer.provider = subject.provider)
    .identityMismatch
  match input.recovery with
  | some turn => require (retainsTurn t.db subject input.agentId turn = true) .identityMismatch
  | none => require (subject.runtimeGenerationId = observer.runtimeGenerationId) .identityMismatch
  require (((t.db.observer input.agentId).elim 0 ObserverRow.observerEpoch) =
    input.expectedEpoch.val ∧ input.expectedEpoch.val ≠ maxSafeInteger) .staleObserver
  checkBinding t.db input
  let cursor := sourceCursor t.db input
  let epoch := input.expectedEpoch.val + 1
  let recoveryTurnId := input.recovery.map fun turn => turn.turnId
  let row : ObserverRow := {
    agentId := input.agentId
    executionGenerationId := subject.executionGenerationId
    runtimeGenerationId := subject.runtimeGenerationId
    observerExecutionGenerationId := observer.executionGenerationId
    observerRuntimeGenerationId := observer.runtimeGenerationId
    daemonGenerationId := input.daemonGenerationId
    observerEpoch := epoch
    lastSourceSequence := cursor.1
    maxObservedSequence := cursor.2
    recoveryTurnId := recoveryTurnId
    boundAtMs := input.boundAtMs.val
    sourceId := some input.sourceId }
  .ok (admitSource t row input.sourceId, {
    agentId := input.agentId
    runtimeGenerationId := subject.runtimeGenerationId
    executionGenerationId := subject.executionGenerationId
    observerRuntimeGenerationId := observer.runtimeGenerationId
    observerExecutionGenerationId := observer.executionGenerationId
    daemonGenerationId := input.daemonGenerationId
    epoch := epoch
    recoveryTurnId := recoveryTurnId
    sourceId := input.sourceId
    lastSourceSequence := cursor.1
    maxObservedSequence := cursor.2 })

/-- `tokens`: the observers that this store has handed out. -/
def currentObserver (db : Database) (tokens : List ShadowObserver) (sourceId : ExecutionIdentity)
    (token : ShadowObserver) : Except ExecutionProtocolError ObserverRow := do
  require (token ∈ tokens) .staleObserver
  require (sourceId = token.sourceId) .identityMismatch
  let current ← found (db.observer token.agentId) .identityMismatch
  require (current.observerEpoch = token.epoch ∧
    current.daemonGenerationId = token.daemonGenerationId ∧
    current.sourceId = some token.sourceId ∧
    current.observerRuntimeGenerationId = token.observerRuntimeGenerationId) .staleObserver
  require (db.hasSource token.agentId sourceId = true) .sourceUnverified
  .ok current

/-- `UPDATE execution_observers SET … WHERE agent_id=?`. -/
def Transaction.updateObserver (t : Transaction) (agentId : ExecutionIdentity)
    (change : ObserverRow → ObserverRow) : Transaction :=
  t.write { t.db with observers := Table.update ObserverRow.agentId agentId change t.db.observers }

def observePosition (position : Nat) (row : ObserverRow) : ObserverRow :=
  { row with maxObservedSequence := max row.maxObservedSequence position }

/-- The body of `observeSourcePosition`'s transaction. -/
def recordPosition (t : Transaction) (tokens : List ShadowObserver) (sourceId : ExecutionIdentity)
    (token : ShadowObserver) (latestSequence : Nat) : Except ExecutionProtocolError Transaction := do
  let current ← currentObserver t.db tokens sourceId token
  require (current.lastSourceSequence ≤ latestSequence) .sourceGap
  if latestSequence ≤ current.maxObservedSequence then .ok t
  else .ok (t.updateObserver token.agentId (observePosition latestSequence))

end LetAgents.Execution.ShadowStore

import Mathlib.Data.List.MinMax
import Mathlib.Data.List.Sort
import Mathlib.Logic.Function.Basic
import LetAgents.Lib.Checked
import LetAgents.Lib.Js
import LetAgents.Lib.Table

/-!
# The daemon's delivery tables

Source: src/apps/desktop/daemon/supervised-agent-inbox-store.ts:22-207, the tables in
daemon-state-database.ts:548-572, 2076-2103, 2386-2471, 2672-2683, 2942-3001,
4126-4131 and execution-storage-schema.ts:224-243, 471-525.

A row of `supervised_agent_inbox` is kept together with the rows that reference it
with `ON DELETE CASCADE`: its events, its provider-turn binding, its terminal result
and its publication. Deleting the item deletes them, and each exists only with it.

Columns no decision reads are left out (`created_at`, `updated_at` of an item, the
times and details of events, the message texts of the observed history).
-/
namespace LetAgents.Inbox.Records

open Lib.Js Lib.Checked Lib

/-! ## Inbox items -/

inductive SupervisedInboxState where
  | pending | dispatching | awaitingResult | resultRecovery | publishing | retryable | blocked
  | acknowledged | acknowledgedNoReply | acknowledgedFailed | cancelledByRoomMove
  | cancelledByUser
  deriving DecidableEq

/-- Membership in `finalStates`. -/
def SupervisedInboxState.isFinal : SupervisedInboxState → Bool
  | .acknowledged | .acknowledgedNoReply | .acknowledgedFailed | .cancelledByRoomMove
  | .cancelledByUser => true
  | _ => false

def SupervisedInboxState.text : SupervisedInboxState → String
  | .pending => "pending"
  | .dispatching => "dispatching"
  | .awaitingResult => "awaiting_result"
  | .resultRecovery => "result_recovery"
  | .publishing => "publishing"
  | .retryable => "retryable"
  | .blocked => "blocked"
  | .acknowledged => "acknowledged"
  | .acknowledgedNoReply => "acknowledged_no_reply"
  | .acknowledgedFailed => "acknowledged_failed"
  | .cancelledByRoomMove => "cancelled_by_room_move"
  | .cancelledByUser => "cancelled_by_user"

def transitions : SupervisedInboxState → List SupervisedInboxState
  | .pending => [.dispatching, .blocked]
  | .dispatching => [.awaitingResult, .acknowledgedFailed, .retryable, .blocked]
  | .awaitingResult =>
    [.resultRecovery, .publishing, .acknowledgedNoReply, .acknowledgedFailed, .retryable,
      .blocked]
  | .resultRecovery => [.publishing, .acknowledgedNoReply, .acknowledgedFailed, .blocked]
  | .publishing => [.acknowledged, .retryable, .blocked]
  | .retryable => [.pending, .blocked]
  | .blocked => [.pending, .cancelledByUser]
  | .acknowledged | .acknowledgedNoReply | .acknowledgedFailed | .cancelledByRoomMove
  | .cancelledByUser => []

inductive InboxPhase where
  | received | queued | turnStarted | turnFinished | resultUnreadable | publishStarted | published
  | noReply | retryScheduled | blocked | roomMoveCancelled | conversationRestoring
  | conversationRestored | userCancelled
  deriving DecidableEq

def phaseForTransition : SupervisedInboxState → Option InboxPhase
  | .resultRecovery => some .resultUnreadable
  | .publishing => some .publishStarted
  | .acknowledged => some .published
  | .acknowledgedNoReply => some .noReply
  | .retryable => some .retryScheduled
  | .blocked => some .blocked
  | .cancelledByRoomMove => some .roomMoveCancelled
  | .cancelledByUser => some .userCancelled
  | .pending => some .queued
  | _ => none

inductive SupervisedRetryDomain where
  | preDispatch | resultRecovery | publication
  deriving DecidableEq

/-- The idempotency key of an event, by the literal text it starts with; what follows
that text is the argument. -/
inductive EventKey where
  | phase (phase : InboxPhase) (rest : String)
  | userCancelled
  | handoffQueued (ordinal : Nat)
  | retryFailure (domain : SupervisedRetryDomain) (attempt : Nat) (blocked : Bool)
  | undispatchedRetry (rest : String)
  | resultRecoveryRetry (rest : String)
  | recovery (phase : InboxPhase) (attemptCount : Nat)
  | roomMoveCancelled (operationId : String) (fifoSequence : Nat)
  | roomMoveRollback (operationId : String) (fifoSequence : Nat)
  | conversationRestoring (repairId : String) (attempt : Option Nat)
  | conversationRestored (repairId : String)
  | continuationRepairExhausted (repairId : String)
  | taskContinuation (rest : String)
  deriving DecidableEq

structure InboxEvent where
  idempotencyKey : EventKey
  phase : InboxPhase

/-- A property of a parsed JSON object, as far as comparing it with a text or with
`null` can tell. -/
inductive Property where
  | absent
  | null
  | text (value : String)
  | other
  deriving DecidableEq

/-- A nullable text as a JSON property. -/
def Property.ofText : Option String → Property
  | none => .null
  | some value => .text value

/-- The text of an `outcome` column: a JSON object, by its three properties and by
how it is laid out otherwise, or a text that `JSON.parse` rejects or reads as
something else. -/
inductive OutcomeText where
  | record (kind text evidence : Property) (layout : String)
  | plain (raw : String)
  deriving DecidableEq

/-- `JSON.parse(outcome).kind`. -/
def OutcomeText.kind : OutcomeText → Property
  | .record kind _ _ _ => kind
  | .plain _ => .absent

/-- `JSON.parse(outcome).text`. -/
def OutcomeText.text : OutcomeText → Property
  | .record _ text _ _ => text
  | .plain _ => .absent

def OutcomeText.evidence : OutcomeText → Property
  | .record _ _ evidence _ => evidence
  | .plain _ => .absent

/-- `!!outcome`: the empty text counts as no outcome. -/
def hasOutcome (outcome : Option OutcomeText) : Bool := outcome.any fun text => text ≠ .plain ""

inductive TerminalOutcome where
  | reply | noReply | unreadable | failed | interrupted
  deriving DecidableEq

def TerminalOutcome.text : TerminalOutcome → String
  | .reply => "reply"
  | .noReply => "no_reply"
  | .unreadable => "unreadable"
  | .failed => "failed"
  | .interrupted => "interrupted"

/-- `outcome === "failed" || outcome === "interrupted"`. -/
def TerminalOutcome.nativeFailure : TerminalOutcome → Bool
  | .failed | .interrupted => true
  | _ => false

inductive EvidenceSource where
  | transcript | stream | none
  deriving DecidableEq

def EvidenceSource.text : EvidenceSource → String
  | .transcript => "transcript"
  | .stream => "stream"
  | .none => "none"

/-- The properties of `terminal_evidence` that are checked. -/
structure TerminalEvidence where
  outcome : Property
  turnId : Property
  text : Property
  evidence : Property
  providerContinuationId : Property
  error : Property
  deriving DecidableEq

/-- A row of `supervised_agent_terminal_results`. -/
structure TerminalResult where
  agentId : String
  executionGenerationId : String
  providerTurnId : String
  outcome : TerminalOutcome
  normalizedText : Option String
  evidenceSource : EvidenceSource
  terminalEvidence : Option TerminalEvidence
  deriving DecidableEq

/-- The provider turn that effects, results and bindings name. -/
structure ProviderTurn where
  agentId : String
  executionGenerationId : String
  providerTurnId : String
  deriving DecidableEq

/-- A row of `supervised_agent_provider_turn_bindings`. -/
structure ProviderTurnBinding where
  agentId : String
  roomId : String
  workAttemptId : String
  originExecutionGenerationId : String
  providerContinuationId : String
  providerTurnId : String
  deriving DecidableEq

def ProviderTurnBinding.turn (binding : ProviderTurnBinding) : ProviderTurn :=
  ⟨binding.agentId, binding.originExecutionGenerationId, binding.providerTurnId⟩

def TerminalResult.turn (terminal : TerminalResult) : ProviderTurn :=
  ⟨terminal.agentId, terminal.executionGenerationId, terminal.providerTurnId⟩

/-- A row of `supervised_agent_publications`. -/
structure Publication where
  agentId : String
  roomId : String
  clientMessageId : String
  canonicalMessageId : String

inductive FailureCode where
  | providerContinuationMissing
  deriving DecidableEq

inductive TerminalReason where
  | upgradeAuthorityUnavailable

/-- A row of `supervised_agent_inbox` with the rows that are deleted with it. The
events are in the order of their sequence numbers. -/
structure SupervisedInboxItem where
  inboxItemId : String
  agentId : String
  roomId : String
  sourceMessageId : String
  sourceMessage : JsValue
  activation : JsValue
  fifoSequence : Nat
  state : SupervisedInboxState
  attemptCount : Nat
  actionId : String
  replyClientMessageId : String
  providerTurnId : Option String
  outcome : Option OutcomeText
  lastError : Option String
  failureCode : Option FailureCode
  blockedByInboxItemId : Option String
  nextAttemptAtMs : Option Int
  terminalReason : Option TerminalReason
  acknowledgedAt : Option String
  events : List InboxEvent
  binding : Option ProviderTurnBinding
  terminal : Option TerminalResult
  publication : Option Publication

/-- `recordEvent`: a key that is already in the journal adds nothing. -/
def SupervisedInboxItem.recordEvent (item : SupervisedInboxItem) (idempotencyKey : EventKey)
    (phase : InboxPhase) : SupervisedInboxItem :=
  if item.events.any fun event => event.idempotencyKey = idempotencyKey then item
  else { item with events := item.events ++ [⟨idempotencyKey, phase⟩] }

def SupervisedInboxItem.hasEvent (item : SupervisedInboxItem) (idempotencyKey : EventKey) : Bool :=
  item.events.any fun event => event.idempotencyKey = idempotencyKey

/-! ## Effects -/

inductive EffectState where
  | prepared | executing | uncertain | completed | failed
  deriving DecidableEq

structure EffectIdentity where
  turn : ProviderTurn
  mcpRequestId : String
  deriving DecidableEq

/-- The columns that a full effect and a tombstone share. -/
structure SupervisedEffectRecord where
  effectId : String
  agentId : String
  roomId : String
  executionGenerationId : String
  providerTurnId : String
  mcpRequestId : String
  toolName : String
  mutation : Bool
  state : EffectState
  resultJson : Option String
  error : Option String
  createdAt : String
  updatedAt : String

def SupervisedEffectRecord.turn (effect : SupervisedEffectRecord) : ProviderTurn :=
  ⟨effect.agentId, effect.executionGenerationId, effect.providerTurnId⟩

def SupervisedEffectRecord.identity (effect : SupervisedEffectRecord) : EffectIdentity :=
  ⟨effect.turn, effect.mcpRequestId⟩

/-- A request as JSON text with the SHA-256 of that text. -/
structure RequestText where
  json : String
  sha256 : String

/-- A row of `supervised_agent_effects`. -/
structure EffectRow extends SupervisedEffectRecord where
  request : RequestText

/-- A row of `supervised_agent_effect_tombstones`. -/
structure EffectTombstone extends SupervisedEffectRecord where
  requestSha256 : String
  requestBytes : Nat

/-! ## Ingress, repairs, room moves, turn control, drains -/

structure IngressCursor where
  roomId : String
  lastObservedMessageId : Option String

inductive IngressHealthState where
  | starting | observing | backoff | blocked | stopped
  deriving DecidableEq

structure IngressHealth where
  roomId : String
  executionGenerationId : String
  state : IngressHealthState
  detail : Option String

structure ObservedMessage where
  agentId : String
  roomId : String
  sourceMessageId : String
  deriving DecidableEq

inductive RepairPhase where
  | probing | replacementCreated | committed | failed
  deriving DecidableEq

def RepairPhase.settled : RepairPhase → Bool
  | .committed | .failed => true
  | _ => false

/-- A row of `provider_continuation_repairs`. -/
structure ProviderContinuationRepair where
  repairId : String
  agentId : String
  roomId : String
  inboxItemId : String
  daemonGeneration : Nat
  executionGenerationId : String
  workAttemptId : String
  expectedPid : Nat
  expectedProcessIdentity : String
  missingContinuation : String
  replacementContinuation : Option String
  phase : RepairPhase
  attemptCount : Nat
  lastError : Option String
  createdAt : String
  deriving DecidableEq

inductive RoomMovePhase where
  | prepared | waitingForCurrentTurn | joiningDestination | membershipCommitted
  | rotatingCredentials | bootstrappingDestinationTail | active | failed | rollbackRequired

/-- `phase IN ('active','failed')`. -/
def RoomMovePhase.settled : RoomMovePhase → Bool
  | .active | .failed => true
  | _ => false

/-- A row of `agent_room_moves`. -/
structure AgentRoomMove where
  operationId : String
  requestId : String
  agentId : String
  sourceRoomId : String
  destinationRoomId : String
  daemonGeneration : Nat
  workAttemptId : Option String
  executionGenerationId : Option String
  agentSessionId : Option String
  activatingInboxItemId : Option String
  providerTurnId : Option String
  effectId : Option String
  phase : RoomMovePhase
  sourceCursorPresent : Bool
  sourceCursor : Option String

inductive TurnControlStatus where
  | prepared | dispatching | completed | failed | retryable | uncertain
  deriving DecidableEq

/-- `status IN ('prepared','dispatching','retryable','uncertain')`. -/
def TurnControlStatus.unresolved : TurnControlStatus → Bool
  | .prepared | .dispatching | .retryable | .uncertain => true
  | _ => false

/-- An agent's row of `turn_control_journals` with `turn_control_present=1`. -/
structure TurnControl where
  status : TurnControlStatus
  inboxItemId : Option String

inductive DeliveryMode where
  | mcpPolling | desktopEvents | daemonInbox
  deriving DecidableEq

inductive DrainStrategy where
  | drain | force
  deriving DecidableEq

inductive DrainPhase where
  | prepared | draining | dispatching | uncertain | complete | cancelled | failed
  deriving DecidableEq

/-- `phase IN ('complete','cancelled','failed')`. -/
def DrainPhase.resolved : DrainPhase → Bool
  | .complete | .cancelled | .failed => true
  | _ => false

/-- A row of `execution_cutover_v2`. -/
structure DeliveryDrainRecord where
  operationId : String
  requestId : String
  agentId : String
  executionGenerationId : String
  predecessorOperationId : Option String
  fromMode : DeliveryMode
  toMode : DeliveryMode
  strategy : DrainStrategy
  phase : DrainPhase
  authorityVersion : Option Nat
  roomId : Option String
  workAttemptId : Option String
  provider : Option String
  nativeContinuationId : Option String
  nativeConnectionSha256 : Option String
  nativePid : Option Nat
  nativeProcessIdentity : Option String
  nativeTargetTurnId : Option String
  admittedInboxItemId : Option String
  admittedSourceMessageId : Option String
  admittedActionId : Option String

/-! ## Tables of other owners -/

/-- The joined authority row that an effect is checked against. -/
structure RuntimeAuthority where
  roomId : String
  desiredState : String
  condition : String
  workAttemptId : Option String
  providerWorkAttemptId : Option String
  providerContinuationId : Option String
  providerExecutionGenerationId : Option String

structure AgentConfiguration where
  deliveryMode : DeliveryMode
  pollingContract : Option String
  configRevision : Nat
  runtimeConfigurationRevision : Option Nat

/-- A row of `worker_session_bindings`. -/
structure WorkerSessionBinding where
  roomId : String
  workAttemptId : String
  executionGenerationId : String
  agentSessionId : String
  roomCursor : Option String

/-- A provider connection with the SHA-256 of `[kind, url, pid, processIdentity]`. -/
structure ProviderConnection where
  kind : String
  url : String
  pid : Option Nat
  processIdentity : Option String
  serverAuthPath : Option String
  sha256 : String

/-- The provider columns of `runtime_deployments`. -/
structure RuntimeDeployment where
  providerRefPresent : Bool
  providerWorkAttemptId : Option String
  providerExecutionGenerationId : Option String
  providerContinuationId : Option String
  providerConnection : ProviderConnection
  custodialLaunchAgentSessionId : Option String

structure WorkAttemptExecution where
  workAttemptId : String
  executionGenerationId : String
  generation : Nat
  terminal : Bool

structure WorkAttemptCheckpoint where
  workAttemptId : String
  sortOrder : Int
  roomCursor : Option String
  providerContinuationId : Option String

inductive PollingActivationPhase where
  | prepared | dispatching | uncertain | complete | cancelled
  deriving DecidableEq

structure PollingActivation where
  agentId : String
  workAttemptId : String
  executionGenerationId : String
  reverseOperationId : String
  phase : PollingActivationPhase

/-- What the inbox reads but other parts of the daemon write. -/
structure Host where
  pendingRuntimeRecovery : String → Bool
  runtime : String → Option RuntimeAuthority
  configurations : String → Option AgentConfiguration
  workerBindings : String → Option WorkerSessionBinding
  deployments : String → Option RuntimeDeployment
  executions : List WorkAttemptExecution
  checkpoints : List WorkAttemptCheckpoint
  pollingActivations : List PollingActivation
  controls : String → Option TurnControl

/-! ## The database -/

/-- `issued` are the ids `randomUUID` has returned: it returns none twice. Tables
keyed by the agent alone are functions of it. Lists of rows are in insertion order. -/
structure Database where
  inbox : List SupervisedInboxItem
  effects : List EffectRow
  tombstones : List EffectTombstone
  cursors : String → Option IngressCursor
  health : String → Option IngressHealth
  observed : List ObservedMessage
  repairs : List ProviderContinuationRepair
  roomMoves : List AgentRoomMove
  cutovers : List DeliveryDrainRecord
  host : Host
  issued : List String

/-- The row with an item id. -/
def Database.item (db : Database) (inboxItemId : String) : Option SupervisedInboxItem :=
  Table.find (·.inboxItemId) inboxItemId db.inbox

/-- `UPDATE supervised_agent_inbox … WHERE inbox_item_id=?`. -/
def Database.putItem (db : Database) (item : SupervisedInboxItem) : Database :=
  { db with inbox := Table.put (·.inboxItemId) item db.inbox }

/-- The agent's rows that are not in a final state. -/
def Database.unsettled (db : Database) (agentId : String) : List SupervisedInboxItem :=
  db.inbox.filter fun item => item.agentId = agentId && !item.state.isFinal

/-- The unsettled row with the lowest `fifo_sequence`. -/
def Database.head (db : Database) (agentId : String) : Option SupervisedInboxItem :=
  (db.unsettled agentId).argmin (·.fifoSequence)

/-- `COALESCE(MAX(fifo_sequence), 0)`. -/
def Database.maxFifo (db : Database) (agentId : String) : Nat :=
  ((db.inbox.filter fun item => item.agentId = agentId).map (·.fifoSequence)).foldl max 0

def assertCurrentHead (db : Database) (item : SupervisedInboxItem) : Except String Unit :=
  require ((db.head item.agentId).map (·.inboxItemId) = some item.inboxItemId)
    "Only the current FIFO head may change delivery state."

/-- The source id of the message that continues an item's task. -/
def continuationSource (inboxItemId : String) : String := "task-continuation:" ++ inboxItemId

/-- A fresh id from `randomUUID`: no id it returned before, and none that a stored
message already names. -/
def Database.issue (db : Database) (uuid : String) : Except String Database := do
  require (uuid ∉ db.issued ∧ ∀ item ∈ db.inbox, item.sourceMessageId ≠ continuationSource uuid)
    "randomUUID returned a known id."
  return { db with issued := uuid :: db.issued }

/-- A fresh id for a message, which was there before the id and does not name it. -/
def Database.issueFor (db : Database) (uuid sourceMessageId : String) : Except String Database := do
  require (sourceMessageId ≠ continuationSource uuid) "randomUUID returned a known id."
  db.issue uuid

def unknownItem (inboxItemId : String) : String := "Unknown supervised inbox item: " ++ inboxItemId

/-- `this.require(value, field)`. -/
def requireField (value field : String) : Except String Unit :=
  require (isBlank value = false) ("Supervised inbox " ++ field ++ " is required.")

/-- `/^(?:msg_)?\d+$/` and the number it denotes. -/
def numericCursor (value : String) : Option Nat :=
  match value.toList with
  | 'm' :: 's' :: 'g' :: '_' :: digits => decimal digits
  | digits => decimal digits

def requireNumericCursor (cursor : String) : Except String Unit :=
  require ((numericCursor cursor).isSome) "Supervised inbox cursor must be a numeric room message id."

end LetAgents.Inbox.Records

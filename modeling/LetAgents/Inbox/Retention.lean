import LetAgents.Inbox.Records

/-!
# Retention and terminal settlement

Source: src/apps/desktop/daemon/supervised-agent-history-retention.ts:8-89, 187-458.

The functions run inside the transaction of their caller: an exception rolls the
caller back. The projection of captured execution attempts and the history
boundaries shown by the inspector are outside the model; no decision reads them.
-/
namespace LetAgents.Inbox.Retention

open Lib.Js Lib.Checked Records

def retainedTerminalReceiptsPerAgent : Nat := 200

def retainedUncertainEffectsPerAgent : Nat := 32

def retainedTerminalTimelineEvents : Nat := 64

def retainedTerminalContinuationRepairs : Nat := 4

def retainedObservedMessagesPerAgent : Nat := 500

/-! ## Native failures -/

/-- `outcome.kind` when it is `"failed"` or `"interrupted"`. -/
def failureKind (outcome : Option OutcomeText) : Option TerminalOutcome :=
  match outcome.map OutcomeText.kind with
  | some (.text "failed") => some .failed
  | some (.text "interrupted") => some .interrupted
  | _ => none

/-- The terminal result joined with its binding. -/
def boundTerminal (item : SupervisedInboxItem) :
    Option (TerminalResult × ProviderTurnBinding) := do
  let terminal ← item.terminal
  let binding ← item.binding
  if binding.agentId = terminal.agentId ∧
      binding.originExecutionGenerationId = terminal.executionGenerationId ∧
      binding.providerTurnId = terminal.providerTurnId ∧ terminal.agentId = item.agentId ∧
      binding.roomId = item.roomId ∧ some terminal.providerTurnId = item.providerTurnId then
    some (terminal, binding)
  else none

/-- Does the durable record prove a failure of this kind? -/
def failureProven (item : SupervisedInboxItem) (outcome : OutcomeText) (kind : TerminalOutcome) :
    Bool :=
  match boundTerminal item with
  | none => false
  | some (terminal, binding) =>
    terminal.outcome = kind && terminal.normalizedText = none &&
      terminal.evidenceSource ≠ .none && outcome.text = .null &&
      outcome.evidence = .text terminal.evidenceSource.text &&
      terminal.terminalEvidence.any fun evidence =>
        evidence.outcome = .text kind.text && evidence.text = .null &&
          evidence.turnId = .ofText item.providerTurnId &&
          evidence.evidence = .text terminal.evidenceSource.text &&
          evidence.providerContinuationId = .text binding.providerContinuationId

def readDurableNativeFailure (item : SupervisedInboxItem) :
    Except String (Option TerminalOutcome) :=
  match item.outcome, failureKind item.outcome with
  | some outcome, some kind =>
    if failureProven item outcome kind then .ok (some kind)
    else .error "Failed delivery does not match its exact native terminal and provider-turn binding."
  | _, _ =>
    if item.state = .acknowledgedFailed ||
        item.terminal.any fun terminal => terminal.outcome.nativeFailure then
      .error "Failed delivery has no exact native terminal evidence."
    else .ok none

/-! ## Settlement -/

def settledError : String := "The provider turn settled before this effect completed."

/-- What settlement does to one effect of the settled turn. -/
def settledEffect (now : String) (effect : EffectRow) : EffectRow :=
  if (effect.state = .prepared || (effect.state = .executing && !effect.mutation)) &&
      effect.toolName ≠ "join_room" then
    { effect with state := .failed, error := some settledError, updatedAt := now }
  else effect

def settleSupervisedTerminalItem (db : Database) (item : SupervisedInboxItem) (now : String) :
    Database :=
  match item.binding with
  | some binding =>
    if present item.providerTurnId then
      { db with
        effects := db.effects.map fun effect =>
          if effect.agentId = item.agentId ∧
              effect.executionGenerationId = binding.originExecutionGenerationId ∧
              some effect.providerTurnId = item.providerTurnId then settledEffect now effect
          else effect }
    else db
  | none => db

/-! ## Compaction of uncertain effects -/

/-- `ORDER BY CASE WHEN effect_id=? THEN 0 ELSE 1 END,updated_at DESC,effect_id DESC`. -/
def uncertainBefore (protectedId : Option String) (a b : EffectRow) : Bool :=
  if some a.effectId = protectedId then true
  else if some b.effectId = protectedId then false
  else if b.updatedAt < a.updatedAt then true
  else if a.updatedAt = b.updatedAt then decide (b.effectId ≤ a.effectId)
  else false

def compactableUncertain (db : Database) (agentId : String) (protectedId : Option String) :
    List EffectRow :=
  ((db.effects.filter fun effect => effect.agentId = agentId && effect.state = .uncertain).insertionSort
    fun a b => uncertainBefore protectedId a b = true).drop retainedUncertainEffectsPerAgent

def tombstoneOf (effect : EffectRow) : EffectTombstone :=
  { effect with
    state := .uncertain
    resultJson := none
    requestSha256 := effect.request.sha256
    requestBytes := effect.request.json.utf8ByteSize }

/-- Replace one full effect by its tombstone. -/
def compactEffect (db : Database) (effect : EffectRow) : Except String Database := do
  require (∀ tombstone ∈ db.tombstones, tombstone.effectId ≠ effect.effectId)
    "UNIQUE constraint failed: supervised_agent_effect_tombstones.effect_id"
  require (∀ tombstone ∈ db.tombstones, tombstone.identity ≠ effect.identity)
    "UNIQUE constraint failed: supervised_agent_effect_tombstones.agent_id"
  return { db with
    tombstones := db.tombstones ++ [tombstoneOf effect]
    effects := db.effects.filter fun row =>
      !(row.effectId = effect.effectId && row.state = .uncertain) }

def hasBinding (db : Database) (roomId : String) (turn : ProviderTurn) : Bool :=
  db.inbox.any fun item => item.binding.any fun binding =>
    binding.roomId = roomId && binding.turn = turn

/-- Tombstones outlive their full effect only while the exact binding exists. -/
def dropUnboundTombstones (db : Database) (agentId : String) : Database :=
  { db with
    tombstones := db.tombstones.filter fun tombstone =>
      !(tombstone.agentId = agentId && !hasBinding db tombstone.roomId tombstone.turn) }

/-! ## Stale receipts -/

def pinnedByControl (db : Database) (item : SupervisedInboxItem) : Bool :=
  (db.host.controls item.agentId).any fun control => control.inboxItemId = some item.inboxItemId

def pinnedByDrain (db : Database) (item : SupervisedInboxItem) : Bool :=
  db.cutovers.any fun cutover => cutover.agentId = item.agentId &&
    cutover.admittedInboxItemId = some item.inboxItemId && !cutover.phase.resolved

def pinnedByEffect (db : Database) (item : SupervisedInboxItem) : Bool :=
  db.effects.any fun effect => effect.agentId = item.agentId &&
    some effect.providerTurnId = item.providerTurnId &&
    item.binding.all (fun binding =>
      effect.executionGenerationId = binding.originExecutionGenerationId) &&
    (effect.state = .prepared || effect.state = .executing)

/-- The moves whose cancellation event the row carries. -/
def owningMoves (db : Database) (item : SupervisedInboxItem) : List AgentRoomMove :=
  db.roomMoves.filter fun move => move.agentId = item.agentId && move.sourceRoomId = item.roomId &&
    item.hasEvent (.roomMoveCancelled move.operationId item.fifoSequence)

def pinnedByMove (db : Database) (item : SupervisedInboxItem) : Bool :=
  (owningMoves db item).any fun move => !move.phase.settled

def pinnedTerminalCount (db : Database) (agentId : String) : Nat :=
  (db.inbox.filter fun item => item.agentId = agentId && item.state.isFinal &&
    (pinnedByControl db item || pinnedByDrain db item)).length

def disposable (db : Database) (agentId : String) (item : SupervisedInboxItem) : Bool :=
  item.agentId = agentId && item.state.isFinal && !pinnedByControl db item &&
    !pinnedByDrain db item && !pinnedByEffect db item && !pinnedByMove db item

/-- The disposable receipts past the newest that the budget retains. -/
def staleReceipts (db : Database) (agentId : String) : List SupervisedInboxItem :=
  ((db.inbox.filter (disposable db agentId)).insertionSort
    fun a b => b.fifoSequence ≤ a.fifoSequence).drop
      (retainedTerminalReceiptsPerAgent - pinnedTerminalCount db agentId)

/-- Delete one receipt with its settled effects; a row that another row names as its
blocker cannot be deleted. -/
def deleteReceipt (db : Database) (item : SupervisedInboxItem) : Except String Database := do
  require (∀ other ∈ db.inbox, other.inboxItemId ≠ item.inboxItemId →
    other.blockedByInboxItemId ≠ some item.inboxItemId) "FOREIGN KEY constraint failed"
  let ofTurn (effect : SupervisedEffectRecord) : Bool :=
    item.binding.any fun binding => effect.agentId = item.agentId &&
      effect.executionGenerationId = binding.originExecutionGenerationId &&
      some effect.providerTurnId = item.providerTurnId
  return { db with
    effects := db.effects.filter fun effect =>
      !(ofTurn effect.toSupervisedEffectRecord && effect.state ≠ .prepared &&
        effect.state ≠ .executing)
    tombstones := db.tombstones.filter fun tombstone => !ofTurn tombstone.toSupervisedEffectRecord
    inbox := db.inbox.filter fun other => other.inboxItemId ≠ item.inboxItemId
    repairs := db.repairs.filter fun repair => repair.inboxItemId ≠ item.inboxItemId }

/-! ## Compaction of settled receipts -/

/-- The newest cancellation key of a settled move, which rollback still needs. -/
def retainedMoveKey (db : Database) (item : SupervisedInboxItem) : Option EventKey :=
  let keys := ((owningMoves db item).filter fun move => move.phase.settled).map fun move =>
    EventKey.roomMoveCancelled move.operationId item.fifoSequence
  (item.events.reverse.find? fun event => keys.contains event.idempotencyKey).map
    (·.idempotencyKey)

def compactable (db : Database) (agentId : String) (item : SupervisedInboxItem) : Bool :=
  item.agentId = agentId &&
    ((item.state.isFinal && item.state ≠ .cancelledByRoomMove) ||
      (item.state = .cancelledByRoomMove && (retainedMoveKey db item).isSome)) &&
    !pinnedByMove db item &&
    !((db.host.controls item.agentId).any fun control =>
      control.inboxItemId = some item.inboxItemId && control.status ≠ .completed &&
        control.status ≠ .failed) &&
    !pinnedByDrain db item && !pinnedByEffect db item &&
    !(db.repairs.any fun repair => repair.inboxItemId = item.inboxItemId && !repair.phase.settled)

/-- Keep the first two events, the newest 64 and the retained key. -/
def trimEvents (retained : Option EventKey) (events : List InboxEvent) : List InboxEvent :=
  let dropped := events.length - retainedTerminalTimelineEvents
  events.take (min 2 dropped) ++
    ((events.take dropped).drop 2).filter (fun event => some event.idempotencyKey = retained) ++
    events.drop dropped

def trimmed (db : Database) (agentId : String) (item : SupervisedInboxItem) :
    SupervisedInboxItem :=
  if compactable db agentId item then
    { item with events := trimEvents (retainedMoveKey db item) item.events }
  else item

/-- The newest repairs of an item, by `created_at` and then by insertion. -/
def newestRepairs (db : Database) (inboxItemId : String) : List ProviderContinuationRepair :=
  (((db.repairs.filter fun repair => repair.inboxItemId = inboxItemId).reverse).insertionSort
    fun a b => b.createdAt ≤ a.createdAt).take retainedTerminalContinuationRepairs

def compactSupervisedTerminalHistory (db : Database) (agentId : String) : Database :=
  let items := db.inbox.filter (compactable db agentId)
  { db with
    inbox := db.inbox.map (trimmed db agentId)
    repairs := db.repairs.filter fun repair =>
      !(items.any fun item => item.inboxItemId = repair.inboxItemId && repair.phase.settled &&
        !(newestRepairs db item.inboxItemId).contains repair) }

/-- Silent messages past the newest 500; messages of unsettled items stay. -/
def trimObserved (db : Database) (agentId : String) : Database :=
  let ofAgent := db.observed.filter fun message => message.agentId = agentId
  let newest := ofAgent.drop (ofAgent.length - retainedObservedMessagesPerAgent)
  { db with
    observed := db.observed.filter fun message =>
      message.agentId ≠ agentId || newest.contains message ||
        (db.unsettled agentId).any fun item => item.roomId = message.roomId &&
          item.sourceMessageId = message.sourceMessageId }

def pruneSupervisedAgentHistory (db : Database) (agentId : String)
    (protectedUncertainEffectId : Option String) : Except String Database := do
  let compacted ← (compactableUncertain db agentId protectedUncertainEffectId).foldlM compactEffect db
  let bound := dropUnboundTombstones compacted agentId
  let kept ← (staleReceipts bound agentId).foldlM deleteReceipt bound
  return trimObserved (compactSupervisedTerminalHistory kept agentId) agentId

/-! ## Stopping a turn -/

/-- States an interrupt may settle from. -/
def interruptible : SupervisedInboxState → Bool
  | .pending | .dispatching | .awaitingResult | .resultRecovery | .retryable | .blocked => true
  | _ => false

/-- The row of a stopped turn: a proven native failure keeps its own receipt. -/
def stopped (item : SupervisedInboxItem) (failure : Option TerminalOutcome)
    (detail now : String) : SupervisedInboxItem :=
  match failure with
  | some _ =>
    { item with
      state := .acknowledgedFailed, failureCode := none, blockedByInboxItemId := none
      nextAttemptAtMs := none, acknowledgedAt := some now }
  | none =>
    { item with
      state := .cancelledByUser, lastError := some detail, failureCode := none
      acknowledgedAt := some now }.recordEvent
      (.phase .userCancelled (toString item.fifoSequence)) .userCancelled

/-- `cancelInterruptedSupervisedTurn`. A missing item, and one past the commit of its
publication, is left alone. -/
def cancelInterruptedSupervisedTurn (db : Database) (inboxItemId detail now : String)
    (expected : Option (String × String)) : Except String Database := do
  match db.item inboxItemId with
  | none => return db
  | some item =>
    require (expected.all fun (agentId, roomId) => item.agentId = agentId && item.roomId = roomId)
      "Interrupted-turn settlement does not match the exact active delivery identity."
    if interruptible item.state then
      assertCurrentHead db item
      let failure ← readDurableNativeFailure item
      pruneSupervisedAgentHistory
        (settleSupervisedTerminalItem (db.putItem (stopped item failure detail now)) item now)
        item.agentId none
    else return db

end LetAgents.Inbox.Retention

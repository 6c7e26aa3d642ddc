import LetAgents.Inbox.Pruning
import LetAgents.Inbox.Store

/-!
# What a transaction may write

One constructor for each way a transaction writes a row, with the checks that came
before it: `RowWrite` for the items, `NewRow` for inserted items, `EffectWrite` and
`NewEffect` for effects. `Executes` chains the statements of one transaction; its
checks are on the database the transaction started from.
-/
namespace LetAgents.Inbox.Writes

open Lib.Js Records Retention DeliveryDrain Ingress Effects Delivery RoomMove Repair Store

/-! ## Items -/

/-- What `assertCurrentHead` checks. -/
def IsHead (db : Database) (item : SupervisedInboxItem) : Prop :=
  (db.head item.agentId).map (·.inboxItemId) = some item.inboxItemId

/-- The keys of events that report on a repair. -/
def notesRepair : EventKey → Bool
  | .conversationRestoring _ _ | .continuationRepairExhausted _ => true
  | _ => false

/-- Writes that leave the delivery columns alone. -/
inductive Annotates (item : SupervisedInboxItem) : SupervisedInboxItem → Prop where
  | columns (activation sourceMessage : JsValue) (lastError : Option String) :
      Annotates item { item with activation, sourceMessage, lastError }
  | event (lastError : Option String) {idempotencyKey : EventKey} (phase : InboxPhase)
      (notes : notesRepair idempotencyKey = true) :
      Annotates item ({ item with lastError }.recordEvent idempotencyKey phase)

/-- The patch of `retryBlocked`. -/
def retryPatch : TransitionPatch :=
  { blockedByInboxItemId := some none, nextAttemptAtMs := some none, failureCode := some none }

inductive RowWrite (db : Database) (item : SupervisedInboxItem) :
    Op → SupervisedInboxItem → Prop where
  | annotated {op : Op} {written : SupervisedInboxItem} (notes : Annotates item written) :
      RowWrite db item op written
  | transitioned {op : Op} {next : SupervisedInboxState} {patch : TransitionPatch} {now : String}
      (call : op = .transition item.inboxItemId next patch now ∨
        (op = .retryBlocked item.inboxItemId now ∧ next = .pending ∧ patch = retryPatch))
      (allowed : assertTransition db item next patch = .ok ()) :
      RowWrite db item op (recordTransition (patch.row item next now))
  | claimed {expected : Option (Option InboxHeadSnapshot)} {now : String}
      (head : db.head item.agentId = some item) (pending : item.state = .pending)
      (admitted : deliveryDrainAllowsAdmission db item = true) :
      RowWrite db item (.claimHead item.agentId expected now) (claimed item)
  | turnStarted {providerTurnId : String} {authority : TurnAuthority}
      (dispatching : item.state = .dispatching) (head : IsHead db item)
      (nonblank : isBlank providerTurnId = false)
      (sameTurn : present item.providerTurnId → item.providerTurnId = some providerTurnId)
      (sameBinding : present item.providerTurnId →
        item.binding = some (turnBinding item providerTurnId authority))
      (unbound : present item.providerTurnId = false → item.binding = none)
      (unique : item.binding = none → ∀ other ∈ db.inbox, other.binding.all fun binding =>
        ¬ (binding.agentId = item.agentId ∧
          binding.providerContinuationId = authority.providerContinuationId ∧
          binding.providerTurnId = providerTurnId)) :
      RowWrite db item (.checkpointTurnStarted item.inboxItemId providerTurnId authority)
        (turnStarted item providerTurnId authority)
  | retried {input : RetryFailure} (head : IsHead db item)
      (reset : input.resetUndispatchedTurnId.all fun turnId =>
        input.domain = .preDispatch && isBlank turnId = false)
      (noFailure : readDurableNativeFailure item = .ok none)
      (evidence : assertRetryEvidence db item input = .ok ()) :
      RowWrite db item (.recordRetryFailure item.inboxItemId input) (retried item input)
  | handedBack (head : IsHead db item)
      (state : item.state = .dispatching ∨ item.state = .retryable)
      (unstarted : present item.providerTurnId = false) (silent : hasOutcome item.outcome = false)
      (open' : item.terminal = none) :
      RowWrite db item (.resetPreNativeHandoff item.inboxItemId) (handedBack item)
  | finished {input : NormalizedTerminal} {binding : ProviderTurnBinding}
      (named : item.inboxItemId = input.inboxItemId)
      (authority : assertTerminalAuthority db item input = .ok binding)
      (prior : ∀ terminal ∈ item.terminal, terminal.turn = (terminalOf input).turn ∧
        terminal.outcome = .unreadable)
      (unique : ∀ other ∈ db.inbox, other.inboxItemId ≠ item.inboxItemId →
        other.terminal.all fun terminal => terminal.turn ≠ (terminalOf input).turn) :
      RowWrite db item (.checkpointNormalizedTerminal input) (finished item input)
  | outcomeRecorded {outcome : OutcomeText} (head : IsHead db item)
      (state : item.state = .dispatching ∨ item.state = .awaitingResult)
      (noFailure : readDurableNativeFailure item = .ok none)
      (kind : failureKind (some outcome) = none) :
      RowWrite db item (.checkpointTerminalOutcome item.inboxItemId outcome)
        (outcomeRecorded item outcome)
  | published {input : CheckpointPublication} (named : item.inboxItemId = input.inboxItemId)
      (publishing : item.state = .publishing) (room : item.roomId = input.roomId) :
      RowWrite db item (.checkpointPublication input) (published item input)
  | skipped {now : String} (head : IsHead db item) (blocked : item.state = .blocked)
      (unstarted : neverStarted item = true) :
      RowWrite db item (.skipBlocked item.inboxItemId now) (skipped item now)
  | stopped {detail now : String} {expected : Option (String × String)}
      {failure : Option TerminalOutcome} (head : IsHead db item)
      (state : interruptible item.state = true)
      (proven : readDurableNativeFailure item = .ok failure) :
      RowWrite db item (.cancelInterruptedTurn item.inboxItemId detail expected now)
        (stopped item failure detail now)
  | unused {detail now : String} (head : IsHead db item) (pending : item.state = .pending)
      (unstarted : present item.providerTurnId = false)
      (silent : hasOutcome item.outcome = false) :
      RowWrite db item (.finishUnusedTaskContinuation item.inboxItemId detail now)
        (unused item detail now)
  | recovered {resetUnstarted : Bool} {now : String} {failure : Option TerminalOutcome}
      {next : SupervisedInboxState} {error : Option String}
      (unsettled : item.state.isFinal = false)
      (proven : readDurableNativeFailure item = .ok failure)
      (decided : recoveryDecision resetUnstarted item failure = some (next, error)) :
      RowWrite db item (.normalizeStartupRecovery item.agentId resetUnstarted now)
        (recovered item next error now)
  | released {repairId continuation : String} (head : IsHead db item)
      (blocked : item.state = .blocked) (unstarted : neverStarted item = true) :
      RowWrite db item (.commitContinuationRepair repairId continuation) (released item repairId)
  | roomMoveCancelled {input : CommitRoomMoveQueue} {now : String}
      (leaves : leavesRoom input item = true) :
      RowWrite db item (.commitRoomMoveQueue input now)
        (roomMoveCancelled input.operationId now item)
  | revived {input : RollbackRoomMoveIngress} (owned : revivable input item = true) :
      RowWrite db item (.rollbackRoomMoveIngress input) (revived input.operationId item)

/-- A row after a transaction: written at most once, and perhaps trimmed. -/
def RowStep (db : Database) (op : Op) (item next : SupervisedInboxItem) : Prop :=
  ∃ written, (written = item ∨ RowWrite db item op written) ∧ Pruning.Trims written next

/-- The operations that insert items, and the rows they insert. -/
inductive NewRow (db : Database) : Op → SupervisedInboxItem → Prop where
  | polled {input : PollIngestion} (message : IngressMessage) (fifoSequence : Nat)
      (allowed : assertDeliveryDrainIngressAllowed db input.agentId = .ok ()) :
      NewRow db (.commitPollIngestion input)
        (newItem message.uuid input.agentId input.roomId message.sourceMessageId
          message.sourceMessage message.activation fifoSequence)
  | synthetic {input : SyntheticMessage} (fifoSequence : Nat)
      (allowed : assertDeliveryDrainIngressAllowed db input.agentId = .ok ()) :
      NewRow db (.insertSyntheticMessage input)
        (newItem input.uuid input.agentId input.roomId input.sourceMessageId input.sourceMessage
          input.activation fifoSequence)
  | continuation {input : EnqueueTaskContinuation} (sourceMessageId : String)
      (sourceMessage activation : JsValue) (fifoSequence : Nat)
      (allowed : assertDeliveryDrainIngressAllowed db input.agentId = .ok ()) :
      NewRow db (.enqueueTaskContinuation input)
        (continuationChild input (newItem input.uuid input.agentId input.roomId sourceMessageId
          sourceMessage activation fifoSequence))

/-! ## Effects -/

inductive EffectWrite (db : Database) : Op → EffectRow → EffectRow → Prop where
  | proposed {input : PrepareEffect} {effect : EffectRow} (resultJson : String)
      (tool : effect.toolName = "complete_room_turn") :
      EffectWrite db (.prepareEffect input) effect (completed resultJson input.now effect)
  | doubted {input : PrepareEffect} {effect : EffectRow} (error : Option String)
      (executing : effect.state = .executing) (mutation : effect.mutation = true) :
      EffectWrite db (.prepareEffect input) effect
        { effect with state := .uncertain, error, updatedAt := input.now }
  | returned {input : PrepareEffect} {effect : EffectRow} (error : Option String)
      (executing : effect.state = .executing) (readOnly : effect.mutation = false) :
      EffectWrite db (.prepareEffect input) effect
        { effect with state := .prepared, error, updatedAt := input.now }
  | rejected {input : MarkEffectExecuting} {effect : EffectRow} (error : Option String)
      (prepared : effect.state = .prepared) :
      EffectWrite db (.markEffectExecuting input) effect
        { effect with state := .failed, error, updatedAt := input.now }
  | started {input : MarkEffectExecuting} {effect : EffectRow} {item : SupervisedInboxItem}
      (prepared : effect.state = .prepared)
      (turn : exactTurn effect.toSupervisedEffectRecord input.authority = true)
      (authority : assertActiveEffectAuthority db input.authority = .ok item) :
      EffectWrite db (.markEffectExecuting input) effect
        { effect with state := .executing, updatedAt := input.now }
  | staged {op : Op} {effect : EffectRow} (resultJson : Option String) (now : String)
      (prepared : effect.state = .prepared) :
      EffectWrite db op effect { effect with resultJson, updatedAt := now }
  | settled {input : CompleteEffect} {effect : EffectRow} (d : Database)
      (completable : effect.state = .executing ∨ effect.state = .uncertain ∨
        (effect.state = .prepared ∧ effect.toolName = "join_room")) :
      EffectWrite db (.completeEffect input) effect
        { effect with
          toSupervisedEffectRecord := completionOf d input effect.toSupervisedEffectRecord }
  | interrupted {op : Op} {effect : EffectRow} (now : String) :
      EffectWrite db op effect (interruptedEffect now effect)

inductive TombstoneWrite : Op → EffectTombstone → EffectTombstone → Prop where
  | settled {input : CompleteEffect} {tombstone : EffectTombstone} (d : Database) :
      TombstoneWrite (.completeEffect input) tombstone
        { tombstone with
          toSupervisedEffectRecord := completionOf d input tombstone.toSupervisedEffectRecord }

/-- The operations that admit effects, and the rows they insert. -/
inductive NewEffect (db : Database) : Op → EffectRow → Prop where
  | prepared {input : PrepareEffect} {request : RequestText} {item : SupervisedInboxItem}
      (mutation : Bool) (state : EffectState) (resultJson : Option String)
      (serialized : input.request.text = some request)
      (noEffect : findEffect db input.identity = none)
      (noTombstone : findTombstone db input.identity = none)
      (authority : assertActiveEffectAuthority db input.authority = .ok item)
      (states : (state = .prepared ∧ input.toolName ≠ "complete_room_turn" ∧
          mutation = isMutation input.toolName) ∨ state = .completed) :
      NewEffect db (.prepareEffect input) (newEffect input request mutation state resultJson)
  | roomMove {input : PrepareRoomMoveEffect} {request : RequestText} {item : SupervisedInboxItem}
      (serialized : input.request.text = some request)
      (noEffect : findEffect db input.identity = none)
      (authority : assertActiveEffectAuthority db input.authority = .ok item) :
      NewEffect db (.prepareRoomMoveEffect input) (roomMoveEffect input request)

/-! ## Transactions -/

/-- The operations that write the ingress cursor or the ingress health. -/
def writesIngress : Op → Bool
  | .bootstrapCursor _ | .commitRoomMoveCursor _ | .setIngressHealth _ | .commitPollIngestion _
  | .commitRoomMoveQueue _ _ | .rollbackRoomMoveIngress _ => true
  | _ => false

/-- The operations that write the journal of room moves. -/
def writesMoves : Op → Bool
  | .prepareRoomMoveEffect _ | .external _ _ => true
  | _ => false

/-- The operations of the drain journal. -/
def isDrain : Op → Bool
  | .prepareDeliveryDrain _ _ | .prepareCustodialForward _ _ _ | .cancelDeliveryDrain _ _
  | .markDeliveryDrainDispatch _ _ | .markDeliveryDrainUncertain _ _
  | .commitDeliveryDrain _ _ _ => true
  | _ => false

/-- The databases inside a transaction that started from `db`. -/
inductive Executes (db : Database) (op : Op) : Database → Prop where
  | start : Executes db op db
  | row {d : Database} {item written : SupervisedInboxItem} (rest : Executes db op d)
      (member : item ∈ db.inbox) (write : RowWrite db item op written) :
      Executes db op (d.putItem written)
  | rows {f : SupervisedInboxItem → SupervisedInboxItem}
      (writes : ∀ item ∈ db.inbox, f item = item ∨ RowWrite db item op (f item)) :
      Executes db op { db with inbox := db.inbox.map f }
  | insert {d issued : Database} {item : SupervisedInboxItem} (rest : Executes db op d)
      (fresh : d.issueFor item.inboxItemId item.sourceMessageId = .ok issued)
      (fifo : item.fifoSequence = d.maxFifo item.agentId + 1) (new : NewRow db op item) :
      Executes db op { issued with inbox := d.inbox ++ [item] }
  | settle {d : Database} {item : SupervisedInboxItem} {now : String} (rest : Executes db op d)
      (member : item ∈ db.inbox) : Executes db op (settleSupervisedTerminalItem d item now)
  | prune {d next : Database} {agentId : String} {keep : Option String} (rest : Executes db op d)
      (pruned : pruneSupervisedAgentHistory d agentId keep = .ok next) : Executes db op next
  | remove {agentId : String} {next : Database} (call : op = .removeAgent agentId)
      (removed : removeAgent db agentId = .ok next) : Executes db op next
  | ingress {d : Database} {cursors : String → Option IngressCursor}
      {health : String → Option IngressHealth} (rest : Executes db op d)
      (writes : writesIngress op = true) : Executes db op { d with cursors, health }
  | observe {d : Database} {observed : List ObservedMessage} (rest : Executes db op d) :
      Executes db op { d with observed }
  | repair {d : Database} {repairs : List ProviderContinuationRepair} (rest : Executes db op d) :
      Executes db op { d with repairs }
  | issue {d issued : Database} {uuid : String} (rest : Executes db op d)
      (fresh : d.issue uuid = .ok issued) : Executes db op issued
  | effects {d : Database} {f : EffectRow → EffectRow} (rest : Executes db op d)
      (writes : ∀ effect ∈ d.effects, f effect = effect ∨ EffectWrite db op effect (f effect)) :
      Executes db op { d with effects := d.effects.map f }
  | tombstones {d : Database} {f : EffectTombstone → EffectTombstone} (rest : Executes db op d)
      (writes : ∀ row ∈ d.tombstones, f row = row ∨ TombstoneWrite op row (f row)) :
      Executes db op { d with tombstones := d.tombstones.map f }
  | admitted {issued : Database} {effect : EffectRow} (fresh : db.issue effect.effectId = .ok issued)
      (new : NewEffect db op effect) :
      Executes db op { issued with effects := db.effects ++ [effect] }
  | moves {d : Database} {roomMoves : List AgentRoomMove} (rest : Executes db op d)
      (writes : writesMoves op = true) : Executes db op { d with roomMoves }
  | drain {cutovers : List DeliveryDrainRecord} {cursors : String → Option IngressCursor}
      {host : Host} (writes : isDrain op = true)
      (ok : step db op = .ok { db with cutovers, cursors, host }) :
      Executes db op { db with cutovers, cursors, host }
  | external {host : Host} {roomMoves : List AgentRoomMove}
      (call : op = .external host roomMoves) : Executes db op { db with host, roomMoves }

end LetAgents.Inbox.Writes

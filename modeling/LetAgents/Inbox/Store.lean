import LetAgents.Lib.Replay
import LetAgents.Inbox.Repair
import LetAgents.Inbox.RoomMove

/-!
# The store

Source: src/apps/desktop/daemon/supervised-agent-inbox-store.ts:209-2400,
delivery-drain.ts:148-453.

Every transaction of the store is one value of `Op`; `step` runs it. A transaction
that throws is rolled back, so a daemon that stops between two transactions leaves
what the earlier ones committed. `external` stands for the writes of the daemon's
other owners: they may change the journals and authority rows that the store reads.
-/
namespace LetAgents.Inbox.Store

open Lib Records DeliveryDrain Ingress Effects Delivery RoomMove Repair

inductive Op where
  | bootstrapCursor (input : BootstrapCursor)
  | commitRoomMoveCursor (input : CommitRoomMoveCursor)
  | setIngressHealth (input : IngressHealthUpdate)
  | commitPollIngestion (input : PollIngestion)
  | insertSyntheticMessage (input : SyntheticMessage)
  | enqueueTaskContinuation (input : EnqueueTaskContinuation)
  | refreshTaskContinuationSnapshot (inboxItemId : String) (tasks : List ContinuityTask)
      (tasksJson : String)
  | finishUnusedTaskContinuation (inboxItemId detail now : String)
  | transition (inboxItemId : String) (next : SupervisedInboxState) (patch : TransitionPatch)
      (now : String)
  | retryBlocked (inboxItemId now : String)
  | claimHead (agentId : String) (expected : Option (Option InboxHeadSnapshot)) (now : String)
  | checkpointDispatchIntent (inboxItemId : String) (taskOwnerSessionId : Option String)
  | checkpointTurnStarted (inboxItemId providerTurnId : String) (authority : TurnAuthority)
  | recordRetryFailure (inboxItemId : String) (input : RetryFailure)
  | resetPreNativeHandoff (inboxItemId : String)
  | checkpointNormalizedTerminal (input : NormalizedTerminal)
  | checkpointTerminalOutcome (inboxItemId : String) (outcome : OutcomeText)
  | checkpointPublication (input : CheckpointPublication)
  | skipBlocked (inboxItemId now : String)
  | cancelInterruptedTurn (inboxItemId detail : String) (expected : Option (String × String))
      (now : String)
  | normalizeStartupRecovery (agentId : String) (resetUnstarted : Bool) (now : String)
  | normalizeInterruptedEffects (agentId : Option String) (now : String)
  | prepareEffect (input : PrepareEffect)
  | markEffectExecuting (input : MarkEffectExecuting)
  | stagePreparedEffectResult (effectId : String) (result : Option String) (now : String)
  | prepareRoomMoveEffect (input : PrepareRoomMoveEffect)
  | completeEffect (input : CompleteEffect)
  | beginContinuationRepair (input : BeginContinuationRepair)
  | checkpointContinuationReplacement (repairId replacementContinuation : String)
  | commitContinuationRepair (repairId authoritativeContinuation : String)
  | failContinuationRepair (repairId error : String)
  | exhaustCommittedContinuationRepair (inboxItemId repairId error : String)
  | commitRoomMoveQueue (input : CommitRoomMoveQueue) (now : String)
  | rollbackRoomMoveIngress (input : RollbackRoomMoveIngress)
  | pruneHistory (agentId : String)
  | removeAgent (agentId : String)
  | prepareDeliveryDrain (input : PrepareDeliveryDrain) (current : Option DaemonManifestEntry)
  | prepareCustodialForward (input : PrepareDeliveryDrain) (reverseOperationId : String)
      (current : Option DaemonManifestEntry)
  | cancelDeliveryDrain (operationId agentId : String)
  | markDeliveryDrainDispatch (input : DispatchDeliveryDrain)
      (current : Option DaemonManifestEntry)
  | markDeliveryDrainUncertain (operationId agentId : String)
  | commitDeliveryDrain (operationId agentId : String) (current : Option DaemonManifestEntry)
  | external (host : Host) (roomMoves : List AgentRoomMove)

def step (db : Database) : Op → Except String Database
  | .bootstrapCursor input => bootstrapCursor db input
  | .commitRoomMoveCursor input => commitRoomMoveCursor db input
  | .setIngressHealth input => setIngressHealth db input
  | .commitPollIngestion input => commitPollIngestion db input
  | .insertSyntheticMessage input => enqueueSyntheticMessage db input
  | .enqueueTaskContinuation input => enqueueTaskContinuation db input
  | .refreshTaskContinuationSnapshot inboxItemId tasks tasksJson =>
    refreshTaskContinuationSnapshot db inboxItemId tasks tasksJson
  | .finishUnusedTaskContinuation inboxItemId detail now =>
    finishUnusedTaskContinuation db inboxItemId detail now
  | .transition inboxItemId next patch now => transition db inboxItemId next patch now
  | .retryBlocked inboxItemId now => retryBlocked db inboxItemId now
  | .claimHead agentId expected now => (claimHead db agentId expected now).map Prod.snd
  | .checkpointDispatchIntent inboxItemId taskOwnerSessionId =>
    checkpointDispatchIntent db inboxItemId taskOwnerSessionId
  | .checkpointTurnStarted inboxItemId providerTurnId authority =>
    checkpointTurnStarted db inboxItemId providerTurnId authority
  | .recordRetryFailure inboxItemId input => recordRetryFailure db inboxItemId input
  | .resetPreNativeHandoff inboxItemId => resetPreNativeHandoff db inboxItemId
  | .checkpointNormalizedTerminal input => checkpointNormalizedTerminal db input
  | .checkpointTerminalOutcome inboxItemId outcome =>
    checkpointTerminalOutcome db inboxItemId outcome
  | .checkpointPublication input => checkpointPublication db input
  | .skipBlocked inboxItemId now => skipBlocked db inboxItemId now
  | .cancelInterruptedTurn inboxItemId detail expected now =>
    cancelInterruptedTurn db inboxItemId detail expected now
  | .normalizeStartupRecovery agentId resetUnstarted now =>
    normalizeStartupRecovery db agentId resetUnstarted now
  | .normalizeInterruptedEffects agentId now => normalizeInterruptedEffects db agentId now
  | .prepareEffect input => prepareEffect db input
  | .markEffectExecuting input => (markEffectExecuting db input).map Prod.fst
  | .stagePreparedEffectResult effectId result now =>
    stagePreparedEffectResult db effectId result now
  | .prepareRoomMoveEffect input => prepareRoomMoveEffect db input
  | .completeEffect input => completeEffect db input
  | .beginContinuationRepair input => beginContinuationRepair db input
  | .checkpointContinuationReplacement repairId replacementContinuation =>
    checkpointContinuationReplacement db repairId replacementContinuation
  | .commitContinuationRepair repairId authoritativeContinuation =>
    commitContinuationRepair db repairId authoritativeContinuation
  | .failContinuationRepair repairId error => failContinuationRepair db repairId error
  | .exhaustCommittedContinuationRepair inboxItemId repairId error =>
    exhaustCommittedContinuationRepair db inboxItemId repairId error
  | .commitRoomMoveQueue input now => commitRoomMoveQueue db input now
  | .rollbackRoomMoveIngress input => rollbackRoomMoveIngress db input
  | .pruneHistory agentId => pruneHistory db agentId
  | .removeAgent agentId => removeAgent db agentId
  | .prepareDeliveryDrain input current => prepareDeliveryDrain db input current
  | .prepareCustodialForward input reverseOperationId current =>
    prepareCustodialForward db input reverseOperationId current
  | .cancelDeliveryDrain operationId agentId => cancelDeliveryDrain db operationId agentId
  | .markDeliveryDrainDispatch input current => markDeliveryDrainDispatch db input current
  | .markDeliveryDrainUncertain operationId agentId =>
    markDeliveryDrainUncertain db operationId agentId
  | .commitDeliveryDrain operationId agentId current =>
    commitDeliveryDrain db operationId agentId current
  | .external host roomMoves => .ok { db with host, roomMoves }

/-- A daemon whose other owners have recorded nothing. -/
def Host.quiet : Host :=
  { pendingRuntimeRecovery := fun _ => false, runtime := fun _ => none
    configurations := fun _ => none, workerBindings := fun _ => none, deployments := fun _ => none
    executions := [], checkpoints := [], pollingActivations := [], controls := fun _ => none }

/-- The store before its first transaction. -/
def Database.initial (host : Host) : Database :=
  { inbox := [], effects := [], tombstones := [], cursors := fun _ => none
    health := fun _ => none, observed := [], repairs := [], roomMoves := [], cutovers := [], host
    issued := [] }

/-- The store after a log of attempted transactions. -/
def run (host : Host) (log : List Op) : Database :=
  Replay.replay step (Database.initial host) log

end LetAgents.Inbox.Store

import LetAgents.Inbox.Retention

/-!
# Delivery drains

Source: src/apps/desktop/daemon/delivery-drain.ts:38-453.

A drain moves an agent from the daemon inbox to custodial polling and back. Each
function is one transaction; the manifest entry, the provider handle and the native
boundary are what its caller passes.

The connection digest travels with the connection it is computed from.
-/
namespace LetAgents.Inbox.DeliveryDrain

open Lib.Js Lib.Checked Records Retention

structure ProviderActionHandle where
  workAttemptId : String
  pid : Option Nat
  providerContinuationId : Option String
  providerConnection : Option ProviderConnection
  appliedConfigurationRevision : Option Nat
  custodyLaunchAgentSessionId : Option String

inductive NativeTurnBoundary where
  | unknown
  | idle (providerContinuationId nativeProcessIdentity : String)
  | active (providerContinuationId nativeProcessIdentity providerTurnId : String)
  deriving DecidableEq

def NativeTurnBoundary.providerContinuationId : NativeTurnBoundary → Option String
  | .unknown => none
  | .idle continuation _ | .active continuation _ _ => some continuation

def NativeTurnBoundary.nativeProcessIdentity : NativeTurnBoundary → Option String
  | .unknown => none
  | .idle _ identity | .active _ identity _ => some identity

def NativeTurnBoundary.isIdle : NativeTurnBoundary → Bool
  | .idle _ _ => true
  | _ => false

def NativeTurnBoundary.activeTurnId : NativeTurnBoundary → Option String
  | .active _ _ turnId => some turnId
  | _ => none

structure ProviderRuntimeReference where
  workAttemptId : String
  executionGenerationId : String
  providerContinuationId : String
  providerConnection : Option ProviderConnection
  custodialLaunchAgentSessionId : Option String

/-- The fields of a manifest entry that a drain checks. -/
structure DaemonManifestEntry where
  id : String
  roomId : String
  provider : String
  deliveryMode : Option DeliveryMode
  desiredState : String
  condition : String
  workAttemptId : Option String
  providerRef : Option ProviderRuntimeReference
  deliveryCutover : Bool

structure PrepareDeliveryDrain where
  requestId : String
  operationId : String
  agentId : String
  roomId : String
  executionGenerationId : String
  handle : ProviderActionHandle
  boundary : NativeTurnBoundary

/-! ## Gates -/

def readDeliveryDrain (db : Database) (operationId : String) : Option DeliveryDrainRecord :=
  db.cutovers.find? fun cutover => cutover.operationId = operationId

def unresolvedDeliveryDrain (db : Database) (agentId : String) : Option DeliveryDrainRecord :=
  db.cutovers.find? fun cutover => cutover.agentId = agentId && !cutover.phase.resolved

def assertNoDeliveryDrain (db : Database) (agentId : String) : Except String Unit :=
  require (unresolvedDeliveryDrain db agentId = none)
    "An unresolved delivery drain blocks this new operation."

def deliveryDrainBlocksRuntime (cutover : DeliveryDrainRecord) : Bool :=
  cutover.phase = .dispatching || cutover.phase = .uncertain

def custodialPollingV1 : String := "custodial_polling_v1"

def assertDeliveryDrainIngressAllowed (db : Database) (agentId : String) : Except String Unit :=
  require (¬ ((unresolvedDeliveryDrain db agentId).any deliveryDrainBlocksRuntime ||
      (db.host.configurations agentId).any fun configuration =>
        configuration.pollingContract = some custodialPollingV1))
    "Delivery drain freezes daemon inbox ingress."

def deliveryDrainAllowsAdmission (db : Database) (item : SupervisedInboxItem) : Bool :=
  match unresolvedDeliveryDrain db item.agentId with
  | none => true
  | some drain =>
    if drain.authorityVersion ≠ some 1 || drain.strategy ≠ .drain ||
        drain.fromMode ≠ .daemonInbox || (drain.phase ≠ .prepared && drain.phase ≠ .draining) ||
        drain.roomId ≠ some item.roomId || drain.admittedInboxItemId ≠ some item.inboxItemId ||
        drain.admittedSourceMessageId ≠ some item.sourceMessageId ||
        drain.admittedActionId ≠ some item.actionId then false
    else if !present item.providerTurnId then item.state = .dispatching
    else
      item.binding.any fun binding =>
        binding.agentId = item.agentId && binding.roomId = item.roomId &&
          some binding.providerTurnId = item.providerTurnId &&
          some binding.workAttemptId = drain.workAttemptId &&
          binding.originExecutionGenerationId = drain.executionGenerationId &&
          some binding.providerContinuationId = drain.nativeContinuationId

def assertNoPollingActivation (db : Database) (agentId : String) : Except String Unit :=
  require (¬ (db.host.pollingActivations.any fun activation => activation.agentId = agentId &&
      activation.phase ≠ .complete && activation.phase ≠ .cancelled))
    "An unresolved polling activation blocks this operation."

def unresolvedTurnControl (db : Database) (agentId : String) : Bool :=
  (db.host.controls agentId).any fun control => control.status.unresolved

/-- An unresolved room move, turn control or repair of the agent. -/
def unresolvedControlOperation (db : Database) (agentId : String) : Bool :=
  unresolvedTurnControl db agentId ||
    (db.roomMoves.any fun move => move.agentId = agentId && !move.phase.settled) ||
    db.repairs.any fun repair => repair.agentId = agentId && !repair.phase.settled

def sameProviderActionConnectionIdentity (expected actual : Option ProviderConnection) : Bool :=
  match expected, actual with
  | some expected, some actual =>
    expected.kind = actual.kind && expected.pid.isSome && expected.pid = actual.pid &&
      present expected.processIdentity && expected.processIdentity = actual.processIdentity &&
      (if expected.kind = "codex_app_server" then
        expected.url ≠ "" && expected.url = actual.url
      else if expected.kind = "opencode_server" then
        expected.url ≠ "" && expected.url = actual.url && present expected.serverAuthPath &&
          expected.serverAuthPath = actual.serverAuthPath
      else true)
  | _, _ => false

/-! ## Custodial predecessors -/

def executionOf (db : Database) (workAttemptId : Option String) (executionGenerationId : String) :
    Option WorkAttemptExecution :=
  db.host.executions.find? fun execution => some execution.workAttemptId = workAttemptId &&
    execution.executionGenerationId = executionGenerationId

def isCompletedReverse (cutover : DeliveryDrainRecord) : Bool :=
  cutover.phase = .complete && cutover.authorityVersion = some 1 &&
    cutover.provider = some "codex" && cutover.fromMode = .daemonInbox &&
    cutover.toMode = .mcpPolling && cutover.strategy = .drain

def assertCustodialPreActivation (db : Database) (cutover : DeliveryDrainRecord) :
    Except String Unit := do
  let lost := "Custodial forward requires its completed reverse predecessor and exact successor runtime."
  let previous ← found (cutover.predecessorOperationId.bind (readDeliveryDrain db)) lost
  let priorExecution ←
    found (executionOf db previous.workAttemptId previous.executionGenerationId) lost
  let execution ← found (executionOf db cutover.workAttemptId cutover.executionGenerationId) lost
  require (isCompletedReverse previous ∧ previous.predecessorOperationId = none ∧
      previous.agentId = cutover.agentId ∧ previous.roomId = cutover.roomId ∧
      previous.workAttemptId = cutover.workAttemptId ∧
      priorExecution.generation < execution.generation ∧
      ¬ (db.host.executions.any fun other => some other.workAttemptId = cutover.workAttemptId &&
        execution.generation < other.generation)) lost
  require (¬ (db.cutovers.any fun reverse =>
      reverse.agentId = cutover.agentId && reverse.workAttemptId = cutover.workAttemptId &&
        reverse.operationId ≠ previous.operationId && isCompletedReverse reverse &&
        (executionOf db reverse.workAttemptId reverse.executionGenerationId).all fun other =>
          priorExecution.generation ≤ other.generation))
    "Custodial forward requires the current reverse predecessor."
  assertNoPollingActivation db cutover.agentId
  require (¬ (db.host.pollingActivations.any fun activation => activation.phase ≠ .cancelled &&
      (activation.reverseOperationId = previous.operationId ||
        (activation.agentId = cutover.agentId &&
          some activation.workAttemptId = cutover.workAttemptId &&
          (executionOf db (some activation.workAttemptId) activation.executionGenerationId).all
            fun other => priorExecution.generation ≤ other.generation))))
    "Custodial forward is supported only before polling activation."

/-- The newest checkpoint of a work attempt that has a room cursor. -/
def savedRoomCursor (db : Database) (workAttemptId : Option String) : Option String :=
  (((db.host.checkpoints.filter fun checkpoint =>
    some checkpoint.workAttemptId = workAttemptId && checkpoint.roomCursor.isSome).insertionSort
      fun a b => b.sortOrder ≤ a.sortOrder).head?).bind (·.roomCursor)

def custodialAckCursor (db : Database) (cutover : DeliveryDrainRecord) : Except String String := do
  let lost := "Custodial forward lost its exact native launch and worker binding authority."
  let regressed := "Custodial forward requires a numeric ACK cursor without ingress or checkpoint regression."
  let binding ← found (db.host.workerBindings cutover.agentId) lost
  let deployment ← found (db.host.deployments cutover.agentId) lost
  require (some binding.roomId = cutover.roomId ∧
      some binding.workAttemptId = cutover.workAttemptId ∧
      binding.executionGenerationId = cutover.executionGenerationId ∧
      deployment.providerRefPresent ∧ deployment.providerWorkAttemptId = cutover.workAttemptId ∧
      deployment.providerExecutionGenerationId = some cutover.executionGenerationId ∧
      deployment.providerContinuationId = cutover.nativeContinuationId ∧
      deployment.providerConnection.kind = "codex_app_server" ∧
      deployment.providerConnection.pid = cutover.nativePid ∧
      deployment.providerConnection.processIdentity = cutover.nativeProcessIdentity ∧
      some deployment.providerConnection.sha256 = cutover.nativeConnectionSha256 ∧
      present deployment.custodialLaunchAgentSessionId ∧
      deployment.custodialLaunchAgentSessionId = some binding.agentSessionId) lost
  let roomCursor ← found binding.roomCursor regressed
  let ack ← found (numericCursor roomCursor) regressed
  let ingress ← found (db.cursors cutover.agentId) regressed
  let observed ← found (ingress.lastObservedMessageId.bind numericCursor) regressed
  let saved ← found ((savedRoomCursor db cutover.workAttemptId).bind numericCursor) regressed
  require (some ingress.roomId = cutover.roomId ∧ observed ≤ ack ∧ saved ≤ ack) regressed
  return roomCursor

def unsettledEffects (db : Database) (agentId : String) : Bool :=
  (db.effects.any fun effect => effect.agentId = agentId &&
    (effect.state = .prepared || effect.state = .executing || effect.state = .uncertain)) ||
    db.tombstones.any fun tombstone => tombstone.agentId = agentId && tombstone.state = .uncertain

/-! ## Preparing and cancelling -/

/-- The admitted head, when work on it may already have reached the provider. -/
def admittedHead (db : Database) (input : PrepareDeliveryDrain) :
    Except String (Option SupervisedInboxItem × Option String) := do
  match db.head input.agentId with
  | none => return (none, none)
  | some head =>
    if head.providerTurnId.isSome || head.outcome.isSome || head.state = .dispatching ||
        head.state = .awaitingResult || head.state = .resultRecovery ||
        head.state = .publishing then
      require (head.roomId = input.roomId)
        "Delivery drain FIFO head belongs to a different room."
      match head.providerTurnId with
      | some turnId =>
        require (head.binding.any fun binding => binding.agentId = input.agentId &&
            binding.roomId = input.roomId && binding.providerTurnId = turnId &&
            binding.workAttemptId = input.handle.workAttemptId &&
            binding.originExecutionGenerationId = input.executionGenerationId &&
            some binding.providerContinuationId = input.handle.providerContinuationId)
          "Delivery drain cannot authenticate the admitted provider turn."
        return (some head, some turnId)
      | none =>
        require (head.state = .dispatching ∧ head.outcome = none)
          "Delivery drain cannot authenticate unbound recovery or publication."
        return (some head, none)
    else return (none, none)

/-- A repeated request names exactly the drain it names already. -/
def sameDrainRequest (input : PrepareDeliveryDrain) (fromMode toMode : DeliveryMode)
    (reverseOperationId : Option String) (connection : ProviderConnection)
    (cutover : DeliveryDrainRecord) : Bool :=
  cutover.operationId = input.operationId && cutover.requestId = input.requestId &&
    cutover.agentId = input.agentId && cutover.roomId = some input.roomId &&
    cutover.executionGenerationId = input.executionGenerationId &&
    cutover.authorityVersion = some 1 && cutover.strategy = .drain &&
    cutover.fromMode = fromMode && cutover.toMode = toMode &&
    cutover.predecessorOperationId = reverseOperationId &&
    cutover.workAttemptId = some input.handle.workAttemptId &&
    cutover.nativeContinuationId = input.handle.providerContinuationId &&
    cutover.nativeConnectionSha256 = some connection.sha256 &&
    input.boundary.activeTurnId.all fun turnId => cutover.nativeTargetTurnId = some turnId

def currentExecutionAuthority (db : Database) (input : PrepareDeliveryDrain)
    (fromMode : DeliveryMode) (connection : ProviderConnection)
    (current : Option DaemonManifestEntry) : Bool :=
  current.any fun current => current.id = input.agentId && current.roomId = input.roomId &&
    current.provider = "codex" && current.deliveryMode.getD .mcpPolling = fromMode &&
    current.desiredState = "running" && current.condition = "none" &&
    current.workAttemptId = some input.handle.workAttemptId &&
    (current.providerRef.any fun reference =>
      reference.workAttemptId = input.handle.workAttemptId &&
        reference.executionGenerationId = input.executionGenerationId &&
        some reference.providerContinuationId = input.handle.providerContinuationId &&
        sameProviderActionConnectionIdentity reference.providerConnection (some connection)) &&
    db.host.executions.any fun execution =>
      execution.executionGenerationId = input.executionGenerationId &&
        execution.workAttemptId = input.handle.workAttemptId && !execution.terminal

def prepareOwnedDrain (db : Database) (input : PrepareDeliveryDrain)
    (current : Option DaemonManifestEntry) (reverseOperationId : Option String) :
    Except String Database := do
  let forward := reverseOperationId.isSome
  let fromMode : DeliveryMode := if forward then .mcpPolling else .daemonInbox
  let toMode : DeliveryMode := if forward then .daemonInbox else .mcpPolling
  require (∀ value ∈ [input.requestId, input.operationId, input.agentId, input.roomId,
      input.executionGenerationId, input.handle.workAttemptId], isBlank value = false)
    "Delivery drain requires exact non-empty coordinates."
  let unauthenticated := "Delivery drain requires an authenticated Codex native boundary."
  let connection ← found input.handle.providerConnection unauthenticated
  require (connection.kind = "codex_app_server" ∧
      sameProviderActionConnectionIdentity (some connection) (some connection) ∧
      input.handle.pid = connection.pid ∧
      (input.handle.providerContinuationId.any fun value => isBlank value = false) ∧
      input.boundary ≠ .unknown ∧
      (forward → input.boundary.isIdle) ∧
      input.boundary.providerContinuationId = input.handle.providerContinuationId ∧
      input.boundary.nativeProcessIdentity = connection.processIdentity) unauthenticated
  match db.cutovers.find? fun cutover =>
      cutover.requestId = input.requestId || cutover.operationId = input.operationId with
  | some prior =>
    require (sameDrainRequest input fromMode toMode reverseOperationId connection prior)
      "Delivery drain request id is already bound to different coordinates."
    return db
  | none =>
    require (currentExecutionAuthority db input fromMode connection current)
      "Delivery drain lost its exact execution authority."
    let configuration ← found (db.host.configurations input.agentId)
      "Cannot read properties of undefined (reading 'config_revision')"
    require (some configuration.configRevision = configuration.runtimeConfigurationRevision ∧
        (forward → configuration.pollingContract = some custodialPollingV1) ∧
        (forward → input.handle.custodyLaunchAgentSessionId.all fun session =>
          current.any fun current => current.providerRef.any fun reference =>
            reference.custodialLaunchAgentSessionId = some session) ∧
        (input.handle.appliedConfigurationRevision.all fun revision =>
          configuration.runtimeConfigurationRevision = some revision))
      "Delivery drain requires the current applied provider configuration."
    assertNoDeliveryDrain db input.agentId
    assertNoPollingActivation db input.agentId
    require (¬ ((current.any fun current => current.deliveryCutover) ||
        unresolvedControlOperation db input.agentId))
      "Delivery drain conflicts with an unresolved control operation."
    let (admitted, nativeTurn) ← admittedHead db input
    require (input.boundary.activeTurnId.all fun turnId =>
        isBlank turnId = false && nativeTurn = some turnId)
      "Delivery drain native boundary does not match the admitted turn."
    let cutover : DeliveryDrainRecord :=
      { operationId := input.operationId, requestId := input.requestId
        agentId := input.agentId, executionGenerationId := input.executionGenerationId
        predecessorOperationId := reverseOperationId, fromMode, toMode
        strategy := .drain, phase := .draining, authorityVersion := some 1
        roomId := some input.roomId, workAttemptId := some input.handle.workAttemptId
        provider := some "codex", nativeContinuationId := input.handle.providerContinuationId
        nativeConnectionSha256 := some connection.sha256, nativePid := connection.pid
        nativeProcessIdentity := connection.processIdentity, nativeTargetTurnId := nativeTurn
        admittedInboxItemId := admitted.map (·.inboxItemId)
        admittedSourceMessageId := admitted.map (·.sourceMessageId)
        admittedActionId := admitted.map (·.actionId) }
    if forward then
      assertCustodialPreActivation db cutover
      require (¬ ((db.head input.agentId).isSome || unsettledEffects db input.agentId))
        "Custodial forward requires no pending inbox work or effects."
      let _ ← custodialAckCursor db cutover
      return { db with cutovers := db.cutovers ++ [cutover] }
    else return { db with cutovers := db.cutovers ++ [cutover] }

def prepareDeliveryDrain (db : Database) (input : PrepareDeliveryDrain)
    (current : Option DaemonManifestEntry) : Except String Database :=
  prepareOwnedDrain db input current none

def prepareCustodialForward (db : Database) (input : PrepareDeliveryDrain)
    (reverseOperationId : String) (current : Option DaemonManifestEntry) :
    Except String Database := do
  require (isBlank reverseOperationId = false)
    "Custodial forward requires an exact reverse predecessor."
  prepareOwnedDrain db input current (some reverseOperationId)

/-- `UPDATE execution_cutover_v2 SET phase=? WHERE operation_id=?`. -/
def setDrainPhase (db : Database) (operationId : String) (phase : DrainPhase) : Database :=
  { db with
    cutovers := db.cutovers.map fun cutover =>
      if cutover.operationId = operationId then { cutover with phase } else cutover }

def cancelDeliveryDrain (db : Database) (operationId agentId : String) :
    Except String Database := do
  let refused := "Delivery drain cannot be cancelled without exact pre-dispatch authority."
  let current ← found (readDeliveryDrain db operationId) refused
  require (current.agentId = agentId ∧ current.authorityVersion = some 1 ∧
      current.strategy = .drain ∧ (current.phase = .prepared ∨ current.phase = .draining ∨
        current.phase = .cancelled)) refused
  return setDrainPhase db operationId .cancelled

/-! ## Dispatching and committing -/

def ownedDrain (db : Database) (operationId : String) (agentId : Option String) :
    Except String DeliveryDrainRecord := do
  let lost := "Delivery drain has no exact native authority."
  let cutover ← found (readDeliveryDrain db operationId) lost
  require (agentId.all (fun agentId => cutover.agentId = agentId) ∧
      cutover.authorityVersion = some 1 ∧ cutover.provider = some "codex" ∧
      cutover.strategy = .drain ∧
      ((cutover.fromMode = .daemonInbox ∧ cutover.toMode = .mcpPolling ∧
          cutover.predecessorOperationId = none) ∨
        (cutover.fromMode = .mcpPolling ∧ cutover.toMode = .daemonInbox ∧
          cutover.predecessorOperationId ≠ none ∧ cutover.nativeTargetTurnId = none ∧
          cutover.admittedInboxItemId = none))) lost
  return cutover

def assertCurrentDrainAuthority (db : Database) (cutover : DeliveryDrainRecord)
    (current : Option DaemonManifestEntry) (allowDetached : Bool) : Except String Unit := do
  let lost := "Delivery drain lost its exact execution authority."
  let forward : Bool := cutover.fromMode = .mcpPolling
  let current ← found current lost
  let execution ← found (db.host.executions.find? fun execution =>
    execution.executionGenerationId = cutover.executionGenerationId &&
      some execution.workAttemptId = cutover.workAttemptId) lost
  require (current.id = cutover.agentId ∧ some current.roomId = cutover.roomId ∧
      some current.provider = cutover.provider ∧
      current.deliveryMode.getD .mcpPolling = cutover.fromMode ∧
      current.desiredState = "running" ∧ current.condition = "none" ∧
      current.workAttemptId = cutover.workAttemptId ∧
      ((allowDetached ∧ ¬ forward ∧ current.providerRef = none) ∨
        current.providerRef.any fun reference =>
          some reference.workAttemptId = cutover.workAttemptId &&
            reference.executionGenerationId = cutover.executionGenerationId &&
            some reference.providerContinuationId = cutover.nativeContinuationId &&
            reference.providerConnection.any fun connection =>
              connection.kind = "codex_app_server" &&
                some connection.sha256 = cutover.nativeConnectionSha256 &&
                connection.pid = cutover.nativePid &&
                connection.processIdentity = cutover.nativeProcessIdentity) ∧
      ¬ (db.host.executions.any fun other => some other.workAttemptId = cutover.workAttemptId &&
        execution.generation < other.generation)) lost
  let config ← found (db.host.configurations cutover.agentId)
    "Cannot read properties of undefined (reading 'polling_contract')"
  require (config.pollingContract = (if forward then some custodialPollingV1 else none) ∧
      some config.configRevision = config.runtimeConfigurationRevision)
    "Delivery drain requires the current applied provider configuration."
  if forward then
    assertCustodialPreActivation db cutover
    let _ ← custodialAckCursor db cutover
    noControlOperation current cutover
  else noControlOperation current cutover
where
  noControlOperation (current : DaemonManifestEntry) (cutover : DeliveryDrainRecord) :
      Except String Unit :=
    require (¬ (current.deliveryCutover || unresolvedControlOperation db cutover.agentId))
      "Delivery drain conflicts with an unresolved control operation."

/-- The admitted turn's records prove how it ended. -/
def assertAdmittedReceipt (cutover : DeliveryDrainRecord) (item : SupervisedInboxItem) :
    Except String Unit := do
  let lost := "Delivery drain admitted turn has no exact terminal receipt."
  require ((item.binding.any fun binding => binding.agentId = cutover.agentId &&
        some binding.roomId = cutover.roomId && some binding.workAttemptId = cutover.workAttemptId &&
        binding.originExecutionGenerationId = cutover.executionGenerationId &&
        some binding.providerContinuationId = cutover.nativeContinuationId &&
        some binding.providerTurnId = item.providerTurnId) ∧ item.terminalReason = none ∧
      item.acknowledgedAt.any fun at' => (dateParse at').isSome) lost
  let failure ← readDurableNativeFailure item
  if item.state = .acknowledgedFailed ∧ failure ≠ none then return ()
  else
    require (failure = none) "Delivery drain admitted failure does not match its receipt."
    if item.state = .cancelledByUser then return ()
    else
      let outcome ← found (item.outcome.filter fun text => text ≠ .plain "") lost
      let terminal ← found item.terminal lost
      require (terminal.agentId = cutover.agentId ∧
          terminal.executionGenerationId = cutover.executionGenerationId ∧
          some terminal.providerTurnId = item.providerTurnId ∧
          outcome.kind = .text terminal.outcome.text ∧
          outcome.text = .ofText terminal.normalizedText ∧
          outcome.evidence = .text terminal.evidenceSource.text) lost
      require ((item.state = .acknowledgedNoReply ∧ outcome.kind = .text "no_reply" ∧
            outcome.text = .null) ∨
          (item.state = .acknowledged ∧ outcome.kind = .text "reply" ∧
            (terminal.normalizedText.any fun text => isBlank text = false) ∧
            item.publication.any fun publication => publication.agentId = cutover.agentId &&
              some publication.roomId = cutover.roomId &&
              publication.clientMessageId = item.replyClientMessageId &&
              isBlank publication.canonicalMessageId = false)) lost

inductive DrainStatus where
  | waiting | queued | ready
  deriving DecidableEq

def deliveryDrainReadiness (db : Database) (operationId : String) :
    Except String (DeliveryDrainRecord × DrainStatus × Option String) := do
  let cutover ← ownedDrain db operationId none
  let cursorRow := db.cursors cutover.agentId
  require (cursorRow.all fun row => some row.roomId = cutover.roomId)
    "Delivery drain ingress cursor belongs to another room."
  let cursor ← if cutover.fromMode = .mcpPolling then do
      assertCustodialPreActivation db cutover
      let ack ← custodialAckCursor db cutover
      pure (some ack)
    else pure (cursorRow.bind (·.lastObservedMessageId))
  let effects : DrainStatus := if unsettledEffects db cutover.agentId then .waiting else .ready
  if (db.unsettled cutover.agentId).any fun item =>
      cutover.admittedInboxItemId ≠ some item.inboxItemId then
    return (cutover, .queued, cursor)
  else
    match cutover.admittedInboxItemId with
    | none => return (cutover, effects, cursor)
    | some admittedId =>
      let lost := "Delivery drain lost its exact admitted inbox item."
      let item ← found (db.item admittedId) lost
      require (item.agentId = cutover.agentId ∧ some item.roomId = cutover.roomId ∧
        some item.sourceMessageId = cutover.admittedSourceMessageId ∧
        some item.actionId = cutover.admittedActionId) lost
      if item.state.isFinal then
        assertAdmittedReceipt cutover item
        return (cutover, effects, cursor)
      else if deliveryDrainAllowsAdmission db item then return (cutover, .waiting, cursor)
      else return (cutover, .queued, cursor)

def requireReadyCursor (db : Database) (operationId : String) : Except String String := do
  let (_, status, cursor) ← deliveryDrainReadiness db operationId
  require (status = .ready)
    "Delivery drain cannot dispatch or commit with unsettled inbox work or effects."
  let exact := "Delivery drain requires an exact numeric ingress cursor."
  let cursor ← found cursor exact
  require ((numericCursor cursor).isSome) exact
  return cursor

structure DispatchDeliveryDrain where
  operationId : String
  agentId : String
  handle : ProviderActionHandle
  boundary : NativeTurnBoundary

def markDeliveryDrainDispatch (db : Database) (input : DispatchDeliveryDrain)
    (current : Option DaemonManifestEntry) : Except String Database := do
  let cutover ← ownedDrain db input.operationId (some input.agentId)
  require (cutover.phase = .prepared ∨ cutover.phase = .draining ∨ cutover.phase = .dispatching ∨
    cutover.phase = .uncertain) "Delivery drain cannot dispatch from its current phase."
  assertCurrentDrainAuthority db cutover current false
  let idle := "Delivery drain requires its exact authenticated native idle boundary."
  let reference ← found (current.bind (·.providerRef)) idle
  require (input.boundary.isIdle ∧
      input.boundary.providerContinuationId = cutover.nativeContinuationId ∧
      input.boundary.nativeProcessIdentity = cutover.nativeProcessIdentity ∧
      some input.handle.workAttemptId = cutover.workAttemptId ∧
      input.handle.providerContinuationId = cutover.nativeContinuationId ∧
      input.handle.pid = cutover.nativePid ∧
      sameProviderActionConnectionIdentity reference.providerConnection
        input.handle.providerConnection ∧
      (cutover.fromMode = .mcpPolling → input.handle.custodyLaunchAgentSessionId.all fun session =>
        reference.custodialLaunchAgentSessionId = some session) ∧
      (input.handle.appliedConfigurationRevision.all fun revision =>
        (db.host.configurations cutover.agentId).any fun configuration =>
          configuration.runtimeConfigurationRevision = some revision)) idle
  let _ ← requireReadyCursor db input.operationId
  if deliveryDrainBlocksRuntime cutover then return db
  else return setDrainPhase db input.operationId .dispatching

def markDeliveryDrainUncertain (db : Database) (operationId agentId : String) :
    Except String Database := do
  let cutover ← ownedDrain db operationId (some agentId)
  require (deliveryDrainBlocksRuntime cutover) "Delivery drain has no durable stop intent."
  return setDrainPhase db operationId .uncertain

/-- `last_observed_message_id` of the agent's cursor in a room. -/
def setIngressCursor (db : Database) (agentId : String) (roomId : Option String) (cursor : String) :
    Database :=
  match db.cursors agentId with
  | some row =>
    if some row.roomId = roomId then
      { db with
        cursors := Function.update db.cursors agentId
          (some { row with lastObservedMessageId := some cursor }) }
    else db
  | none => db

def setWorkerRoomCursor (host : Host) (agentId cursor : String) : Host :=
  { host with
    workerBindings := Function.update host.workerBindings agentId
      ((host.workerBindings agentId).map fun binding =>
        { binding with roomCursor := some cursor }) }

/-- The checkpoint and the configuration that a committed drain leaves. -/
def transferAuthority (host : Host) (cutover : DeliveryDrainRecord) (cursor : String) : Host :=
  let ofAttempt := host.checkpoints.filter fun checkpoint =>
    some checkpoint.workAttemptId = cutover.workAttemptId
  let sortOrder := (ofAttempt.map (·.sortOrder)).foldl max (-1) + 1
  { host with
    checkpoints := host.checkpoints ++ [{
      workAttemptId := cutover.workAttemptId.getD ""
      sortOrder
      roomCursor := some cursor
      providerContinuationId := cutover.nativeContinuationId }]
    configurations := Function.update host.configurations cutover.agentId
      ((host.configurations cutover.agentId).map fun configuration =>
        { configuration with
          deliveryMode := cutover.toMode
          pollingContract := if cutover.toMode = .mcpPolling then some custodialPollingV1 else none
          configRevision := configuration.configRevision + 1 }) }

def commitDeliveryDrain (db : Database) (operationId agentId : String)
    (current : Option DaemonManifestEntry) : Except String Database := do
  let cutover ← ownedDrain db operationId (some agentId)
  require (deliveryDrainBlocksRuntime cutover) "Delivery drain has no durable stop intent."
  assertCurrentDrainAuthority db cutover current true
  let cursor ← requireReadyCursor db operationId
  require ((db.host.workerBindings cutover.agentId).all fun binding =>
      some binding.roomId = cutover.roomId && some binding.workAttemptId = cutover.workAttemptId &&
        binding.executionGenerationId = cutover.executionGenerationId)
    "Delivery drain worker binding changed before cursor transfer."
  let handed := if cutover.fromMode = .mcpPolling then
      setIngressCursor db cutover.agentId cutover.roomId cursor
    else { db with host := setWorkerRoomCursor db.host cutover.agentId cursor }
  return setDrainPhase { handed with host := transferAuthority handed.host cutover cursor }
    operationId .complete

end LetAgents.Inbox.DeliveryDrain

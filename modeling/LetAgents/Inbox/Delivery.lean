import LetAgents.Inbox.Effects

/-!
# Delivery

Source: src/apps/desktop/daemon/supervised-agent-inbox-store.ts:625-650, 762-1131,
1674-1700, 1908-2066.

The writers of an item's delivery state. Each is one transaction on the item it
names; most of them require the item to be the head of its agent's queue.
-/
namespace LetAgents.Inbox.Delivery

open Lib.Js Lib.Checked Records Retention DeliveryDrain Ingress Effects

/-- Store the row of a settled item, settle its effects and prune. -/
def storeSettled (db : Database) (item written : SupervisedInboxItem) (now : String) :
    Except String Database :=
  pruneSupervisedAgentHistory (settleSupervisedTerminalItem (db.putItem written) item now)
    item.agentId none

/-! ## Transitions -/

/-- The columns a caller sets along with the state; `none` is an absent key. -/
structure TransitionPatch where
  providerTurnId : Option (Option String) := none
  outcome : Option (Option OutcomeText) := none
  lastError : Option (Option String) := none
  failureCode : Option (Option FailureCode) := none
  nextAttemptAtMs : Option (Option Int) := none
  blockedByInboxItemId : Option (Option String) := none

/-- The patch has no key, or only a failure detail. -/
def TransitionPatch.onlyFailureDetail (patch : TransitionPatch) : Bool :=
  patch.providerTurnId.isNone && patch.outcome.isNone && patch.failureCode.isNone &&
    patch.nextAttemptAtMs.isNone && patch.blockedByInboxItemId.isNone &&
    patch.lastError.all fun detail => detail.any fun text => isBlank text = false

/-- `Object.hasOwn(patch, "outcome") && patch.outcome !== item.outcome`. -/
def TransitionPatch.changesOutcome (patch : TransitionPatch) (item : SupervisedInboxItem) : Bool :=
  patch.outcome.any fun outcome => outcome ≠ item.outcome

def fencedByFailure : SupervisedInboxState → Bool
  | .pending | .publishing | .acknowledged | .acknowledgedNoReply | .cancelledByUser => true
  | _ => false

def TransitionPatch.row (patch : TransitionPatch) (item : SupervisedInboxItem)
    (next : SupervisedInboxState) (now : String) : SupervisedInboxItem :=
  { item with
    state := next
    providerTurnId := patch.providerTurnId.getD item.providerTurnId
    outcome := patch.outcome.getD item.outcome
    lastError := patch.lastError.getD item.lastError
    failureCode := patch.failureCode.getD item.failureCode
    blockedByInboxItemId := patch.blockedByInboxItemId.getD item.blockedByInboxItemId
    nextAttemptAtMs := patch.nextAttemptAtMs.getD item.nextAttemptAtMs
    acknowledgedAt := if next.isFinal then some now else none }

def phaseCount (item : SupervisedInboxItem) (phase : InboxPhase) : Nat :=
  (item.events.filter fun event => event.phase = phase).length

/-- The event of a transition, by the attempt, or by a count where phases repeat. -/
def recordTransition (item : SupervisedInboxItem) : SupervisedInboxItem :=
  match phaseForTransition item.state with
  | some phase =>
    let ordinal := if phase = .retryScheduled ∨ phase = .queued then phaseCount item phase + 1
      else item.attemptCount
    item.recordEvent (.phase phase (toString ordinal)) phase
  | none => item

def nativeOutcomeRefused : String := "Native failure outcomes require the exact terminal checkpoint."

/-- Everything `transition` checks before it writes. -/
def assertTransition (db : Database) (item : SupervisedInboxItem) (next : SupervisedInboxState)
    (patch : TransitionPatch) : Except String Unit := do
  require ((transitions item.state).contains next)
    ("Invalid supervised inbox transition: " ++ item.state.text ++ " -> " ++ next.text ++ ".")
  let nativeFailure ← readDurableNativeFailure item
  require (¬ (nativeFailure.isSome ∧ (patch.changesOutcome item ∨ fencedByFailure next)))
    "Exact native terminal failure cannot be overwritten or replayed."
  require (¬ (patch.changesOutcome item ∧
    (failureKind (patch.outcome.getD none)).isSome)) nativeOutcomeRefused
  require (next = .acknowledgedFailed →
    (db.head item.agentId).map (·.inboxItemId) = some item.inboxItemId)
    "Only the current FIFO head may change delivery state."
  require (next = .acknowledgedFailed → patch.onlyFailureDetail ∧ nativeFailure.isSome)
    "Failed settlement requires unchanged exact native terminal evidence."
  require (next.isFinal = false →
    (db.head item.agentId).map (·.inboxItemId) = some item.inboxItemId)
    "Only the current FIFO head may change delivery state."
  require (next = .dispatching → item.state = .pending)
    "Only the current pending FIFO head may be dispatched."
  require (next = .dispatching → deliveryDrainAllowsAdmission db item)
    "Delivery drain blocks new turn admission."
  require (patch.providerTurnId.all fun turnId => turnId = item.providerTurnId)
    "Provider turn identity may change only through the atomic turn-start checkpoint."
  require (patch.blockedByInboxItemId.all fun blocker => blocker.all fun id =>
    (db.item id).isSome) "FOREIGN KEY constraint failed"

def transition (db : Database) (inboxItemId : String) (next : SupervisedInboxState)
    (patch : TransitionPatch) (now : String) : Except String Database := do
  let item ← found (db.item inboxItemId) (unknownItem inboxItemId)
  assertTransition db item next patch
  let written := recordTransition (patch.row item next now)
  if next.isFinal then storeSettled db item written now
  else return db.putItem written

def retryBlocked (db : Database) (inboxItemId now : String) : Except String Database :=
  transition db inboxItemId .pending
    { blockedByInboxItemId := some none, nextAttemptAtMs := some none, failureCode := some none }
    now

/-! ## Claiming and dispatching -/

structure InboxHeadSnapshot where
  inboxItemId : String
  state : SupervisedInboxState
  providerTurnId : Option String
  outcome : Option OutcomeText
  deriving DecidableEq

def sameInboxHead (expected : Option InboxHeadSnapshot) (item : SupervisedInboxItem) : Bool :=
  expected = some ⟨item.inboxItemId, item.state, item.providerTurnId, item.outcome⟩

/-- An unresolved control stops the lane, but for the retryable control of the item. -/
def passesTurnControl (db : Database) (item : SupervisedInboxItem) : Bool :=
  (db.host.controls item.agentId).all fun control =>
    !control.status.unresolved ||
      (control.status = .retryable && control.inboxItemId = some item.inboxItemId &&
        control.inboxItemId.any fun id => isBlank id = false)

def claimed (item : SupervisedInboxItem) : SupervisedInboxItem := { item with state := .dispatching }

/-- The claimed item, or `none` where the source returns `null`. -/
def claimHead (db : Database) (agentId : String)
    (expected : Option (Option InboxHeadSnapshot)) (now : String) :
    Except String (Option SupervisedInboxItem × Database) := do
  if db.host.pendingRuntimeRecovery agentId then return (none, db)
  else
    match db.head agentId with
    | none => return (none, db)
    | some item =>
      if (expected.all fun expected => sameInboxHead expected item) &&
          passesTurnControl db item && deliveryDrainAllowsAdmission db item then
        if item.state = .resultRecovery then return (some item, db)
        else if item.state = .pending then
          let continuation ← readTaskContinuation db item
          let waits := continuation.isSome && item.nextAttemptAtMs.any fun due =>
            (dateParse now).any fun instant => instant < due
          if waits then return (none, db)
          else
            assertCurrentHead db item
            return (some (claimed item), db.putItem (claimed item))
        else return (none, db)
      else return (none, db)

def checkpointDispatchIntent (db : Database) (inboxItemId : String)
    (taskOwnerSessionId : Option String) : Except String Database := do
  let item ← found (db.item inboxItemId) (unknownItem inboxItemId)
  require (item.state = .dispatching ∧ present item.providerTurnId = false)
    "Provider dispatch intent requires an unstarted dispatching inbox item."
  assertCurrentHead db item
  require (deliveryDrainAllowsAdmission db item) "Delivery drain blocks new turn dispatch."
  return db.putItem { item with
    activation := item.activation.assign "task_continuity_dispatch_session_id"
      (match taskOwnerSessionId with
        | some session => .string session
        | none => .null) }

structure TurnAuthority where
  workAttemptId : String
  originExecutionGenerationId : String
  providerContinuationId : String

/-- The binding of an item to a provider turn. -/
def turnBinding (item : SupervisedInboxItem) (providerTurnId : String)
    (authority : TurnAuthority) : ProviderTurnBinding :=
  { agentId := item.agentId
    roomId := item.roomId
    workAttemptId := authority.workAttemptId
    originExecutionGenerationId := authority.originExecutionGenerationId
    providerContinuationId := authority.providerContinuationId
    providerTurnId }

/-- Start events of a turn are keyed by the attempt and the turn. -/
def turnStarted (item : SupervisedInboxItem) (providerTurnId : String)
    (authority : TurnAuthority) : SupervisedInboxItem :=
  let attemptCount := if present item.providerTurnId then item.attemptCount
    else item.attemptCount + 1
  { item with
    providerTurnId := some providerTurnId
    attemptCount
    binding := some (turnBinding item providerTurnId authority) }.recordEvent
    (.phase .turnStarted (toString attemptCount ++ ":" ++ providerTurnId)) .turnStarted

def checkpointTurnStarted (db : Database) (inboxItemId providerTurnId : String)
    (authority : TurnAuthority) : Except String Database := do
  require (isBlank providerTurnId = false)
    "Provider turn id is required for the turn-start checkpoint."
  requireField authority.workAttemptId "provider turn work_attempt_id"
  requireField authority.originExecutionGenerationId "provider turn origin_execution_generation_id"
  requireField authority.providerContinuationId "provider turn provider_continuation_id"
  let item ← found (db.item inboxItemId) (unknownItem inboxItemId)
  require (item.state = .dispatching)
    "Provider turn-start checkpoint requires a dispatching inbox item."
  assertCurrentHead db item
  require (present item.providerTurnId → item.providerTurnId = some providerTurnId)
    "Provider turn-start checkpoint conflicts with the durable exact turn id."
  require (present item.providerTurnId →
    item.binding = some (turnBinding item providerTurnId authority))
    "Provider turn-start checkpoint conflicts with the durable authority binding."
  require (present item.providerTurnId = false → item.binding = none)
    "Provider turn-start checkpoint found authority without a durable provider turn."
  require (item.binding = none → ∀ other ∈ db.inbox, other.binding.all fun binding =>
    ¬ (binding.agentId = item.agentId ∧
      binding.providerContinuationId = authority.providerContinuationId ∧
      binding.providerTurnId = providerTurnId))
    "UNIQUE constraint failed: supervised_agent_provider_turn_bindings.agent_id"
  return db.putItem (turnStarted item providerTurnId authority)

/-! ## Retries -/

structure RetryFailure where
  domain : SupervisedRetryDomain
  error : String
  resetUndispatchedTurnId : Option String

/-- Any effect or tombstone of the bound turn in the item's room. -/
def hasTurnEffect (db : Database) (item : SupervisedInboxItem) : Bool :=
  let ofTurn (effect : SupervisedEffectRecord) : Bool :=
    item.binding.any fun binding => effect.agentId = item.agentId &&
      effect.roomId = item.roomId &&
      effect.executionGenerationId = binding.originExecutionGenerationId &&
      some effect.providerTurnId = item.providerTurnId
  (db.effects.any fun effect => ofTurn effect.toSupervisedEffectRecord) ||
    db.tombstones.any fun tombstone => ofTurn tombstone.toSupervisedEffectRecord

/-- The binding carries the item's own agent, room and turn. -/
def exactBinding (item : SupervisedInboxItem) : Bool :=
  present item.providerTurnId && item.binding.any fun binding =>
    binding.agentId = item.agentId && binding.roomId = item.roomId &&
      some binding.providerTurnId = item.providerTurnId

def savedReply (outcome : Option OutcomeText) : Bool :=
  match outcome with
  | some outcome =>
    outcome.kind = .text "reply" && (match outcome.text with
      | .text text => !isBlank text
      | _ => false)
  | none => false

def inFlight : SupervisedInboxState → Bool
  | .dispatching | .awaitingResult | .resultRecovery => true
  | _ => false

/-- The evidence that a retry of each domain may not contradict. -/
def assertRetryEvidence (db : Database) (item : SupervisedInboxItem) (input : RetryFailure) :
    Except String Unit :=
  match input.domain with
  | .publication =>
    require (item.state = .publishing ∧ savedReply item.outcome)
      "Publication retry requires a publishing inbox item with its saved reply."
  | .resultRecovery => do
    require (inFlight item.state) "Retry does not match the exact in-flight provider turn."
    require (exactBinding item) "Retry is missing its exact provider-turn authority binding."
    require ((item.terminal.all fun terminal => terminal.outcome = .unreadable) ∧
      item.outcome.all fun outcome => outcome.kind = .text "unreadable")
      "Accepted terminal completion cannot consume a result-recovery retry."
  | .preDispatch =>
    match input.resetUndispatchedTurnId with
    | some turnId => do
      require (inFlight item.state ∧ item.providerTurnId = some turnId)
        "Retry does not match the exact in-flight provider turn."
      require (exactBinding item)
        "Retry is missing its exact provider-turn authority binding."
      require (item.terminal = none ∧ hasTurnEffect db item = false ∧
        hasOutcome item.outcome = false)
        "Undispatched reset found terminal or effect evidence and was refused."
    | none => do
      require (inFlight item.state) "Retry does not match the exact in-flight provider turn."
      require (present item.providerTurnId = false ∧ item.binding = none ∧
        hasOutcome item.outcome = false ∧ item.terminal = none ∧
        item.state ≠ .resultRecovery)
        "Pre-dispatch retry requires an unstarted dispatch without turn or terminal evidence."

/-- Does a `retry_scheduled` event with this key count for the domain? -/
def countsFor (domain : SupervisedRetryDomain) : EventKey → Bool
  | .retryFailure failed _ _ => failed = domain
  | .phase .retryScheduled _ => true
  | .undispatchedRetry _ => domain = .preDispatch
  | .resultRecoveryRetry _ => domain = .resultRecovery
  | _ => false

def retryAttempt (item : SupervisedInboxItem) (domain : SupervisedRetryDomain) : Nat :=
  (item.events.filter fun event => event.phase = .retryScheduled &&
    countsFor domain event.idempotencyKey).length + 1

def SupervisedRetryDomain.label : SupervisedRetryDomain → String
  | .resultRecovery => "Result recovery"
  | .publication => "Reply publication"
  | .preDispatch => "Pre-dispatch preparation"

/-- Is this failure given back to the queue without its turn? -/
def resetsTurn (item : SupervisedInboxItem) (input : RetryFailure) : Bool :=
  input.resetUndispatchedTurnId.isSome && retryAttempt item input.domain < 3

/-- The state after the failure: the third failure of a domain blocks. -/
def retryState (item : SupervisedInboxItem) (input : RetryFailure) : SupervisedInboxState :=
  if 3 ≤ retryAttempt item input.domain then .blocked
  else if input.resetUndispatchedTurnId.isSome then .pending
  else if item.state = .resultRecovery then .resultRecovery
  else .retryable

def retryError (item : SupervisedInboxItem) (input : RetryFailure) : String :=
  let attempt := retryAttempt item input.domain
  if 3 ≤ attempt then
    SupervisedRetryDomain.label input.domain ++ " failed " ++ toString attempt ++ " times: " ++
      input.error
  else input.error

/-- The columns after the failure. -/
def retriedRow (item : SupervisedInboxItem) (input : RetryFailure) : SupervisedInboxItem :=
  let reset := resetsTurn item input
  { item with
    state := retryState item input
    attemptCount := if reset then item.attemptCount - 1 else item.attemptCount
    providerTurnId := if reset then none else item.providerTurnId
    binding := if reset then none else item.binding
    lastError := some (retryError item input)
    failureCode := none
    blockedByInboxItemId := none
    nextAttemptAtMs := none }

/-- The row after the failure. -/
def retried (item : SupervisedInboxItem) (input : RetryFailure) : SupervisedInboxItem :=
  let attempt := retryAttempt item input.domain
  let row := (retriedRow item input).recordEvent (.retryFailure input.domain attempt false)
    .retryScheduled
  if 3 ≤ attempt then row.recordEvent (.retryFailure input.domain attempt true) .blocked else row

def recordRetryFailure (db : Database) (inboxItemId : String) (input : RetryFailure) :
    Except String Database := do
  require (input.resetUndispatchedTurnId.all fun turnId =>
    input.domain = .preDispatch && isBlank turnId = false)
    "Undispatched reset requires an exact provider turn id and pre-dispatch retry domain."
  let item ← found (db.item inboxItemId) (unknownItem inboxItemId)
  assertCurrentHead db item
  let nativeFailure ← readDurableNativeFailure item
  require (nativeFailure = none) "Exact native terminal failure cannot be retried."
  assertRetryEvidence db item input
  return db.putItem (retried item input)

/-- Back to the queue after a handoff that never reached the provider. -/
def handedBack (item : SupervisedInboxItem) : SupervisedInboxItem :=
  { item with
    state := .pending, lastError := none, failureCode := none, blockedByInboxItemId := none
    nextAttemptAtMs := none }.recordEvent (.handoffQueued (phaseCount item .queued + 1)) .queued

def resetPreNativeHandoff (db : Database) (inboxItemId : String) : Except String Database := do
  let item ← found (db.item inboxItemId) (unknownItem inboxItemId)
  require ((item.state = .dispatching ∨ item.state = .retryable) ∧
      present item.providerTurnId = false ∧ hasOutcome item.outcome = false)
    "Pre-native handoff reset requires an exact unstarted dispatch or retry-backoff intent."
  assertCurrentHead db item
  require (item.terminal = none)
    "Pre-native handoff reset found terminal evidence and was refused."
  return db.putItem (handedBack item)

/-! ## Terminal evidence -/

structure NormalizedTerminal where
  inboxItemId : String
  agentId : String
  executionGenerationId : String
  providerTurnId : String
  outcome : TerminalOutcome
  text : Option String
  evidence : EvidenceSource
  failureDetail : Option String
  taskOwnerSessionId : Option String
  terminalEvidence : Option TerminalEvidence
  now : String

/-- `failure_detail?.trim() || undefined`. -/
def NormalizedTerminal.detail (input : NormalizedTerminal) : Option String :=
  (input.failureDetail.map trim).filter fun text => text ≠ ""

/-- A failure names the exact continuation, turn and evidence. -/
def exactFailureEvidence (input : NormalizedTerminal) (binding : ProviderTurnBinding) : Bool :=
  input.text = none && input.evidence ≠ .none &&
    input.terminalEvidence.any fun evidence =>
      evidence.outcome = .text input.outcome.text && evidence.turnId = .text input.providerTurnId &&
        evidence.text = .null && evidence.evidence = .text input.evidence.text &&
        evidence.providerContinuationId = .text binding.providerContinuationId &&
        evidence.error = (match input.detail with
          | some detail => .text detail
          | none => .absent)

def terminalOf (input : NormalizedTerminal) : TerminalResult :=
  { agentId := input.agentId
    executionGenerationId := input.executionGenerationId
    providerTurnId := input.providerTurnId
    outcome := input.outcome
    normalizedText := input.text
    evidenceSource := input.evidence
    terminalEvidence := input.terminalEvidence }

/-- `JSON.stringify({ kind, text, evidence })`. -/
def outcomeOf (input : NormalizedTerminal) : OutcomeText :=
  .record (.text input.outcome.text) (.ofText input.text) (.text input.evidence.text) ""

/-- Only the worker stamped before dispatch inherits the work of a failed turn. -/
def failedActivation (item : SupervisedInboxItem) (input : NormalizedTerminal) : JsValue :=
  let dispatched := (item.activation.property "task_continuity_dispatch_session_id").text?
  let sameOwner := present input.taskOwnerSessionId && dispatched = input.taskOwnerSessionId
  let owner := if sameOwner then (input.taskOwnerSessionId.map JsValue.string).getD .null else .null
  let failedAt := if sameOwner then .string input.now else .null
  ((item.activation.assign "task_continuity_owner_session_id" owner).assign
    "task_continuity_failed_at" failedAt).assign "task_continuity_considered" .null

/-- The columns with the terminal result. -/
def finishedRow (item : SupervisedInboxItem) (input : NormalizedTerminal) : SupervisedInboxItem :=
  { item with
    terminal := some (terminalOf input)
    outcome := some (outcomeOf input)
    lastError := if input.outcome.nativeFailure then input.detail else item.lastError
    activation := if input.outcome = .failed then failedActivation item input
      else item.activation }

/-- The row after its terminal result is written. -/
def finished (item : SupervisedInboxItem) (input : NormalizedTerminal) : SupervisedInboxItem :=
  let row := (finishedRow item input).recordEvent
    (.phase .turnFinished (toString item.attemptCount ++ ":" ++ input.providerTurnId)) .turnFinished
  if input.outcome = .unreadable then
    row.recordEvent (.phase .resultUnreadable input.providerTurnId) .resultUnreadable
  else row

/-- Is the accepted completion kept silently instead of refusing the new evidence? -/
def keepsCompletion (prior : TerminalResult) (input : NormalizedTerminal) : Bool :=
  input.outcome = .unreadable ||
    (input.outcome.nativeFailure && (prior.outcome = .reply || prior.outcome = .noReply)) ||
    (prior.outcome = input.outcome && prior.normalizedText = input.text)

/-- The item's state, turn and binding match the evidence. -/
def assertTerminalAuthority (db : Database) (item : SupervisedInboxItem)
    (input : NormalizedTerminal) : Except String ProviderTurnBinding := do
  require (item.agentId = input.agentId ∧ item.providerTurnId = some input.providerTurnId)
    "Normalized terminal evidence does not match the exact inbox turn."
  require (inFlight item.state)
    "Normalized terminal evidence requires an in-flight or recovering result."
  assertCurrentHead db item
  let unbound := "Normalized terminal evidence does not match the durable provider-turn authority binding."
  let binding ← found item.binding unbound
  require (binding.agentId = item.agentId ∧ binding.roomId = item.roomId ∧
    binding.originExecutionGenerationId = input.executionGenerationId ∧
    binding.providerTurnId = input.providerTurnId) unbound
  require (input.outcome.nativeFailure = false → present input.failureDetail = false)
    "Only an exact native terminal failure may retain a failure detail."
  require (input.outcome.nativeFailure → exactFailureEvidence input binding)
    "Native terminal failure requires exact continuation, turn, and terminal evidence."
  return binding

def writeTerminal (db : Database) (item : SupervisedInboxItem) (input : NormalizedTerminal) :
    Except String Database := do
  require (∀ other ∈ db.inbox, other.inboxItemId ≠ item.inboxItemId →
    other.terminal.all fun terminal => terminal.turn ≠ (terminalOf input).turn)
    "UNIQUE constraint failed: supervised_agent_terminal_results.agent_id"
  return db.putItem (finished item input)

def checkpointNormalizedTerminal (db : Database) (input : NormalizedTerminal) :
    Except String Database := do
  let item ← found (db.item input.inboxItemId) (unknownItem input.inboxItemId)
  let _ ← assertTerminalAuthority db item input
  match item.terminal with
  | none => writeTerminal db item input
  | some prior =>
    require (prior.turn = (terminalOf input).turn)
      "Normalized terminal evidence conflicts with an earlier provider-turn authority identity."
    if prior.outcome = .unreadable then writeTerminal db item input
    else
      -- a definitive completion is monotonic
      require (keepsCompletion prior input)
        "Normalized terminal evidence conflicts with an already accepted completion."
      return db

/-- The row after an outcome text was checkpointed. -/
def outcomeRecorded (item : SupervisedInboxItem) (outcome : OutcomeText) : SupervisedInboxItem :=
  { item with outcome := some outcome }.recordEvent
    (.phase .turnFinished (toString item.attemptCount)) .turnFinished

def checkpointTerminalOutcome (db : Database) (inboxItemId : String) (outcome : OutcomeText) :
    Except String Database := do
  let item ← found (db.item inboxItemId) (unknownItem inboxItemId)
  require (item.state = .dispatching ∨ item.state = .awaitingResult)
    "Provider terminal evidence may only be checkpointed while delivery is in-flight."
  assertCurrentHead db item
  let nativeFailure ← readDurableNativeFailure item
  if nativeFailure.isSome then
    require (item.outcome = some outcome) "Exact native terminal failure cannot be overwritten."
    return db
  else
    require (failureKind (some outcome) = none) nativeOutcomeRefused
    return db.putItem (outcomeRecorded item outcome)

/-! ## Publishing and cancelling -/

structure CheckpointPublication where
  inboxItemId : String
  roomId : String
  canonicalMessageId : String
  now : String

def publicationOf (item : SupervisedInboxItem) (canonicalMessageId : String) : Publication :=
  { agentId := item.agentId, roomId := item.roomId, clientMessageId := item.replyClientMessageId
    canonicalMessageId }

/-- The row after its reply was published. -/
def published (item : SupervisedInboxItem) (input : CheckpointPublication) :
    SupervisedInboxItem :=
  { item with
    state := .acknowledged
    acknowledgedAt := some input.now
    publication := item.publication <|> some (publicationOf item input.canonicalMessageId) }.recordEvent
    (.phase .published (toString item.attemptCount)) .published

def checkpointPublication (db : Database) (input : CheckpointPublication) :
    Except String Database := do
  requireField input.inboxItemId "inbox_item_id"
  requireField input.roomId "room_id"
  requireField input.canonicalMessageId "canonical_message_id"
  let item ← found (db.item input.inboxItemId) "Unknown supervised inbox publication."
  require (item.roomId = input.roomId) "Canonical publication room does not match the inbox item."
  require (item.publication.all fun existing => existing.roomId = input.roomId &&
      existing.clientMessageId = item.replyClientMessageId &&
      existing.canonicalMessageId = input.canonicalMessageId)
    "Canonical publication conflicts with a prior checkpoint."
  require (item.state = .publishing ∨ (item.state = .acknowledged ∧ item.publication ≠ none))
    "Canonical publication requires a publishing inbox item or an idempotently acknowledged publication."
  if item.state = .publishing then
    require (item.publication = none → ∀ other ∈ db.inbox, other.publication.all fun publication =>
        ¬ (publication.roomId = item.roomId ∧
          (publication.clientMessageId = item.replyClientMessageId ∨
            publication.canonicalMessageId = input.canonicalMessageId)))
      "UNIQUE constraint failed: supervised_agent_publications.room_id"
    storeSettled db item (published item input) input.now
  else pruneSupervisedAgentHistory db item.agentId none

/-- The row after the user skipped it. -/
def skipped (item : SupervisedInboxItem) (now : String) : SupervisedInboxItem :=
  { item with
    state := .cancelledByUser, lastError := none, failureCode := none
    acknowledgedAt := some now }.recordEvent .userCancelled .userCancelled

/-- No attempt, turn or outcome. -/
def neverStarted (item : SupervisedInboxItem) : Bool :=
  item.attemptCount = 0 && !present item.providerTurnId && !hasOutcome item.outcome

def skipBlocked (db : Database) (inboxItemId now : String) : Except String Database := do
  let item ← found (db.item inboxItemId) "The blocked room message no longer exists."
  require (item.state = .blocked ∧ neverStarted item)
    "This message cannot be skipped because provider work may already have started."
  assertCurrentHead db item
  storeSettled db item (skipped item now) now

def cancelInterruptedTurn (db : Database) (inboxItemId detail : String)
    (expected : Option (String × String)) (now : String) : Except String Database :=
  cancelInterruptedSupervisedTurn db inboxItemId detail now expected

/-! ## Restarts -/

/-- What a persisted outcome proves, if anything. -/
def persistedTerminalOutcome (outcome : Option OutcomeText) : Option TerminalOutcome :=
  if savedReply outcome then some .reply
  else
    match outcome.map OutcomeText.kind with
    | some (.text "no_reply") => some .noReply
    | some (.text "unreadable") => some .unreadable
    | _ => none

def replyRecoveryError : SupervisedInboxState → String
  | .dispatching =>
    "Daemon restarted after a durable provider reply; publishing it without rerunning the provider."
  | .publishing => "Daemon restarted during publication; retrying the durable reply."
  | .retryable => "Retrying the durable reply after a recoverable failure."
  | _ => "Daemon restarted after a durable provider reply; publishing it."

/-- In-flight states that a restart must decide about. -/
def interrupted : SupervisedInboxState → Bool
  | .dispatching | .awaitingResult | .publishing | .retryable => true
  | _ => false

/-- The state and error of an item after a restart; `none` leaves it alone. -/
def recoveryDecision (resetUnstarted : Bool) (item : SupervisedInboxItem)
    (nativeFailure : Option TerminalOutcome) :
    Option (SupervisedInboxState × Option String) :=
  if nativeFailure.isSome then some (.acknowledgedFailed, item.lastError)
  else if item.state = .resultRecovery then
    some (.resultRecovery,
      some "Re-reading the same completed provider turn; no new model turn will start.")
  else if interrupted item.state then
    match persistedTerminalOutcome item.outcome with
    | some .reply => some (.pending, some (replyRecoveryError item.state))
    | some .noReply => some (.acknowledgedNoReply, none)
    | terminal =>
      if terminal = some .unreadable ∧ present item.providerTurnId then
        some (.resultRecovery,
          some "Provider completed, but its answer could not be read; re-reading the same turn without rerunning it.")
      else if present item.providerTurnId ∧ item.state ≠ .publishing then
        some (.pending,
          some "Daemon restarted while awaiting the exact persisted provider turn; recovering it without rerunning.")
      else if resetUnstarted ∧ item.state = .dispatching ∧ neverStarted item then
        some (.pending,
          some "Recovered an unstarted checkpoint-gated Cursor delivery; retrying without duplicate provider work.")
      else
        some (.blocked, some ("Daemon restarted during " ++ item.state.text ++
          " without authoritative terminal or publication evidence; acknowledgement is unsafe."))
  else none

/-- The row after a restart. -/
def recovered (item : SupervisedInboxItem) (next : SupervisedInboxState) (error : Option String)
    (now : String) : SupervisedInboxItem :=
  let row := { item with
    state := next, lastError := error, acknowledgedAt := if next.isFinal then some now else none }
  match phaseForTransition next with
  | some phase => row.recordEvent (.recovery phase item.attemptCount) phase
  | none => row

def recoverItem (resetUnstarted : Bool) (now : String) (db : Database)
    (item : SupervisedInboxItem) : Except String Database := do
  let nativeFailure ← readDurableNativeFailure item
  match recoveryDecision resetUnstarted item nativeFailure with
  | none => return db
  | some (next, error) =>
    let written := recovered item next error now
    if next.isFinal then storeSettled db item written now
    else return db.putItem written

def normalizeStartupRecovery (db : Database) (agentId : String) (resetUnstarted : Bool)
    (now : String) : Except String Database := do
  let normalized := normalizeInterruptedEffectsInTransaction db (some agentId) now
  let rows := (db.unsettled agentId).insertionSort fun a b => a.fifoSequence ≤ b.fifoSequence
  let settled ← rows.foldlM (recoverItem resetUnstarted now) normalized
  pruneSupervisedAgentHistory settled agentId none

end LetAgents.Inbox.Delivery

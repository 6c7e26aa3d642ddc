import LetAgents.Inbox.DeliveryDrain

/-!
# Ingress and task continuations

Source: src/apps/desktop/daemon/supervised-agent-inbox-store.ts:234-583, 1149-1160,
2118-2146 and task-continuity.ts.

A poll inserts each new message once with the next `fifo_sequence` of the agent and
moves the cursor forward; a synthetic message is inserted without a cursor. Each
operation returns the database it commits; an id that `randomUUID` returns is an
argument.
-/
namespace LetAgents.Inbox.Ingress

open Lib.Js Lib.Checked Records Retention DeliveryDrain

/-! ## Cursors and health -/

def roomChanged : String := "Supervised inbox ingress room changed for the exact agent identity."

structure BootstrapCursor where
  agentId : String
  roomId : String
  lastObservedMessageId : Option String

/-- `if (cursor !== null) this.requireNumericCursor(cursor)`. -/
def requireOptionalCursor (cursor : Option String) : Except String Unit :=
  match cursor with
  | some cursor => requireNumericCursor cursor
  | none => return ()

def putCursor (db : Database) (agentId : String) (cursor : Option IngressCursor) : Database :=
  { db with cursors := Function.update db.cursors agentId cursor }

def putHealth (db : Database) (agentId : String) (health : Option IngressHealth) : Database :=
  { db with health := Function.update db.health agentId health }

def bootstrapCursor (db : Database) (input : BootstrapCursor) : Except String Database := do
  requireField input.agentId "agent_id"
  requireField input.roomId "room_id"
  requireOptionalCursor input.lastObservedMessageId
  assertDeliveryDrainIngressAllowed db input.agentId
  match db.cursors input.agentId with
  | some existing =>
    require (existing.roomId = input.roomId) roomChanged
    return db
  | none => return putCursor db input.agentId (some ⟨input.roomId, input.lastObservedMessageId⟩)

structure CommitRoomMoveCursor where
  agentId : String
  sourceRoomId : String
  destinationRoomId : String
  lastObservedMessageId : Option String

/-- Retire the source cursor and install the destination one. -/
def commitRoomMoveCursor (db : Database) (input : CommitRoomMoveCursor) :
    Except String Database := do
  requireField input.agentId "agent_id"
  requireField input.sourceRoomId "source_room_id"
  requireField input.destinationRoomId "destination_room_id"
  require (input.sourceRoomId ≠ input.destinationRoomId)
    "Room-move cursor requires distinct rooms."
  requireOptionalCursor input.lastObservedMessageId
  let existing := (db.cursors input.agentId).filter fun row => row.roomId = input.destinationRoomId
  require (existing.all fun row => row.lastObservedMessageId = input.lastObservedMessageId)
    "Destination ingress cursor already has a different room-move boundary."
  match existing with
  | some _ => return db
  | none =>
    return putCursor db input.agentId
      (some ⟨input.destinationRoomId, input.lastObservedMessageId⟩)

structure IngressHealthUpdate where
  agentId : String
  roomId : String
  executionGenerationId : String
  state : IngressHealthState
  detail : Option String

def setIngressHealth (db : Database) (input : IngressHealthUpdate) : Except String Database :=
  return putHealth db input.agentId
    (some ⟨input.roomId, input.executionGenerationId, input.state, input.detail⟩)

/-! ## Inserting messages -/

/-- The row of a message, with its first two events. -/
def newItem (inboxItemId agentId roomId sourceMessageId : String)
    (sourceMessage activation : JsValue) (fifoSequence : Nat) : SupervisedInboxItem :=
  let identity := "supervised-room:" ++ agentId ++ ":" ++ roomId ++ ":" ++ sourceMessageId
  { inboxItemId, agentId, roomId, sourceMessageId, sourceMessage, activation, fifoSequence
    state := .pending
    attemptCount := 0
    actionId := identity ++ ":action:v1"
    replyClientMessageId := identity ++ ":reply:v1"
    providerTurnId := none
    outcome := none
    lastError := none
    failureCode := none
    blockedByInboxItemId := none
    nextAttemptAtMs := none
    terminalReason := none
    acknowledgedAt := none
    events := [⟨.phase .received "0", .received⟩, ⟨.phase .queued "0", .queued⟩]
    binding := none
    terminal := none
    publication := none }

/-- The agent's row for a message of a room. -/
def bySource (db : Database) (agentId roomId sourceMessageId : String) :
    Option SupervisedInboxItem :=
  db.inbox.find? fun item => item.agentId = agentId && item.roomId = roomId &&
    item.sourceMessageId = sourceMessageId

structure IngressMessage where
  sourceMessageId : String
  sourceMessage : JsValue
  activation : JsValue
  uuid : String

/-- One message of a poll: a known message keeps its row. -/
def ingestMessage (agentId roomId : String) (db : Database) (message : IngressMessage) :
    Except String Database := do
  requireField message.sourceMessageId "source_message_id"
  match bySource db agentId roomId message.sourceMessageId with
  | some _ => return db
  | none =>
    let issued ← db.issueFor message.uuid message.sourceMessageId
    return { issued with
      inbox := db.inbox ++ [newItem message.uuid agentId roomId message.sourceMessageId
        message.sourceMessage message.activation (db.maxFifo agentId + 1)] }

/-- One observed message: `ON CONFLICT DO NOTHING`. -/
def observeMessage (agentId roomId : String) (db : Database) (sourceMessageId : String) :
    Except String Database := do
  requireField sourceMessageId "source_message_id"
  let row : ObservedMessage := ⟨agentId, roomId, sourceMessageId⟩
  if db.observed.contains row then return db
  else return { db with observed := db.observed ++ [row] }

/-- The field of a successful poll; a poll without it is not checked for it. -/
def requireOptionalField (value : Option String) (field : String) : Except String Unit :=
  match value with
  | some value => requireField value field
  | none => return ()

structure PollIngestion where
  agentId : String
  roomId : String
  lastObservedMessageId : Option String
  /-- `none` is a poll that names no expected cursor. -/
  expectedCursor : Option (Option String)
  messages : List IngressMessage
  observedMessages : Option (List String)
  executionGenerationId : Option String

/-- `isNewerCursor`. -/
def isNewerCursor (candidate : String) (current : Option String) : Except String Bool :=
  match current with
  | none => .ok true
  | some current =>
    match numericCursor candidate, numericCursor current with
    | some candidateNumber, some currentNumber => .ok (decide (currentNumber < candidateNumber))
    | _, _ => .error "SyntaxError: Cannot convert cursor to a BigInt"

def nextCursor (lastObserved current : Option String) : Except String (Option String) :=
  match lastObserved with
  | none => .ok current
  | some candidate => do
    requireNumericCursor candidate
    let newer ← isNewerCursor candidate current
    return if newer then some candidate else current

/-- A successful poll that proves nothing new. -/
def pollUnchanged (db : Database) (input : PollIngestion) (next : Option String) : Bool :=
  (db.cursors input.agentId).any (fun cursor => next = cursor.lastObservedMessageId) &&
    input.messages.isEmpty && (input.observedMessages.getD []).isEmpty &&
    input.executionGenerationId.any fun generation =>
      (db.health input.agentId).any fun health => health.roomId = input.roomId &&
        health.executionGenerationId = generation && health.state = .observing &&
        health.detail = none

/-- The cursor and the health that a poll proves. -/
def recordPoll (db : Database) (input : PollIngestion) (next : Option String) : Database :=
  { db with
    cursors := Function.update db.cursors input.agentId (some ⟨input.roomId, next⟩)
    health := match input.executionGenerationId with
      | some generation =>
        Function.update db.health input.agentId
          (some ⟨input.roomId, generation, .observing, none⟩)
      | none => db.health }

def commitPollIngestion (db : Database) (input : PollIngestion) : Except String Database := do
  requireOptionalField input.executionGenerationId "execution_generation_id"
  requireField input.agentId "agent_id"
  requireField input.roomId "room_id"
  assertDeliveryDrainIngressAllowed db input.agentId
  let cursor := db.cursors input.agentId
  require (cursor.all fun cursor => cursor.roomId = input.roomId) roomChanged
  let currentCursor := cursor.bind (·.lastObservedMessageId)
  require (input.expectedCursor.all fun expected => expected = currentCursor)
    "Supervised inbox ingress cursor changed before this poll could commit."
  let next ← nextCursor input.lastObservedMessageId currentCursor
  if pollUnchanged db input next then return db
  else
    let observed := input.observedMessages.getD (input.messages.map (·.sourceMessageId))
    let seen ← observed.foldlM (observeMessage input.agentId input.roomId) db
    let received ← input.messages.foldlM (ingestMessage input.agentId input.roomId) seen
    if db.observed.length < seen.observed.length ∨ seen.inbox.length < received.inbox.length then
      pruneSupervisedAgentHistory (recordPoll received input next) input.agentId none
    else return recordPoll received input next

structure SyntheticMessage where
  agentId : String
  roomId : String
  sourceMessageId : String
  sourceMessage : JsValue
  activation : JsValue
  uuid : String

def insertSyntheticMessage (db : Database) (input : SyntheticMessage) :
    Except String (SupervisedInboxItem × Database) := do
  assertDeliveryDrainIngressAllowed db input.agentId
  match bySource db input.agentId input.roomId input.sourceMessageId with
  | some existing => return (existing, db)
  | none =>
    let issued ← db.issueFor input.uuid input.sourceMessageId
    let item := newItem input.uuid input.agentId input.roomId input.sourceMessageId
      input.sourceMessage input.activation (db.maxFifo input.agentId + 1)
    return (item, { issued with inbox := db.inbox ++ [item] })

/-- `enqueueInitialMessage` and `enqueueCorrection`. -/
def enqueueSyntheticMessage (db : Database) (input : SyntheticMessage) :
    Except String Database := do
  requireField input.agentId "agent_id"
  requireField input.roomId "room_id"
  requireField input.sourceMessageId "source_message_id"
  let (_, inserted) ← insertSyntheticMessage db input
  return inserted

/-! ## Task continuations -/

structure ContinuityTask where
  id : String
  title : String
  leaseId : String
  epoch : Int
  deriving DecidableEq

structure TaskContinuation where
  parentId : String
  attempt : Int
  workAttemptId : String
  providerContinuationId : String
  agentSessionId : String
  heldBefore : String
  tasks : Option (List ContinuityTask)

/-- `Number.isSafeInteger`. -/
def safeInteger : JsValue → Option Int
  | .number (.finite value) =>
    if value.den = 1 ∧ value.num.natAbs ≤ maxSafeInteger then some value.num else none
  | _ => none

def nonblank (value : JsValue) : Option String :=
  value.text?.filter fun text => isBlank text = false

def parseTask (value : JsValue) : Option ContinuityTask := do
  let id ← (value.property "id").text?
  let title ← (value.property "title").text?
  let leaseId ← (value.property "leaseId").text?
  let epoch ← safeInteger (value.property "epoch")
  if id ≠ "" ∧ leaseId ≠ "" ∧ 0 ≤ epoch then some ⟨id, title, leaseId, epoch⟩ else none

def parseTasks : JsValue → Option (Option (List ContinuityTask))
  | .null => some none
  | .array elements => if elements.length ≤ 100 then (elements.mapM parseTask).map some else none
  | _ => none

def parseTaskContinuation (value : JsValue) : Option TaskContinuation := do
  let parentId ← nonblank (value.property "parentId")
  let workAttemptId ← nonblank (value.property "workAttemptId")
  let providerContinuationId ← nonblank (value.property "providerContinuationId")
  let agentSessionId ← nonblank (value.property "agentSessionId")
  let attempt ← safeInteger (value.property "attempt")
  let heldBefore ← (value.property "heldBefore").text?
  let tasks ← parseTasks (value.property "tasks")
  if 1 ≤ attempt ∧ (dateParse heldBefore).isSome then
    some { parentId, attempt, workAttemptId, providerContinuationId, agentSessionId, heldBefore
           tasks }
  else none

def ContinuityTask.toJs (task : ContinuityTask) : JsValue :=
  .object [("id", .string task.id), ("title", .string task.title),
    ("leaseId", .string task.leaseId), ("epoch", .number (.finite task.epoch))]

def TaskContinuation.toJs (continuation : TaskContinuation) : JsValue :=
  .object [("parentId", .string continuation.parentId),
    ("attempt", .number (.finite continuation.attempt)),
    ("workAttemptId", .string continuation.workAttemptId),
    ("providerContinuationId", .string continuation.providerContinuationId),
    ("agentSessionId", .string continuation.agentSessionId),
    ("heldBefore", .string continuation.heldBefore),
    ("tasks", match continuation.tasks with
      | none => .null
      | some tasks => .array (tasks.map ContinuityTask.toJs))]

/-- The parent's records, as a continuation names them. -/
def continuationParent (item parent : SupervisedInboxItem) (metadata : TaskContinuation) : Bool :=
  parent.agentId = item.agentId && parent.roomId = item.roomId &&
    (parent.binding.any fun binding => binding.workAttemptId = metadata.workAttemptId &&
      binding.providerContinuationId = metadata.providerContinuationId) &&
    (parent.activation.property "task_continuity_considered").text? = some item.sourceMessageId &&
    (parent.activation.property "task_continuity_owner_session_id").text? =
      some metadata.agentSessionId

def readTaskContinuation (db : Database) (item : SupervisedInboxItem) :
    Except String (Option TaskContinuation) :=
  if item.sourceMessageId.startsWith "task-continuation:" then do
    let invalid := "Task continuation metadata is invalid."
    let lost := "Task continuation lost its original owner or failure evidence."
    let metadata ← found (parseTaskContinuation (item.activation.property "task_continuity")) invalid
    require (item.sourceMessageId = continuationSource metadata.parentId) invalid
    let parent ← found (db.item metadata.parentId) lost
    require (continuationParent item parent metadata) lost
    let failure ← readDurableNativeFailure parent
    require (failure = some .failed) lost
    return some metadata
  else return none

def hasUncertainTaskEffects (db : Database) (parent : SupervisedInboxItem) : Bool :=
  let doubtful (effect : SupervisedEffectRecord) : Bool :=
    effect.agentId = parent.agentId && effect.roomId = parent.roomId &&
      parent.binding.any (fun binding =>
        effect.executionGenerationId = binding.originExecutionGenerationId) &&
      some effect.providerTurnId = parent.providerTurnId && effect.mutation &&
      (effect.state = .executing || effect.state = .uncertain)
  (db.effects.any fun effect => doubtful effect.toSupervisedEffectRecord) ||
    db.tombstones.any fun tombstone => doubtful tombstone.toSupervisedEffectRecord

structure EnqueueTaskContinuation where
  parentId : String
  agentId : String
  roomId : String
  workAttemptId : String
  providerContinuationId : String
  agentSessionId : String
  tasks : Option (List ContinuityTask)
  /-- `JSON.stringify(tasks)`. -/
  tasksJson : String
  blockReason : Option String
  detail : String
  delayMs : Int
  uuid : String
  now : String

def continuationText (tasksJson : String) : String :=
  "Continue the unfinished task after a provider failure. This is a new continuation of existing authorized work, not a replay of the original request.\n" ++
  "Tasks and exact work leases: " ++ tasksJson ++ "\n" ++
  "Preserve existing work. Inspect the current files, Git status, task board, and your prior tool results before proceeding. Do not repeat completed actions, claims, commits, PRs, or merges. Verify any uncertain external action before attempting it again; report a blocker if its result cannot be established.\n" ++
  "Continue only these tasks while you still hold their work leases. Keep the existing scope and approval requirements. If they are already finished or no longer yours, take no action."

def uncertainEffectsError : String :=
  "Automatic task continuation stopped because a previous action has an uncertain result. Check its external result, then send an instruction to continue only the verified unfinished work."

/-- The newest row of the agent. -/
def newestItem (db : Database) (agentId : String) : Option SupervisedInboxItem :=
  (db.inbox.filter fun item => item.agentId = agentId).argmax (·.fifoSequence)

/-- Is the newest row a failed turn that nobody has considered yet? -/
def continuable (input : EnqueueTaskContinuation) (parent : SupervisedInboxItem) : Bool :=
  parent.inboxItemId = input.parentId && parent.state = .acknowledgedFailed &&
    !(parent.activation.property "task_continuity_considered").truthy &&
    parent.roomId = input.roomId &&
    (parent.activation.property "task_continuity_owner_session_id").text? =
      some input.agentSessionId

/-- May this parent start the continuation, with its turn's owner and no control? -/
def continuationOwner (db : Database) (input : EnqueueTaskContinuation)
    (parent : SupervisedInboxItem) : Bool :=
  (parent.binding.any fun binding => binding.workAttemptId = input.workAttemptId &&
    binding.providerContinuationId = input.providerContinuationId) &&
    !(db.host.controls input.agentId).any fun control =>
      control.inboxItemId = some input.parentId

def considered (parent : SupervisedInboxItem) : SupervisedInboxItem :=
  { parent with
    activation := parent.activation.assign "task_continuity_considered"
      (.string (continuationSource parent.inboxItemId)) }

/-- The child after its insertion: blocked for a reason, or waiting for its delay. -/
def continuationChild (input : EnqueueTaskContinuation) (child : SupervisedInboxItem) :
    SupervisedInboxItem :=
  match input.blockReason.filter fun reason => reason ≠ "" with
  | some reason =>
    { child with state := .blocked, lastError := some reason, nextAttemptAtMs := none }.recordEvent
      (.taskContinuation "0") .blocked
  | none =>
    { child with
      state := .pending
      lastError := some (input.blockReason.getD input.detail)
      nextAttemptAtMs := (dateParse input.now).map (· + input.delayMs) }.recordEvent
      (.taskContinuation "0") .retryScheduled

def enqueueTaskContinuation (db : Database) (input : EnqueueTaskContinuation) :
    Except String Database := do
  match newestItem db input.agentId with
  | none => return db
  | some parent =>
    if continuable input parent then
      let failure ← readDurableNativeFailure parent
      if failure = some .failed ∧ continuationOwner db input parent then
        let prior ← readTaskContinuation db parent
        let continuation : TaskContinuation :=
          { parentId := parent.inboxItemId
            attempt := (prior.map (·.attempt)).getD 0 + 1
            workAttemptId := input.workAttemptId
            providerContinuationId := input.providerContinuationId
            agentSessionId := input.agentSessionId
            heldBefore := (prior.map (·.heldBefore)).getD
              (((parent.activation.property "task_continuity_failed_at").text?).getD "undefined")
            tasks := input.tasks }
        require ((parseTaskContinuation continuation.toJs).isSome)
          "Invalid task continuation snapshot."
        let marked := db.putItem (considered parent)
        if hasUncertainTaskEffects db parent then
          return db.putItem { considered parent with lastError := some uncertainEffectsError }
        else if input.tasks = some [] then return marked
        else
          let (child, inserted) ← insertSyntheticMessage marked
            { agentId := input.agentId
              roomId := input.roomId
              sourceMessageId := continuationSource parent.inboxItemId
              activation := .object [("task_continuity", continuation.toJs)]
              sourceMessage := ((parent.sourceMessage.assign "sender" (.string "letagents")).assign
                "source" (.string "system")).assign "text"
                (.string (continuationText input.tasksJson))
              uuid := input.uuid }
          return inserted.putItem (continuationChild input child)
      else return db
    else return db

/-- Replace the first line that lists the tasks. -/
def replaceTaskLine (text tasksJson : String) : String :=
  let line := "Tasks and exact work leases:"
  let replaceFirst := fun (done : Bool × List String) (part : String) =>
    if !done.1 && part.startsWith line then (true, done.2 ++ [line ++ " " ++ tasksJson])
    else (done.1, done.2 ++ [part])
  "\n".intercalate ((text.splitOn "\n").foldl replaceFirst (false, [])).2

def refreshTaskContinuationSnapshot (db : Database) (inboxItemId : String)
    (tasks : List ContinuityTask) (tasksJson : String) : Except String Database := do
  let item ← found (db.item inboxItemId) "Cannot read properties of undefined"
  let expanded := "Task continuation scope cannot expand."
  let prior ← readTaskContinuation db item
  let previous ← found prior expanded
  require (item.state = .pending ∧ present item.providerTurnId = false ∧
      hasOutcome item.outcome = false ∧ tasks ≠ [] ∧
      (previous.tasks.all fun known => tasks.all fun task => known.any fun old =>
        old.id = task.id && old.leaseId = task.leaseId && old.epoch = task.epoch)) expanded
  assertCurrentHead db item
  let metadata : TaskContinuation := { previous with tasks := some tasks }
  require ((parseTaskContinuation metadata.toJs).isSome) "Invalid task continuation snapshot."
  let text := replaceTaskLine (((item.sourceMessage.property "text").text?).getD "undefined")
    tasksJson
  return db.putItem { item with
    activation := item.activation.assign "task_continuity" metadata.toJs
    sourceMessage := item.sourceMessage.assign "text" (.string text) }

/-- The row of a continuation that nobody needs any more. -/
def unused (item : SupervisedInboxItem) (detail now : String) : SupervisedInboxItem :=
  { item with
    state := .acknowledgedNoReply, lastError := some detail
    acknowledgedAt := some now }.recordEvent (.taskContinuation "unused") .noReply

def finishUnusedTaskContinuation (db : Database) (inboxItemId detail now : String) :
    Except String Database := do
  let item ← found (db.item inboxItemId) "Cannot read properties of undefined"
  let continuation ← readTaskContinuation db item
  require (continuation.isSome ∧ item.state = .pending ∧ present item.providerTurnId = false ∧
    hasOutcome item.outcome = false) "Only an undispatched task continuation can be skipped."
  assertCurrentHead db item
  pruneSupervisedAgentHistory
    (settleSupervisedTerminalItem (db.putItem (unused item detail now)) item now) item.agentId none

/-! ## Purge -/

def pruneHistory (db : Database) (agentId : String) : Except String Database :=
  pruneSupervisedAgentHistory db agentId none

/-- `removeAgent`: the purge of a discarded agent. Its rows may not be named as the
blocker of another agent's row. -/
def removeAgent (db : Database) (agentId : String) : Except String Database := do
  let kept := db.inbox.filter fun item => item.agentId ≠ agentId
  require (∀ item ∈ kept, item.blockedByInboxItemId.all fun blocker =>
    kept.any fun other => other.inboxItemId = blocker) "FOREIGN KEY constraint failed"
  return { db with
    inbox := kept
    effects := db.effects.filter fun effect => effect.agentId ≠ agentId
    tombstones := db.tombstones.filter fun tombstone => tombstone.agentId ≠ agentId
    repairs := db.repairs.filter fun repair => repair.agentId ≠ agentId
    observed := db.observed.filter fun message => message.agentId ≠ agentId
    health := Function.update db.health agentId none
    cursors := Function.update db.cursors agentId none }

end LetAgents.Inbox.Ingress

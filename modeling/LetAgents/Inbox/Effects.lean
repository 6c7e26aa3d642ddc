import LetAgents.Inbox.Ingress

/-!
# Tool effects

Source: src/apps/desktop/daemon/supervised-agent-inbox-store.ts:96-125, 135-152,
1162-1510, 1634-1673, 1963-1979, 2211-2399.

An effect is admitted under its request identity, crosses its execution boundary in
`markEffectExecuting` and is settled by `completeEffect`. Requests and results are
JSON texts; a request comes with the value it serializes, and with no text when
`JSON.stringify` fails on it.
-/
namespace LetAgents.Inbox.Effects

open Lib.Js Lib.Checked Records Retention DeliveryDrain

def maxEffectsPerProviderTurn : Nat := 128

def maxUnresolvedEffectsPerAgent : Nat := 128

def maxEffectRequestBytes : Nat := 64 * 1024

def maxEffectRequestBytesPerProviderTurn : Nat := 512 * 1024

def maxEffectResultBytes : Nat := 256 * 1024

def maxEffectResultBytesPerProviderTurn : Nat := 1024 * 1024

def maxEffectErrorBytes : Nat := 16 * 1024

def readOnlyEffectTools : List String :=
  ["get_current_room", "check_repo", "check_repo_visibility", "read_messages",
    "wait_for_messages", "get_board", "get_board_settings", "get_room_memory",
    "get_human_requests", "get_room_artifacts", "get_room_events", "list_board_intents",
    "get_onboarding_status", "status_local_codex_session", "rental_list_requests"]

/-! ## Structured completions -/

inductive StructuredRoomTurnCompletion where
  | reply (text : String)
  | noReply

def structuredRoomTurnCompletion (value : JsValue) : Option StructuredRoomTurnCompletion :=
  match value with
  | .object properties =>
    if properties.any fun p => p.1 ≠ "outcome" && p.1 ≠ "text" then none
    else
      match (value.property "outcome").text?, value.property "text" with
      | some "no_reply", .undefined => some .noReply
      | some "no_reply", .null => some .noReply
      | some "no_reply", .string "" => some .noReply
      | some "reply", .string raw =>
        let text := trim raw
        if text = "" ∨ 32 * 1024 < text.utf8ByteSize then none else some (.reply text)
      | _, _ => none
  | _ => none

def StructuredRoomTurnCompletion.outcome : StructuredRoomTurnCompletion → String
  | .reply _ => "reply"
  | .noReply => "no_reply"

/-- The JSON text of the tool result that accepts a completion. -/
def structuredRoomTurnCompletionResult (completion : StructuredRoomTurnCompletion) : String :=
  let instruction := quote "The daemon recorded this exact turn completion. End the provider turn without sending the activating reply through another tool."
  let outcome := quote completion.outcome
  let indented := "\x7b\n  \"accepted\": true,\n  \"outcome\": " ++ outcome ++
    ",\n  \"instruction\": " ++ instruction ++ "\n\x7d"
  let payload := "\x7b\"accepted\":true,\"outcome\":" ++ outcome ++ ",\"instruction\":" ++
    instruction ++ "\x7d"
  "\x7b\"content\":[\x7b\"type\":\"text\",\"text\":" ++ quote indented ++
    "\x7d],\"structuredContent\":" ++ payload ++ "\x7d"

/-- The JSON text of the tool result that records a reply thread. -/
def replyThreadResult (sourceMessageId : String) : String :=
  let instruction := quote "Thread choice recorded. Continue working and finish through your normal final completion; no message has been sent."
  let payload := "\x7b\"code\":\"REPLY_THREAD_RECORDED\",\"source_message_id\":" ++
    quote sourceMessageId ++ ",\"instruction\":" ++ instruction ++ "\x7d"
  "\x7b\"content\":[\x7b\"type\":\"text\",\"text\":" ++ quote payload ++
    "\x7d],\"structuredContent\":" ++ payload ++ "\x7d"

/-! ## Authority and capacity -/

structure EffectAuthority where
  agentId : String
  roomId : String
  executionGenerationId : String
  providerTurnId : String
  workAttemptId : String
  currentExecutionGenerationId : String
  providerContinuationId : String

def EffectAuthority.turn (authority : EffectAuthority) : ProviderTurn :=
  ⟨authority.agentId, authority.executionGenerationId, authority.providerTurnId⟩

/-- Does the item's binding carry exactly this authority? -/
def bindsAuthority (authority : EffectAuthority) (item : SupervisedInboxItem) : Bool :=
  item.binding.any fun binding => binding.agentId = authority.agentId &&
    binding.roomId = authority.roomId && binding.workAttemptId = authority.workAttemptId &&
    binding.originExecutionGenerationId = authority.executionGenerationId &&
    binding.providerContinuationId = authority.providerContinuationId &&
    binding.providerTurnId = authority.providerTurnId && item.agentId = binding.agentId &&
    item.roomId = binding.roomId && item.providerTurnId = some binding.providerTurnId

def currentRuntimeAuthority (db : Database) (authority : EffectAuthority) : Bool :=
  !db.host.pendingRuntimeRecovery authority.agentId &&
    (db.host.runtime authority.agentId).any fun runtime =>
      runtime.roomId = authority.roomId && runtime.desiredState = "running" &&
        runtime.condition = "none" && runtime.workAttemptId = some authority.workAttemptId &&
        runtime.providerWorkAttemptId = some authority.workAttemptId &&
        runtime.providerContinuationId = some authority.providerContinuationId &&
        runtime.providerExecutionGenerationId = some authority.currentExecutionGenerationId

/-- The item whose exact active turn the effect belongs to. -/
def assertActiveEffectAuthority (db : Database) (authority : EffectAuthority) :
    Except String SupervisedInboxItem := do
  let inactive := "A supervised effect requires one exact active durable provider-turn authority binding."
  let item ← match db.inbox.filter (bindsAuthority authority) with
    | [item] => .ok item
    | _ => .error inactive
  require (item.state = .dispatching ∨ item.state = .awaitingResult) inactive
  require ((db.head authority.agentId).map (·.inboxItemId) = some item.inboxItemId)
    "The supervised effect provider turn is no longer the exact FIFO head."
  require (currentRuntimeAuthority db authority)
    "The supervised effect lost its exact current runtime authority."
  require (¬ unresolvedTurnControl db authority.agentId)
    "The supervised effect is blocked by an unresolved turn-control authority barrier."
  return item

/-- The effects and tombstones of one provider turn. -/
def effectsOfTurn (db : Database) (turn : ProviderTurn) : List EffectRow :=
  db.effects.filter fun effect => effect.turn = turn

def tombstonesOfTurn (db : Database) (turn : ProviderTurn) : List EffectTombstone :=
  db.tombstones.filter fun tombstone => tombstone.turn = turn

def assertEffectAdmissionCapacity (db : Database) (turn : ProviderTurn) (toolName : String)
    (requestJson : String) : Except String Unit := do
  require (requestJson.utf8ByteSize ≤ maxEffectRequestBytes)
    "A supervised effect request exceeds the 65536-byte durable limit."
  if toolName = "complete_room_turn" then return ()
  else
    let effects := effectsOfTurn db turn
    let tombstones := tombstonesOfTurn db turn
    require (effects.length + tombstones.length < maxEffectsPerProviderTurn)
      "A supervised provider turn may durably admit at most 128 effects."
    require ((effects.map (·.request.json.utf8ByteSize)).sum +
        (tombstones.map (·.requestBytes)).sum + requestJson.utf8ByteSize ≤
          maxEffectRequestBytesPerProviderTurn)
      "A supervised provider turn exceeds the 524288-byte durable request budget."
    require ((db.effects.filter fun effect => effect.agentId = turn.agentId &&
        (effect.state = .prepared || effect.state = .executing)).length <
          maxUnresolvedEffectsPerAgent)
      "A supervised agent may retain at most 128 unresolved effects across turns."

def resultBytes (effect : SupervisedEffectRecord) : Nat :=
  (effect.resultJson.map String.utf8ByteSize).getD 0

/-- The bytes of the results of the turn's other effects. -/
def priorResultBytes (db : Database) (effect : SupervisedEffectRecord) : Nat :=
  (((effectsOfTurn db effect.turn).filter fun other => other.effectId ≠ effect.effectId).map
    fun other => resultBytes other.toSupervisedEffectRecord).sum +
  (((tombstonesOfTurn db effect.turn).filter fun other => other.effectId ≠ effect.effectId).map
    fun other => resultBytes other.toSupervisedEffectRecord).sum

def assertEffectResultCapacity (db : Database) (effect : SupervisedEffectRecord)
    (resultJson : String) : Except String Unit := do
  require (resultJson.utf8ByteSize ≤ maxEffectResultBytes)
    "A supervised effect prepared result exceeds the 262144-byte durable limit."
  require (priorResultBytes db effect + resultJson.utf8ByteSize ≤
      maxEffectResultBytesPerProviderTurn)
    "A supervised provider turn exceeds the 1048576-byte durable result budget."

/-! ## Reads and writes of effects -/

def findEffect (db : Database) (identity : EffectIdentity) : Option EffectRow :=
  db.effects.find? fun effect => effect.identity = identity

def findTombstone (db : Database) (identity : EffectIdentity) : Option EffectTombstone :=
  db.tombstones.find? fun tombstone => tombstone.identity = identity

def effectById (db : Database) (effectId : String) : Option EffectRow :=
  db.effects.find? fun effect => effect.effectId = effectId

/-- `UPDATE supervised_agent_effects … WHERE effect_id=?`. -/
def updateEffect (db : Database) (effectId : String) (change : EffectRow → EffectRow) : Database :=
  { db with
    effects := db.effects.map fun effect =>
      if effect.effectId = effectId then change effect else effect }

def insertEffect (db : Database) (effect : EffectRow) : Except String Database := do
  let issued ← db.issue effect.effectId
  return { issued with effects := db.effects ++ [effect] }

def turnComplete (db : Database) (turn : ProviderTurn) : Bool :=
  db.effects.any fun effect => effect.turn = turn && effect.toolName = "complete_room_turn" &&
    effect.state = .completed

/-- An executing mutation of the turn other than its completion. -/
def mutationExecuting (db : Database) (turn : ProviderTurn) : Bool :=
  db.effects.any fun effect => effect.turn = turn && effect.toolName ≠ "complete_room_turn" &&
    effect.state = .executing && effect.mutation

def completeEarly : String :=
  "The supervised room turn cannot complete while an earlier effect is still executing."

def malformedCompletion : String := "The supervised room-turn completion proposal is malformed."

def reusedRequest : String :=
  "A supervised MCP request id was reused for a different effect; refusing ambiguous execution."

def turnAlreadyComplete : String :=
  "The supervised room turn is already complete; no new effects may be admitted."

def executionUncertain : String :=
  "The mutating tool crossed its execution boundary without a durable result. It may have completed; verify external state before repeating it."

def completionInterrupted : String :=
  "The daemon restarted while committing the local completion proposal; its durable request is safe to commit again."

/-- Commit a prepared or executing completion proposal. -/
def completed (resultJson now : String) (effect : EffectRow) : EffectRow :=
  if effect.state = .prepared || effect.state = .executing then
    { effect with
      state := .completed, resultJson := some resultJson, error := none, updatedAt := now }
  else effect

/-! ## Preparing -/

structure EffectRequest where
  value : JsValue
  text : Option RequestText

def serializeRequest (request : EffectRequest) : Except String RequestText :=
  found request.text "A supervised effect request must be JSON-serializable."

structure PrepareEffect where
  authority : EffectAuthority
  mcpRequestId : String
  toolName : String
  request : EffectRequest
  mutation : Option Bool
  uuid : String
  now : String

def PrepareEffect.identity (input : PrepareEffect) : EffectIdentity :=
  ⟨input.authority.turn, input.mcpRequestId⟩

def isMutation (toolName : String) : Bool := !readOnlyEffectTools.contains toolName

/-- A replay of a request that has a full row. -/
def replayEffect (db : Database) (input : PrepareEffect) (request : RequestText)
    (effect : EffectRow) : Except String Database := do
  require (effect.roomId = input.authority.roomId ∧ effect.toolName = input.toolName ∧
    effect.mutation = isMutation input.toolName ∧ effect.request.json = request.json) reusedRequest
  if effect.state = .completed ∨ effect.state = .failed ∨ effect.state = .uncertain then return db
  else
    let _ ← assertActiveEffectAuthority db input.authority
    if effect.toolName = "complete_room_turn" then
      let completion ← found (structuredRoomTurnCompletion input.request.value) malformedCompletion
      require (¬ mutationExecuting db input.authority.turn) completeEarly
      return updateEffect db effect.effectId
        (completed (structuredRoomTurnCompletionResult completion) input.now)
    else if effect.state = .executing then
      if effect.mutation then
        pruneSupervisedAgentHistory
          (updateEffect db effect.effectId fun row =>
            { row with
              state := .uncertain, error := some executionUncertain, updatedAt := input.now })
          effect.agentId (some effect.effectId)
      else
        return updateEffect db effect.effectId fun row =>
          { row with
            state := .prepared, updatedAt := input.now
            error := some "The prior read-only execution ended without a durable result and is safe to execute again." }
    else return db

/-- The first completion proposal of a turn, by `created_at` and id. -/
def completionSingleton (db : Database) (turn : ProviderTurn) : Option EffectRow :=
  (((effectsOfTurn db turn).filter fun effect => effect.toolName = "complete_room_turn").insertionSort
    fun a b => a.createdAt < b.createdAt ∨ (a.createdAt = b.createdAt ∧ a.effectId ≤ b.effectId)).head?

/-- A turn has one completion proposal, whatever request id names it. -/
def replayCompletion (db : Database) (input : PrepareEffect) (request : RequestText)
    (completion : StructuredRoomTurnCompletion) (effect : EffectRow) : Except String Database := do
  require (effect.roomId = input.authority.roomId ∧ effect.mutation = isMutation input.toolName ∧
    effect.request.json = request.json)
    "The supervised room turn already recorded a different completion proposal."
  require (effect.state ≠ .completed → ¬ mutationExecuting db input.authority.turn) completeEarly
  let _ ← assertActiveEffectAuthority db input.authority
  return updateEffect db effect.effectId
    (completed (structuredRoomTurnCompletionResult completion) input.now)

/-- The row of a new effect. -/
def newEffect (input : PrepareEffect) (request : RequestText) (mutation : Bool)
    (state : EffectState) (resultJson : Option String) : EffectRow :=
  { effectId := input.uuid
    agentId := input.authority.agentId
    roomId := input.authority.roomId
    executionGenerationId := input.authority.executionGenerationId
    providerTurnId := input.authority.providerTurnId
    mcpRequestId := input.mcpRequestId
    toolName := input.toolName
    mutation
    state
    resultJson
    error := none
    createdAt := input.now
    updatedAt := input.now
    request }

/-- The source of a room message that the agent observed. -/
def observedSource (db : Database) (item : SupervisedInboxItem) : Bool :=
  db.observed.contains ⟨item.agentId, item.roomId, item.sourceMessageId⟩ &&
    (item.sourceMessage.property "id").text? = some item.sourceMessageId

/-- Admit a request that nothing recorded yet. -/
def admitEffect (db : Database) (input : PrepareEffect) (request : RequestText) :
    Except String Database := do
  let item ← assertActiveEffectAuthority db input.authority
  if input.toolName = "set_reply_thread" then
    require (observedSource db item)
      "set_reply_thread requires an observed activating room message, not a synthetic turn."
    assertEffectAdmissionCapacity db input.authority.turn input.toolName request.json
    insertEffect db (newEffect input request true .completed
      (some (replyThreadResult item.sourceMessageId)))
  else if input.toolName = "complete_room_turn" then
    let completion ← found (structuredRoomTurnCompletion input.request.value) malformedCompletion
    insertEffect db (newEffect input request (isMutation input.toolName) .completed
      (some (structuredRoomTurnCompletionResult completion)))
  else
    assertEffectAdmissionCapacity db input.authority.turn input.toolName request.json
    insertEffect db (newEffect input request (isMutation input.toolName) .prepared none)

def prepareEffect (db : Database) (input : PrepareEffect) : Except String Database := do
  let request ← serializeRequest input.request
  require (input.toolName = "set_reply_thread" → request.json = "\x7b\x7d")
    "set_reply_thread takes an empty object; the active turn determines its thread."
  require (input.mutation.all fun mutation => mutation = isMutation input.toolName)
    "The supervised effect classification does not match the registered tool policy."
  match findEffect db input.identity with
  | some effect => replayEffect db input request effect
  | none =>
    match findTombstone db input.identity with
    | some tombstone =>
      require (tombstone.roomId = input.authority.roomId ∧
        tombstone.toolName = input.toolName ∧
        tombstone.mutation = isMutation input.toolName ∧
        tombstone.requestSha256 = request.sha256) reusedRequest
      return db
    | none =>
      require (turnComplete db input.authority.turn → input.toolName = "complete_room_turn")
        turnAlreadyComplete
      if input.toolName = "complete_room_turn" then
        let completion ←
          found (structuredRoomTurnCompletion input.request.value) malformedCompletion
        match completionSingleton db input.authority.turn with
        | some effect => replayCompletion db input request completion effect
        | none =>
          require (¬ mutationExecuting db input.authority.turn) completeEarly
          admitEffect db input request
      else admitEffect db input request

/-! ## Executing -/

structure MarkEffectExecuting where
  effectId : String
  authority : EffectAuthority
  now : String

def exactTurn (effect : SupervisedEffectRecord) (authority : EffectAuthority) : Bool :=
  effect.roomId = authority.roomId && effect.turn = authority.turn

def wrongTurn : String := "The supervised effect does not belong to the exact active turn."

/-- An error text that is not empty. -/
def errorOr (error : Option String) (fallback : String) : String :=
  (error.filter fun text => text ≠ "").getD fallback

/-- A prepared effect fails in the committed transaction; its caller gets the
rejection as an exception after the commit. -/
def rejectPrepared (db : Database) (effectId rejection now : String) : Database × Option String :=
  (updateEffect db effectId fun row =>
    if row.state = .prepared then
      { row with state := .failed, error := some rejection, updatedAt := now }
    else row, some rejection)

/-- The committed database, and the rejection that the call then throws. -/
def markEffectExecuting (db : Database) (input : MarkEffectExecuting) :
    Except String (Database × Option String) := do
  let again := "The supervised effect outcome is uncertain and cannot be executed again."
  match effectById db input.effectId with
  | none =>
    let tombstone ← found (db.tombstones.find? fun row => row.effectId = input.effectId)
      "Unknown supervised effect."
    require (exactTurn tombstone.toSupervisedEffectRecord input.authority) wrongTurn
    throw (errorOr tombstone.error again)
  | some effect =>
    require (exactTurn effect.toSupervisedEffectRecord input.authority) wrongTurn
    match effect.state with
    | .failed => throw (errorOr effect.error "The supervised effect was fenced before execution.")
    | .completed => return (db, none)
    | .uncertain => throw (errorOr effect.error again)
    | .executing =>
      throw "This supervised effect is already executing; refusing a duplicate side effect."
    | .prepared =>
      if effect.toolName ≠ "complete_room_turn" ∧ turnComplete db effect.turn then
        return rejectPrepared db input.effectId
          "The supervised room turn is already complete; this prepared effect may no longer execute."
          input.now
      else
        match assertActiveEffectAuthority db input.authority with
        | .error rejection => return rejectPrepared db input.effectId rejection input.now
        | .ok _ =>
          return (updateEffect db input.effectId fun row =>
            { row with state := .executing, updatedAt := input.now }, none)

def stagePreparedEffectResult (db : Database) (effectId : String) (result : Option String)
    (now : String) : Except String Database := do
  let resultJson ← found result "A supervised effect prepared result must be JSON-serializable."
  let effect ← found (effectById db effectId) "Unknown supervised effect."
  if effect.state = .prepared then
    assertEffectResultCapacity db effect.toSupervisedEffectRecord resultJson
    return updateEffect db effectId fun row =>
      { row with resultJson := some resultJson, updatedAt := now }
  else return db

/-! ## Room-move effects -/

structure PrepareRoomMoveEffect where
  authority : EffectAuthority
  mcpRequestId : String
  request : EffectRequest
  destinationRoomId : String
  daemonGeneration : Nat
  agentSessionId : String
  activatingInboxItemId : String
  uuid : String
  now : String

def PrepareRoomMoveEffect.identity (input : PrepareRoomMoveEffect) : EffectIdentity :=
  ⟨input.authority.turn, input.mcpRequestId⟩

/-- The effect that carries a room move. -/
def roomMoveEffect (input : PrepareRoomMoveEffect) (request : RequestText) : EffectRow :=
  { effectId := input.uuid
    agentId := input.authority.agentId
    roomId := input.authority.roomId
    executionGenerationId := input.authority.executionGenerationId
    providerTurnId := input.authority.providerTurnId
    mcpRequestId := input.mcpRequestId
    toolName := "join_room"
    mutation := true
    state := .prepared
    resultJson := none
    error := none
    createdAt := input.now
    updatedAt := input.now
    request }

/-- The JSON text of the prepared result of a room move. -/
def roomMoveResult (destinationRoomId effectId : String) : String :=
  "\x7b\"destination_room\":" ++ quote destinationRoomId ++ ",\"requested_room\":" ++
    quote destinationRoomId ++ ",\"phase\":\"prepared\",\"room_move_operation_id\":" ++
    quote ("room_move:" ++ effectId) ++ "\x7d"

/-- The journal row of a room move, with the source cursor at this moment. -/
def roomMoveRow (db : Database) (input : PrepareRoomMoveEffect) (effectId : String) :
    AgentRoomMove :=
  let sourceCursor := (db.cursors input.authority.agentId).filter fun row =>
    row.roomId = input.authority.roomId
  { operationId := "room_move:" ++ effectId
    requestId := "bounded-effect:" ++ effectId
    agentId := input.authority.agentId
    sourceRoomId := input.authority.roomId
    destinationRoomId := input.destinationRoomId
    daemonGeneration := input.daemonGeneration
    workAttemptId := some input.authority.workAttemptId
    executionGenerationId := some input.authority.currentExecutionGenerationId
    agentSessionId := some input.agentSessionId
    activatingInboxItemId := some input.activatingInboxItemId
    providerTurnId := some input.authority.providerTurnId
    effectId := some effectId
    phase := .prepared
    sourceCursorPresent := sourceCursor.isSome
    sourceCursor := sourceCursor.bind (·.lastObservedMessageId) }

def lostActivatingTurn : String :=
  "The supervised room move lost its exact activating inbox turn."

/-- Stage the prepared result and write the move's journal row. -/
def journalRoomMove (db : Database) (input : PrepareRoomMoveEffect) (effectId : String) :
    Except String Database := do
  let resultJson := roomMoveResult input.destinationRoomId effectId
  let effect ← found (effectById db effectId) "Cannot read properties of undefined"
  assertEffectResultCapacity db effect.toSupervisedEffectRecord resultJson
  let staged := updateEffect db effectId fun row =>
    if row.state = .prepared then { row with resultJson := some resultJson, updatedAt := input.now }
    else row
  let row := roomMoveRow db input effectId
  match db.roomMoves.find? fun move => move.requestId = row.requestId with
  | some move =>
    require (move.operationId = row.operationId ∧ move.agentId = row.agentId ∧
      move.sourceRoomId = row.sourceRoomId ∧ move.destinationRoomId = row.destinationRoomId ∧
      move.executionGenerationId = row.executionGenerationId ∧ move.effectId = row.effectId)
      "Room-move request id is already bound to different coordinates."
    return staged
  | none =>
    require (¬ unresolvedTurnControl db input.authority.agentId)
      "Room move is blocked by unresolved turn control."
    assertNoDeliveryDrain db input.authority.agentId
    assertNoPollingActivation db input.authority.agentId
    require (∀ move ∈ db.roomMoves, move.operationId ≠ row.operationId)
      "UNIQUE constraint failed: agent_room_moves.operation_id"
    require (∀ move ∈ db.roomMoves, move.agentId = row.agentId → move.phase.settled)
      "UNIQUE constraint failed: agent_room_moves.agent_id"
    require (row.sourceRoomId ≠ row.destinationRoomId) "CHECK constraint failed"
    return { staged with roomMoves := db.roomMoves ++ [row] }

/-- This path looks a request up among the full effects only. -/
def prepareRoomMoveEffect (db : Database) (input : PrepareRoomMoveEffect) :
    Except String Database := do
  let request ← serializeRequest input.request
  match findEffect db input.identity with
  | some effect =>
    require (effect.roomId = input.authority.roomId ∧ effect.toolName = "join_room" ∧
      effect.request.json = request.json) reusedRequest
    if effect.state = .completed ∨ effect.state = .failed then return db
    else
      let item ← assertActiveEffectAuthority db input.authority
      require (item.inboxItemId = input.activatingInboxItemId) lostActivatingTurn
      journalRoomMove db input effect.effectId
  | none =>
    require (¬ turnComplete db input.authority.turn) turnAlreadyComplete
    let item ← assertActiveEffectAuthority db input.authority
    require (item.inboxItemId = input.activatingInboxItemId) lostActivatingTurn
    assertEffectAdmissionCapacity db input.authority.turn "join_room" request.json
    let admitted ← insertEffect db (roomMoveEffect input request)
    journalRoomMove admitted input input.uuid

/-! ## Completing -/

/-- What a completion reports: nothing, a value that cannot be serialized, or JSON. -/
inductive CompletionResult where
  | undefined
  | notSerializable
  | json (text : String)

def boundedCompletionResultJson (db : Database) (effect : SupervisedEffectRecord)
    (serialized : Option String) : Option String :=
  let priorBytes := priorResultBytes db effect
  let omission := "\x7b\"supervised_effect_result_omitted\":true,\"reason\":" ++
    quote (if serialized.isNone then "not_json_serializable" else "durable_size_limit") ++
    ",\"serialized_bytes\":" ++
    ((serialized.map fun text => toString text.utf8ByteSize).getD "null") ++ "\x7d"
  let omitted := if priorBytes + omission.utf8ByteSize ≤ maxEffectResultBytesPerProviderTurn then
      some omission else none
  match serialized with
  | some text =>
    if text.utf8ByteSize ≤ maxEffectResultBytes ∧
        priorBytes + text.utf8ByteSize ≤ maxEffectResultBytesPerProviderTurn then some text
    else omitted
  | none => omitted

/-- The longest beginning of the text within a byte budget. -/
def takeBytes (budget : Nat) : List Char → List Char
  | [] => []
  | c :: rest => if c.utf8Size ≤ budget then c :: takeBytes (budget - c.utf8Size) rest else []

def truncateEffectError (error : String) : String :=
  if error.utf8ByteSize ≤ maxEffectErrorBytes then error
  else
    let suffix := "… [truncated]"
    let kept := takeBytes (maxEffectErrorBytes - suffix.utf8ByteSize) error.toList
    String.ofList (kept.reverse.dropWhile fun c => c.toNat = 0xFFFD).reverse ++ suffix

structure CompletionExpectation where
  agentId : String
  workAttemptId : String
  providerTurnId : Option String

structure CompleteEffect where
  effectId : String
  result : CompletionResult
  error : Option String
  expected : Option CompletionExpectation
  now : String

/-- The caller's turn is the effect's turn, and its binding is still there. -/
def assertExpectedCompletion (db : Database) (effect : SupervisedEffectRecord)
    (expected : CompletionExpectation) : Except String Unit := do
  require (effect.agentId = expected.agentId ∧
    (present expected.providerTurnId → expected.providerTurnId = some effect.providerTurnId))
    wrongTurn
  require (db.inbox.any fun item => item.binding.any fun binding =>
      binding.turn = effect.turn && binding.roomId = effect.roomId &&
        binding.workAttemptId = expected.workAttemptId)
    "The supervised effect completion lost its durable provider-turn authority binding."

def assertExpected (db : Database) (expected : Option CompletionExpectation)
    (effect : SupervisedEffectRecord) : Except String Unit :=
  match expected with
  | some expected => assertExpectedCompletion db effect expected
  | none => return ()

/-- The columns that a completion writes. -/
def completionOf (db : Database) (input : CompleteEffect) (effect : SupervisedEffectRecord) :
    SupervisedEffectRecord :=
  { effect with
    state := if present input.error then .failed else .completed
    resultJson := match input.result with
      | .undefined => none
      | .notSerializable => boundedCompletionResultJson db effect none
      | .json text => boundedCompletionResultJson db effect (some text)
    error := (input.error.filter fun text => text ≠ "").map truncateEffectError
    updatedAt := input.now }

/-- The checks on the effect, and whether there is still anything to write. -/
def completable (db : Database) (input : CompleteEffect) (effect : SupervisedEffectRecord) :
    Except String Bool := do
  assertExpected db input.expected effect
  if effect.state = .completed ∨ effect.state = .failed then return false
  else
    require (effect.state = .executing ∨ effect.state = .uncertain ∨ effect.toolName = "join_room")
      "A supervised effect must be executing or uncertain before completion."
    return true

def completeEffect (db : Database) (input : CompleteEffect) : Except String Database := do
  match effectById db input.effectId with
  | some effect =>
    let write ← completable db input effect.toSupervisedEffectRecord
    let settled := if write then
        updateEffect db input.effectId fun row =>
          { row with
            toSupervisedEffectRecord := completionOf db input row.toSupervisedEffectRecord }
      else db
    pruneSupervisedAgentHistory settled effect.agentId none
  | none =>
    let tombstone ← found (db.tombstones.find? fun row => row.effectId = input.effectId)
      "Unknown supervised effect."
    let write ← completable db input tombstone.toSupervisedEffectRecord
    let settled := if write then
        { db with
          tombstones := db.tombstones.map fun row =>
            if row.effectId = input.effectId then
              { row with
                toSupervisedEffectRecord := completionOf db input row.toSupervisedEffectRecord }
            else row }
      else db
    pruneSupervisedAgentHistory settled tombstone.agentId none

/-! ## Restarts -/

/-- What a restart does to an effect that was executing. -/
def interruptedEffect (now : String) (effect : EffectRow) : EffectRow :=
  if effect.state ≠ .executing || effect.toolName = "join_room" then effect
  else if effect.toolName = "complete_room_turn" then
    { effect with state := .prepared, error := some completionInterrupted, updatedAt := now }
  else if effect.mutation then
    { effect with
      state := .uncertain, updatedAt := now
      error := some "The daemon restarted after this mutating tool crossed its execution boundary. It may have completed; verify external state before repeating it." }
  else
    { effect with
      state := .prepared, updatedAt := now
      error := some "The daemon restarted before this read-only tool result was checkpointed. The exact request may be executed again safely." }

def inScope (agentId : Option String) (effect : EffectRow) : Bool :=
  (agentId.filter fun id => id ≠ "").all fun id => effect.agentId = id

def normalizeInterruptedEffectsInTransaction (db : Database) (agentId : Option String)
    (now : String) : Database :=
  { db with
    effects := db.effects.map fun effect =>
      if inScope agentId effect then interruptedEffect now effect else effect }

def normalizeInterruptedEffects (db : Database) (agentId : Option String) (now : String) :
    Except String Database :=
  let affected := ((db.effects.filter fun effect => effect.state = .executing &&
    effect.toolName ≠ "join_room" && inScope agentId effect).map (·.agentId)).dedup
  affected.foldlM (fun db agentId => pruneSupervisedAgentHistory db agentId none)
    (normalizeInterruptedEffectsInTransaction db agentId now)

end LetAgents.Inbox.Effects

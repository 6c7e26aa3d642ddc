import LetAgents.Inbox.Delivery

/-!
# Continuation repairs

Source: src/apps/desktop/daemon/supervised-agent-inbox-store.ts:1702-1906.

A blocked message whose provider conversation is missing waits for a repair. The
repair that commits releases it; no provider work has started before that.
-/
namespace LetAgents.Inbox.Repair

open Lib Lib.Js Lib.Checked Records DeliveryDrain Delivery

structure BeginContinuationRepair where
  agentId : String
  roomId : String
  inboxItemId : String
  daemonGeneration : Nat
  executionGenerationId : String
  workAttemptId : String
  expectedPid : Nat
  expectedProcessIdentity : String
  missingContinuation : String
  uuid : String
  now : String

def repairById (db : Database) (repairId : String) : Option ProviderContinuationRepair :=
  Table.find (·.repairId) repairId db.repairs

def putRepair (db : Database) (repair : ProviderContinuationRepair) : Database :=
  { db with repairs := Table.put (·.repairId) repair db.repairs }

/-- The provider authority that the repair was begun under. -/
def sameRepairAuthority (input : BeginContinuationRepair) (repair : ProviderContinuationRepair) :
    Bool :=
  repair.executionGenerationId = input.executionGenerationId &&
    repair.workAttemptId = input.workAttemptId && repair.expectedPid = input.expectedPid &&
    repair.expectedProcessIdentity = input.expectedProcessIdentity &&
    repair.missingContinuation = input.missingContinuation

def newRepair (input : BeginContinuationRepair) : ProviderContinuationRepair :=
  { repairId := input.uuid
    agentId := input.agentId
    roomId := input.roomId
    inboxItemId := input.inboxItemId
    daemonGeneration := input.daemonGeneration
    executionGenerationId := input.executionGenerationId
    workAttemptId := input.workAttemptId
    expectedPid := input.expectedPid
    expectedProcessIdentity := input.expectedProcessIdentity
    missingContinuation := input.missingContinuation
    replacementContinuation := none
    phase := .probing
    attemptCount := 1
    lastError := none
    createdAt := input.now }

/-- The item while its conversation is restored. -/
def restoring (item : SupervisedInboxItem) (repairId : String) (attempt : Option Nat) :
    SupervisedInboxItem :=
  { item with
    lastError := some "Restoring the saved provider conversation before any model work starts." }.recordEvent
    (.conversationRestoring repairId attempt) .conversationRestoring

/-- Retry a failed repair with the replacement it already had. -/
def retryRepair (db : Database) (input : BeginContinuationRepair) (item : SupervisedInboxItem)
    (repair : ProviderContinuationRepair) : Except String Database := do
  require (sameRepairAuthority input repair)
    "The failed continuation repair belongs to a different provider authority."
  let probing := putRepair db { repair with
    daemonGeneration := input.daemonGeneration
    phase := if present repair.replacementContinuation then .replacementCreated else .probing
    attemptCount := repair.attemptCount + 1
    lastError := none }
  return probing.putItem (restoring item repair.repairId (some (repair.attemptCount + 1)))

/-- The newest failed repair of the item. -/
def failedRepair (db : Database) (input : BeginContinuationRepair) :
    Option ProviderContinuationRepair :=
  ((db.repairs.filter fun repair => repair.agentId = input.agentId &&
    repair.inboxItemId = input.inboxItemId && repair.phase = .failed).insertionSort
      fun a b => b.createdAt ≤ a.createdAt).head?

def beginContinuationRepair (db : Database) (input : BeginContinuationRepair) :
    Except String Database := do
  assertNoDeliveryDrain db input.agentId
  assertNoPollingActivation db input.agentId
  let item ← found (db.item input.inboxItemId) "The blocked room message no longer exists."
  require (item.agentId = input.agentId ∧ item.roomId = input.roomId ∧ item.state = .blocked ∧
      item.failureCode = some .providerContinuationMissing ∧ neverStarted item)
    "Conversation restoration is no longer safe for this room message."
  assertCurrentHead db item
  match db.repairs.find? fun repair =>
      repair.agentId = input.agentId && !repair.phase.settled with
  | some repair =>
    require (repair.inboxItemId = input.inboxItemId ∧ sameRepairAuthority input repair)
      "Another continuation repair owns this agent."
    return putRepair db { repair with daemonGeneration := input.daemonGeneration }
  | none =>
    match failedRepair db input with
    | some repair => retryRepair db input item repair
    | none =>
      let issued ← db.issue input.uuid
      let begun := { issued with repairs := db.repairs ++ [newRepair input] }
      return begun.putItem (restoring item input.uuid none)

def checkpointContinuationReplacement (db : Database) (repairId replacementContinuation : String) :
    Except String Database := do
  require (isBlank replacementContinuation = false) "Replacement continuation is required."
  let repair ← found (repairById db repairId) "Unknown continuation repair."
  if repair.phase = .committed then
    require (repair.replacementContinuation = some replacementContinuation)
      "Committed continuation repair has a different replacement."
    return db
  else
    require (repair.phase ≠ .failed) "A failed continuation repair cannot install a replacement."
    require (present repair.replacementContinuation →
        repair.replacementContinuation = some replacementContinuation)
      "Continuation repair replacement identity changed."
    return putRepair db { repair with
      replacementContinuation := some replacementContinuation, phase := .replacementCreated }

/-- The item when its conversation is there again. -/
def released (item : SupervisedInboxItem) (repairId : String) : SupervisedInboxItem :=
  { item with
    state := .pending, lastError := none, failureCode := none, blockedByInboxItemId := none
    nextAttemptAtMs := none }.recordEvent (.conversationRestored repairId) .conversationRestored

def commitContinuationRepair (db : Database) (repairId authoritativeContinuation : String) :
    Except String Database := do
  let repair ← found (repairById db repairId) "Unknown continuation repair."
  require (repair.phase ≠ .failed) "A failed continuation repair cannot be committed."
  require (present repair.replacementContinuation →
      repair.replacementContinuation = some authoritativeContinuation)
    "Continuation repair cannot commit a different replacement conversation."
  require (present repair.replacementContinuation = false →
      authoritativeContinuation = repair.missingContinuation)
    "A rematerialized conversation must match the original continuation."
  let item ← found (db.item repair.inboxItemId) "Continuation repair lost its room message."
  require (item.state = .blocked ∧ neverStarted item)
    "Continuation repair can no longer release this room message."
  assertCurrentHead db item
  let committed := putRepair db { repair with
    replacementContinuation := some authoritativeContinuation, phase := .committed
    lastError := none }
  return committed.putItem (released item repairId)

def failContinuationRepair (db : Database) (repairId error : String) : Except String Database := do
  let repair ← found (repairById db repairId) "Unknown continuation repair."
  if repair.phase = .committed then return db
  else
    let failed := putRepair db { repair with phase := .failed, lastError := some error }
    match db.item repair.inboxItemId with
    | some item =>
      if item.state = .blocked then
        return failed.putItem { item with lastError := some error }
      else return failed
    | none => return failed

def exhaustCommittedContinuationRepair (db : Database) (inboxItemId repairId error : String) :
    Except String Database := do
  let gone := "Conversation restoration evidence is no longer available."
  let repair ← found (repairById db repairId) gone
  let item ← found (db.item inboxItemId) gone
  require (repair.inboxItemId = item.inboxItemId ∧ repair.agentId = item.agentId ∧
      repair.phase = .committed ∧ item.state = .blocked ∧
      item.failureCode = some .providerContinuationMissing ∧ neverStarted item)
    "Conversation restoration can no longer be exhausted safely."
  assertCurrentHead db item
  return db.putItem ({ item with lastError := some error }.recordEvent
    (.continuationRepairExhausted repairId) .blocked)

end LetAgents.Inbox.Repair

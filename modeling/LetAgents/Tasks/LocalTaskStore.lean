import LetAgents.Lib.Checked
import LetAgents.Lib.Js
import LetAgents.Lib.Table

/-!
# The local task store

Source: shared/local-work-leases.mjs:4-160 and shared/local-task-store.mjs:198-372.

A task row names its assignee, and a lease row names the worker that owns the task; a
trigger on the task row revokes the lease when the two part. Every function below is the
body of one write transaction: it returns the next database, or throws and changes nothing.

Modelling boundary: the columns kept are the ones that some decision or some trigger reads.
What a patch or a worker gives under a name is a text or missing (`none`); the two tables of
supervised sessions are an argument, arbitrary for every call, and so are the clock and the
random id. The reads of one call share a time.
-/
namespace LetAgents.Tasks.LocalTaskStore

open Lib Lib.Js Lib.Checked

/-! ## Tables -/

structure LocalTask where
  roomId : String
  taskId : String
  status : String
  assignee : Option String
  assigneeAgentKey : Option String
  assigneeAgentInstanceId : Option String
  assigneeAgentSessionId : Option String
  reviewLeaseId : Option String
  reviewHolderLabel : Option String
  reviewAgentKey : Option String
  reviewAgentSessionId : Option String
  updatedAt : String

inductive LeaseStatus where
  | active | released | revoked | expired
  deriving DecidableEq

structure WorkLease where
  id : String
  roomId : String
  taskId : String
  status : LeaseStatus
  agentKey : String
  agentSessionId : String
  agentInstanceId : Option String
  actorLabel : String
  epoch : Nat
  createdAt : String
  updatedAt : String
  lastHeartbeatAt : String
  expiresAt : Option String
  revokedReason : Option String

def LocalTask.key (task : LocalTask) : String × String := (task.roomId, task.taskId)

def WorkLease.taskKey (lease : WorkLease) : String × String := (lease.roomId, lease.taskId)

structure LocalDb where
  tasks : List LocalTask
  leases : List WorkLease

/-- The statuses of a task that has an owner. -/
def ownedStatuses : List String := ["assigned", "in_progress", "blocked", "in_review"]

/-- The task row names the worker of the lease. -/
def owns (task : LocalTask) (lease : WorkLease) : Bool :=
  ownedStatuses.contains task.status && task.assigneeAgentKey = some lease.agentKey &&
    task.assigneeAgentSessionId = some lease.agentSessionId && task.assignee = some lease.actorLabel

/-- The trigger `local_work_lease_task_changed`. -/
def taskChanged (task : LocalTask) (leases : List WorkLease) : List WorkLease :=
  leases.map fun lease =>
    if lease.taskKey = task.key ∧ lease.status = .active ∧ owns task lease = false then
      { lease with status := .revoked, updatedAt := task.updatedAt
                   revokedReason := some "Task completed or ownership changed" }
    else lease

def LocalDb.task (db : LocalDb) (roomId taskId : String) : Option LocalTask :=
  Table.find LocalTask.key (roomId, taskId) db.tasks

/-- An update of the status or the assignee of a row that is there. -/
def LocalDb.updateOwner (db : LocalDb) (task : LocalTask) : LocalDb where
  tasks := Table.put LocalTask.key task db.tasks
  leases := taskChanged task db.leases

/-- An update of the review columns, which fires no trigger. -/
def LocalDb.updateReview (db : LocalDb) (task : LocalTask) : LocalDb :=
  { db with tasks := Table.put LocalTask.key task db.tasks }

/-- `DELETE FROM local_tasks` and the trigger `local_work_lease_task_deleted`. -/
def LocalDb.deleteTask (db : LocalDb) (roomId taskId : String) : LocalDb where
  tasks := db.tasks.filter fun task => task.key ≠ (roomId, taskId)
  leases := db.leases.filter fun lease => lease.taskKey ≠ (roomId, taskId)

/-- The primary key and the unique index on the active lease of a task. -/
def LocalDb.insertLease (db : LocalDb) (lease : WorkLease) : Except String LocalDb := do
  require (db.leases.all fun other => other.id ≠ lease.id) "UNIQUE constraint failed: id"
  require (db.leases.all fun other => other.status ≠ .active ∨ other.taskKey ≠ lease.taskKey)
    "UNIQUE constraint failed: local_work_lease_owner"
  return { db with leases := db.leases ++ [lease] }

/-! ## Workers -/

structure Worker where
  agentKey : Option String
  sessionId : Option String
  actorLabel : Option String
  agentInstanceId : Option String
  supervised : Bool

/-- A row of `local_supervisor_sessions` with its grant. -/
structure SupervisorSession where
  sessionId : String
  instanceId : Option String
  ended : Bool
  revoked : Bool
  roomId : String
  agentKey : String
  publicJson : Worker

/-- What one call reads from outside; `sessions` is `none` without the table. -/
structure CallContext where
  sessions : Option (List SupervisorSession)
  now : String
  readAt : String
  leaseId : String

/-- Whether the worker is a supervised session. -/
def assertLocalWorkLeaseWorker (context : CallContext) (roomId : String) (worker : Worker) :
    Except String Bool := do
  require (present worker.agentKey ∧ present worker.sessionId)
    "A registered worker is required for task ownership."
  let session := (context.sessions.getD []).find? fun session =>
    some session.sessionId = worker.sessionId
  require (¬ (worker.supervised ∧ session = none) ∧
      session.all fun session => !session.ended && !session.revoked &&
        session.roomId = roomId && some session.agentKey = worker.agentKey)
    "Local worker authority ended before the task mutation."
  return session.isSome

/-! ## Leases -/

def notExpired (now : String) (lease : WorkLease) : Bool :=
  lease.expiresAt.all fun expiresAt => decide (now < expiresAt)

def readLocalWorkLeases (db : LocalDb) (roomId taskId now : String) : List WorkLease :=
  db.leases.filter fun lease =>
    lease.taskKey = (roomId, taskId) && lease.status = .active && notExpired now lease

def expireLeases (db : LocalDb) (roomId taskId now : String) : LocalDb :=
  { db with leases := db.leases.map fun lease =>
      if lease.taskKey = (roomId, taskId) ∧ lease.status = .active ∧ notExpired now lease = false then
        { lease with status := .expired, updatedAt := now }
      else lease }

/-- `COALESCE(MAX(epoch),-1)+1` over the leases of a task. -/
def nextEpoch (db : LocalDb) (taskKey : String × String) : Nat :=
  ((db.leases.filter fun lease => lease.taskKey = taskKey).map fun lease => lease.epoch + 1).foldr
    max 0

def mintLease (db : LocalDb) (roomId taskId : String) (worker : Worker) (id now : String) :
    Except String (LocalDb × WorkLease) := do
  let agentKey ← found worker.agentKey "NOT NULL constraint failed: agent_key"
  let sessionId ← found worker.sessionId "NOT NULL constraint failed: agent_session_id"
  let actorLabel ← found worker.actorLabel "NOT NULL constraint failed: actor_label"
  let lease : WorkLease :=
    { id, roomId, taskId
      status := .active
      agentKey
      agentSessionId := sessionId
      agentInstanceId := worker.agentInstanceId
      actorLabel
      epoch := nextEpoch db (roomId, taskId)
      createdAt := now
      updatedAt := now
      lastHeartbeatAt := now
      expiresAt := none
      revokedReason := none }
  let next ← db.insertLease lease
  return (next, lease)

/-- The row that `assignTask` writes; `none` for no worker. -/
def assignTask (task : LocalTask) (worker : Option Worker) (status now : String) : LocalTask :=
  { task with
    status
    assignee := worker.bind Worker.actorLabel
    assigneeAgentKey := worker.bind Worker.agentKey
    assigneeAgentInstanceId := worker.bind Worker.agentInstanceId
    assigneeAgentSessionId := worker.bind Worker.sessionId
    updatedAt := now }

/-- The worker holds the lease. -/
def holds (worker : Worker) (lease : WorkLease) : Bool :=
  some lease.agentSessionId = worker.sessionId && some lease.agentKey = worker.agentKey

def claimLocalWorkLease (context : CallContext) (db : LocalDb) (roomId taskId : String)
    (worker : Worker) : Except String (LocalDb × WorkLease) := do
  let supervised ← assertLocalWorkLeaseWorker context roomId worker
  require supervised "A supervised worker is required for a local work lease."
  let task ← found (db.task roomId taskId) "Task not found."
  let expired := expireLeases db roomId taskId context.now
  match (readLocalWorkLeases expired roomId taskId context.readAt).head? with
  | some active => do
    require (holds worker active)
      "This task is already owned by another worker. Use a lease handoff."
    return (expired, active)
  | none => do
    let reclaim := ownedStatuses.contains task.status && task.assigneeAgentKey = worker.agentKey
    require (task.status = "accepted" ∨ reclaim)
      "Claim an accepted task, or reclaim your own assigned task."
    require (present task.assigneeAgentKey → task.assigneeAgentKey = worker.agentKey)
      "This task is assigned to another worker."
    let assigned := expired.updateOwner
      (assignTask task (some worker) (if reclaim then task.status else "assigned") context.now)
    mintLease assigned roomId taskId worker context.leaseId context.now

structure WorkLeaseAction where
  action : String
  leaseId : Option String
  epoch : Option Nat
  targetActorKey : Option String
  targetActorInstanceId : Option String
  targetAgentSessionId : Option String

/-- The sessions that a handoff may mean. -/
def handoffTargets (context : CallContext) (roomId : String) (input : WorkLeaseAction) :
    List SupervisorSession :=
  (context.sessions.getD []).filter fun session =>
    session.roomId = roomId && session.agentKey = input.targetActorKey.getD "" &&
      !session.revoked && !session.ended &&
      (!present input.targetAgentSessionId || some session.sessionId = input.targetAgentSessionId) &&
      (!present input.targetActorInstanceId || session.instanceId = input.targetActorInstanceId)

/-- The worker that the task passes to; `none` for a release. -/
def changeTarget (context : CallContext) (roomId : String) (input : WorkLeaseAction) :
    Except String (Option Worker) :=
  if input.action = "handoff" then
    match handoffTargets context roomId input with
    | [session] => do
      let target := { session.publicJson with supervised := true }
      let _ ← assertLocalWorkLeaseWorker context roomId target
      return some target
    | _ => .error "Choose one active local worker session for this handoff."
  else if input.action = "release" then .ok none
  else .error "Unknown work lease action."

/-- `UPDATE local_work_leases SET status='released' WHERE id=?`. -/
def releaseLease (db : LocalDb) (id now : String) : LocalDb :=
  { db with leases := db.leases.map fun lease =>
      if lease.id = id then { lease with status := .released, updatedAt := now } else lease }

/-- A null worker is the desktop's human control. -/
def assertCaller (context : CallContext) (roomId : String) : Option Worker → Except String Unit
  | some worker => (assertLocalWorkLeaseWorker context roomId worker).map fun _ => ()
  | none => .ok ()

def changeLocalWorkLease (context : CallContext) (db : LocalDb) (roomId taskId : String)
    (input : WorkLeaseAction) (worker : Option Worker) : Except String LocalDb := do
  assertCaller context roomId worker
  let task ← found (db.task roomId taskId) "Task not found."
  let expired := expireLeases db roomId taskId context.now
  let active ← found (readLocalWorkLeases expired roomId taskId context.readAt).head?
    "This task has no active work lease."
  require ((present input.leaseId → some active.id = input.leaseId) ∧
      input.epoch.all fun epoch => active.epoch = epoch)
    "The task lease changed. Refresh the task before trying again."
  require (worker.all fun worker => holds worker active)
    "Only the current worker can release or hand off this work lease."
  let target ← changeTarget context roomId input
  let released := releaseLease expired active.id context.now
  match target with
  | some target => do
    let assigned := released.updateOwner (assignTask task (some target)
      (if task.status = "blocked" then "assigned" else task.status) context.now)
    let minted ← mintLease assigned roomId taskId target context.leaseId context.now
    return minted.1
  | none => return released.updateOwner (assignTask task none "accepted" context.now)

def endLocalWorkerLeases (db : LocalDb) (sessionId now : String) : LocalDb :=
  { db with leases := db.leases.map fun lease =>
      if lease.agentSessionId = sessionId ∧ lease.status = .active then
        { lease with status := .revoked, revokedReason := some "Worker session ended", updatedAt := now }
      else lease }

def heartbeatLocalWorkLeases (db : LocalDb) (sessionId now : String) : LocalDb :=
  { db with leases := db.leases.map fun lease =>
      if lease.agentSessionId = sessionId ∧ lease.status = .active ∧ notExpired now lease then
        { lease with lastHeartbeatAt := now, updatedAt := now }
      else lease }

/-! ## Task updates -/

/-- A property of a patch: missing, `null` or a text. -/
abbrev PatchValue := Option (Option String)

structure TaskPatch where
  status : PatchValue
  assignee : PatchValue
  assigneeAgentKey : PatchValue
  assigneeAgentSessionId : PatchValue
  agentSessionId : PatchValue
  assigneeAgentInstanceId : PatchValue
  actorInstanceId : PatchValue
  expectedNoWorkLease : Bool
  skipTransitionValidation : Bool

def validLocalTaskTransitions : List (String × List String) :=
  [("proposed", ["accepted", "cancelled"]), ("accepted", ["assigned", "cancelled"]),
    ("assigned", ["in_progress", "in_review", "cancelled"]),
    ("in_progress", ["blocked", "in_review", "done", "cancelled"]),
    ("blocked", ["in_progress", "in_review", "cancelled"]),
    ("in_review", ["merged", "in_progress", "blocked", "done", "cancelled"]),
    ("merged", ["done", "accepted"]), ("done", ["accepted"]), ("cancelled", ["accepted"])]

def resolveLocalTaskStatus (fromStatus : String) (toStatus : PatchValue) : Except String String := do
  let nextStatus := trim (toStatus.join.getD "")
  if nextStatus = "" then return fromStatus
  let allowed := validLocalTaskTransitions.lookup fromStatus
  require ((allowed.getD []).contains nextStatus)
    ("Invalid transition: " ++ fromStatus ++ " -> " ++ nextStatus ++ ". Allowed: " ++
      allowed.elim "none" (String.intercalate ", "))
  return nextStatus

/-- The patch gives a value, and it is not the row's. -/
def changes (patched : PatchValue) (current : Option String) : Bool :=
  patched.any fun value => value ≠ current

/-- The reviewer of a task in review. -/
def reviewOwner (task : LocalTask) (worker : Worker) : Bool :=
  present task.reviewLeaseId && task.reviewAgentKey = worker.agentKey &&
    task.reviewAgentSessionId = worker.sessionId && task.status = "in_review"

def assertLocalTaskLeaseMutation (context : CallContext) (db : LocalDb) (task : LocalTask)
    (worker : Worker) (expected : Option (String × Nat)) : Except String Unit := do
  let supervised ← assertLocalWorkLeaseWorker context task.roomId worker
  let active := (readLocalWorkLeases db task.roomId task.taskId context.readAt).head?
  require (active.map (fun lease => (lease.id, lease.epoch)) = expected)
    "The task lease changed before this update."
  require (¬ (active.any (fun lease => !holds worker lease) ∧ ¬ reviewOwner task worker))
    "This task's work lease belongs to another worker."
  require (¬ (active = none ∧ supervised ∧ ownedStatuses.contains task.status ∧
      ¬ reviewOwner task worker))
    "Claim this task to establish a current work lease before updating it."

/-- What `currentWorkerCall` returns. -/
structure WorkerCall where
  agentKey : Option String
  sessionId : Option String
  actorLabel : Option String
  agentInstanceId : Option String

def callWorker (caller : Option WorkerCall) : Option Worker :=
  caller.bind fun call =>
    if present call.agentKey then
      some { agentKey := call.agentKey, sessionId := call.sessionId
             actorLabel := if present call.actorLabel then call.actorLabel else call.agentKey
             agentInstanceId := call.agentInstanceId, supervised := false }
    else none

def assertOwnershipUnchanged (patch : TaskPatch) (row : LocalTask) : Except String Unit :=
  require (¬ (changes patch.assignee row.assignee ∨
      changes patch.assigneeAgentKey row.assigneeAgentKey ∨
      changes patch.assigneeAgentSessionId row.assigneeAgentSessionId ∨
      patch.assigneeAgentKey.isSome ∧ changes patch.agentSessionId row.assigneeAgentSessionId ∨
      changes patch.assigneeAgentInstanceId row.assigneeAgentInstanceId ∨
      patch.assigneeAgentKey.isSome ∧ changes patch.actorInstanceId row.assigneeAgentInstanceId))
    "Use claim_task or handoff_task_lease to change task ownership."

/-- An id that goes with the assignee key. -/
def patchedId (kept : Bool) (assigneeAgentKey : Option String) (first second : PatchValue)
    (current : Option String) : Option String :=
  if kept then current
  else if present assigneeAgentKey then first.join <|> second.join
  else none

/-- The row that an update writes. -/
def patchedRow (patch : TaskPatch) (worker : Option Worker) (current : LocalTask)
    (nextStatus now : String) : LocalTask :=
  let assigneeAgentKey := match patch.assigneeAgentKey with
    | none => current.assigneeAgentKey
    | some value => value
  let kept := patch.assigneeAgentKey.isNone ||
    worker.isSome && patch.assigneeAgentKey = some current.assigneeAgentKey
  { current with
    status := nextStatus
    assignee := match patch.assignee with
      | none => current.assignee
      | some value => value.filter fun text => text ≠ ""
    assigneeAgentKey
    assigneeAgentInstanceId := patchedId kept assigneeAgentKey patch.assigneeAgentInstanceId
      patch.actorInstanceId current.assigneeAgentInstanceId
    assigneeAgentSessionId := patchedId kept assigneeAgentKey patch.assigneeAgentSessionId
      patch.agentSessionId current.assigneeAgentSessionId
    updatedAt := now }

/-- A supervised worker asks for the status `assigned`. -/
def assigns (supervised : Bool) (patch : TaskPatch) : Bool :=
  supervised && patch.status = some (some "assigned")

/-- `observed`, the lease that the worker is expected to have, after the claim that an
assignment makes. -/
def claimForUpdate (context : CallContext) (db : LocalDb) (roomId taskId : String) (worker : Worker)
    (claims : Bool) (observed : Option (String × Nat)) :
    Except String (LocalDb × Option (String × Nat)) :=
  if claims then
    (claimLocalWorkLease context db roomId taskId worker).map fun claimed =>
      (claimed.1, some (claimed.2.id, claimed.2.epoch))
  else .ok (db, observed)

def patchedStatus (patch : TaskPatch) (claims : Bool) (current : LocalTask) : Except String String :=
  if claims then .ok current.status
  else if patch.skipTransitionValidation then
    .ok (if trim (patch.status.join.getD "") = "" then current.status
      else trim (patch.status.join.getD ""))
  else resolveLocalTaskStatus current.status patch.status

/-- The part of an update that a worker makes. -/
def updateAsWorker (context : CallContext) (db : LocalDb) (worker : Worker)
    (observed : Option (String × Nat)) (roomId taskId : String) (patch : TaskPatch) :
    Except String LocalDb := do
  let supervised ← assertLocalWorkLeaseWorker context roomId worker
  require (assigns supervised patch →
      (patch.assigneeAgentKey.join = none ∨ patch.assigneeAgentKey.join = worker.agentKey) ∧
      (patch.assignee.join = none ∨ patch.assignee.join = worker.actorLabel))
    "Use handoff_task_lease to assign work to another worker."
  let claimed ← claimForUpdate context db roomId taskId worker (assigns supervised patch) observed
  let row ← found (claimed.1.task roomId taskId) "Task not found."
  assertLocalTaskLeaseMutation context claimed.1 row worker claimed.2
  onlyIf (supervised ∨ claimed.2 ≠ none) (assertOwnershipUnchanged patch row)
  let nextStatus ← patchedStatus patch (assigns supervised patch) row
  return claimed.1.updateOwner (patchedRow patch (some worker) row nextStatus context.now)

/-- `observed`: the lease that was read before the transaction. -/
def updateLocalTask (context : CallContext) (db : LocalDb) (caller : Option WorkerCall)
    (observed : Option (String × Nat)) (roomId taskId : String) (patch : TaskPatch) :
    Except String LocalDb := do
  let row ← found (db.task roomId taskId) "Task not found."
  require (¬ (patch.expectedNoWorkLease ∧
      (readLocalWorkLeases db roomId taskId context.readAt).head? ≠ none))
    "The task lease changed. Refresh the task before trying again."
  match callWorker caller with
  | some worker => updateAsWorker context db worker observed roomId taskId patch
  | none => do
    require (observed = none ∧ (readLocalWorkLeases db roomId taskId context.readAt).head? = none)
      "A registered owning worker is required to update this leased task."
    let nextStatus ← patchedStatus patch false row
    return db.updateOwner (patchedRow patch none row nextStatus context.now)

end LetAgents.Tasks.LocalTaskStore

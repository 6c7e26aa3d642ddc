import LetAgents.Coordination.BoardIntents
import LetAgents.Coordination.TaskLeases

/-!
# Task writes

Source: src/api/db/tasks.ts:22-36, 138-166 and 428-695, task-assignment.ts and
coordination/work-lease-actions.ts.

`updateTask` reads the task, decides, and writes what it was given; with a lease fence,
a new work lease or a board approval it does so in one transaction. The lease actions
write status and assignee back as they computed them from their first read.

Modelling boundary: a read outside a transaction locks nothing, so it is not committed
on its own; the delivery connections of the target and the shared artifacts are left
out, since nothing here reads them back.
-/
namespace LetAgents.Coordination

open Lib.ReadCommitted

/-! ## Assignment -/

/-- `TaskAssignmentPatch`; `none` is a property that the patch does not have. -/
structure TaskAssignmentPatch where
  status : Option TaskStatus := none
  assignee : Option (Option String) := none
  assignee_agent_key : Option (Option String) := none

structure TaskAssignment where
  status : TaskStatus
  assignee : Option String
  assignee_agent_key : Option String

def resolveTaskAssignmentState (task : Task) (updates : TaskAssignmentPatch) : TaskAssignment where
  status := updates.status.getD task.status
  assignee := updates.assignee.getD task.assignee
  assignee_agent_key :=
    match updates.assignee with
    | some _ => updates.assignee_agent_key.getD none
    | none => updates.assignee_agent_key.getD task.assignee_agent_key

def Task.assigned (task : Task) (assignment : TaskAssignment) (now : Nat) : Task :=
  { task with
    status := assignment.status
    assignee := assignment.assignee
    assignee_agent_key := assignment.assignee_agent_key
    updated_at := now }

/-! ## `updateTask` -/

/-- The content that the caller has seen. -/
structure ExpectedContent where
  title : Option String := none
  description : Option String := none
deriving DecidableEq

def ExpectedContent.admits (expected : ExpectedContent) (task : Task) : Bool :=
  expected.title.all (task.title = ·) && expected.description.all (task.description.getD "" = ·)

/-- `workflow_artifacts` is the JSON of the given list. -/
structure TaskUpdates where
  title : Option String := none
  description : Option String := none
  expected_content : Option ExpectedContent := none
  status : Option TaskStatus := none
  assignee : Option (Option String) := none
  assignee_agent_key : Option (Option String) := none
  pr_url : Option String := none
  workflow_artifacts : Option String := none
deriving DecidableEq

structure UpdateTaskInput where
  room_id : String
  task_id : Nat
  updates : TaskUpdates
  boardIntentApproval : Option BoardIntentConsumptionInput := none
  workLeaseCreation : Option CreateTaskLeaseRowInput := none
  leaseFence : Option LeaseFence := none
  /-- the clock at the write, and at the look at the lease's end -/
  now : Nat
  checked_at : Nat
deriving DecidableEq

namespace UpdateTaskInput

variable (env : Externals) (input : UpdateTaskInput)

def key : Key := .task input.room_id input.task_id

def assignmentPatch : TaskAssignmentPatch :=
  ⟨input.updates.status, input.updates.assignee, input.updates.assignee_agent_key⟩

def progressRetryEligible : Bool :=
  (input.leaseFence.any fun fence =>
    fence.kind = .work && fence.room_id = input.room_id && fence.task_id = input.task_id) &&
      input.boardIntentApproval.isNone && input.workLeaseCreation.isNone

def progressStatus (status : TaskStatus) : Bool := status = .in_progress || status = .in_review

def isExactProgressRetry (current : Task) : Bool :=
  input.progressRetryEligible && input.updates.status = some current.status &&
    progressStatus current.status && input.updates.title.all (current.title = ·) &&
    input.updates.description.all (current.description = some ·) &&
    input.updates.assignee.all (current.assignee = ·) &&
    input.updates.assignee_agent_key.all (current.assignee_agent_key = ·) &&
    input.updates.pr_url.all (current.pr_url = some ·) &&
    input.updates.workflow_artifacts.all fun artifacts =>
      env.normalizeTaskWorkflowArtifacts artifacts (input.updates.pr_url <|> current.pr_url) =
        current.workflow_artifacts

def retryingOwnClaim (task : Task) : Bool :=
  task.status = .assigned && input.updates.status = some .assigned &&
    input.updates.title.all (task.title = ·) &&
    input.updates.description.all (task.description = some ·) &&
    task.assignee_agent_key.any (· ≠ "") &&
    input.updates.assignee_agent_key = some task.assignee_agent_key &&
    input.updates.assignee = some task.assignee &&
    (input.leaseFence.any (·.agent_session_id ≠ "") ||
      input.workLeaseCreation.any fun creation =>
        creation.agent_session_id.any (· ≠ "") && task.assignee_agent_key = some creation.agent_key)

/-- The checks on the row that was read first. -/
def refusal (task : Task) : Option String :=
  if input.workLeaseCreation.isSome && input.updates.status = some .assigned &&
      task.status ≠ .accepted && !input.retryingOwnClaim task then
    some "coordination_lease_fence_stale"
  else if input.updates.status.any fun status =>
      !isValidTransition task.status status && !input.retryingOwnClaim task &&
        !input.isExactProgressRetry env task then
    some "Invalid transition"
  else none

def writesWorkflow : Bool := input.updates.pr_url.isSome || input.updates.workflow_artifacts.isSome

def newWorkflowArtifacts (task : Task) : String :=
  let newPrUrl := input.updates.pr_url <|> task.pr_url
  match input.updates.workflow_artifacts with
  | some artifacts => env.normalizeTaskWorkflowArtifacts artifacts newPrUrl
  | none => env.synchronizeTaskWorkflowArtifactsWithPrUrl task.workflow_artifacts task.pr_url newPrUrl

/-- `writeTaskUpdate`: the fields that the caller gave, over the row that is there.
Omitted fields keep what the row has. -/
def write (read current : Task) : Option Task :=
  let assignment := resolveTaskAssignmentState read input.assignmentPatch
  if input.updates.expected_content.all (·.admits current) then
    some { current with
      title := input.updates.title.getD current.title
      description := input.updates.description <|> current.description
      status := input.updates.status.getD current.status
      assignee := if input.updates.assignee.isSome then assignment.assignee else current.assignee
      assignee_agent_key :=
        if input.updates.assignee.isSome then assignment.assignee_agent_key
        else input.updates.assignee_agent_key.getD current.assignee_agent_key
      pr_url := input.updates.pr_url <|> current.pr_url
      workflow_artifacts :=
        if input.writesWorkflow then input.newWorkflowArtifacts env read
        else current.workflow_artifacts
      updated_at := input.now }
  else none

end UpdateTaskInput

/-- The fields that a claim or a progress report must find as it read them. -/
def Task.unchanged (read current : Task) : Bool :=
  current.status = read.status && current.updated_at = read.updated_at &&
    current.assignee = read.assignee && current.assignee_agent_key = read.assignee_agent_key &&
    current.pr_url = read.pr_url && current.workflow_artifacts = read.workflow_artifacts

def leaseFenceStale : Outcome := .threw "coordination_lease_fence_stale"

/-- `SELECT … FOR UPDATE` of one task. -/
def lockTask (room_id : String) (number : Nat) (next : Option Task → Prog) : Prog :=
  .update (atKey (.task room_id number) some) fun seen _ => next (seen.rows (.task room_id number))

/-- The pull request of the fenced lease. -/
def bindPrUrl (input : UpdateTaskInput) (lease : TaskLease) : Option TaskLease :=
  if lease.room_id = input.room_id then
    some { lease with pr_url := input.updates.pr_url, updated_at := input.now }
  else none

/-- The refs of the fenced lease. -/
def writeRefs (input : UpdateTaskInput) : Prog :=
  match input.leaseFence with
  | some fence =>
    if input.updates.pr_url.isSome then
      .update (atKey (.lease fence.lease_id) (bindPrUrl input)) fun _ _ => .finish .done
    else .finish .done
  | none => .finish .done

/-- The UPDATE, then the new lease and the refs. -/
def writeTask (env : Externals) (input : UpdateTaskInput) (task : Task) : Prog :=
  .update (atKey input.key (input.write env task)) fun _ written =>
  if written = [] && input.updates.expected_content.isSome then
    .abort (.threw "task_content_conflict")
  else
  match input.workLeaseCreation with
  | some creation =>
    .insert (.lease creation.id)
      (createTaskLeaseRow creation input.room_id input.task_id .work input.now) (writeRefs input)
      (.abort (.threw "unique_violation"))
  | none => writeRefs input

/-- The board's approval is spent where one is given. -/
def consumeApproval (env : Externals) (approval : Option BoardIntentConsumptionInput) (next : Prog) :
    Prog :=
  match approval with
  | some approval => assertConsumeBoardIntentApproval env approval next
  | none => next

/-- An active work lease on the task. -/
def activeWork (room_id : String) (task_id : Nat) (seen : Seen Row) : Bool :=
  seen.keys.any fun
    | .lease id => (seen.rows (.lease id)).any fun lease =>
      lease.room_id = room_id && lease.task_id = task_id && lease.kind = .work &&
        lease.status = .active
    | _ => false

/-- The claim on the locked row. -/
def resumeClaim (input : UpdateTaskInput) (task : Task) (next : Prog) (current : Option Task) : Prog :=
  if !current.any task.unchanged then .abort leaseFenceStale
  else if input.workLeaseCreation.isSome then
    .select fun seen =>
      if activeWork input.room_id input.task_id seen then .abort leaseFenceStale else next
  else next

/-- A claim is serialized on the task's row. -/
def claimTask (input : UpdateTaskInput) (task : Task) (next : Prog) : Prog :=
  if input.workLeaseCreation.isSome || input.retryingOwnClaim task then
    lockTask input.room_id input.task_id (resumeClaim input task next)
  else next

/-- The answer to a progress report that is already recorded. -/
def answerProgressRetry (input : UpdateTaskInput) (fence : LeaseFence) (held : TaskLease)
    (current : Task) : Prog :=
  if !input.updates.expected_content.all (·.admits current) then
    .abort (.threw "task_content_conflict")
  else
    .share (fun k _ => k = .session fence.agent_session_id) fun seen =>
    if current.assignee_agent_key ≠ some held.agent_key ||
        held.expires_at.any (· ≤ input.checked_at) ||
        !(seen.rows (.session fence.agent_session_id)).any (fun session =>
          session.ended_at.isNone && session.room_id = input.room_id &&
            session.agent_key = held.agent_key) then
      .abort leaseFenceStale
    else .finish .done

/-- The progress report on the locked row. -/
def resumeProgress (env : Externals) (input : UpdateTaskInput) (fence : LeaseFence)
    (held : TaskLease) (task : Task) (next : Prog) : Option Task → Prog
  | none => .abort leaseFenceStale
  | some current =>
    if input.isExactProgressRetry env current then answerProgressRetry input fence held current
    else if input.isExactProgressRetry env task || !task.unchanged current then
      .abort leaseFenceStale
    else next

/-- A progress report is read again under the lease's and the task's locks. -/
def progressTask (env : Externals) (input : UpdateTaskInput) (fence : LeaseFence) (held : TaskLease)
    (task : Task) (next : Prog) : Prog :=
  if input.progressRetryEligible && input.updates.status.any UpdateTaskInput.progressStatus then
    lockTask input.room_id input.task_id (resumeProgress env input fence held task next)
  else next

/-- The lease's fence comes first. -/
def fenceTask (env : Externals) (input : UpdateTaskInput) (task : Task) (next : Prog) : Prog :=
  match input.leaseFence with
  | some fence =>
    acquireLeaseFenceTx fence fun
    | none => .abort leaseFenceStale
    | some held =>
      .note { task := some task, fence := some fence } <|
        progressTask env input fence held task next
  | none => next

def updateTask (env : Externals) (input : UpdateTaskInput) : Prog :=
  .select fun seen =>
  match seen.rows input.key with
  | none => .finish .none
  | some task =>
  .note { task := some task } <|
  match input.refusal env task with
  | some error => .abort (.threw error)
  | none =>
  fenceTask env input task <| claimTask input task <|
    consumeApproval env input.boardIntentApproval <| writeTask env input task

/-! ## The other task writes -/

def acceptTask (now : Nat) (task : Task) : Option Task :=
  if task.status = .proposed then some { task with status := .accepted, updated_at := now } else none

/-- `acceptProposedTaskTx` in a transaction of its own. -/
def acceptProposedTask (room_id : String) (task_id : Nat) (now : Nat) : Prog :=
  .update (atKey (.task room_id task_id) (acceptTask now)) fun _ accepted =>
    .finish (if accepted = [] then .none else .done)

structure TaskWorkLeaseActionInput where
  room_id : String
  task_id : Nat
  active_lease_id : String
  expected_lease_epoch : Option Nat
  revoked : Bool
  disposition_reason : Option String
  task_updates : TaskAssignmentPatch
  board_intent_approval : Option BoardIntentConsumptionInput
  new_lease : Option CreateTaskLeaseRowInput
  /-- the target's worker has a delivery connection -/
  reachable : Bool
  now : Nat

namespace TaskWorkLeaseActionInput

variable (input : TaskWorkLeaseActionInput)

/-- The active work lease, released or revoked. -/
def dispose (lease : TaskLease) : Option TaskLease :=
  if lease.room_id = input.room_id && lease.task_id = input.task_id && lease.kind = .work &&
      lease.status = .active && input.expected_lease_epoch.all (lease.epoch = ·) &&
      lease.expires_at.all (input.now < ·) then
    some { lease with
      status := if input.revoked then .revoked else .released
      revoked_reason := if input.revoked then input.disposition_reason else none
      updated_at := input.now }
  else none

/-- The task with the assignment that was computed from the first read. -/
def assign (read current : Task) : Option Task :=
  some (current.assigned (resolveTaskAssignmentState read input.task_updates) input.now)

end TaskWorkLeaseActionInput

/-- A conflict is returned, so what was written before it is committed. -/
def actionConflict (conflict : String) : Prog := .finish (.failed conflict)

/-- The lease action on the task that was read. -/
def workLeaseAction (env : Externals) (input : TaskWorkLeaseActionInput) (task : Task) : Prog :=
  if input.new_lease.any (fun lease => lease.agent_session_id.any (· ≠ "")) && !input.reachable then
    actionConflict "target_unreachable"
  else
  .update (expireLeases input.room_id input.now) fun _ _ =>
  .update (atKey (.lease input.active_lease_id) input.dispose) fun _ released =>
  if released = [] then actionConflict "lease_not_active"
  else
  .update (atKey (.task input.room_id input.task_id) (input.assign task)) fun _ updated =>
  if updated = [] then actionConflict "task_not_found"
  else
  consumeApproval env input.board_intent_approval <|
  match input.new_lease with
  | some creation =>
    .insert (.lease creation.id)
      (createTaskLeaseRow creation input.room_id input.task_id .work input.now) (.finish .done)
      (.abort (.threw "unique_violation"))
  | none => .finish .done

def applyTaskWorkLeaseAction (env : Externals) (input : TaskWorkLeaseActionInput) : Prog :=
  .select fun seen =>
  match seen.rows (.task input.room_id input.task_id) with
  | none => actionConflict "task_not_found"
  | some task => .note { task := some task } (workLeaseAction env input task)

def writeAssignment (room_id : String) (task_id : Nat) (updates : TaskAssignmentPatch) (now : Nat)
    (task : Task) : Prog :=
  .update (atKey (.task room_id task_id) fun current =>
      some (current.assigned (resolveTaskAssignmentState task updates) now)) fun _ _ =>
  .finish .done

def setTaskAssignmentStateForLeaseAction (room_id : String) (task_id : Nat)
    (updates : TaskAssignmentPatch) (now : Nat) : Prog :=
  .select fun seen =>
  match seen.rows (.task room_id task_id) with
  | none => .finish .none
  | some task => .note { task := some task } (writeAssignment room_id task_id updates now task)

end LetAgents.Coordination

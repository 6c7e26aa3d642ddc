import LetAgents.Tasks.ReviewAuthority
import LetAgents.Tasks.WorkOwnership

/-!
# Workers and reviewers

A claim of review authority refuses the worker that a task is assigned to. Nothing refuses
the assignment of a task to the worker that reviews it: `Apart` excludes those.
-/
namespace LetAgents.Tasks.ReviewSeparation

open Lib Lib.Js Lib.Checked LocalTaskStore
open LetAgents.Tasks.WorkOwnership (WorkCall workCall)
open ReviewAuthority

/-! ## Calls -/

inductive TaskCall where
  | work (call : WorkCall)
  | claimLocalTaskReviewLease (roomId taskId : String) (input : ReviewClaimInput)
      (newId now : String)
  | releaseLocalTaskReviewLease (roomId taskId : String) (leaseId : Option String) (now : String)

def claimLocalTaskReviewLease (db : LocalDb) (roomId taskId : String) (input : ReviewClaimInput)
    (newId now : String) : Except String LocalDb := do
  let current ← found (db.task roomId taskId) "Task not found."
  checkReviewClaim current input
  return db.updateReview
    (claimedRow current ((currentReviewLeaseId current).getD newId) input now)

def releaseLocalTaskReviewLease (db : LocalDb) (roomId taskId : String) (leaseId : Option String)
    (now : String) : Except String LocalDb := do
  let current ← found (db.task roomId taskId) "Task not found."
  checkReviewRelease current leaseId
  return db.updateReview (releasedRow current now)

def taskStep (db : LocalDb) : TaskCall → Except String LocalDb
  | .work call => workCall db call
  | .claimLocalTaskReviewLease roomId taskId input newId now =>
    ReviewSeparation.claimLocalTaskReviewLease db roomId taskId input newId now
  | .releaseLocalTaskReviewLease roomId taskId leaseId now =>
    ReviewSeparation.releaseLocalTaskReviewLease db roomId taskId leaseId now

/-- Tasks without a review lease. -/
def initial (db : LocalDb) : LocalDb :=
  { db with tasks := db.tasks.map fun task => releasedRow task task.updatedAt }

/-- No task is reviewed by the worker that it is assigned to. -/
def Separated (db : LocalDb) : Prop :=
  ∀ task ∈ db.tasks, ∀ key, task.reviewAgentKey = some key → task.assigneeAgentKey ≠ some key

/-- The worker of an update, where the update claims the task for it. -/
def claimingWorker (context : CallContext) (caller : Option WorkerCall) (roomId : String)
    (patch : TaskPatch) : Option Worker :=
  (callWorker caller).filter fun worker =>
    match assertLocalWorkLeaseWorker context roomId worker with
    | .ok supervised => assigns supervised patch
    | .error _ => false

/-- The task of a call and the agent keys that the call may assign it to. -/
def assignedKeys : WorkCall → (String × String) × List (Option String)
  | .claimLocalWorkLease _ roomId taskId worker => ((roomId, taskId), [worker.agentKey])
  | .changeLocalWorkLease context roomId taskId input _ =>
    ((roomId, taskId), match changeTarget context roomId input with
      | .ok (some target) => [target.agentKey]
      | _ => [])
  | .updateLocalTask context caller _ roomId taskId patch =>
    ((roomId, taskId), patch.assigneeAgentKey.toList ++
      ((claimingWorker context caller roomId patch).map Worker.agentKey).toList)
  | .endLocalWorkerLeases .. | .heartbeatLocalWorkLeases .. | .deleteTask .. | .expire .. =>
    (("", ""), [])

/-- No call that goes through assigns a task to the worker that reviews it. -/
def apart (db : LocalDb) : TaskCall → Bool
  | .work call =>
    !(workCall db call).isOk ||
      (db.task (assignedKeys call).1.1 (assignedKeys call).1.2).all fun task =>
        task.reviewAgentKey = none || !(assignedKeys call).2.contains task.reviewAgentKey
  | _ => true

def Apart (db : LocalDb) (call : TaskCall) : Prop := apart db call = true

instance (db : LocalDb) (call : TaskCall) : Decidable (Apart db call) :=
  inferInstanceAs (Decidable (_ = true))

/-! ## Statements -/

theorem initial_separated (db : LocalDb) : Separated (initial db) := by
  intro task member key
  obtain ⟨old, _, rfl⟩ := List.mem_map.mp member
  exact nofun

/-- A row with reviewer and assignee apart. -/
def RowSeparated (task : LocalTask) : Prop :=
  ∀ key, task.reviewAgentKey = some key → task.assigneeAgentKey ≠ some key

variable {db next : LocalDb} {task : LocalTask} {roomId taskId now : String}
  {worker : Option Worker} {context : CallContext}

theorem Separated.put (separated : Separated db) (row : RowSeparated task)
    (leases : List WorkLease) :
    Separated { tasks := Table.put LocalTask.key task db.tasks, leases } := by
  intro other member
  rcases Table.mem_put member with ⟨rfl, _⟩ | ⟨old, _⟩
  · exact row
  · exact separated other old

theorem Separated.row (separated : Separated db) (stored : db.task roomId taskId = some task) :
    RowSeparated task :=
  separated task (Table.mem_of_find stored).1

/-- The row after an assignment to another worker than the reviewer. -/
theorem assign_separated
    (other : ∀ key, task.reviewAgentKey = some key → worker.bind Worker.agentKey ≠ some key) :
    RowSeparated (assignTask task worker status now) := other

/-- A mint changes no task. -/
theorem mint_separated {id : String} {worker : Worker} (separated : Separated db)
    (ok : mintLease db roomId taskId worker id now = .ok (next, lease)) : Separated next := by
  obtain ⟨_, _, ok⟩ := found_bind_ok ok
  obtain ⟨_, _, ok⟩ := found_bind_ok ok
  obtain ⟨_, _, ok⟩ := found_bind_ok ok
  obtain ⟨minted, inserted, ok⟩ := bind_ok ok
  cases ok
  obtain ⟨_, inserted⟩ := require_bind_ok inserted
  obtain ⟨_, inserted⟩ := require_bind_ok inserted
  cases inserted
  exact separated

/-! ## Calls keep them apart -/

theorem claim_separated {worker : Worker} (separated : Separated db)
    (other : ∀ task key, db.task roomId taskId = some task → task.reviewAgentKey = some key →
      worker.agentKey ≠ some key)
    (ok : LocalTaskStore.claimLocalWorkLease context db roomId taskId worker = .ok (next, lease)) :
    Separated next := by
  obtain ⟨supervised, _, ok⟩ := bind_ok ok
  obtain ⟨_, ok⟩ := require_bind_ok ok
  obtain ⟨task, stored, ok⟩ := found_bind_ok ok
  dsimp only at ok
  split at ok
  · obtain ⟨_, ok⟩ := require_bind_ok ok
    cases ok
    exact separated
  · obtain ⟨_, ok⟩ := require_bind_ok ok
    obtain ⟨_, ok⟩ := require_bind_ok ok
    refine mint_separated (Separated.put separated (assign_separated ?_) _) ok
    exact fun key reviews => other task key stored reviews

theorem change_separated (separated : Separated db)
    (other : ∀ task key target, db.task roomId taskId = some task → task.reviewAgentKey = some key →
      changeTarget context roomId input = .ok (some target) → target.agentKey ≠ some key)
    (ok : LocalTaskStore.changeLocalWorkLease context db roomId taskId input worker = .ok next) :
    Separated next := by
  obtain ⟨_, _, ok⟩ := bind_ok ok
  obtain ⟨task, stored, ok⟩ := found_bind_ok ok
  obtain ⟨active, _, ok⟩ := found_bind_ok ok
  obtain ⟨_, ok⟩ := require_bind_ok ok
  obtain ⟨_, ok⟩ := require_bind_ok ok
  obtain ⟨target, meant, ok⟩ := bind_ok ok
  cases target with
  | none =>
    cases ok
    refine Separated.put separated (assign_separated ?_) _
    intro key _ same
    cases same
  | some target =>
    obtain ⟨minted, mints, ok⟩ := bind_ok ok
    cases ok
    refine mint_separated (Separated.put separated (assign_separated ?_) _) mints
    exact fun key reviews => other task key target stored reviews meant

/-- An update that changes the assignee names its key. -/
theorem patched_separated (row : RowSeparated current)
    (other : ∀ key, current.reviewAgentKey = some key → patch.assigneeAgentKey ≠ some (some key)) :
    RowSeparated (patchedRow patch worker current status now) := by
  intro key reviews
  have before := row key reviews
  have named := other key reviews
  unfold patchedRow
  cases patched : patch.assigneeAgentKey with
  | none => exact before
  | some value =>
    rw [patched] at named
    exact fun same => named (congrArg some same)

theorem update_separated (separated : Separated db)
    (named : ∀ task key, db.task roomId taskId = some task → task.reviewAgentKey = some key →
      patch.assigneeAgentKey ≠ some (some key))
    (claims : ∀ task key worker, db.task roomId taskId = some task → task.reviewAgentKey = some key →
      claimingWorker context caller roomId patch = some worker → worker.agentKey ≠ some key)
    (ok : LocalTaskStore.updateLocalTask context db caller observed roomId taskId patch = .ok next) :
    Separated next := by
  obtain ⟨row, stored, ok⟩ := found_bind_ok ok
  obtain ⟨_, ok⟩ := require_bind_ok ok
  split at ok
  · rename_i worker called
    obtain ⟨supervised, checked, ok⟩ := bind_ok ok
    obtain ⟨_, ok⟩ := require_bind_ok ok
    obtain ⟨⟨claimed, lease⟩, claiming, ok⟩ := bind_ok ok
    obtain ⟨current, currentStored, ok⟩ := found_bind_ok ok
    obtain ⟨_, _, ok⟩ := bind_ok ok
    obtain ⟨_, ownership, ok⟩ := bind_ok ok
    obtain ⟨status, _, ok⟩ := bind_ok ok
    cases ok
    unfold claimForUpdate at claiming
    split at claiming
    · -- the claim assigns the task, and the patch may not assign it to anybody else
      rename_i assigning
      obtain ⟨⟨taken, held⟩, claim, shape⟩ := map_ok claiming
      cases shape
      have meant : claimingWorker context caller roomId patch = some worker := by
        rw [claimingWorker, called]
        simp [checked, assigning]
      have after : Separated taken := claim_separated separated
        (fun task key taskStored reviews => claims task key worker taskStored reviews meant) claim
      refine Separated.put after (patched_separated (after.row currentStored) ?_) _
      intro key reviews same
      have trusted : supervised = true := (Bool.and_eq_true _ _ ▸ assigning).1
      rw [onlyIf, if_pos (.inl trusted)] at ownership
      have unchanged := require_ok ownership
      have keyKept : changes patch.assigneeAgentKey current.assigneeAgentKey = false := by
        by_contra changed
        exact unchanged (.inr (.inl (by simpa using changed)))
      rw [same] at keyKept
      have assignee : some key = current.assigneeAgentKey := by
        rw [changes, Option.any_some, decide_eq_false_iff_not, not_not] at keyKept
        exact keyKept
      exact after.row currentStored key reviews assignee.symm
    · cases claiming
      refine Separated.put separated (patched_separated (separated.row currentStored) ?_) _
      exact fun key reviews => named current key currentStored reviews
  · obtain ⟨_, ok⟩ := require_bind_ok ok
    obtain ⟨status, _, ok⟩ := bind_ok ok
    cases ok
    refine Separated.put separated (patched_separated (separated.row stored) ?_) _
    exact fun key reviews => named row key stored reviews

/-- A claim of review authority is refused to the assignee. -/
theorem review_separated (ok : checkReviewClaim current input = .ok ()) :
    RowSeparated (claimedRow current leaseId input now) := by
  obtain ⟨notAssignee, _⟩ := require_bind_ok ok
  intro key reviews assignee
  change actorKey input = some key at reviews
  change current.assigneeAgentKey = some key at assignee
  have text : key ≠ "" := by
    have kept := (Option.filter_eq_some_iff.mp reviews).2
    simpa using kept
  refine notAssignee ⟨?_, ?_, ?_⟩
  · rw [reviews]
    exact nofun
  · simp [present, assignee, text]
  · rw [assignee, reviews]

theorem taskStep_separated (db : LocalDb) (call : TaskCall) (next : LocalDb)
    (separated : Separated db) (kept : Apart db call) (ok : taskStep db call = .ok next) :
    Separated next := by
  cases call with
  | claimLocalTaskReviewLease roomId taskId input newId now =>
    obtain ⟨current, _, ok⟩ := found_bind_ok ok
    obtain ⟨_, checked, ok⟩ := bind_ok ok
    cases ok
    exact Separated.put separated (review_separated checked) db.leases
  | releaseLocalTaskReviewLease roomId taskId leaseId now =>
    obtain ⟨current, _, ok⟩ := found_bind_ok ok
    obtain ⟨_, _, ok⟩ := bind_ok ok
    cases ok
    refine Separated.put separated ?_ db.leases
    intro key reviews
    cases reviews
  | work call =>
    -- the condition, for the task of the call and each key that it may assign
    have apart' : ∀ task key, db.task (assignedKeys call).1.1 (assignedKeys call).1.2 = some task →
        task.reviewAgentKey = some key → some key ∉ (assignedKeys call).2 := by
      intro task key stored reviews
      change workCall db call = .ok next at ok
      simp only [Apart, apart, ok, Except.toBool, stored] at kept
      simpa [reviews] using kept
    cases call with
    | claimLocalWorkLease context roomId taskId worker =>
      obtain ⟨⟨claimed, lease⟩, claim, rfl⟩ := map_ok ok
      refine claim_separated separated (fun task key stored reviews same => ?_) claim
      exact apart' task key stored reviews (by rw [← same]; exact .head _)
    | changeLocalWorkLease context roomId taskId input worker =>
      refine change_separated separated (fun task key target stored reviews meant same => ?_)
        ok
      refine apart' task key stored reviews ?_
      simp only [assignedKeys, meant, same, List.mem_singleton]
    | updateLocalTask context caller observed roomId taskId patch =>
      refine update_separated separated (fun task key stored reviews same => ?_)
        (fun task key worker stored reviews claims same => ?_) ok
      · refine apart' task key stored reviews ?_
        simp [assignedKeys, same]
      · refine apart' task key stored reviews ?_
        simp [assignedKeys, claims, same]
    | endLocalWorkerLeases sessionId now | heartbeatLocalWorkLeases sessionId now
    | expire id expiresAt =>
      cases ok
      exact separated
    | deleteTask roomId taskId =>
      cases ok
      exact fun task member => separated task (List.mem_filter.mp member).1

/-- In every run without an assignment to the reviewer, reviewer and assignee differ. -/
theorem worker_reviewer_separated (db : LocalDb) (calls : List TaskCall)
    (kept : Replay.Meets taskStep Apart (initial db) calls) :
    Separated (Replay.replay taskStep (initial db) calls) :=
  Replay.replay_preserves Apart Separated taskStep_separated kept (initial_separated db)

/-- A supervised worker of the sample room. -/
def sampleWorker (agentKey sessionId : String) : Worker :=
  ⟨some agentKey, some sessionId, some agentKey, none, true⟩

def sampleSession (agentKey sessionId : String) : SupervisorSession :=
  ⟨sessionId, none, false, false, "room", agentKey, sampleWorker agentKey sessionId⟩

def sampleContext (leaseId : String) : CallContext :=
  ⟨some [sampleSession "a" "s1", sampleSession "b" "s2"], "t1", "t1", leaseId⟩

def acceptedTask : LocalDb := ⟨[{ sampleTask with status := "accepted" }], []⟩

theorem claimed_task_reviewed_by_other :
    Separated (Replay.replay taskStep (initial acceptedTask)
      [.work (.claimLocalWorkLease (sampleContext "lease") "room" "task_1" (sampleWorker "a" "s1")),
        .claimLocalTaskReviewLease "room" "task_1" (claimBy "a") "review" "t2",
        .claimLocalTaskReviewLease "room" "task_1" (claimBy "b") "review" "t3"]) :=
  worker_reviewer_separated _ _ (by decide +kernel)

/-- The reviewer of an accepted task claims the task itself. -/
theorem reviewer_claims_task :
    ¬ ∀ db calls, Separated (Replay.replay taskStep (initial db) calls) := by
  intro separated
  have overlap : ∃ calls, ∃ task ∈ (Replay.replay taskStep (initial acceptedTask) calls).tasks,
      task.reviewAgentKey = some "a" ∧ task.assigneeAgentKey = some "a" :=
    ⟨[.claimLocalTaskReviewLease "room" "task_1" (claimBy "a") "review" "t1",
      .work (.claimLocalWorkLease (sampleContext "lease") "room" "task_1" (sampleWorker "a" "s1"))],
      by decide +kernel⟩
  obtain ⟨calls, task, member, reviews, assignee⟩ := overlap
  exact separated acceptedTask calls task member "a" reviews assignee

end LetAgents.Tasks.ReviewSeparation

import LetAgents.Coordination.TaskFootprints

/-!
# Status transitions

A task's status is to follow the table of transitions. The transition is validated on
the row that a call read first; a claim and a progress report find the row unchanged
under its lock, the other writes do not look again, and a lease action writes back the
fields that it was not given.
-/
namespace LetAgents.Coordination

open Lib.ReadCommitted Lib.ReadCommitted.Discipline

inductive StatusCall
  | updateTask (input : UpdateTaskInput)
  | acceptProposedTask (room_id : String) (task_id : Nat) (now : Nat)
  | applyTaskWorkLeaseAction (input : TaskWorkLeaseActionInput)
  | setTaskAssignmentStateForLeaseAction (room_id : String) (task_id : Nat)
      (updates : TaskAssignmentPatch) (now : Nat)

variable {c : StatusCall} {notes : Note → Prop} {current read task : Task} {n : Note}
  {updates : TaskAssignmentPatch}

namespace StatusCall

def program (env : Externals) : StatusCall → Prog
  | .updateTask input => Coordination.updateTask env input
  | .acceptProposedTask room_id task_id now => Coordination.acceptProposedTask room_id task_id now
  | .applyTaskWorkLeaseAction input => Coordination.applyTaskWorkLeaseAction env input
  | .setTaskAssignmentStateForLeaseAction room_id task_id updates now =>
    Coordination.setTaskAssignmentStateForLeaseAction room_id task_id updates now

/-- The task and the updates of a lease action. -/
def leaseAction : StatusCall → Option (Key × TaskAssignmentPatch)
  | .applyTaskWorkLeaseAction input =>
    some (.task input.room_id input.task_id, input.task_updates)
  | .setTaskAssignmentStateForLeaseAction room_id task_id updates _ =>
    some (.task room_id task_id, updates)
  | _ => none

/-- What a call may make of the status of a task. -/
def moves : StatusCall → Key → Task → Task → Prop
  | .updateTask input, k, v, v' =>
    k = input.key ∧ (v'.status = v.status ∨ input.updates.status = some v'.status)
  | .acceptProposedTask .., _, v, v' => v.status = .proposed ∧ v'.status = .accepted
  | call, k, _, _ => ∃ updates, call.leaseAction = some (k, updates)

theorem moves_trans (first : c.moves k v v') (second : c.moves k v' v'') : c.moves k v v'' := by
  cases c <;> simp only [moves] at first second ⊢ <;> grind

/-- New leases come from updates and lease actions. -/
def bears : StatusCall → ∀ k, Row k → Prop
  | .updateTask _, .lease _, _ | .applyTaskWorkLeaseAction _, .lease _, _ => True
  | _, _, _ => False

end StatusCall

abbrev statuses (env : Externals) : System Row StatusCall LockKey Note Outcome :=
  server (StatusCall.program env)

/-! ## What is promised -/

/-- The update looks at the task again under its lock. -/
def UpdateTaskInput.rereads (input : UpdateTaskInput) (task : Task) : Bool :=
  input.workLeaseCreation.isSome || input.retryingOwnClaim task ||
    input.progressRetryEligible && input.updates.status.any UpdateTaskInput.progressStatus

def Task.assignment (task : Task) : TaskAssignment :=
  ⟨task.status, task.assignee, task.assignee_agent_key⟩

/-- The update was admitted for the task it read; where it looks again, it has found the
status that it read or the one it brings. -/
def admittedUpdate (env : Externals) (input : UpdateTaskInput) (p : Commit StatusCall) : Prop :=
  ∃ task, p.note.task = some task ∧ input.refusal env task = none ∧
    (input.rereads task = true → ∀ current, p.footing.base input.key = some current →
      (current : Task).status = task.status ∨ input.updates.status = some (current : Task).status)

/-- The action writes what it computed from the task it read. -/
def computedAction (k : Key) (updates : TaskAssignmentPatch) (p : Commit StatusCall) : Prop :=
  match k with
  | .task room number => ∀ written, p.rows (.task room number) = some written →
      ∃ task, p.note.task = some task ∧
        Task.assignment written = resolveTaskAssignmentState task updates
  | _ => True

def promisedStatus (env : Externals) (p : Commit StatusCall) : Prop :=
  match p.call with
  | .updateTask input => p.rows input.key ≠ none → admittedUpdate env input p
  | .acceptProposedTask .. => True
  | call => ∀ k updates, call.leaseAction = some (k, updates) → computedAction k updates p

/-- The fields that an action leaves out are as it read them; an assignee without an agent
key takes the key away. -/
def TaskAssignmentPatch.faithful (updates : TaskAssignmentPatch) (read current : Task) : Bool :=
  (updates.status.isSome || current.status = read.status) &&
    (updates.assignee.isSome || current.assignee = read.assignee) &&
    (updates.assignee_agent_key.isSome ||
      current.assignee_agent_key =
        if updates.assignee.isSome then none else read.assignee_agent_key)

/-- What a call read first still stands when it commits without another look. -/
def freshRead (p : Commit StatusCall) : Bool :=
  match p.call with
  | .updateTask input =>
    p.note.task.all fun task => input.rereads task || input.updates.status.isNone ||
      (p.footing.base input.key).all fun current : Task => current.status = task.status
  | .acceptProposedTask .. => true
  | .applyTaskWorkLeaseAction input =>
    p.note.task.all fun task =>
      (p.rows (.task input.room_id input.task_id)).isNone ||
        (p.footing.base (.task input.room_id input.task_id)).all
          (input.task_updates.faithful task)
  | .setTaskAssignmentStateForLeaseAction room_id task_id updates _ =>
    p.note.task.all fun task =>
      (p.footing.base (.task room_id task_id)).all (updates.faithful task)

def statusDiscipline (env : Externals) : Discipline (statuses env) :=
  discipline (StatusCall.program env) (fun c => onTasks c.moves) StatusCall.bears (fun _ => True)
    (promisedStatus env) (fun p => freshRead p = true) (fun _ _ _ => True)
    (fun {c _ _ _ _} => onTasks_trans (P := c.moves) fun _ _ _ _ => StatusCall.moves_trans)
    (fun {c k v v'} born _ _ => by cases c <;> cases k <;> exact born)

section Outlines

variable {env : Externals}

/-! ### The update -/

section UpdateTask

variable {input : UpdateTaskInput} {task : Task}

/-- The version of the task that the update has locked. -/
def holdsTask (input : UpdateTaskInput) (current : Task) (f : Footing Row LockKey) : Prop :=
  f.written input.key ≠ none ∧ f.base input.key = some current

theorem writeTask_admitted :
    (writeTask env input task).Keeps notes ((statusDiscipline env).law (.updateTask input))
      ((statusDiscipline env).born (.updateTask input)) := by
  refine writeTask_keeps (fun v v' made => And.intro trivial (And.intro rfl ?_))
    (fun _ _ _ _ made => And.intro (bindPrUrl_keepsIndexes _ made) trivial) fun _ _ => trivial
  simp only [UpdateTaskInput.write, Option.ite_none_right_eq_some, Option.some.injEq] at made
  obtain ⟨_, rfl⟩ := made
  cases given : input.updates.status with
  | none => exact .inl rfl
  | some status => exact .inr rfl

theorem updateTask_sameStatus (v : Task) :
    (statusDiscipline env).law (.updateTask input) input.key v v :=
  And.intro trivial (And.intro rfl (.inl rfl))

theorem consumeApproval_admitted :
    (consumeApproval env input.boardIntentApproval <| writeTask env input task).Keeps notes
      ((statusDiscipline env).law (.updateTask input))
      ((statusDiscipline env).born (.updateTask input)) :=
  consumeApproval_keeps (fun _ _ _ _ _ _ made => And.intro (spend_keepsIndexes _ made) trivial)
    writeTask_admitted

/-- An update that does not look again. -/
theorem updateTask_unlocked (admitted : input.refusal env task = none)
    (unlocked : input.rereads task = false) :
    (statusDiscipline env).Kept (.updateTask input) (fun n => n.task = some task)
      ((statusDiscipline env).law (.updateTask input))
      ((statusDiscipline env).born (.updateTask input)) fun _ => True where
  lawful _ _ _ law := law
  bears _ _ born := born
  stable n _ := (statusDiscipline env).stable_true _ n
  hold _ _ _ := trivial
  share _ _ _ := trivial
  write _ _ _ _ := trivial
  publish p call _ noted _ _ _ := by
    refine ⟨?_, trivial⟩
    change promisedStatus env p
    rw [promisedStatus, call]
    refine fun _ => ⟨task, noted, admitted, fun locked => ?_⟩
    rw [unlocked] at locked
    cases locked

/-- Once the task is locked its status stays. -/
theorem updateTask_locked (admitted : input.refusal env task = none)
    (found : current.status = task.status ∨ input.updates.status = some current.status) :
    (statusDiscipline env).Kept (.updateTask input) (fun n => n.task = some task)
      ((statusDiscipline env).law (.updateTask input))
      ((statusDiscipline env).born (.updateTask input)) (holdsTask input current) where
  lawful _ _ _ law := law
  bears _ _ born := born
  stable n _ := by
    have mine := stable_mine (d := statusDiscipline env) (.updateTask input) n input.key
      fun base _ => base = some current
    exact mine
  hold _ _ here := here
  share _ _ here := here
  write f rows here _ := by
    refine ⟨?_, here.2⟩
    obtain ⟨row, has⟩ := Option.ne_none_iff_exists'.mp here.1
    cases newly : rows input.key with
    | none =>
      change rows.over f.written input.key ≠ none
      rw [Rows.over_of_none newly]
      exact here.1
    | some row' =>
      change rows.over f.written input.key ≠ none
      rw [Rows.over_of_some newly]
      exact Option.some_ne_none row'
  publish p call _ noted here _ _ := by
    refine ⟨?_, trivial⟩
    change promisedStatus env p
    rw [promisedStatus, call]
    refine fun _ => ⟨task, noted, admitted, fun _ version is => ?_⟩
    rw [here.2] at is
    cases is
    exact found

theorem holdsTask_of_lock {f : Footing Row LockKey} (free : f.written input.key = none)
    (read : f.view input.key = some current) :
    holdsTask input current (f.write (revised (atKey input.key some) f.view)) := by
  have written : revised (atKey input.key some) f.view input.key = some current := by
    rw [revised_atKey, Option.bind_fun_some]
    exact read
  refine ⟨?_, ?_⟩
  · change (revised _ f.view).over f.written input.key ≠ none
    rw [Rows.over_of_some written]
    exact Option.some_ne_none current
  · rw [← read, Footing.view, Rows.over_of_none free]
    rfl

/-- Before the task is locked it is not written. -/
theorem unwritten_stable (c : StatusCall) (n : Note) :
    (statusDiscipline env).Stable c n fun f => f.written input.key = none :=
  stable_own c n fun written _ _ => written input.key = none

theorem status_of_unchanged (same : read.unchanged current = true) :
    current.status = read.status := by
  simp only [Task.unchanged, Bool.and_eq_true, decide_eq_true_eq] at same
  exact same.1.1.1.1.1

theorem status_of_retry (retry : input.isExactProgressRetry env current = true) :
    input.updates.status = some current.status := by
  simp only [UpdateTaskInput.isExactProgressRetry, Bool.and_eq_true, decide_eq_true_eq] at retry
  exact retry.1.1.1.1.1.1.1.2

theorem claimTask_outline (noted : n.task = some task) (admitted : input.refusal env task = none)
    (claims : (input.workLeaseCreation.isSome || input.retryingOwnClaim task) = true) :
    (statusDiscipline env).Outline (.updateTask input)
      (claimTask input task <| consumeApproval env input.boardIntentApproval <|
        writeTask env input task) n fun f => f.written input.key = none := by
  rw [claimTask, if_pos claims]
  refine lockTask_outline (unwritten_stable _ n) updateTask_sameStatus fun f current free read => ?_
  by_cases same : current.any task.unchanged = true
  · obtain ⟨version, rfl, same⟩ := (Option.any_eq_true _ _).mp same
    exact ⟨holdsTask input version, holdsTask_of_lock free read,
      outline_of_keeps (resumeClaim_closed keeps_closed consumeApproval_admitted _)
        (updateTask_locked admitted (.inl (status_of_unchanged same))) noted⟩
  · rw [resumeClaim, if_pos (by simp [same])]
    exact ⟨fun _ => True, trivial, Outline.abort⟩

theorem progressTask_outline (noted : n.task = some task)
    (admitted : input.refusal env task = none) (locked : input.rereads task = true) :
    (statusDiscipline env).Outline (.updateTask input)
      (progressTask env input fence held task <| claimTask input task <|
        consumeApproval env input.boardIntentApproval <| writeTask env input task) n
      fun f => f.written input.key = none := by
  rw [progressTask]
  split
  · refine lockTask_outline (unwritten_stable _ n) updateTask_sameStatus
      fun f current free read => ?_
    cases current with
    | none => exact ⟨fun _ => True, trivial, trivial⟩
    | some current =>
      refine ⟨holdsTask input current, holdsTask_of_lock free read, ?_⟩
      rw [resumeProgress]
      split
      · rename_i retry
        exact outline_of_keeps (answerProgressRetry_closed keeps_closed)
          (updateTask_locked admitted (.inr (status_of_retry retry))) noted
      split
      · exact Outline.abort
      · rename_i same
        simp only [Bool.or_eq_true, Bool.not_eq_true', not_or, Bool.not_eq_false] at same
        exact outline_of_keeps
          (claimTask_keeps updateTask_sameStatus consumeApproval_admitted)
          (updateTask_locked admitted (.inl (status_of_unchanged same.2))) noted
  · rename_i reports
    rw [UpdateTaskInput.rereads, Bool.or_eq_true] at locked
    exact claimTask_outline noted admitted (locked.resolve_right reports)

theorem fenceTask_outline (noted : n.task = some task) (admitted : input.refusal env task = none)
    (locked : input.rereads task = true) :
    (statusDiscipline env).Outline (.updateTask input)
      (fenceTask env input task <| claimTask input task <|
        consumeApproval env input.boardIntentApproval <| writeTask env input task) n
      fun f => f.written input.key = none := by
  rw [fenceTask.eq_def]
  split
  · rename_i fence fenced
    refine Outline.lock (B := fun f => f.written input.key = none) (unwritten_stable _ n)
      (fun f free => free) ?_
    refine Outline.glance (unwritten_stable _ n) fun seen => ?_
    dsimp only
    split
    · exact Outline.abort
    · exact progressTask_outline (n := { task := some task, fence := some fence }) rfl admitted locked
  · rename_i unfenced
    refine claimTask_outline noted admitted ?_
    rw [UpdateTaskInput.rereads, UpdateTaskInput.progressRetryEligible, unfenced] at locked
    simpa using locked

theorem updateTask_outline (input : UpdateTaskInput) :
    (statusDiscipline env).Outline (.updateTask input) (updateTask env input) {} Footing.Idle := by
  refine Outline.glance ((statusDiscipline env).stable_idle _ _) fun seen => ?_
  split
  · refine Outline.finish ((statusDiscipline env).stable_idle _ _) fun f idle _ _ => ⟨?_, trivial⟩
    exact fun written => absurd (idle.1 _) written
  rename_i task found
  split
  · trivial
  rename_i admitted
  cases locked : input.rereads task with
  | true =>
    exact (fenceTask_outline (n := { task := some task }) rfl admitted locked).of_idle
      fun f idle => idle.1 _
  | false =>
    exact (outline_of_keeps (fenceTask_closed keeps_closed updateTask_sameStatus (fun _ _ => rfl)
      (claimTask_keeps updateTask_sameStatus consumeApproval_admitted))
      (updateTask_unlocked admitted locked) (n := { task := some task }) rfl).of_idle
      fun _ _ => trivial

end UpdateTask

/-! ### The other calls -/

theorem acceptProposedTask_outline (room_id : String) (task_id : Nat) (now : Nat) :
    (statusDiscipline env).Outline (.acceptProposedTask room_id task_id now)
      (acceptProposedTask room_id task_id now) {} Footing.Idle := by
  refine outline_of_laws ⟨within_atKey fun v v' made => ?_, fun _ _ => trivial⟩
    fun p call _ _ _ => ⟨?_, trivial⟩
  · simp only [acceptTask, Option.ite_none_right_eq_some, Option.some.injEq] at made
    obtain ⟨proposed, rfl⟩ := made
    exact ⟨trivial, proposed, rfl⟩
  · change promisedStatus env p
    rw [promisedStatus, call]
    trivial

/-- A row that the action has computed from the task it read. -/
def computed (room : String) (number : Nat) (assignment : TaskAssignment)
    (f : Footing Row LockKey) : Prop :=
  ∀ row, f.written (.task room number) = some row → Task.assignment row = assignment

/-- The writes of a lease action. -/
def actionLaw (room : String) (number : Nat) (assignment : TaskAssignment) (k : Key)
    (v v' : Row k) : Prop :=
  keepsIndexes k v v' ∧
    onTasks (fun k _ v' => k = .task room number ∧ v'.assignment = assignment) k v v'

theorem computed_kept {born : ∀ k, Row k → Prop}
    (acts : c.leaseAction = some (.task room number, updates))
    (bears : ∀ k row, born k row → c.bears k row) (spares : ∀ row, ¬born (.task room number) row) :
    (statusDiscipline env).Kept c (fun n => n.task = some task)
      (actionLaw room number (resolveTaskAssignmentState task updates)) born
      (computed room number (resolveTaskAssignmentState task updates)) where
  lawful k v v' law := by
    refine ⟨law.1, ?_⟩
    cases k with
    | task => 
      obtain ⟨same, _⟩ := law.2
      cases same
      cases c <;> first | exact ⟨_, acts⟩ | cases acts
    | _ => trivial
  bears := bears
  stable _ _ _ _ here _ _ _ := here
  hold _ _ here := here
  share _ _ here := here
  write f rows here written row has := by
    rcases Rows.over_eq_some has with newly | ⟨_, older⟩
    · rcases written newly with ⟨_, _, law⟩ | born
      · exact law.2.2
      · exact absurd born (spares row)
    · exact here row older
  publish p call rows noted here _ _ := by
    refine ⟨?_, trivial⟩
    change promisedStatus env p
    have actions : ∀ k updates, c.leaseAction = some (k, updates) → computedAction k updates p := by
      intro k updates' is
      rw [acts] at is
      cases is
      intro written has
      rw [rows] at has
      exact ⟨task, noted, here written has⟩
    rw [promisedStatus, call]
    cases c with
    | updateTask | acceptProposedTask => cases acts
    | applyTaskWorkLeaseAction | setTaskAssignmentStateForLeaseAction => exact actions

/-- The writes of a lease action on other tables. -/
theorem actionLaw_of_keepsIndexes (keeps : keepsIndexes k v v')
    (other : ∀ room number, k ≠ .task room number) : actionLaw room number assignment k v v' := by
  cases k with
  | task room number => exact absurd rfl (other room number)
  | _ => trivial

/-- An action that finds no task writes nothing. -/
theorem idle_finish (acts : c.leaseAction ≠ none) (result : Outcome) (n : Note) :
    (statusDiscipline env).Outline c (.finish result) n Footing.Idle := by
  refine Outline.finish ((statusDiscipline env).stable_idle c n) fun f idle _ _ => ⟨?_, trivial⟩
  have actions : ∀ k updates, c.leaseAction = some (k, updates) →
      computedAction k updates ⟨c, n, f, f.written, none, some result⟩ := by
    intro k updates _
    cases k with
    | task room number =>
      intro row has
      change f.written _ = _ at has
      rw [idle.1] at has
      cases has
    | _ => trivial
  cases c with
  | updateTask | acceptProposedTask => exact absurd rfl acts
  | applyTaskWorkLeaseAction | setTaskAssignmentStateForLeaseAction => exact actions

theorem workLeaseAction_computed : (workLeaseAction env input task).Keeps notes
      (actionLaw input.room_id input.task_id (resolveTaskAssignmentState task input.task_updates))
      (StatusCall.applyTaskWorkLeaseAction input).bears := by
  refine workLeaseAction_keeps
    (expireLeases_within fun _ _ _ => actionLaw_of_keepsIndexes ⟨rfl, rfl, rfl, nofun⟩ nofun)
    (fun _ _ made => actionLaw_of_keepsIndexes (dispose_keepsIndexes _ made) nofun)
    (fun v v' made => ?_)
    (fun _ _ _ _ _ _ made => actionLaw_of_keepsIndexes (spend_keepsIndexes _ made) nofun)
    fun _ _ => trivial
  cases made
  exact ⟨trivial, rfl, rfl⟩

theorem writeAssignment_computed {born : ∀ k, Row k → Prop} :
    (writeAssignment room_id task_id updates now task).Keeps notes
      (actionLaw room_id task_id (resolveTaskAssignmentState task updates)) born := by
  refine And.intro (within_atKey fun v v' made => ?_) fun _ _ => trivial
  cases made
  exact ⟨trivial, rfl, rfl⟩

theorem applyTaskWorkLeaseAction_status (input : TaskWorkLeaseActionInput) :
    (statusDiscipline env).Outline (.applyTaskWorkLeaseAction input)
      (applyTaskWorkLeaseAction env input) {} Footing.Idle := by
  refine Outline.glance ((statusDiscipline env).stable_idle _ _) fun seen => ?_
  split
  · exact idle_finish (by simp [StatusCall.leaseAction]) _ _
  rename_i task found
  have kept : (statusDiscipline env).Kept (.applyTaskWorkLeaseAction input)
      (fun n => n.task = some task) _ (StatusCall.applyTaskWorkLeaseAction input).bears _ :=
    computed_kept rfl (fun _ _ born => born) fun _ born => born
  exact (outline_of_keeps (n := { task := some task }) workLeaseAction_computed kept rfl).of_idle
    fun f idle row has => by rw [idle.1] at has; cases has

theorem setTaskAssignmentState_status (room_id : String) (task_id : Nat)
    (updates : TaskAssignmentPatch) (now : Nat) :
    (statusDiscipline env).Outline
      (.setTaskAssignmentStateForLeaseAction room_id task_id updates now)
      (setTaskAssignmentStateForLeaseAction room_id task_id updates now) {} Footing.Idle := by
  refine Outline.glance ((statusDiscipline env).stable_idle _ _) fun seen => ?_
  split
  · exact idle_finish (by simp [StatusCall.leaseAction]) _ _
  rename_i task found
  have kept : (statusDiscipline env).Kept
      (.setTaskAssignmentStateForLeaseAction room_id task_id updates now)
      (fun n => n.task = some task) _ (fun _ _ => False) _ :=
    computed_kept rfl (fun _ _ born => born.elim) fun _ born => born
  exact (outline_of_keeps (n := { task := some task }) writeAssignment_computed kept rfl).of_idle
    fun f idle row has => by rw [idle.1] at has; cases has

theorem status_outlined : (statusDiscipline env).Outlined := by
  intro c
  cases c with
  | updateTask input => exact updateTask_outline input
  | acceptProposedTask room_id task_id now => exact acceptProposedTask_outline room_id task_id now
  | applyTaskWorkLeaseAction input => exact applyTaskWorkLeaseAction_status input
  | setTaskAssignmentStateForLeaseAction room_id task_id updates now =>
    exact setTaskAssignmentState_status room_id task_id updates now

end Outlines

/-! ## Every run -/

/-- Updates and acceptances move a status along the table, and a lease action leaves the
fields that it was not given. -/
structure StatusesFollow (published : List (Commit StatusCall)) : Prop where
  table : ∀ p ∈ published, p.call.leaseAction = none → ∀ room number task task',
    p.footing.base (.task room number) = some task → p.rows (.task room number) = some task' →
      task.status ≠ task'.status → isValidTransition task.status task'.status = true
  omitted : ∀ p ∈ published, ∀ room number updates,
    p.call.leaseAction = some (.task room number, updates) → ∀ task task',
      p.footing.base (.task room number) = some task → p.rows (.task room number) = some task' →
        (updates.status = none → task'.status = task.status) ∧
          (updates.assignee = none → task'.assignee = task.assignee) ∧
          (updates.assignee_agent_key = none →
            task'.assignee_agent_key = task.assignee_agent_key)

section Runs

variable {env : Externals} {p : Commit StatusCall} {room : String} {number : Nat}
  {task task' : Task}

/-- An admitted update brings a status that the table allows, or the one that is there. -/
theorem valid_of_admitted {input : UpdateTaskInput} (admitted : input.refusal env read = none)
    (brings : input.updates.status = some status) (other : read.status ≠ status) :
    isValidTransition read.status status = true := by
  rw [UpdateTaskInput.refusal] at admitted
  split at admitted
  · cases admitted
  split at admitted
  · cases admitted
  rename_i valid
  simp only [brings, Option.any_some, Bool.and_eq_true, Bool.not_eq_true', not_and,
    Bool.not_eq_false] at valid
  by_contra invalid
  simp only [Bool.not_eq_true] at invalid
  cases own : input.retryingOwnClaim read with
  | true =>
    simp only [UpdateTaskInput.retryingOwnClaim, brings, Bool.and_eq_true, decide_eq_true_eq,
      Option.some.injEq] at own
    obtain ⟨⟨⟨⟨⟨⟨⟨there, here⟩, _⟩, _⟩, _⟩, _⟩, _⟩, _⟩ := own
    exact other (there.trans here.symm)
  | false =>
    have retry := status_of_retry (valid ⟨invalid, own⟩)
    rw [brings] at retry
    cases retry
    exact other rfl

/-- A commit of an update or of an acceptance. -/
theorem table_of_honoured (honoured : (statusDiscipline env).Honoured p)
    (transits : p.call.leaseAction = none)
    (was : p.footing.base (.task room number) = some task)
    (is : p.rows (.task room number) = some task') (other : task.status ≠ task'.status) :
    isValidTransition task.status task'.status = true := by
  have moves : p.call.moves (.task room number) task task' := (honoured.lawful.of_base was is).2
  have promised : promisedStatus env p := honoured.guarantee
  have fresh : freshRead p = true := honoured.meets
  cases call : p.call with
  | updateTask input =>
    rw [call] at moves
    rw [promisedStatus, call] at promised
    rw [freshRead, call] at fresh
    obtain ⟨here, same | brings⟩ := moves
    · exact absurd same.symm other
    obtain ⟨rfl, rfl⟩ := Key.task.inj here
    obtain ⟨read, noted, admitted, locked⟩ := promised fun unwritten => by
      change p.rows input.key = some task' at is
      rw [unwritten] at is
      cases is
    have found : task.status = read.status := by
      cases looks : input.rereads read with
      | true =>
        refine (locked looks task was).resolve_right fun same => other ?_
        rw [brings] at same
        exact (Option.some.inj same).symm
      | false =>
        simp only [noted, Option.all_some, looks, brings, Option.isNone_some, Bool.or_false,
          Bool.false_or] at fresh
        rw [show p.footing.base input.key = some task from was] at fresh
        exact of_decide_eq_true fresh
    rw [found] at other ⊢
    exact valid_of_admitted admitted brings other
  | acceptProposedTask room_id task_id now =>
    rw [call] at moves
    obtain ⟨proposed, accepted⟩ := moves
    rw [proposed, accepted]
    rfl
  | applyTaskWorkLeaseAction | setTaskAssignmentStateForLeaseAction =>
    rw [call] at transits
    cases transits

/-- What a faithful action makes of the fields that it leaves out. -/
theorem kept_of_faithful (computed : task'.assignment = resolveTaskAssignmentState read updates)
    (faithful : updates.faithful read task = true) :
    (updates.status = none → task'.status = task.status) ∧
      (updates.assignee = none → task'.assignee = task.assignee) ∧
      (updates.assignee_agent_key = none → task'.assignee_agent_key = task.assignee_agent_key) := by
  simp only [Task.assignment, resolveTaskAssignmentState, TaskAssignment.mk.injEq] at computed
  simp only [TaskAssignmentPatch.faithful, Bool.and_eq_true, Bool.or_eq_true,
    decide_eq_true_eq] at faithful
  obtain ⟨status, assignee, agent_key⟩ := computed
  obtain ⟨⟨keepsStatus, keepsAssignee⟩, keepsKey⟩ := faithful
  refine ⟨fun omitted => ?_, fun omitted => ?_, fun omitted => ?_⟩
  · rw [omitted] at status keepsStatus
    exact status.trans (keepsStatus.resolve_left nofun).symm
  · rw [omitted] at assignee keepsAssignee
    exact assignee.trans (keepsAssignee.resolve_left nofun).symm
  · rw [omitted] at agent_key keepsKey
    rw [agent_key, keepsKey.resolve_left nofun]
    cases updates.assignee with
    | none | some _ => rfl

theorem omitted_of_honoured (honoured : (statusDiscipline env).Honoured p)
    (acts : p.call.leaseAction = some (.task room number, updates))
    (was : p.footing.base (.task room number) = some task)
    (is : p.rows (.task room number) = some task') :
    (updates.status = none → task'.status = task.status) ∧
      (updates.assignee = none → task'.assignee = task.assignee) ∧
      (updates.assignee_agent_key = none → task'.assignee_agent_key = task.assignee_agent_key) := by
  have promised : promisedStatus env p := honoured.guarantee
  have fresh : freshRead p = true := honoured.meets
  rw [promisedStatus] at promised
  rw [freshRead] at fresh
  cases call : p.call with
  | updateTask | acceptProposedTask =>
    rw [call] at acts
    cases acts
  | applyTaskWorkLeaseAction input =>
    rw [call] at acts promised fresh
    cases acts
    obtain ⟨read, noted, computed⟩ := promised _ _ rfl task' is
    rw [noted] at fresh
    simp only [is, was] at fresh
    exact kept_of_faithful computed fresh
  | setTaskAssignmentStateForLeaseAction room_id task_id updates now =>
    rw [call] at acts promised fresh
    cases acts
    obtain ⟨read, noted, computed⟩ := promised _ _ rfl task' is
    rw [noted] at fresh
    simp only [was] at fresh
    exact kept_of_faithful computed fresh

end Runs

theorem statuses_follow (env : Externals) (db : Database (statuses env))
    {published : List (Commit StatusCall)} {s : State Row StatusCall LockKey Note Outcome}
    (run : (statuses env).Run ((statuses env).Admitted (fun p => freshRead p = true)
      fun _ _ _ => True) db.state published s) : StatusesFollow published := by
  obtain ⟨_, honoured⟩ := outlined_run (d := statusDiscipline env) status_outlined trivial run
  constructor
  · intro p member transits room number task task' was is other
    exact table_of_honoured (honoured p member) transits was is other
  · intro p member room number updates acts task task' was is
    exact omitted_of_honoured (honoured p member) acts was is

/-! ### A status written over one that was never read -/

def statusUpdate (status : TaskStatus) : UpdateTaskInput where
  room_id := "room"
  task_id := 1
  updates := { status := some status }
  now := 20
  checked_at := 20

def startedOnly : Database (statuses plainExternals) :=
  Database.empty.add (fun {k v k' v'} => clash_symm k v k' v') (.task "room" 1) startedTask (by decide)

/-- One update has read the task in progress when another one ends it. -/
def blockedAfterDone : List (Action StatusCall) :=
  [.start (.updateTask (statusUpdate .blocked)), .run 0,
    .start (.updateTask (statusUpdate .done)), .run 1, .run 1, .run 1, .run 0, .run 0]

/-- A task that is done is committed as blocked. -/
theorem done_then_blocked :
    ¬∀ (db : Database (statuses plainExternals)) (published : List (Commit StatusCall))
      (s : State Row StatusCall LockKey Note Outcome),
      (statuses plainExternals).Run (fun _ _ => True) db.state published s →
        StatusesFollow published := by
  intro all
  have found : ((statuses plainExternals).replay (fun _ _ => True) startedOnly.state
      blockedAfterDone).any (fun r => r.1.any fun p => p.call.leaseAction.isNone &&
        (p.footing.base (.task "room" 1)).any (fun task : Task => task.status = .done) &&
        (p.rows (.task "room" 1)).any (fun task : Task => task.status = .blocked)) = true := by
    decide +kernel
  obtain ⟨published, s, run, checked⟩ := System.exists_run found
  obtain ⟨p, member, late⟩ := List.any_eq_true.mp checked
  simp only [Bool.and_eq_true, Option.isNone_iff_eq_none, Option.any_eq_true,
    decide_eq_true_eq] at late
  obtain ⟨⟨transits, task, was, done⟩, task', is, blocked⟩ := late
  have valid := (all startedOnly published s run).table p member transits "room" 1 task task' was is
    (by rw [done, blocked]; decide)
  rw [done, blocked] at valid
  exact absurd valid (by decide)

/-- The second update reads what the first one has committed. -/
theorem reviewed_then_done :
    ∃ published s, (statuses plainExternals).Run ((statuses plainExternals).Admitted
        (fun p => freshRead p = true) fun _ _ _ => True) startedOnly.state published s ∧
      published.length = 2 ∧ StatusesFollow published := by
  have found : ((statuses plainExternals).replay ((statuses plainExternals).Admitted
      (fun p => freshRead p = true) fun _ _ _ => True) startedOnly.state
      [.start (.updateTask (statusUpdate .in_review)), .run 0, .run 0, .run 0,
        .start (.updateTask (statusUpdate .done)), .run 1, .run 1, .run 1]).any
      (fun r => r.1.length = 2) = true := by
    decide +kernel
  obtain ⟨published, s, run, two⟩ := System.exists_run found
  exact ⟨published, s, run, of_decide_eq_true two, statuses_follow _ startedOnly run⟩

end LetAgents.Coordination

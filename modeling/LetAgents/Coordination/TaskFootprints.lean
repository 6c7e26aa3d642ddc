import LetAgents.Coordination.Disciplines
import LetAgents.Coordination.TaskWrites

/-!
# Footprints of the task transactions

What the statements of the transactions may write, whatever was read before them. Each
rule asks of a law only that it allows the writes of the source by name.
-/
namespace LetAgents.Coordination

open Lib.ReadCommitted Lib.ReadCommitted.Discipline

variable {notes : Note → Prop} {law : ∀ k, Row k → Row k → Prop} {born : ∀ k, Row k → Prop}
  {P : Prog → Prop}

variable {room_id : String} {next : Prog} {env : Externals} {fence : LeaseFence}
  {held v v' : TaskLease} {now epoch : Nat} {input : RebindTaskLeaseInput}
  {toSession : AgentSession}

theorem lockTask_closed (closed : Program.Closed notes law born P) {next : Option Task → Prog}
    (same : ∀ v, law (.task room_id number) v v) (rest : ∀ current, P (next current)) :
    P (lockTask room_id number next) := by
  refine closed.update (within_atKey fun v v' made => ?_) fun _ _ => rest _
  cases made
  exact same v

/-- What is known once a task is locked: the version that was read. -/
theorem lockTask_outline {program : C → Prog} {d : Discipline (server program)} {c : C}
    {next : Option Task → Prog}
    (stable : d.Stable c n A) (same : ∀ v, d.law c (.task room_id number) v v)
    (rest : ∀ f current, A f → f.view (.task room_id number) = current →
      ∃ B : Footing Row LockKey → Prop, B (f.write (revised (atKey (.task room_id number) some) f.view)) ∧ d.Outline c (next current) n B) :
    d.Outline c (lockTask room_id number next) n A := by
  refine Outline.update stable (fun _ _ _ k v v' _ made => ?_) fun f keys here _ _ => ?_
  · have locks : Within (d.law c) (atKey (.task room_id number) some) :=
      within_atKey fun v v' made => by cases made; exact same v
    exact locks k v v' made
  · obtain ⟨B, there, outline⟩ := rest f _ here rfl
    refine ⟨B, there, ?_⟩
    have read : (f.write (revised (atKey (.task room_id number) some) f.view)).view
        (.task room_id number) = f.view (.task room_id number) := by
      change ((revised _ f.view).over f.written).over f.base _ = _
      rw [Rows.over_assoc, Rows.over, revised_atKey, Option.bind_fun_some]
      exact Option.or_self
    dsimp only
    rw [read]
    exact outline

theorem assertSupervisorGrantFenceTx_keeps {fence : SupervisorGrantFence} {next : Bool → Prog}
    (rest : ∀ fenced, (next fenced).Keeps notes law born) :
    (assertSupervisorGrantFenceTx fence now next).Keeps notes law born :=
  fun _ => rest _

theorem consumeApproval_keeps
    (spends : ∀ spent ∈ approval, ∀ id ∈ spent.intentId, ∀ v v', spend env spent v = some v' → law (.intent id) v v')
    (rest : next.Keeps notes law born) :
    (consumeApproval env approval next).Keeps notes law born := by
  cases approval with
  | none => exact rest
  | some approval =>
    rw [consumeApproval, assertConsumeBoardIntentApproval]
    split
    · trivial
    rename_i intentId named
    split
    · trivial
    refine And.intro (within_atKey (spends approval rfl intentId named)) fun _ used => ?_
    dsimp only
    split
    · exact rest
    intro seen
    dsimp only
    split
    · trivial
    · exact rest

/-! ## The writes

What each write asks of a row and makes of it; none enters a unique index. -/

section Writes

theorem spend_spec {input : BoardIntentConsumptionInput} {v v' : BoardIntent}
    (made : spend env input v = some v') :
    (v.room_id = input.room_id ∧ v.status = .approved ∧ v.action_type = input.action_type ∧
      v.payload_hash = env.sha256 input.payload ∧ input.presents env v = true ∧
        unexpired v.expires_at input.now = true) ∧ v' = { v with status := .used } := by
  simp only [spend, Option.ite_none_right_eq_some, Option.some.injEq, Bool.and_eq_true,
    decide_eq_true_eq] at made
  obtain ⟨⟨⟨⟨⟨⟨room, status⟩, action⟩, hash⟩, presents⟩, live⟩, rfl⟩ := made
  exact ⟨⟨room, status, action, hash, presents, live⟩, rfl⟩

theorem bindPrUrl_spec {input : UpdateTaskInput} (made : bindPrUrl input v = some v') :
    v' = { v with pr_url := input.updates.pr_url, updated_at := input.now } := by
  simp only [bindPrUrl, Option.ite_none_right_eq_some, Option.some.injEq] at made
  exact made.2.symm

theorem dispose_spec {input : TaskWorkLeaseActionInput} (made : input.dispose v = some v') :
    v.status = .active ∧ v' = { v with
      status := if input.revoked then .revoked else .released
      revoked_reason := if input.revoked then input.disposition_reason else none
      updated_at := input.now } := by
  simp only [TaskWorkLeaseActionInput.dispose, Option.ite_none_right_eq_some, Option.some.injEq,
    Bool.and_eq_true, decide_eq_true_eq] at made
  obtain ⟨⟨⟨⟨_, active⟩, _⟩, _⟩, rfl⟩ := made
  exact ⟨active, rfl⟩

theorem revokeLease_spec (made : revokeLease room_id revoked_reason now v = some v') :
    v' = { v with status := .revoked, revoked_reason := some revoked_reason, updated_at := now } := by
  simp only [revokeLease, Option.ite_none_right_eq_some, Option.some.injEq] at made
  exact made.2.symm

theorem releaseLease_spec {fence : ReleaseFence}
    (made : releaseLease room_id fence now v = some v') :
    v.status = .active ∧ v' = { v with status := .released, updated_at := now } := by
  simp only [releaseLease, Option.ite_none_right_eq_some, Option.some.injEq, Bool.and_eq_true,
    decide_eq_true_eq] at made
  exact ⟨made.1.1.2, made.2.symm⟩

theorem consumeAttestation_spec {v v' : RebindAttestation}
    (made : consumeAttestation input epoch v = some v') :
    input.pending v = true ∧
      v' = { v with consumed_at := some input.now, consumed_by_epoch := some (epoch + 1) } := by
  simp only [consumeAttestation, Option.ite_none_right_eq_some, Option.some.injEq] at made
  exact ⟨made.1, made.2.symm⟩

theorem moveLease_spec (made : moveLease input epoch toSession v = some v') :
    input.current v = true ∧ v' = { v with
      agent_session_id := some input.to_agent_session_id
      agent_key := toSession.agent_key
      agent_instance_id := toSession.agent_instance_id
      actor_label := toSession.actor_label
      epoch := epoch + 1
      updated_at := input.now
      last_heartbeat_at := some input.now } := by
  simp only [moveLease, Option.ite_none_right_eq_some, Option.some.injEq] at made
  exact ⟨made.1, made.2.symm⟩

/-- The expiry ends active leases only. -/
theorem expireLeases_within
    (expires : ∀ id v, v.status = .active → law (.lease id) v { v with status := .expired, updated_at := now }) :
    Within law (expireLeases room_id now) := by
  intro k v v' made
  cases k with
  | lease id =>
    simp only [expireLeases, Option.ite_none_right_eq_some, Option.some.injEq, Bool.and_eq_true,
      decide_eq_true_eq] at made
    obtain ⟨⟨⟨_, active⟩, _⟩, rfl⟩ := made
    exact expires id v active
  | _ => cases made

theorem revokeBearers_within
    (revokes : ∀ id v, v.session_id = session_id → v.revoked_at = none →
      law (.bearer id) v { v with revoked_at := some now }) :
    Within law (revokeBearers session_id now) := by
  intro k v v' made
  cases k with
  | bearer id =>
    simp only [revokeBearers, Option.ite_none_right_eq_some, Option.some.injEq, Bool.and_eq_true,
      decide_eq_true_eq, Option.isNone_iff_eq_none] at made
    obtain ⟨⟨session, live⟩, rfl⟩ := made
    exact revokes id v session live
  | _ => cases made

section

variable (id : String)
include id

theorem spend_keepsIndexes {input : BoardIntentConsumptionInput} {v v' : BoardIntent}
    (made : spend env input v = some v') : keepsIndexes (.intent id) v v' := by
  obtain ⟨_, rfl⟩ := spend_spec made
  exact ⟨rfl, rfl, rfl, nofun⟩

theorem bindPrUrl_keepsIndexes {input : UpdateTaskInput} (made : bindPrUrl input v = some v') :
    keepsIndexes (.lease id) v v' := by
  obtain rfl := bindPrUrl_spec made
  exact ⟨rfl, rfl, rfl, fun active => active⟩

theorem dispose_keepsIndexes {input : TaskWorkLeaseActionInput} (made : input.dispose v = some v') :
    keepsIndexes (.lease id) v v' := by
  obtain ⟨active, rfl⟩ := dispose_spec made
  exact ⟨rfl, rfl, rfl, fun _ => active⟩

theorem revokeLease_keepsIndexes (made : revokeLease room_id revoked_reason now v = some v') :
    keepsIndexes (.lease id) v v' := by
  obtain rfl := revokeLease_spec made
  exact ⟨rfl, rfl, rfl, nofun⟩

theorem releaseLease_keepsIndexes {fence : ReleaseFence}
    (made : releaseLease room_id fence now v = some v') : keepsIndexes (.lease id) v v' := by
  obtain ⟨_, rfl⟩ := releaseLease_spec made
  exact ⟨rfl, rfl, rfl, nofun⟩

theorem consumeAttestation_keepsIndexes {v v' : RebindAttestation}
    (made : consumeAttestation input epoch v = some v') : keepsIndexes (.attestation id) v v' := by
  obtain ⟨_, rfl⟩ := consumeAttestation_spec made
  exact ⟨rfl, rfl, rfl, nofun⟩

theorem moveLease_keepsIndexes (made : moveLease input epoch toSession v = some v') :
    keepsIndexes (.lease id) v v' := by
  obtain ⟨_, rfl⟩ := moveLease_spec made
  exact ⟨rfl, rfl, rfl, fun active => active⟩

end

end Writes

/-! ## `updateTask` -/

section UpdateTask

variable {env : Externals} {input : UpdateTaskInput} {task : Task}

theorem writeRefs_keeps
    (binds : ∀ fence ∈ input.leaseFence, ∀ v v', bindPrUrl input v = some v' →
      law (.lease fence.lease_id) v v') :
    (writeRefs input).Keeps notes law born := by
  rw [writeRefs]
  split
  · rename_i fence fenced
    split
    · exact And.intro (within_atKey (binds fence fenced)) fun _ _ => trivial
    · trivial
  · trivial

theorem writeTask_keeps
    (writes : ∀ v v', input.write env task v = some v' → law input.key v v')
    (binds : ∀ fence ∈ input.leaseFence, ∀ v v', bindPrUrl input v = some v' →
      law (.lease fence.lease_id) v v')
    (bears : ∀ creation ∈ input.workLeaseCreation,
      born (.lease creation.id)
        (createTaskLeaseRow creation input.room_id input.task_id .work input.now)) :
    (writeTask env input task).Keeps notes law born := by
  refine And.intro (within_atKey writes) fun _ written => ?_
  dsimp only
  split
  · trivial
  split
  · rename_i creation created
    exact And.intro (bears creation created) (And.intro (writeRefs_keeps binds) trivial)
  · exact writeRefs_keeps binds

theorem resumeClaim_closed (closed : Program.Closed notes law born P) (rest : P next)
    (current : Option Task) : P (resumeClaim input task next current) := by
  rw [resumeClaim]
  split
  · exact closed.abort _
  split
  · refine closed.select fun seen => ?_
    split
    · exact closed.abort _
    · exact rest
  · exact rest

theorem claimTask_closed (closed : Program.Closed notes law born P)
    (same : ∀ v, law input.key v v) (rest : P next) : P (claimTask input task next) := by
  rw [claimTask]
  split
  · exact lockTask_closed closed same (resumeClaim_closed closed rest)
  · exact rest

theorem claimTask_keeps (same : ∀ v, law input.key v v) (rest : next.Keeps notes law born) :
    (claimTask input task next).Keeps notes law born :=
  claimTask_closed keeps_closed same rest

section

variable (closed : Program.Closed notes law born P)
include closed

theorem answerProgressRetry_closed : P (answerProgressRetry input fence held current) := by
  rw [answerProgressRetry]
  split
  · exact closed.abort _
  refine closed.share fun seen => ?_
  split
  · exact closed.abort _
  · exact closed.finish _

theorem resumeProgress_closed (rest : P next) (current : Option Task) :
    P (resumeProgress env input fence held task next current) := by
  cases current with
  | none => exact closed.abort _
  | some current =>
    rw [resumeProgress]
    split
    · exact answerProgressRetry_closed closed
    split
    · exact closed.abort _
    · exact rest

theorem progressTask_closed (same : ∀ v, law input.key v v) (rest : P next) :
    P (progressTask env input fence held task next) := by
  rw [progressTask]
  split
  · exact lockTask_closed closed same (resumeProgress_closed closed rest)
  · exact rest

end

theorem progressTask_keeps (same : ∀ v, law input.key v v) (rest : next.Keeps notes law born) :
    (progressTask env input fence held task next).Keeps notes law born :=
  progressTask_closed keeps_closed same rest

theorem fenceTask_closed (closed : Program.Closed notes law born P)
    (same : ∀ v, law input.key v v)
    (noted : ∀ fence ∈ input.leaseFence, notes { task := some task, fence := some fence })
    (rest : P next) : P (fenceTask env input task next) := by
  rw [fenceTask.eq_def]
  split
  · rename_i fence fenced
    refine closed.lock (closed.select fun seen => ?_)
    dsimp only
    split
    · exact closed.abort _
    · exact closed.note (noted fence fenced) (progressTask_closed closed same rest)
  · exact rest

/-- What comes before the approval is spent. -/
theorem updateTask_closed (closed : Program.Closed notes law born P) (noted : ∀ n, notes n)
    (same : ∀ v, law input.key v v)
    (rest : ∀ task, P (consumeApproval env input.boardIntentApproval (writeTask env input task))) :
    P (updateTask env input) := by
  refine closed.select fun seen => ?_
  split
  · exact closed.finish _
  refine closed.note (noted _) ?_
  split
  · exact closed.abort _
  · exact fenceTask_closed closed same (fun _ _ => noted _) (claimTask_closed closed same (rest _))

theorem updateTask_keeps (noted : ∀ n, notes n) (same : ∀ v, law input.key v v)
    (writes : ∀ task v v', input.write env task v = some v' → law input.key v v')
    (binds : ∀ fence ∈ input.leaseFence, ∀ v v', bindPrUrl input v = some v' →
      law (.lease fence.lease_id) v v')
    (spends : ∀ spent ∈ input.boardIntentApproval, ∀ id ∈ spent.intentId, ∀ v v',
      spend env spent v = some v' → law (.intent id) v v')
    (bears : ∀ creation ∈ input.workLeaseCreation,
      born (.lease creation.id)
        (createTaskLeaseRow creation input.room_id input.task_id .work input.now)) :
    (updateTask env input).Keeps notes law born :=
  updateTask_closed keeps_closed noted same fun task =>
    consumeApproval_keeps spends (writeTask_keeps (writes task) binds bears)

end UpdateTask

/-! ## Lease actions -/

theorem applyTaskWorkLeaseAction_keeps {input : TaskWorkLeaseActionInput} (noted : ∀ n, notes n)
    (rest : ∀ task, (workLeaseAction env input task).Keeps notes law born) :
    (applyTaskWorkLeaseAction env input).Keeps notes law born := by
  intro seen
  dsimp only
  split
  · trivial
  · exact And.intro (noted _) (rest _)

theorem workLeaseAction_keeps {input : TaskWorkLeaseActionInput}
    (expires : Within law (expireLeases input.room_id input.now))
    (disposes : ∀ v v', input.dispose v = some v' → law (.lease input.active_lease_id) v v')
    (assigns : ∀ v v', input.assign task v = some v' → law (.task input.room_id input.task_id) v v')
    (spends : ∀ spent ∈ input.board_intent_approval, ∀ id ∈ spent.intentId, ∀ v v',
      spend env spent v = some v' → law (.intent id) v v')
    (bears : ∀ creation ∈ input.new_lease,
      born (.lease creation.id) (createTaskLeaseRow creation input.room_id input.task_id .work input.now)) :
    (workLeaseAction env input task).Keeps notes law born := by
  rw [workLeaseAction]
  split
  · trivial
  refine And.intro expires fun _ _ => And.intro (within_atKey disposes) fun _ released => ?_
  dsimp only
  split
  · trivial
  refine And.intro (within_atKey assigns) fun _ updated => ?_
  dsimp only
  split
  · trivial
  refine consumeApproval_keeps spends ?_
  split
  · rename_i creation created
    exact And.intro (bears creation created) (And.intro trivial trivial)
  · trivial

theorem rebindWrites_keeps
    (revokes : Within law (revokeBearers input.from_agent_session_id input.now))
    (consumes : ∀ v v', consumeAttestation input epoch v = some v' → law (.attestation input.attestation_id) v v')
    (moves : ∀ v v', moveLease input epoch toSession v = some v' → law (.lease input.lease_id) v v') :
    (rebindWrites input epoch toSession).Keeps notes law born := by
  refine And.intro revokes fun _ _ => And.intro (within_atKey consumes) fun _ consumed => ?_
  dsimp only
  split
  · trivial
  refine And.intro (within_atKey moves) fun _ moved => ?_
  dsimp only
  split <;> trivial

theorem rebindTaskLease_keeps
    (revokes : Within law (revokeBearers input.from_agent_session_id input.now))
    (consumes : ∀ epoch v v', consumeAttestation input epoch v = some v' → law (.attestation input.attestation_id) v v')
    (moves : ∀ epoch toSession v v', moveLease input epoch toSession v = some v' → law (.lease input.lease_id) v v') :
    (rebindTaskLease input).Keeps notes law born := by
  rw [rebindTaskLease, Program.Keeps]
  refine assertSupervisorGrantFenceTx_keeps fun fenced => ?_
  split
  · trivial
  intro seen
  dsimp only
  split
  · trivial
  split
  · trivial
  intro seen
  dsimp only
  split
  · trivial
  intro seen
  dsimp only
  split
  · trivial
  intro seen
  dsimp only
  split
  · trivial
  split
  · trivial
  split
  · trivial
  intro seen
  dsimp only
  split
  · trivial
  split
  · trivial
  split
  · trivial
  · exact rebindWrites_keeps revokes (consumes _) (moves _ _)

theorem recordRebindAttestation_keeps {input : RecordRebindAttestationInput}
    (bears : ∀ lease, born (.attestation input.id) (input.row lease)) :
    (recordRebindAttestation input).Keeps notes law born := by
  rw [recordRebindAttestation]
  split
  · trivial
  split
  · trivial
  rw [Program.Keeps]
  refine assertSupervisorGrantFenceTx_keeps fun fenced => ?_
  split
  · trivial
  intro seen
  dsimp only
  split
  · trivial
  intro seen
  dsimp only
  split
  · trivial
  split
  · trivial
  split
  · trivial
  intro seen
  dsimp only
  split
  · trivial
  split
  · trivial
  refine And.intro (bears _) (And.intro trivial fun seen => ?_)
  dsimp only
  split
  · trivial
  split <;> trivial

/-! ## Rows for runs on fixed inputs -/

/-- Functions that no call of these runs reaches. -/
def plainExternals : Externals where
  sha256 := id
  normalizeTaskWorkflowArtifacts artifacts _ := artifacts
  synchronizeTaskWorkflowArtifactsWithPrUrl artifacts _ _ := artifacts

def startedTask : Task where
  title := "Fix the parser"
  description := none
  status := .in_progress
  assignee := some "Ada"
  assignee_agent_key := some "ada"
  created_by := "owner"
  pr_url := none
  workflow_artifacts := "[]"
  updated_at := 10

def workLease : TaskLease where
  room_id := "room"
  task_id := 1
  kind := .work
  status := .active
  agent_key := "ada"
  agent_instance_id := none
  agent_session_id := some "session"
  actor_label := "Ada"
  epoch := 0
  branch_ref := none
  pr_url := none
  output_intent := none
  expires_at := none
  last_heartbeat_at := none
  revoked_reason := none
  created_by := "owner"
  updated_at := 10

def workFence : LeaseFence := ⟨"lease", "room", 1, .work, 0, "session"⟩

end LetAgents.Coordination

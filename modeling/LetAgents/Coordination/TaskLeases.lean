import LetAgents.Coordination.SupervisorGrants

/-!
# Task leases

Source: src/api/db/coordination/lease-rebind.ts:86-553, task-leases.ts:10-129 and
lease-rows.ts.

A lease binds a task to an agent's session. `acquireLeaseFenceTx`, the rebind and the
release take the lease's advisory lock; the revocation and the expiry write without it.
-/
namespace LetAgents.Coordination

open Lib.ReadCommitted

/-! ## Fences -/

/-- The lease that the fence names, held as it says. -/
def LeaseFence.held (fence : LeaseFence) (lease : TaskLease) : Bool :=
  lease.room_id = fence.room_id && lease.task_id = fence.task_id && lease.kind = fence.kind &&
    lease.status = .active && lease.epoch = fence.expected_epoch &&
    lease.agent_session_id = some fence.agent_session_id

def acquireLeaseFenceTx (fence : LeaseFence) (next : Option TaskLease → Prog) : Prog :=
  .lock (.taskLease fence.lease_id) <| .select fun seen =>
    next ((seen.rows (.lease fence.lease_id)).filter fence.held)

/-! ## Rebind -/

structure RebindTaskLeaseInput where
  lease_id : String
  expected_epoch : Nat
  from_agent_session_id : String
  to_agent_session_id : String
  supervisor_grant_fence : SupervisorGrantFence
  attestation_id : String
  work_attempt_id : String
  execution_generation_id : String
  /-- the clock at the grant's fence, and at the writes -/
  checked_at : Nat
  now : Nat

namespace RebindTaskLeaseInput

variable (input : RebindTaskLeaseInput)

/-- What the lease must be, when it is read and when it is moved. -/
def current (lease : TaskLease) : Bool :=
  lease.status = .active && lease.epoch = input.expected_epoch &&
    lease.agent_session_id = some input.from_agent_session_id

/-- The predecessor and the successor, up to whether the former has ended. -/
def boundSessions (lease : TaskLease) (grant : SupervisorGrant)
    (fromSession toSession : AgentSession) : Bool :=
  fromSession.agent_key = toSession.agent_key && toSession.agent_key = lease.agent_key &&
    fromSession.room_id = lease.room_id && toSession.room_id = lease.room_id &&
    toSession.ended_at.isNone && toSession.session_kind = .worker &&
    fromSession.session_kind = .worker && toSession.owner_account_id = grant.owner_account_id &&
    fromSession.owner_account_id = grant.owner_account_id &&
    toSession.supervisor_grant_id = some input.supervisor_grant_fence.grant_id &&
    fromSession.supervisor_grant_id = some input.supervisor_grant_fence.grant_id

/-- The attestations of the predecessor tuple that are not consumed. -/
def pending (attestation : RebindAttestation) : Bool :=
  attestation.lease_id = input.lease_id && attestation.epoch = input.expected_epoch &&
    attestation.from_agent_session_id = input.from_agent_session_id &&
    attestation.consumed_at.isNone

end RebindTaskLeaseInput

/-- `LIMIT 1` on a table of attestations. -/
def findAttestation (wanted : RebindAttestation → Bool) (seen : Seen Row) :
    Option (String × RebindAttestation) :=
  seen.keys.findSome? fun
    | .attestation id => ((seen.rows (.attestation id)).filter wanted).map fun row => (id, row)
    | _ => none

/-- The bearers of a session that are in force, revoked. -/
def revokeBearers (session_id : String) (now : Nat) : ∀ k, Row k → Option (Row k)
  | .bearer _, row =>
    if row.session_id = session_id && row.revoked_at.isNone then
      some { row with revoked_at := some now }
    else none
  | _, _ => none

def consumeAttestation (input : RebindTaskLeaseInput) (epoch : Nat) (attestation : RebindAttestation) :
    Option RebindAttestation :=
  if input.pending attestation then
    some { attestation with consumed_at := some input.now, consumed_by_epoch := some (epoch + 1) }
  else none

def moveLease (input : RebindTaskLeaseInput) (epoch : Nat) (toSession : AgentSession)
    (lease : TaskLease) : Option TaskLease :=
  if input.current lease then
    some { lease with
      agent_session_id := some input.to_agent_session_id
      agent_key := toSession.agent_key
      agent_instance_id := toSession.agent_instance_id
      actor_label := toSession.actor_label
      epoch := epoch + 1
      updated_at := input.now
      last_heartbeat_at := some input.now }
  else none

/-- The lease moves last. -/
def moveWrites (input : RebindTaskLeaseInput) (epoch : Nat) (toSession : AgentSession) : Prog :=
  .update (atKey (.lease input.lease_id) (moveLease input epoch toSession)) fun _ moved =>
  if moved = [] then .abort (.failed "lost_race")
  else .finish .done

def consumeWrites (input : RebindTaskLeaseInput) (epoch : Nat) (toSession : AgentSession) : Prog :=
  .update (atKey (.attestation input.attestation_id) (consumeAttestation input epoch))
    fun _ consumed =>
  if consumed = [] then .abort (.failed "attestation_missing")
  else moveWrites input epoch toSession

/-- The writes of a rebind, in their order. -/
def rebindWrites (input : RebindTaskLeaseInput) (epoch : Nat) (toSession : AgentSession) : Prog :=
  .update (revokeBearers input.from_agent_session_id input.now) fun _ _ =>
  consumeWrites input epoch toSession

def rebindTaskLease (input : RebindTaskLeaseInput) : Prog :=
  .lock (.taskLease input.lease_id) <|
  assertSupervisorGrantFenceTx input.supervisor_grant_fence input.checked_at fun fenced =>
  if !fenced then .abort (.failed "grant_fence_stale")
  else .select fun seen =>
  match (seen.rows (.lease input.lease_id)).filter input.current with
  | none => .abort (.failed "lost_race")
  | some lease =>
  if lease.kind ≠ .work then .abort (.failed "kind_not_rebindable")
  else .select fun seen =>
  match (seen.rows (.grant input.supervisor_grant_fence.grant_id)).filter fun grant =>
      grant.allowed_room_ids.contains lease.room_id &&
        grant.allowed_agent_keys.contains lease.agent_key with
  | none => .abort (.failed "grant_scope")
  | some grant => .select fun seen =>
  match seen.rows (.session input.from_agent_session_id) with
  | none => .abort (.failed "session_mismatch")
  | some fromSession => .select fun seen =>
  match (seen.rows (.session input.to_agent_session_id)).filter
      (input.boundSessions lease grant fromSession) with
  | none => .abort (.failed "session_mismatch")
  | some toSession =>
  match fromSession.ended_at with
  | none => .abort (.failed "predecessor_live")
  | some ended_at =>
  if toSession.created_at ≤ ended_at then .abort (.failed "session_mismatch")
  else .select fun seen =>
  match findAttestation input.pending seen with
  | none => .abort (.failed "attestation_missing")
  | some (id, attestation) =>
  if attestation.grant_id ≠ input.supervisor_grant_fence.grant_id ∨
      input.supervisor_grant_fence.generation < attestation.supervisor_generation then
    .abort (.failed "attestation_stale")
  else if id ≠ input.attestation_id ∨ attestation.work_attempt_id ≠ input.work_attempt_id ∨
      attestation.execution_generation_id ≠ input.execution_generation_id then
    .abort (.failed "attestation_mismatch")
  else rebindWrites input lease.epoch toSession

/-! ## Attestations -/

def rebindAttestationCauses : List String := ["exited", "killed", "stopped", "crashed", "protocol_error"]

/-- `/^[0-9a-f]{8}-[0-9a-f]{4}-[0-9a-f]{4}-[0-9a-f]{4}-[0-9a-f]{12}$/i` -/
def isUuidShapedExecutionId (text : String) : Bool :=
  let groups := text.splitOn "-"
  groups.map String.length = [8, 4, 4, 4, 12] && groups.all fun group => group.toList.all fun c =>
    c.isDigit || ('a' ≤ c && c ≤ 'f') || ('A' ≤ c && c ≤ 'F')

structure RecordRebindAttestationInput where
  lease_id : String
  epoch : Nat
  from_agent_session_id : String
  supervisor_grant_fence : SupervisorGrantFence
  work_attempt_id : String
  execution_generation_id : String
  cause : String
  /-- the id that `coordinationId` draws -/
  id : String
  checked_at : Nat
  now : Nat

namespace RecordRebindAttestationInput

variable (input : RecordRebindAttestationInput)

/-- The attestation as it is inserted. -/
def row (lease : TaskLease) : RebindAttestation where
  room_id := lease.room_id
  lease_id := input.lease_id
  epoch := input.epoch
  from_agent_session_id := input.from_agent_session_id
  grant_id := input.supervisor_grant_fence.grant_id
  supervisor_generation := input.supervisor_grant_fence.generation
  work_attempt_id := input.work_attempt_id
  execution_generation_id := input.execution_generation_id
  cause := input.cause
  attested_at := input.now
  consumed_at := none
  consumed_by_epoch := none

def pending (attestation : RebindAttestation) : Bool :=
  attestation.lease_id = input.lease_id && attestation.epoch = input.epoch &&
    attestation.from_agent_session_id = input.from_agent_session_id &&
    attestation.consumed_at.isNone

/-- A retry with the recorded evidence. -/
def identical (existing : RebindAttestation) : Bool :=
  existing.grant_id = input.supervisor_grant_fence.grant_id &&
    existing.supervisor_generation ≤ input.supervisor_grant_fence.generation &&
    existing.work_attempt_id = input.work_attempt_id &&
    existing.execution_generation_id = input.execution_generation_id &&
    existing.cause = input.cause

/-- The predecessor, up to whether it has ended. -/
def bound (lease : TaskLease) (grant : SupervisorGrant) (fromSession : AgentSession) : Bool :=
  fromSession.room_id = lease.room_id && fromSession.agent_key = lease.agent_key &&
    fromSession.session_kind = .worker &&
    fromSession.owner_account_id = grant.owner_account_id &&
    fromSession.supervisor_grant_id = some input.supervisor_grant_fence.grant_id

end RecordRebindAttestationInput

/-- The insert, or the look at the pending row that it conflicts with. -/
def recordAttestation (input : RecordRebindAttestationInput) (lease : TaskLease) : Prog :=
  .insert (.attestation input.id) (input.row lease) (.finish .done) <| .select fun seen =>
    match findAttestation input.pending seen with
    | none => .finish (.failed "evidence_conflict")
    | some (_, existing) =>
      if input.identical existing then .finish .done else .finish (.failed "evidence_conflict")

def recordRebindAttestation (input : RecordRebindAttestationInput) : Prog :=
  if input.cause ∉ rebindAttestationCauses then .finish (.failed "invalid_cause")
  else if !isUuidShapedExecutionId input.work_attempt_id ||
      !isUuidShapedExecutionId input.execution_generation_id then
    .finish (.failed "invalid_execution_identity")
  else
  .lock (.taskLease input.lease_id) <|
  assertSupervisorGrantFenceTx input.supervisor_grant_fence input.checked_at fun fenced =>
  if !fenced then .finish (.failed "grant_fence_stale")
  else .select fun seen =>
  match seen.rows (.grant input.supervisor_grant_fence.grant_id) with
  | none => .finish (.failed "grant_fence_stale")
  | some grant => .select fun seen =>
  match seen.rows (.lease input.lease_id) with
  | none => .finish (.failed "lease_not_found")
  | some lease =>
  if !(grant.allowed_room_ids.contains lease.room_id &&
      grant.allowed_agent_keys.contains lease.agent_key) then .finish (.failed "grant_scope")
  else if lease.status ≠ .active ∨ lease.kind ≠ .work ∨ lease.epoch ≠ input.epoch ∨
      lease.agent_session_id ≠ some input.from_agent_session_id then
    .finish (.failed "lease_mismatch")
  else .select fun seen =>
  match (seen.rows (.session input.from_agent_session_id)).filter (input.bound lease grant) with
  | none => .finish (.failed "session_mismatch")
  | some fromSession =>
  if fromSession.ended_at.isNone then .finish (.failed "predecessor_live")
  else recordAttestation input lease

/-! ## The other lease actions -/

structure CreateTaskLeaseRowInput where
  /-- the id that `coordinationId` draws -/
  id : String
  agent_key : String
  actor_label : String
  created_by : String
  agent_instance_id : Option String
  agent_session_id : Option String
  branch_ref : Option String
  pr_url : Option String
  output_intent : Option String
  expires_at : Option Nat
deriving DecidableEq

def createTaskLeaseRow (input : CreateTaskLeaseRowInput) (room_id : String) (task_id : Nat)
    (kind : TaskLeaseKind) (now : Nat) : TaskLease where
  room_id := room_id
  task_id := task_id
  kind := kind
  status := .active
  agent_key := input.agent_key
  agent_instance_id := input.agent_instance_id
  agent_session_id := input.agent_session_id
  actor_label := input.actor_label
  epoch := 0
  branch_ref := input.branch_ref
  pr_url := input.pr_url
  output_intent := input.output_intent
  expires_at := input.expires_at
  last_heartbeat_at := some now
  revoked_reason := none
  created_by := input.created_by
  updated_at := now

/-- The room's active leases past their end, expired. -/
def expireLeases (room_id : String) (now : Nat) : ∀ k, Row k → Option (Row k)
  | .lease _, row =>
    if row.room_id = room_id && row.status = .active && row.expires_at.any (· ≤ now) then
      some { row with status := .expired, updated_at := now }
    else none
  | _, _ => none

def expireStaleTaskLeases (room_id : String) (now : Nat) : Prog :=
  .update (expireLeases room_id now) fun _ _ => .finish .done

def revokeLease (room_id revoked_reason : String) (now : Nat) (lease : TaskLease) : Option TaskLease :=
  if lease.room_id = room_id then
    some { lease with status := .revoked, revoked_reason := some revoked_reason, updated_at := now }
  else none

def revokeTaskLease (room_id lease_id revoked_reason : String) (now : Nat) : Prog :=
  .update (atKey (.lease lease_id) (revokeLease room_id revoked_reason now)) fun _ revoked =>
    .finish (if revoked = [] then .none else .done)

/-- The identity that a release may present. -/
structure ReleaseFence where
  kind : Option TaskLeaseKind := none
  expected_epoch : Option Nat := none
  expected_agent_session_id : Option String := none

def ReleaseFence.admits (fence : ReleaseFence) (lease : TaskLease) : Bool :=
  fence.kind.all (lease.kind = ·) && fence.expected_epoch.all (lease.epoch = ·) &&
    fence.expected_agent_session_id.all fun session =>
      session = "" || lease.agent_session_id = some session

def releaseLease (room_id : String) (fence : ReleaseFence) (now : Nat) (lease : TaskLease) :
    Option TaskLease :=
  if lease.room_id = room_id && lease.status = .active && fence.admits lease then
    some { lease with status := .released, updated_at := now }
  else none

def releaseTaskLease (room_id lease_id : String) (fence : ReleaseFence) (now : Nat) : Prog :=
  .lock (.taskLease lease_id) <|
  .update (atKey (.lease lease_id) (releaseLease room_id fence now)) fun _ released =>
    .finish (if released = [] then .none else .done)

end LetAgents.Coordination

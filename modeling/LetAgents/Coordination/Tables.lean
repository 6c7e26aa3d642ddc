import LetAgents.Lib.ReadCommitted

/-!
# The tables of the coordination server

The rows that the transactions on tasks, leases, board intents, agent sessions,
supervisor grants and receipts read and write, their unique indexes and the advisory
locks. Times are milliseconds; a row's primary key is its key.
-/
namespace LetAgents.Coordination

open Lib.ReadCommitted

inductive TaskStatus
  | proposed | accepted | assigned | in_progress | blocked | in_review | merged | done | cancelled
deriving DecidableEq

/-- `VALID_TRANSITIONS` -/
def validTransitions : TaskStatus → List TaskStatus
  | .proposed => [.accepted, .cancelled]
  | .accepted => [.assigned, .cancelled]
  | .assigned => [.in_progress, .in_review, .cancelled]
  | .in_progress => [.blocked, .in_review, .done, .cancelled]
  | .blocked => [.in_progress, .in_review, .cancelled]
  | .in_review => [.merged, .in_progress, .blocked, .done, .cancelled]
  | .merged => [.done, .accepted]
  | .done => [.accepted]
  | .cancelled => [.accepted]

def isValidTransition (source target : TaskStatus) : Bool := target ∈ validTransitions source

/-- `tasks`, keyed by room and number; the artifacts are the JSON of the column. -/
structure Task where
  title : String
  description : Option String
  status : TaskStatus
  assignee : Option String
  assignee_agent_key : Option String
  created_by : String
  pr_url : Option String
  workflow_artifacts : String
  updated_at : Nat
deriving DecidableEq

inductive TaskLeaseKind
  | work | review
deriving DecidableEq

inductive TaskLeaseStatus
  | active | released | revoked | expired
deriving DecidableEq

/-- `task_leases`; a task is named by its number. -/
structure TaskLease where
  room_id : String
  task_id : Nat
  kind : TaskLeaseKind
  status : TaskLeaseStatus
  agent_key : String
  agent_instance_id : Option String
  agent_session_id : Option String
  actor_label : String
  epoch : Nat
  branch_ref : Option String
  pr_url : Option String
  output_intent : Option String
  expires_at : Option Nat
  last_heartbeat_at : Option Nat
  revoked_reason : Option String
  created_by : String
  updated_at : Nat
deriving DecidableEq

/-- `task_lease_rebind_attestations` -/
structure RebindAttestation where
  room_id : String
  lease_id : String
  epoch : Nat
  from_agent_session_id : String
  grant_id : String
  supervisor_generation : Nat
  work_attempt_id : String
  execution_generation_id : String
  cause : String
  attested_at : Nat
  consumed_at : Option Nat
  consumed_by_epoch : Option Nat
deriving DecidableEq

inductive SessionKind
  | worker | controller
deriving DecidableEq

/-- `room_agent_sessions` -/
structure AgentSession where
  room_id : String
  token_hash : String
  session_kind : SessionKind
  actor_label : String
  agent_key : String
  agent_instance_id : Option String
  display_name : String
  assigned_base_display_name : Option String
  owner_account_id : String
  supervisor_grant_id : Option String
  created_at : Nat
  last_seen_at : Nat
  ended_at : Option Nat
deriving DecidableEq

/-- `room_agent_session_bearers` -/
structure Bearer where
  session_id : String
  room_id : String
  supervisor_grant_id : Option String
  token_hash : String
  generation : Nat
  capabilities : List String
  expires_at : Nat
  revoked_at : Option Nat
  rotated_from_bearer_id : Option String
deriving DecidableEq

/-- `supervisor_host_grants` -/
structure SupervisorGrant where
  owner_account_id : String
  host_id : String
  installation_id : String
  scope_key : String
  rental_session_id : Option String
  token_hash : String
  token_version : Nat
  allowed_room_ids : List String
  allowed_agent_keys : List String
  current_generation : Nat
  expires_at : Nat
  revoked_at : Option Nat
deriving DecidableEq

inductive IntentStatus
  | pending | approved | denied | expired | used
deriving DecidableEq

inductive IntentAction
  | task_create | task_claim | task_close | task_override | task_update
deriving DecidableEq

inductive WorkerAuthKind
  | bearer | session_token
deriving DecidableEq

/-- `board_intents`; the payload is named by its JSON text. -/
structure BoardIntent where
  room_id : String
  task_id : Option Nat
  action_type : IntentAction
  payload : String
  payload_hash : String
  status : IntentStatus
  proposer_actor_label : Option String
  proposer_actor_key : Option String
  proposer_actor_instance_id : Option String
  proposer_agent_session_id : Option String
  proposer_worker_auth_kind : Option WorkerAuthKind
  decision_by : Option String
  decision_reason : Option String
  approval_token_hash : Option String
  decided_at : Option Nat
  expires_at : Option Nat
  escalated_at : Option Nat
  escalation_check_at : Option Nat
  auto_approved : Bool
deriving DecidableEq

inductive ReceiptState
  | queued | responding | retrying | blocked | no_reply | replied | unavailable | cancelled
deriving DecidableEq

/-- `message_agent_receipts` -/
structure Receipt where
  message_room_id : String
  message_number : Nat
  agent_session_id : String
  agent_key : String
  receipt_state : ReceiptState
  reply_message_number : Option Nat
deriving DecidableEq

/-- `message_agent_receipt_events` -/
structure ReceiptEvent where
  receipt_id : String
  from_state : Option ReceiptState
  to_state : ReceiptState
  actor_session_id : Option String
  timestamp : Nat
deriving DecidableEq

inductive Key
  | task (room : String) (number : Nat)
  | lease (id : String)
  | attestation (id : String)
  | session (id : String)
  | bearer (id : String)
  | grant (id : String)
  | intent (id : String)
  | receipt (id : String)
  | receiptEvent (id : String)
deriving DecidableEq

abbrev Row : Key → Type
  | .task _ _ => Task
  | .lease _ => TaskLease
  | .attestation _ => RebindAttestation
  | .session _ => AgentSession
  | .bearer _ => Bearer
  | .grant _ => SupervisorGrant
  | .intent _ => BoardIntent
  | .receipt _ => Receipt
  | .receiptEvent _ => ReceiptEvent

instance : ∀ k, DecidableEq (Row k)
  | .task _ _ => inferInstanceAs (DecidableEq Task)
  | .lease _ => inferInstanceAs (DecidableEq TaskLease)
  | .attestation _ => inferInstanceAs (DecidableEq RebindAttestation)
  | .session _ => inferInstanceAs (DecidableEq AgentSession)
  | .bearer _ => inferInstanceAs (DecidableEq Bearer)
  | .grant _ => inferInstanceAs (DecidableEq SupervisorGrant)
  | .intent _ => inferInstanceAs (DecidableEq BoardIntent)
  | .receipt _ => inferInstanceAs (DecidableEq Receipt)
  | .receiptEvent _ => inferInstanceAs (DecidableEq ReceiptEvent)

/-- The advisory locks, by what their names are made of. -/
inductive LockKey
  | taskLease (id : String)
  | supervisorGrant (id : String)
  | supervisorGrantInstallation (owner host installation scope : String)
  | agentInstance (room agentKey instanceId : String)
  | supervisorWorker (owner room agentKey instanceId : String)
  | mcpWorkerNames (room : String)
  | agentBearer (id : String)
  | autoApprove (room proposer : String)
deriving DecidableEq

/-- The unique indexes. An index that an update can enter is left to the failure of
the statement: the actor label of a live worker, the agent of a review lease, the hash
of a token. -/
def clash : ∀ k, Row k → ∀ k', Row k' → Bool
  -- task_leases_active_work_task_idx
  | .lease _, a, .lease _, b =>
    a.kind = .work && b.kind = .work && a.status = .active && b.status = .active &&
      a.room_id = b.room_id && a.task_id = b.task_id
  -- task_lease_rebind_attestations_unconsumed_idx
  | .attestation _, a, .attestation _, b =>
    a.consumed_at.isNone && b.consumed_at.isNone && a.lease_id = b.lease_id &&
      a.epoch = b.epoch && a.from_agent_session_id = b.from_agent_session_id
  -- room_agent_session_bearers_session_generation_idx
  | .bearer _, a, .bearer _, b => a.session_id = b.session_id && a.generation = b.generation
  -- supervisor_host_grants_active_host_idx
  | .grant _, a, .grant _, b =>
    a.revoked_at.isNone && b.revoked_at.isNone && a.owner_account_id = b.owner_account_id &&
      a.host_id = b.host_id && a.installation_id = b.installation_id &&
      a.scope_key = b.scope_key
  -- board_intents_pending_action_payload_idx
  | .intent _, a, .intent _, b =>
    a.status = .pending && b.status = .pending && a.room_id = b.room_id &&
      a.action_type = b.action_type && a.payload_hash = b.payload_hash
  -- message_agent_receipts_message_agent_uq
  | .receipt _, a, .receipt _, b =>
    a.message_room_id = b.message_room_id && a.message_number = b.message_number &&
      a.agent_key = b.agent_key
  | _, _, _, _ => false

theorem clash_symm (k : Key) (a : Row k) (k' : Key) (b : Row k') :
    clash k a k' b = clash k' b k a := by
  cases k <;> cases k' <;> simp only [clash] <;> rw [Bool.eq_iff_iff] <;>
    simp only [Bool.and_eq_true] <;> grind

/-- A version that enters no unique index that the row was not in. -/
def keepsIndexes : ∀ k, Row k → Row k → Prop
  | .lease _, a, b =>
    b.room_id = a.room_id ∧ b.task_id = a.task_id ∧ b.kind = a.kind ∧
      (b.status = .active → a.status = .active)
  | .attestation _, a, b =>
    b.lease_id = a.lease_id ∧ b.epoch = a.epoch ∧
      b.from_agent_session_id = a.from_agent_session_id ∧
      (b.consumed_at = none → a.consumed_at = none)
  | .bearer _, a, b => b.session_id = a.session_id ∧ b.generation = a.generation
  | .grant _, a, b =>
    b.owner_account_id = a.owner_account_id ∧ b.host_id = a.host_id ∧
      b.installation_id = a.installation_id ∧ b.scope_key = a.scope_key ∧
      (b.revoked_at = none → a.revoked_at = none)
  | .intent _, a, b =>
    b.room_id = a.room_id ∧ b.action_type = a.action_type ∧ b.payload_hash = a.payload_hash ∧
      (b.status = .pending → a.status = .pending)
  | .receipt _, a, b =>
    b.message_room_id = a.message_room_id ∧ b.message_number = a.message_number ∧
      b.agent_key = a.agent_key
  | .task _ _, _, _ | .session _, _, _ | .receiptEvent _, _, _ => True

theorem keepsIndexes_trans (first : keepsIndexes k a b) (second : keepsIndexes k b c) :
    keepsIndexes k a c := by
  cases k <;> simp only [keepsIndexes] at first second ⊢ <;> grind

theorem keepsIndexes_clash (keeps : keepsIndexes k a b) (clashes : clash k b k' x = true) :
    clash k a k' x = true := by
  cases k <;> cases k' <;> first
    | exact absurd clashes Bool.false_ne_true
    | simp only [keepsIndexes, clash, Bool.and_eq_true, decide_eq_true_eq,
        Option.isNone_iff_eq_none] at keeps clashes ⊢
      grind

/-- The identity of a held lease that a guarded write presents. -/
structure LeaseFence where
  lease_id : String
  room_id : String
  task_id : Nat
  kind : TaskLeaseKind
  expected_epoch : Nat
  agent_session_id : String
deriving DecidableEq

structure SupervisorGrantFence where
  grant_id : String
  generation : Nat
  token_version : Nat

/-- What a call has learned: the task it read first, the lease's fence it has passed, the
grants' fences it has passed, with and without a lock on the grant's row, and the worker
(room, agent key and instance) whose sessions it has read. -/
structure Note where
  task : Option Task := none
  fence : Option LeaseFence := none
  passed : List SupervisorGrantFence := []
  kept : List SupervisorGrantFence := []
  registering : Option (String × String × String) := none

/-- How a call returns: with a value, or with an error. -/
inductive Outcome
  | done
  | none
  | failed (reason : String)
  | threw (error : String)
deriving DecidableEq

/-- The functions that the transactions use without looking into their results. -/
structure Externals where
  sha256 : String → String
  normalizeTaskWorkflowArtifacts : String → Option String → String
  synchronizeTaskWorkflowArtifactsWithPrUrl : String → Option String → Option String → String

abbrev Prog := Program Row LockKey Note Outcome

/-- The server, for a choice of calls. -/
def server {C : Type} (program : C → Prog) : System Row C LockKey Note Outcome where
  program := program
  fresh := {}
  clash := clash

end LetAgents.Coordination

import Mathlib.Data.List.Sort
import LetAgents.Coordination.Tables
import LetAgents.Lib.Texts

/-!
# Board managers

A room has at most one active board manager assignment. A human assigns and releases a
manager with single statements; the liveness sweep replaces a manager that has ended or
cannot be reached in one transaction, which locks the two sessions and the keys of their
deliveries. The check times that the schedule triggers compute are inputs of the calls.
-/
namespace LetAgents.Coordination.BoardManagers

open Lib.ReadCommitted
open LetAgents.Lib.RegExp (Text text)

inductive ManagerStatus
  | active | released
deriving DecidableEq

inductive RuntimeSource
  | desktop_managed | open_model | external | unknown
deriving DecidableEq

/-- `board_manager_assignments` -/
structure Assignment where
  room_id : String
  agent_session_id : String
  agent_key : String
  actor_label : String
  runtime_source : RuntimeSource
  assigned_by : String
  status : ManagerStatus
  last_heartbeat_at : Nat
  stall_check_at : Option Nat
  released_by : Option String
  release_reason : Option String
  released_at : Option Nat
  created_at : Nat
  updated_at : Nat

/-- `room_agent_sessions` -/
structure Session where
  room_id : String
  session_kind : SessionKind
  agent_key : String
  actor_label : String
  runtime : String
  ide_label : Option String
  liveness_capability : Option String
  tool_bridge_id : Option String
  supervisor_grant_id : Option String
  last_seen_at : Nat
  ended_at : Option Nat
deriving DecidableEq

/-- `room_agent_delivery_sessions`, keyed by the room and the session: the delivery key of
a session is made of its id. -/
structure Delivery where
  session_kind : SessionKind
  active_connection_count : Nat
  reconnect_grace_expires_at : Option Nat
  updated_at : Nat
deriving DecidableEq

/-- `supervisor_host_grants` -/
structure Grant where
  revoked_at : Option Nat
  expires_at : Nat
deriving DecidableEq

inductive Key
  | assignment (id : String)
  | session (id : String)
  | delivery (room session : String)
  | grant (id : String)
deriving DecidableEq

abbrev Row : Key → Type
  | .assignment _ => Assignment
  | .session _ => Session
  | .delivery _ _ => Delivery
  | .grant _ => Grant

/-- The advisory lock of a delivery key. -/
abbrev DeliveryKey := String × String

abbrev Prog := Program Row DeliveryKey Unit Outcome

/-- `board_manager_assignments_active_room_unique_idx` -/
def clash : ∀ k, Row k → ∀ k', Row k' → Bool
  | .assignment _, a, .assignment _, b =>
    a.status = .active && b.status = .active && a.released_at.isNone && b.released_at.isNone &&
      a.room_id = b.room_id
  | _, _, _, _ => false

theorem clash_symm (k : Key) (a : Row k) (k' : Key) (b : Row k') :
    clash k a k' b = clash k' b k a := by
  cases k with
  | assignment id =>
    cases k' with
    | assignment id' =>
      simp only [clash]
      rw [Bool.eq_iff_iff]
      grind
    | session | delivery | grant => rfl
  | session | delivery | grant => cases k' <;> rfl

/-! ## Reachability -/

/-- `interval '90 seconds'` -/
def deliveryWindowMs : Nat := 90 * 1000

/-- A worker's delivery with a live connection, or in its reconnect grace. -/
def Delivery.reachable (delivery : Delivery) (now : Nat) : Bool :=
  delivery.session_kind = .worker &&
    (0 < delivery.active_connection_count && now ≤ delivery.updated_at + deliveryWindowMs ||
      delivery.reconnect_grace_expires_at.any (now ≤ ·))

/-- The session is under a supervisor grant in force. -/
def supervised (rows : Rows Row) (session : Session) (now : Nat) : Bool :=
  session.supervisor_grant_id.any fun id => (rows (.grant id)).any fun grant : Grant =>
    grant.revoked_at.isNone && now < grant.expires_at

/-- The EXISTS clauses of a release that requires an unreachable delivery. -/
def unreachable (rows : Rows Row) (assignment : Assignment) (now : Nat) : Bool :=
  let session := rows (.session assignment.agent_session_id)
  session.any (fun row : Session => row.room_id = assignment.room_id && row.ended_at.isSome) ||
    (rows (.delivery assignment.room_id assignment.agent_session_id)).any fun delivery : Delivery =>
      delivery.session_kind = .worker && session.any (!supervised rows · now) &&
        !delivery.reachable now

/-- `inferBoardManagerRuntimeSource` -/
def inferBoardManagerRuntimeSource (session : Session) : RuntimeSource :=
  let parts := [some session.runtime, session.ide_label, session.liveness_capability,
    session.tool_bridge_id].reduceOption.filter (· ≠ "")
  let signal := (text (" ".intercalate parts)).toLowerCase
  if ["open-model", "open_model", "open model", "letagents_open_model"].any
      (signal.includes <| text ·) then .open_model
  else .desktop_managed

/-! ## Manual assignment -/

structure AssignInput where
  room_id : String
  agent_session_id : String
  assigned_by : String
  runtime_source : Option RuntimeSource
  /-- `coordinationId("bm")` -/
  id : String
  stall_check_at : Option Nat
  now : Nat
deriving DecidableEq

/-- A worker session of the room that has not ended. -/
def Session.serves (session : Session) (room : String) : Bool :=
  session.room_id = room && session.session_kind = .worker && session.ended_at.isNone

def Assignment.release (row : Assignment) (by' reason : String) (now : Nat) : Assignment :=
  { row with
    status := .released
    stall_check_at := none
    released_by := some by'
    release_reason := some reason
    released_at := some now
    updated_at := now }

def newAssignment (room_id session_id assigned_by : String) (runtime_source : RuntimeSource)
    (stall_check_at : Option Nat) (now : Nat) (session : Session) : Assignment where
  room_id := room_id
  agent_session_id := session_id
  agent_key := session.agent_key
  actor_label := session.actor_label
  runtime_source := runtime_source
  assigned_by := assigned_by
  status := .active
  last_heartbeat_at := session.last_seen_at
  stall_check_at := stall_check_at
  released_by := none
  release_reason := none
  released_at := none
  created_at := now
  updated_at := now

/-- The active assignments of a room, released. -/
def releaseRoom (room_id by' reason : String) (now : Nat) : ∀ k, Row k → Option (Row k)
  | .assignment _, row =>
    if row.room_id = room_id ∧ row.status = .active then some (row.release by' reason now)
    else none
  | _, _ => none

/-- `assignBoardManager` -/
def assignBoardManager (input : AssignInput) : Prog :=
  .select fun seen =>
    match (seen.rows (.session input.agent_session_id)).filter (Session.serves · input.room_id) with
    | none => .abort .none
    | some session =>
      .update (releaseRoom input.room_id input.assigned_by
          "Replaced by a new Board Manager assignment." input.now) fun _ _ =>
        .commit <|
          .insert (.assignment input.id)
            (newAssignment input.room_id input.agent_session_id input.assigned_by
              (input.runtime_source.getD (inferBoardManagerRuntimeSource session))
              input.stall_check_at input.now session)
            (.finish .done) (.abort (.threw "unique_violation"))

structure ReleaseInput where
  room_id : String
  released_by : String
  reason : Option String
  now : Nat
deriving DecidableEq

/-- `releaseBoardManager` -/
def releaseBoardManager (input : ReleaseInput) : Prog :=
  .update (releaseRoom input.room_id input.released_by
      (input.reason.getD "Board Manager released.") input.now) fun _ rows =>
    .finish (if rows = [] then .none else .done)

/-! ## Failover -/

/-- `lockRoomAgentDeliveryKeysTx`, in text order. -/
def lockRoomAgentDeliveryKeysTx (keys : List DeliveryKey) (next : Prog) : Prog :=
  (keys.insertionSort fun a b => a.1 < b.1 ∨ a.1 = b.1 ∧ a.2 ≤ b.2).foldr .lock next

def sessionsOf (room : String) (ids : List String) : ∀ k, Row k → Bool
  | .session id, row => row.room_id = room && id ∈ ids
  | _, _ => false

/-- `lockBoardManagerFailoverDeliveryKeysTx` -/
def lockBoardManagerFailoverDeliveryKeysTx (room_id dead successor : String) (next : Prog) : Prog :=
  .share (sessionsOf room_id [dead, successor]) fun _ =>
    lockRoomAgentDeliveryKeysTx [(room_id, dead), (room_id, successor)] next

structure FailoverInput where
  dead_assignment_id : String
  claimed_check_at : Option Nat
  successor_agent_session_id : String
  /-- `coordinationId("bm")` -/
  id : String
  stall_check_at : Option Nat
  /-- `now()` of the transaction -/
  started_at : Nat
  released_at : Nat
  promoted_at : Nat
deriving DecidableEq

def failoverActor : String := "letagents:manager_failover"

/-- The assignment is active and its due claim is the one evaluated. -/
def Assignment.claimed (row : Assignment) (check_at : Nat) : Bool :=
  row.status = .active && row.stall_check_at = some check_at

/-- `releaseBoardManagerAssignmentTx` of an automatic failover; its UPDATE evaluates the
EXISTS clauses on what it reads before. -/
def releaseBoardManagerAssignmentTx (input : FailoverInput) (check_at : Nat) (next : Prog) : Prog :=
  .select fun seen =>
    match (seen.rows (.assignment input.dead_assignment_id)).filter
        (Assignment.claimed · check_at) with
    | none => .abort (.failed "lost race")
    | some assignment =>
      .share (sessionsOf assignment.room_id [assignment.agent_session_id]) fun _ =>
        lockRoomAgentDeliveryKeysTx [(assignment.room_id, assignment.agent_session_id)] <|
          .select fun seen =>
            .update (atKey (.assignment input.dead_assignment_id) fun row : Assignment =>
                if row.claimed check_at ∧ unreachable seen.rows row input.released_at then
                  some (row.release failoverActor
                    "Board Manager went offline; automatic failover." input.released_at)
                else none) fun _ rows =>
              if rows = [] then .abort (.failed "lost race") else next

/-- `promoteBoardManagerTx` of an automatic failover. -/
def promoteBoardManagerTx (input : FailoverInput) (room_id : String) : Prog :=
  .share (sessionServing room_id input.successor_agent_session_id) fun seen =>
    match (seen.rows (.session input.successor_agent_session_id)).filter
        (Session.serves · room_id) with
    | none => .abort (.failed "lost race")
    | some session =>
      lockRoomAgentDeliveryKeysTx [(room_id, input.successor_agent_session_id)] <|
        .select fun seen =>
          if (seen.rows (.delivery room_id input.successor_agent_session_id)).any
              (Delivery.reachable · input.started_at) then
            .insert (.assignment input.id)
              (newAssignment room_id input.successor_agent_session_id failoverActor
                (inferBoardManagerRuntimeSource session) input.stall_check_at input.promoted_at
                session)
              (.finish .done) (.abort (.threw "unique_violation"))
          else .abort (.failed "lost race")
where
  sessionServing (room successor : String) : ∀ k, Row k → Bool
    | .session id, row => id = successor && row.serves room
    | _, _ => false

/-- `announceFailover` for an assignment that the sweep has read; the message that announces
the failover is created in the same transaction. -/
def announceFailover (input : FailoverInput) : Prog :=
  .select fun seen =>
    match seen.rows (.assignment input.dead_assignment_id), input.claimed_check_at with
    | some dead, some check_at =>
      lockBoardManagerFailoverDeliveryKeysTx dead.room_id dead.agent_session_id
          input.successor_agent_session_id <|
        releaseBoardManagerAssignmentTx input check_at <|
          promoteBoardManagerTx input dead.room_id
    | _, _ => .abort .none

/-! ## Sessions, deliveries and the schedule -/

structure EndInput where
  session_id : String
  room_id : Option String
  stall_check_at : Option Nat
  now : Nat
deriving DecidableEq

def Session.finish (row : Session) (room : Option String) (now : Nat) : Option Session :=
  if room.all (· = row.room_id) then some { row with ended_at := some now, last_seen_at := now }
  else none

/-- A schedule trigger: the check time of the active assignments of a session. -/
def reschedule (room session : String) (due : Option Nat) : ∀ k, Row k → Option (Row k)
  | .assignment _, row =>
    if row.room_id = room ∧ row.agent_session_id = session ∧ row.status = .active then
      some { row with stall_check_at := due }
    else none
  | _, _ => none

/-- The deliveries of a session, without their connections. -/
def disconnect (session : String) (now : Nat) : ∀ k, Row k → Option (Row k)
  | .delivery _ id, row =>
    if id = session then
      some { row with
        active_connection_count := 0
        reconnect_grace_expires_at := some now
        updated_at := now }
    else none
  | _, _ => none

/-- The delivery keys of a session for which there are rows. -/
def deliveryKeys (session : String) (seen : Seen Row) : List DeliveryKey :=
  seen.keys.filterMap fun
    | .delivery room id =>
      if id = session ∧ (seen.rows (.delivery room id)).isSome then some (room, id) else none
    | _ => none

/-- `endRoomAgentSession`: the end of the session, the trigger on it and the retirement of
its delivery. -/
def endRoomAgentSession (input : EndInput) : Prog :=
  .update (atKey (.session input.session_id) (Session.finish · input.room_id input.now)) fun seen rows =>
    match (seen.rows (.session input.session_id)).filter fun _ => rows ≠ [] with
    | none => .finish .none
    | some session =>
      .update (reschedule session.room_id input.session_id input.stall_check_at) fun _ _ =>
        .select fun seen =>
          lockRoomAgentDeliveryKeysTx (deliveryKeys input.session_id seen) <|
            .update (disconnect input.session_id input.now) fun _ _ => .finish .done

structure DeliveryInput where
  room_id : String
  session_id : String
  delivery : Delivery
  /-- the check time of the manager, or of the room's manager when a worker comes online -/
  stall_check_at : Option Nat
  rearms : Bool
deriving DecidableEq

/-- The check time of the active assignments of a room. -/
def rescheduleRoom (room : String) (due : Option Nat) : ∀ k, Row k → Option (Row k)
  | .assignment _, row =>
    if row.room_id = room ∧ row.status = .active then some { row with stall_check_at := due }
    else none
  | _, _ => none

/-- `reschedule_board_manager_from_delivery` -/
def rescheduleFromDelivery (input : DeliveryInput) : Prog :=
  .update (reschedule input.room_id input.session_id input.stall_check_at) fun _ rows =>
    if rows = [] ∧ input.rearms then
      .update (rescheduleRoom input.room_id input.stall_check_at) fun _ _ => .finish .done
    else .finish .done

/-- A mutation of a delivery under its lock, with the trigger on it. -/
def recordDelivery (input : DeliveryInput) : Prog :=
  .lock (input.room_id, input.session_id) <|
    .update (atKey (.delivery input.room_id input.session_id) fun _ => some input.delivery)
      fun _ rows =>
        if rows = [] then
          .insert (.delivery input.room_id input.session_id) input.delivery
            (rescheduleFromDelivery input) (.abort (.threw "unique_violation"))
        else rescheduleFromDelivery input

/-- The sweep's claim of due assignments, and their rescheduling. -/
def scheduleCheck (id : String) (due : Option Nat) : Prog :=
  .update (atKey (.assignment id) fun row : Assignment =>
      if row.status = .active then some { row with stall_check_at := due } else none)
    fun _ _ => .finish .done

def registerSession (id : String) (session : Session) : Prog :=
  .insert (.session id) session (.finish .done) (.abort (.threw "unique_violation"))

/-- A session comes under another supervisor grant. -/
def superviseSession (id : String) (grant : Option String) : Prog :=
  .update (atKey (.session id) fun row : Session => some { row with supervisor_grant_id := grant })
    fun _ _ => .finish .done

def recordGrant (id : String) (grant : Grant) : Prog :=
  .update (atKey (.grant id) fun _ => some grant) fun _ rows =>
    if rows = [] then
      .insert (.grant id) grant (.finish .done) (.abort (.threw "unique_violation"))
    else .finish .done

/-! ## The system -/

inductive Call
  | assignBoardManager (input : AssignInput)
  | releaseBoardManager (input : ReleaseInput)
  | announceFailover (input : FailoverInput)
  | endRoomAgentSession (input : EndInput)
  | recordDelivery (input : DeliveryInput)
  | scheduleCheck (id : String) (due : Option Nat)
  | registerSession (id : String) (session : Session)
  | superviseSession (id : String) (grant : Option String)
  | recordGrant (id : String) (grant : Grant)
deriving DecidableEq

def Call.program : Call → Prog
  | .assignBoardManager input => BoardManagers.assignBoardManager input
  | .releaseBoardManager input => BoardManagers.releaseBoardManager input
  | .announceFailover input => BoardManagers.announceFailover input
  | .endRoomAgentSession input => BoardManagers.endRoomAgentSession input
  | .recordDelivery input => BoardManagers.recordDelivery input
  | .scheduleCheck id due => BoardManagers.scheduleCheck id due
  | .registerSession id session => BoardManagers.registerSession id session
  | .superviseSession id grant => BoardManagers.superviseSession id grant
  | .recordGrant id grant => BoardManagers.recordGrant id grant

abbrev board : System Row Call DeliveryKey Unit Outcome where
  program := Call.program
  fresh := ()
  clash := clash

abbrev Commit := Publication Row Call DeliveryKey Unit Outcome

end LetAgents.Coordination.BoardManagers

import LetAgents.Lib.Js
import LetAgents.Coordination.TaskLeases

/-!
# The bearers of agent sessions

Source: src/api/db/auth/room-agent-sessions.ts.

A session's bearer is rotated behind a lock on its id and, under a supervisor grant, behind
the fence of the grant.

Modelling boundary: tokens and ids are those that the call draws.
-/
namespace LetAgents.Coordination

open Lib.ReadCommitted

def uniqueViolation : Prog := .abort (.threw "unique_violation")

def supervisorFenceStale : Outcome := .threw "supervisor_grant_fence_stale"

structure RotateBearerInput where
  bearer_id : String
  session_id : Option String
  capabilities : Option (List String)
  expires_at : Option Nat
  supervisor_grant_id : Option String
  supervisor_grant_fence : Option SupervisorGrantFence
  /-- what the call draws -/
  next_id : String
  token : String
  bearerTtl : Nat
  fenced_at : Nat
  now : Nat

namespace RotateBearerInput

variable (env : Externals) (input : RotateBearerInput)

def finds (row : Bearer) : Bool :=
  (input.session_id.filter (· ≠ "")).all (row.session_id = ·) && row.revoked_at.isNone &&
    (input.supervisor_grant_id.filter (· ≠ "")).all (row.supervisor_grant_id = some ·)

def successor (current : Bearer) : Bearer where
  session_id := current.session_id
  room_id := current.room_id
  supervisor_grant_id := current.supervisor_grant_id
  token_hash := env.sha256 input.token
  generation := current.generation + 1
  capabilities := input.capabilities.getD current.capabilities
  expires_at := input.expires_at.getD (input.now + input.bearerTtl)
  revoked_at := none
  rotated_from_bearer_id := some input.bearer_id

end RotateBearerInput

section Rotate

variable (env : Externals) (input : RotateBearerInput)

/-- The UPDATE names the bearer only. -/
def replaceBearer (current : Bearer) : Prog :=
  .update (atKey (.bearer input.bearer_id) fun row : Bearer =>
      some { row with revoked_at := some input.now }) fun _ _ =>
  .insert (.bearer input.next_id) (input.successor env current) (.finish .done) uniqueViolation

def rotateBearerTx : Prog :=
  .lock (.agentBearer input.bearer_id) <| .select fun seen =>
  match (seen.rows (.bearer input.bearer_id)).filter input.finds with
  | none => .finish .none
  | some current => replaceBearer env input current

def rotateRoomAgentSessionBearer : Prog :=
  match input.supervisor_grant_fence with
  | none => rotateBearerTx env input
  | some fence => passFence {} fence input.fenced_at (rotateBearerTx env input)
      (.abort supervisorFenceStale)

end Rotate

end LetAgents.Coordination

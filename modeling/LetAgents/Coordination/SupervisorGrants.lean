import LetAgents.Coordination.Tables

/-!
# Supervisor grants

Source: src/api/db/auth/supervisor-grants.ts.

A host's credential, with the generation and the token version that fence what is
done under it. `hashToken` is the sha256 of the text; the token and the id of a call are
those that it draws.
-/
namespace LetAgents.Coordination

open Lib.ReadCommitted

/-- The grant is the fenced one, not revoked and not past its end. -/
def SupervisorGrantFence.holds (fence : SupervisorGrantFence) (now : Nat)
    (grant : SupervisorGrant) : Bool :=
  grant.current_generation = fence.generation && grant.token_version = fence.token_version &&
    grant.revoked_at.isNone && now < grant.expires_at

def assertSupervisorGrantFenceTx (fence : SupervisorGrantFence) (now : Nat) (next : Bool → Prog) :
    Prog :=
  .lock (.supervisorGrant fence.grant_id) <| .select fun seen =>
    next ((seen.rows (.grant fence.grant_id)).any (fence.holds now))

/-- A fence that the transaction goes on with. -/
def passFence (n : Note) (fence : SupervisorGrantFence) (now : Nat) (passed : Prog)
    (refused : Prog) : Prog :=
  assertSupervisorGrantFenceTx fence now fun fenced =>
    if fenced then .note { n with passed := fence :: n.passed } passed else refused

/-- The fence of a publication, looked at again under the lock of its row. -/
def keepFence (n : Note) (fence : SupervisorGrantFence) (now checked_at : Nat)
    (kept : SupervisorGrant → Prog) (refused : Prog) : Prog :=
  assertSupervisorGrantFenceTx fence now fun fenced =>
    if !fenced then refused
    else .share (fun k _ => k = .grant fence.grant_id) fun seen =>
      match (seen.rows (.grant fence.grant_id)).filter (fence.holds checked_at) with
      | none => refused
      | some grant => .note { n with kept := fence :: n.kept } (kept grant)

structure CreateSupervisorHostGrantInput where
  owner_account_id : String
  host_id : String
  installation_id : String
  allowed_room_ids : List String
  allowed_agent_keys : List String
  expires_at : Nat
  scope_key : Option String
  rental_session_id : Option String
  grant_id : String
  token : String

namespace CreateSupervisorHostGrantInput

variable (env : Externals) (input : CreateSupervisorHostGrantInput)

def scopeKey : String := input.scope_key.getD "owner"

/-- The grants of the installation that are in force. -/
def activeGrants (seen : Seen Row) : List (String × SupervisorGrant) :=
  seen.keys.filterMap fun
    | .grant id => ((seen.rows (.grant id)).filter fun grant : SupervisorGrant =>
      grant.owner_account_id = input.owner_account_id && grant.host_id = input.host_id &&
        grant.installation_id = input.installation_id && grant.scope_key = input.scopeKey &&
        grant.revoked_at.isNone).map fun grant => (id, grant)
    | _ => none

def exactSet (left right : List String) : Bool :=
  left.length = right.length && left.all right.contains

/-- The recovery: a new token for the grant that is there. -/
def recover (active grant : SupervisorGrant) : Option SupervisorGrant :=
  if grant.token_version = active.token_version && grant.revoked_at.isNone then
    some { grant with
      token_hash := env.sha256 input.token
      token_version := active.token_version + 1
      expires_at := input.expires_at }
  else none

def record : SupervisorGrant where
  owner_account_id := input.owner_account_id
  host_id := input.host_id
  installation_id := input.installation_id
  scope_key := input.scopeKey
  rental_session_id := input.rental_session_id
  token_hash := env.sha256 input.token
  token_version := 1
  allowed_room_ids := input.allowed_room_ids
  allowed_agent_keys := input.allowed_agent_keys
  current_generation := 1
  expires_at := input.expires_at
  revoked_at := none

end CreateSupervisorHostGrantInput

def provisionConflict : Outcome := .threw "supervisor_grant_provision_conflict"

def createSupervisorHostGrant (env : Externals) (input : CreateSupervisorHostGrantInput) : Prog :=
  .lock (.supervisorGrantInstallation input.owner_account_id input.host_id input.installation_id
    input.scopeKey) <| .select fun seen =>
  match input.activeGrants seen with
  | [] =>
    .insert (.grant input.grant_id) (input.record env) (.finish .done)
      (.abort (.threw "unique_violation"))
  | [(id, active)] =>
    if !CreateSupervisorHostGrantInput.exactSet active.allowed_room_ids input.allowed_room_ids ||
        !CreateSupervisorHostGrantInput.exactSet active.allowed_agent_keys
          input.allowed_agent_keys then .abort provisionConflict
    else .update (atKey (.grant id) (input.recover env active)) fun _ recovered =>
      if recovered = [] then .abort provisionConflict else .finish .done
  | _ => .abort provisionConflict

structure RotateSupervisorHostGrantInput where
  grant_id : String
  expected_generation : Nat
  expected_token_version : Nat
  expires_at : Nat
  token : String
  now : Nat

/-- What a rotation and an advance must find. -/
def grantCurrent (expected_generation expected_token_version now : Nat) (grant : SupervisorGrant) :
    Bool :=
  grant.current_generation = expected_generation && grant.token_version = expected_token_version &&
    grant.revoked_at.isNone && now < grant.expires_at

/-- The rotation's UPDATE names the grant only. -/
def rotate (env : Externals) (input : RotateSupervisorHostGrantInput) (grant : SupervisorGrant) :
    Option SupervisorGrant :=
  some { grant with
    token_hash := env.sha256 input.token
    token_version := input.expected_token_version + 1
    expires_at := input.expires_at }

def rotateSupervisorHostGrant (env : Externals) (input : RotateSupervisorHostGrantInput) : Prog :=
  .lock (.supervisorGrant input.grant_id) <| .select fun seen =>
  if !(seen.rows (.grant input.grant_id)).any
      (grantCurrent input.expected_generation input.expected_token_version input.now) then
    .finish .none
  else .update (atKey (.grant input.grant_id) (rotate env input)) fun _ _ => .finish .done

structure AdvanceSupervisorHostGrantInput where
  grant_id : String
  expected_generation : Nat
  expected_token_version : Nat
  token : String
  now : Nat

def advance (env : Externals) (input : AdvanceSupervisorHostGrantInput) (grant : SupervisorGrant) :
    Option SupervisorGrant :=
  if grantCurrent input.expected_generation input.expected_token_version input.now grant then
    some { grant with
      current_generation := input.expected_generation + 1
      token_hash := env.sha256 input.token
      token_version := input.expected_token_version + 1 }
  else none

def advanceSupervisorHostGrantGeneration (env : Externals) (input : AdvanceSupervisorHostGrantInput) :
    Prog :=
  .lock (.supervisorGrant input.grant_id) <|
  .update (atKey (.grant input.grant_id) (advance env input)) fun _ updated =>
    .finish (if updated = [] then .none else .done)

def revokeGrant (owner_account_id : String) (now : Nat) (grant : SupervisorGrant) :
    Option SupervisorGrant :=
  if grant.owner_account_id = owner_account_id && grant.revoked_at.isNone then
    some { grant with revoked_at := some now }
  else none

def revokeSupervisorHostGrant (grant_id owner_account_id : String) (now : Nat) : Prog :=
  .lock (.supervisorGrant grant_id) <|
  .update (atKey (.grant grant_id) (revokeGrant owner_account_id now)) fun _ updated =>
    .finish (if updated = [] then .none else .done)

end LetAgents.Coordination

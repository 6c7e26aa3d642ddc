import LetAgents.Lib.Js
import LetAgents.Coordination.Tables

/-!
# Board intents

An agent's proposal to change the board waits for a decision; an approval is spent by
the mutation it approves, in the transaction of the mutation.
-/
namespace LetAgents.Coordination

open Lib.ReadCommitted Lib.Js

/-- `BoardIntentConsumptionInput` with the time at which it is read. -/
structure BoardIntentConsumptionInput where
  room_id : String
  action_type : IntentAction
  payload : String
  intent_id : Option String
  approval_token : Option String
  trusted_worker : Option (String × String)
  now : Nat
deriving DecidableEq

namespace BoardIntentConsumptionInput

variable (env : Externals) (input : BoardIntentConsumptionInput)

/-- A text that is present once trimmed. -/
def given (text : Option String) : Option String :=
  (text.map trim).filter (· ≠ "")

def intentId : Option String := given input.intent_id

def token : Option String := given input.approval_token

/-- The session and the agent key of the worker, when both are named. -/
def workerBound : Bool :=
  input.trusted_worker.any fun worker => trim worker.1 ≠ "" && trim worker.2 ≠ ""

/-- Who may spend the approval: the bearer of its token, else the proposing worker. -/
def presents (row : BoardIntent) : Bool :=
  match input.token with
  | some token => row.approval_token_hash = some (env.sha256 token)
  | none => input.trusted_worker.any fun worker =>
    row.proposer_agent_session_id = some worker.1 && row.proposer_actor_key = some worker.2

end BoardIntentConsumptionInput

/-- `expires_at IS NULL OR expires_at > now` -/
def unexpired (expires_at : Option Nat) (now : Nat) : Bool := expires_at.all (now < ·)

def boardIntentRequired : String := "board_intent_required"

/-- `verifyBoardIntentApproval`: the refusal of a row, if there is one. -/
def verifyBoardIntentApproval (env : Externals) (input : BoardIntentConsumptionInput)
    (row : Option BoardIntent) : Option String :=
  match row.filter (·.room_id = input.room_id) with
  | none => some "board_intent_not_found"
  | some row =>
    if row.status = .expired then some "board_intent_expired"
    else if row.status ≠ .approved then some "board_intent_not_approved"
    else if row.action_type ≠ input.action_type then some "board_intent_action_mismatch"
    else if row.payload_hash ≠ env.sha256 input.payload then
      some "board_intent_payload_mismatch"
    else if !unexpired row.expires_at input.now then some "board_intent_expired"
    else if !input.presents env row then
      some (if input.token.isSome then "board_intent_token_invalid"
        else "board_intent_worker_mismatch")
    else none

/-- The approval as its use leaves it, if it may be used. -/
def spend (env : Externals) (input : BoardIntentConsumptionInput) (row : BoardIntent) :
    Option BoardIntent :=
  if row.room_id = input.room_id && row.status = .approved &&
      row.action_type = input.action_type && row.payload_hash = env.sha256 input.payload &&
      input.presents env row && unexpired row.expires_at input.now then
    some { row with status := .used }
  else none

/-- `assertConsumeBoardIntentApproval` -/
def assertConsumeBoardIntentApproval (env : Externals) (input : BoardIntentConsumptionInput)
    (next : Prog) : Prog :=
  match input.intentId with
  | none => .abort (.threw boardIntentRequired)
  | some intentId =>
    if input.token.isNone && !input.workerBound then .abort (.threw boardIntentRequired)
    else
      .update (atKey (.intent intentId) (spend env input)) fun _ used =>
        if used ≠ [] then next
        else .select fun seen =>
          match verifyBoardIntentApproval env input (seen.rows (.intent intentId)) with
          | some code => .abort (.threw code)
          | none => next

end LetAgents.Coordination

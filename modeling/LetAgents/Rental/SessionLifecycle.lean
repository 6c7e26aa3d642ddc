import Mathlib.Logic.Function.Basic
import LetAgents.Lib.Checked
import LetAgents.Rental.BudgetSentinel

/-!
# The status of one rental session

Source: src/api/rental/session-state-machine.ts:11-41, sessions/transitions.ts:55-360,
budget-orchestrator.ts:392-604, budget-extension.ts:296-360, heartbeat.ts:164-436,
session-launch.ts:84-352 and the complete/cancel routes of
routes/rental/internal/activity-lifecycle-routes.ts:88-240.

Every operation reads the session row, decides, and writes at most one `UPDATE` of
the row; each function below is that decision. The update is data: the columns it
sets and its `WHERE` clause beside the id. Calls interleave at their statements. A
call that updates inside a transaction updates the row last and keeps others from
writing it until it commits, so the update and the commit are one step; a
rollback is a failed call.

Modelling boundary: what a decision reads from other tables (listing, hosts,
worker, lease, activity journal, latest meter) is an argument of the operation,
arbitrary for every call, and only the columns that some decision reads are kept.
-/
namespace LetAgents.Rental.SessionLifecycle

open Lib.Js Lib.Checked BudgetSentinel

/-! ## The row -/

inductive LaunchState where
  | pending | provisioning | active | launchFailed
  deriving DecidableEq

structure SessionRow where
  status : SessionStatus
  requestExpiresAt : Option Int
  directMember : Bool
  roomAssigned : Bool
  launchAttempt : Int
  launchState : Option LaunchState
  daemonEntryId : Option String
  lrtLimit : Option Int
  lrtReserved : Int
  lrtUsed : Int
  budgetStopThreshold : Option Rat
  meterConfidence : Option QuotaConfidence
  heartbeatCount : Int

def SessionStatus.text : SessionStatus → String
  | .requested => "requested"
  | .accepted => "accepted"
  | .provisioning => "provisioning"
  | .active => "active"
  | .blocked => "blocked"
  | .patchReview => "patch_review"
  | .prOpened => "pr_opened"
  | .budgetExhausted => "budget_exhausted"
  | .stale => "stale"
  | .completed => "completed"
  | .cancelled => "cancelled"
  | .expired => "expired"
  | .failed => "failed"

def validTransitions : SessionStatus → List SessionStatus
  | .requested => [.accepted, .cancelled]
  | .accepted => [.provisioning, .cancelled]
  | .provisioning => [.active, .failed, .cancelled]
  | .active =>
    [.blocked, .patchReview, .budgetExhausted, .cancelled, .completed, .expired, .stale]
  | .blocked => [.active]
  | .patchReview => [.active, .prOpened]
  | .prOpened => [.completed]
  | .budgetExhausted => [.active, .completed, .cancelled]
  | .stale => [.active, .expired]
  | .completed | .cancelled | .expired | .failed => []

def isValidTransition (previous next : SessionStatus) : Bool :=
  (validTransitions previous).contains next

/-- `TERMINAL_STATUSES` of budget-extension.ts. -/
def isTerminal : SessionStatus → Bool
  | .completed | .cancelled | .expired | .failed => true
  | _ => false

/-- An `UPDATE` of the session row; `none` is a column that is not set, or a
condition that is not in the `WHERE` clause. -/
structure SessionUpdate where
  whereStatus : Option (List SessionStatus) := none
  whereLaunchState : Option (List LaunchState) := none
  whereLaunchAttempt : Option Int := none
  status : Option SessionStatus := none
  launchState : Option (Option LaunchState) := none
  launchAttempt : Option Int := none
  daemonEntryId : Option (Option String) := none
  additionalLrt : Option Int := none
  lrtReserved : Option Rat := none
  lrtUsed : Option Rat := none
  meterConfidence : Option QuotaConfidence := none
  heartbeatCount : Option Int := none

def SessionUpdate.finds (update : SessionUpdate) (row : SessionRow) : Bool :=
  update.whereStatus.all (fun statuses => statuses.contains row.status) &&
    update.whereLaunchState.all
      (fun states => row.launchState.any fun state => states.contains state) &&
    update.whereLaunchAttempt.all fun attempt => attempt = row.launchAttempt

/-- What an `integer` column takes; anything else is a database error. -/
def integerColumn (value : Rat) : Option Int :=
  if value.den = 1 ∧ -2147483648 ≤ value.num ∧ value.num ≤ 2147483647 then some value.num else none

/-- `COALESCE(lrt_limit, 0) + amount`, where an amount is given. -/
def SessionUpdate.lrtLimit (update : SessionUpdate) (row : SessionRow) : Option (Option Int) :=
  match update.additionalLrt with
  | some amount => (integerColumn (row.lrtLimit.getD 0 + amount)).map some
  | none => some row.lrtLimit

/-- The row with the update's columns set, or `none` on a database error. -/
def SessionUpdate.set (update : SessionUpdate) (row : SessionRow) : Option SessionRow := do
  let lrtReserved ← integerColumn (update.lrtReserved.getD row.lrtReserved)
  let lrtUsed ← integerColumn (update.lrtUsed.getD row.lrtUsed)
  let lrtLimit ← update.lrtLimit row
  some { row with
    status := update.status.getD row.status
    launchState := update.launchState.getD row.launchState
    launchAttempt := update.launchAttempt.getD row.launchAttempt
    daemonEntryId := update.daemonEntryId.getD row.daemonEntryId
    lrtLimit, lrtReserved, lrtUsed
    meterConfidence := update.meterConfidence <|> row.meterConfidence
    heartbeatCount := update.heartbeatCount.getD row.heartbeatCount }

/-! ## Decisions -/

def invalidTransition (previous next : SessionStatus) : String :=
  "invalid_transition: cannot move from " ++ SessionStatus.text previous ++ " to " ++
    SessionStatus.text next

def isRentalLaunchRetry (row : SessionRow) : Bool :=
  row.status = .accepted && row.launchState = some .launchFailed

/-- `acceptSession`. `selection`: the launch selection, as the result of its safety
check; `now`: the host clock; `capacity`: what the listing, lease, host and
capacity checks throw. An expired request is marked before the call fails, so it
too is an update. -/
def acceptSession (selection : Option (Except String Unit)) (now : Int)
    (capacity : Except String Unit) (read : SessionRow) : Except String SessionUpdate := do
  let launch := selection.isSome
  let retryingLaunch := isRentalLaunchRetry read
  require (read.directMember → launch) "launch_selection_required"
  selection.getD (.ok ())
  -- The exact pending accept is returned as it is; any other selection is refused.
  require (¬ (read.status = .accepted ∧ read.launchState = some .pending ∧ launch))
    "accept_selection_mismatch"
  require (retryingLaunch ∨ isValidTransition read.status .accepted)
    (invalidTransition read.status .accepted)
  require (retryingLaunch → launch) "launch_selection_required"
  if ¬ retryingLaunch ∧ read.requestExpiresAt.any (fun expiry => expiry ≤ now) then
    .ok { whereStatus := some [.requested], status := some .expired }
  else do
    require (launch → read.directMember) "launch_selection_unsupported"
    capacity
    .ok {
      whereStatus := some [if retryingLaunch then .accepted else .requested]
      whereLaunchState := if retryingLaunch then some [.launchFailed] else none
      status := some .accepted
      launchAttempt := some (if launch then read.launchAttempt + 1 else 0)
      launchState := some (if launch then some .pending else none)
      daemonEntryId := some none }

/-- A write fenced on the status it was decided from. -/
def fencedTransition (next : SessionStatus) (read : SessionRow) : Except String SessionUpdate :=
  if isValidTransition read.status next then
    .ok { whereStatus := some [read.status], status := some next }
  else .error (invalidTransition read.status next)

def declineSession : SessionRow → Except String SessionUpdate := fencedTransition .cancelled

def cancelSession : SessionRow → Except String SessionUpdate := fencedTransition .cancelled

/-- `POST /api/rental/sessions/:id/complete`. -/
def completeRoute : SessionRow → Except String SessionUpdate := fencedTransition .completed

/-- `POST /api/rental/sessions/:id/cancel`. -/
def cancelRoute : SessionRow → Except String SessionUpdate := fencedTransition .cancelled

/-- `recordHeartbeat`; `provider`: the caller is the session's provider. -/
def recordHeartbeat (provider : Bool) (read : SessionRow) : Except String SessionUpdate :=
  if ¬ provider then .error "not_provider"
  else match read.status with
    | .provisioning | .stale =>
      .ok { heartbeatCount := some (read.heartbeatCount + 1), status := some .active }
    | .active | .blocked => .ok { heartbeatCount := some (read.heartbeatCount + 1) }
    | status => .error ("invalid_status: cannot heartbeat in " ++ SessionStatus.text status ++ " state")

def expireSession (read : SessionRow) : Except String SessionUpdate :=
  if isValidTransition read.status .expired then .ok { status := some .expired }
  else .error ("cannot_expire: current status is " ++ SessionStatus.text read.status)

def markSessionStale (read : SessionRow) : Except String SessionUpdate :=
  if isValidTransition read.status .stale then .ok { status := some .stale }
  else .error ("cannot_mark_stale: current status is " ++ SessionStatus.text read.status)

/-- The latest meter row that the budget operations read. -/
structure LatestMeter where
  createdAt : Int
  confidence : QuotaConfidence

def toSentinelState (session : SessionRow) (latestMeter : Option LatestMeter) :
    BudgetSentinelState where
  status := session.status
  lrtLimit := session.lrtLimit
  budgetStopThreshold := session.budgetStopThreshold.map double
  lrtReserved := session.lrtReserved
  lrtUsed := session.lrtUsed
  meterConfidence :=
    ((latestMeter.map LatestMeter.confidence) <|> session.meterConfidence).getD .unknown
  lastMeterAt := latestMeter.map LatestMeter.createdAt

def finiteNonNegative (value : JsNumber) (name : String) : Except String Unit :=
  match value with
  | .finite number =>
    if 0 ≤ number then .ok () else .error (name ++ " must be a finite non-negative number")
  | .notFinite => .error (name ++ " must be a finite non-negative number")

/-- What a budget call reads beside the session row: the latest meter, and whether
the activity journal already holds its idempotency key. -/
structure BudgetReads where
  latestMeter : Option LatestMeter
  existing : Bool

def reserveBudget (stepCostLrt : JsNumber) (options : BudgetSentinelOptions) (nowMs : Rat)
    (reads : BudgetReads) (read : SessionRow) : Except String (Option SessionUpdate) := do
  finiteNonNegative stepCostLrt "stepCostLrt"
  require read.roomAssigned "session room is required for idempotent budget operations"
  if reads.existing then .ok none
  else
    let state := toSentinelState read reads.latestMeter
    let decision := authorize stepCostLrt state options nowMs
    if decision.allowed then
      .ok (some {
        lrtReserved := some (applyReservation stepCostLrt state).state.lrtReserved
        lrtUsed := some (applyReservation stepCostLrt state).state.lrtUsed
        meterConfidence := some state.meterConfidence })
    else if decision.reason = .ceilingExceeded ∧ read.status ≠ .budgetExhausted then
      .ok (some {
        lrtReserved := some state.lrtReserved
        lrtUsed := some state.lrtUsed
        status := some .budgetExhausted
        meterConfidence := some state.meterConfidence })
    else .ok none

def reconcileBudget (actualCostLrt reservedCostLrt : JsNumber) (reads : BudgetReads)
    (read : SessionRow) : Except String (Option SessionUpdate) := do
  finiteNonNegative actualCostLrt "actualCostLrt"
  finiteNonNegative reservedCostLrt "reservedCostLrt"
  require read.roomAssigned "session room is required for idempotent budget operations"
  if reads.existing then .ok none
  else
    let state := toSentinelState read reads.latestMeter
    let reconciliation := applyReconciliation actualCostLrt reservedCostLrt state
    .ok (some {
      lrtReserved := some reconciliation.state.lrtReserved
      lrtUsed := some reconciliation.state.lrtUsed
      status := some reconciliation.state.status
      meterConfidence := some state.meterConfidence })

/-- `approveBudgetExtension`; `renter`: the caller's role, `none` for a stranger;
`approved`: the amount of the pending request, or what its checks throw. -/
def approveBudgetExtension (renter : Option Bool) (approved : Except String Int)
    (read : SessionRow) : Except String SessionUpdate := do
  require (renter ≠ none) "session_not_found"
  require (¬ isTerminal read.status) "session_terminal"
  require read.roomAssigned "room_not_assigned"
  require (renter = some true) "not_renter"
  let additionalLrt ← approved
  .ok {
    additionalLrt := some additionalLrt
    status := some (if read.status = .budgetExhausted then .active else read.status) }

/-- The three states a launch acknowledgement may report. -/
inductive LaunchReport where
  | provisioning | active | launchFailed
  deriving DecidableEq

def LaunchReport.launchState : LaunchReport → LaunchState
  | .provisioning => .provisioning
  | .active => .active
  | .launchFailed => .launchFailed

structure RentalLaunchAcknowledgement where
  launchAttempt : Int
  state : LaunchReport
  daemonEntryId : Option String

def rentalLaunchAcknowledgementPriorStates : LaunchReport → List LaunchState
  | .active => [.provisioning]
  | .provisioning => [.pending, .provisioning]
  | .launchFailed => [.pending, .provisioning, .launchFailed]

def rentalLaunchAcknowledgementPriorStatuses : LaunchReport → List SessionStatus
  | .active => [.provisioning]
  | _ => [.accepted, .provisioning]

def assertRentalLaunchAcknowledgementMonotonic (current : Option LaunchState)
    (requested : LaunchReport) : Except String Unit :=
  if current = some .active ∧ requested ≠ .active then .error "launch_already_active"
  else
    let allowed := if requested = .active then [LaunchState.provisioning, .active]
      else rentalLaunchAcknowledgementPriorStates requested
    if current.any fun state => allowed.contains state then .ok ()
    else .error "launch_state_transition_invalid"

/-- The status an acknowledgement writes. -/
def acknowledgedStatus : LaunchReport → SessionStatus
  | .provisioning => .provisioning
  | .active => .active
  | .launchFailed => .accepted

/-- `acknowledgeRentalLaunch`; `selection` and `worker`: what the checks of the
selected runtime and of the reported worker throw. -/
def acknowledgeRentalLaunch (ack : RentalLaunchAcknowledgement) (selection worker : Except String Unit)
    (read : SessionRow) : Except String SessionUpdate := do
  onlyIf read.directMember selection
  require (ack.launchAttempt = read.launchAttempt) "launch_attempt_stale"
  require ([SessionStatus.accepted, .provisioning, .active].contains read.status)
    "launch_not_authorized"
  assertRentalLaunchAcknowledgementMonotonic read.launchState ack.state
  require (read.daemonEntryId.all fun known => ack.daemonEntryId.all fun sent => known = sent)
    "daemon_entry_fence_lost"
  onlyIf (ack.state = .active) worker
  .ok {
    whereLaunchAttempt := some ack.launchAttempt
    whereStatus := some (rentalLaunchAcknowledgementPriorStatuses ack.state)
    whereLaunchState := some (rentalLaunchAcknowledgementPriorStates ack.state)
    status := some (acknowledgedStatus ack.state)
    launchState := some (some ack.state.launchState)
    daemonEntryId := some (ack.daemonEntryId <|> read.daemonEntryId) }

/-! ## Calls -/

inductive Operation where
  | acceptSession (selection : Option (Except String Unit)) (now : Int)
      (capacity : Except String Unit)
  | declineSession
  | cancelSession
  | completeRoute
  | cancelRoute
  | recordHeartbeat (provider : Bool)
  | expireSession
  | markSessionStale
  | acknowledgeRentalLaunch (ack : RentalLaunchAcknowledgement) (selection worker : Except String Unit)
  | reserveBudget (stepCostLrt : JsNumber) (options : BudgetSentinelOptions) (nowMs : Rat)
      (reads : BudgetReads)
  | reconcileBudget (actualCostLrt reservedCostLrt : JsNumber) (reads : BudgetReads)
  | approveBudgetExtension (renter : Option Bool) (approved : Except String Int)

/-- The operations that hold the session's advisory lock from before their read. -/
def Operation.takesLock : Operation → Bool
  | .reserveBudget .. | .reconcileBudget .. | .approveBudgetExtension .. => true
  | _ => false

/-- What the operation writes after reading the row; `ok none` writes nothing. -/
def Operation.decide (read : SessionRow) : Operation → Except String (Option SessionUpdate)
  | .acceptSession selection now capacity =>
    (SessionLifecycle.acceptSession selection now capacity read).map some
  | .declineSession => (SessionLifecycle.declineSession read).map some
  | .cancelSession => (SessionLifecycle.cancelSession read).map some
  | .completeRoute => (SessionLifecycle.completeRoute read).map some
  | .cancelRoute => (SessionLifecycle.cancelRoute read).map some
  | .recordHeartbeat provider => (SessionLifecycle.recordHeartbeat provider read).map some
  | .expireSession => (SessionLifecycle.expireSession read).map some
  | .markSessionStale => (SessionLifecycle.markSessionStale read).map some
  | .acknowledgeRentalLaunch ack selection worker =>
    (SessionLifecycle.acknowledgeRentalLaunch ack selection worker read).map some
  | .reserveBudget stepCostLrt options nowMs reads =>
    SessionLifecycle.reserveBudget stepCostLrt options nowMs reads read
  | .reconcileBudget actualCostLrt reservedCostLrt reads =>
    SessionLifecycle.reconcileBudget actualCostLrt reservedCostLrt reads read
  | .approveBudgetExtension renter approved =>
    (SessionLifecycle.approveBudgetExtension renter approved read).map some

inductive Phase where
  | idle
  | locked (operation : Operation)
  | read (operation : Operation) (row : SessionRow)
  | finished

structure SessionState where
  row : SessionRow
  lockHolder : Option Nat
  phase : Nat → Phase

def initial (row : SessionRow) : SessionState where
  row := row
  lockHolder := none
  phase _ := .idle

inductive SessionStep where
  | acquireLock (call : Nat) (operation : Operation)
  | readRow (call : Nat) (operation : Operation)
  | readLockedRow (call : Nat)
  | write (call : Nat)
  | fail (call : Nat)

/-- The call is over, and gives back the lock when it has it. -/
def SessionState.finish (s : SessionState) (call : Nat) : SessionState :=
  { s with
    phase := Function.update s.phase call .finished
    lockHolder := if s.lockHolder = some call then none else s.lockHolder }

/-- The row after the update a call decided on the row it read. An update that
finds no row, and a decision that throws, leave the row alone. -/
def writeRow (current read : SessionRow) (operation : Operation) : SessionRow :=
  match operation.decide read with
  | .ok (some update) =>
    if update.finds current then (update.set current).getD current else current
  | _ => current

/-- One statement; `error` when the call is not at that statement. -/
def sessionStep (s : SessionState) : SessionStep → Except Unit SessionState
  | .acquireLock call operation =>
    match s.phase call, s.lockHolder with
    | .idle, none =>
      if operation.takesLock then
        .ok { s with
          phase := Function.update s.phase call (.locked operation), lockHolder := some call }
      else .error ()
    | _, _ => .error ()
  | .readRow call operation =>
    match s.phase call with
    | .idle =>
      if operation.takesLock then .error ()
      else .ok { s with phase := Function.update s.phase call (.read operation s.row) }
    | _ => .error ()
  | .readLockedRow call =>
    match s.phase call with
    | .locked operation =>
      .ok { s with phase := Function.update s.phase call (.read operation s.row) }
    | _ => .error ()
  | .write call =>
    match s.phase call with
    | .read operation read =>
      .ok { s.finish call with row := writeRow s.row read operation }
    | _ => .error ()
  | .fail call => .ok (s.finish call)

end LetAgents.Rental.SessionLifecycle

import LetAgents.Rental.SessionLifecycle

/-!
# The budget calls of one rental session

Source: src/api/rental/budget-orchestrator.ts:138-604, activity-emitter.ts:73-117 and
routes/rental/internal/activity-lifecycle-routes.ts:41-85.

`reserveBudget` and `reconcileBudget` are cut at their database statements. The
session row is updated in the transaction that holds the session's advisory lock; the
activity events go through another connection, so each is in the journal at once and
stays there when the transaction rolls back. `postActivity` is the participants' route.

Modelling boundary: a payload is kept by the properties that the budget calls read
back, and the verification, visibility and source of an event are left out, since no
budget call reads them.
-/
namespace LetAgents.Rental.BudgetLedger

open Lib.Js Lib.Checked BudgetSentinel SessionLifecycle

/-! ## The journal -/

inductive ActivityEventType where
  | budgetReserved | budgetReconciled | budgetExhausted
  /-- Any other type that the route knows. -/
  | other
  deriving DecidableEq

/-- The `decision` of a payload: what a reservation stored, or an object that a
participant posted, by whether its `allowed` is `true`. -/
inductive StoredDecision where
  | own (decision : AuthorizeDecision)
  | posted (allowed : Bool)
  deriving DecidableEq

def StoredDecision.allowed : StoredDecision → Bool
  | .own decision => decision.allowed
  | .posted allowed => allowed

/-- `payload->>'idempotency_key'`, the finite numbers `numberPayload` finds under each
name, and the two properties that are not numbers. -/
structure ActivityPayload where
  idempotencyKey : Option String := none
  requestedStepCostLrt : Option Rat := none
  requestedActualCostLrt : Option Rat := none
  requestedReservedCostLrt : Option Rat := none
  stepCostLrt : Option Rat := none
  actualCostLrt : Option Rat := none
  reservedCostLrt : Option Rat := none
  reservedDelta : Option Rat := none
  usedDelta : Option Rat := none
  decision : Option StoredDecision := none
  becameExhausted : Bool := false
  deriving DecidableEq

structure ActivityEvent where
  eventType : ActivityEventType
  payload : ActivityPayload
  createdAt : Nat
  deriving DecidableEq

/-- The events of a type under an idempotency key. -/
def keyedEvents (journal : List ActivityEvent) (eventType : ActivityEventType) (key : String) :
    List ActivityEvent :=
  journal.filter fun event =>
    event.eventType = eventType && event.payload.idempotencyKey = some key

/-- A result that `ORDER BY created_at DESC LIMIT 1` may return. -/
def isNewest (journal : List ActivityEvent) (eventType : ActivityEventType) (key : String) :
    Option ActivityEvent → Bool
  | none => (keyedEvents journal eventType key).isEmpty
  | some event => (keyedEvents journal eventType key).contains event &&
      (keyedEvents journal eventType key).all fun other => decide (other.createdAt ≤ event.createdAt)

/-! ## Requests and results -/

inductive BudgetErrorCode where
  | sessionNotFound | invalidInput | idempotencyConflict | roomNotAssigned

structure BudgetOrchestratorError where
  message : String
  code : BudgetErrorCode
  status : Nat

/-- A request as the caller sends it; `none` for a key that is not a string. -/
inductive BudgetInput where
  | reserve (idempotencyKey : Option String) (stepCostLrt : JsNumber)
      (options : BudgetSentinelOptions) (nowMs : Rat)
  | reconcile (idempotencyKey : Option String) (actualCostLrt reservedCostLrt : JsNumber)

/-- A request that passed the checks at the head of its function. -/
inductive BudgetCall where
  | reserve (idempotencyKey : String) (stepCostLrt : Rat) (options : BudgetSentinelOptions)
      (nowMs : Rat)
  | reconcile (idempotencyKey : String) (actualCostLrt reservedCostLrt : Rat)

def requireIdempotencyKey (input : Option String) : Except BudgetOrchestratorError String := do
  let text ← found input ⟨"idempotencyKey is required", .invalidInput, 400⟩
  require (trim text ≠ "") ⟨"idempotencyKey is required", .invalidInput, 400⟩
  return trim text

def finiteNonNegative (value : JsNumber) (name : String) : Except BudgetOrchestratorError Rat :=
  match value with
  | .finite number =>
    if 0 ≤ number then .ok number
    else .error ⟨name ++ " must be a finite non-negative number", .invalidInput, 400⟩
  | .notFinite => .error ⟨name ++ " must be a finite non-negative number", .invalidInput, 400⟩

def validate : BudgetInput → Except BudgetOrchestratorError BudgetCall
  | .reserve idempotencyKey stepCostLrt options nowMs => do
    let key ← requireIdempotencyKey idempotencyKey
    let cost ← finiteNonNegative stepCostLrt "stepCostLrt"
    return .reserve key cost options nowMs
  | .reconcile idempotencyKey actualCostLrt reservedCostLrt => do
    let key ← requireIdempotencyKey idempotencyKey
    let actual ← finiteNonNegative actualCostLrt "actualCostLrt"
    let reserved ← finiteNonNegative reservedCostLrt "reservedCostLrt"
    return .reconcile key actual reserved

def BudgetCall.key : BudgetCall → String
  | .reserve key .. | .reconcile key .. => key

def BudgetCall.eventType : BudgetCall → ActivityEventType
  | .reserve .. => .budgetReserved
  | .reconcile .. => .budgetReconciled

inductive BudgetResult where
  | reserve (decision : StoredDecision) (reservedDelta : Rat)
  | reconcile (reservedDelta usedDelta : Rat) (becameExhausted : Bool)

/-- `decision.allowed` of a reservation's result. -/
def BudgetResult.allowed : BudgetResult → Bool
  | .reserve decision _ => decision.allowed
  | .reconcile .. => false

/-! ## Decisions -/

def checkSession (session : Option SessionRow) : Except BudgetOrchestratorError SessionRow := do
  let row ← found session ⟨"session not found", .sessionNotFound, 404⟩
  require row.roomAssigned
    ⟨"session room is required for idempotent budget operations", .roomNotAssigned, 409⟩
  return row

def assertSameIdempotentNumber (stored : Option Rat) (expected : Rat) :
    Except BudgetOrchestratorError Unit :=
  require (stored = some expected)
    ⟨"idempotency key already used with a different budget request", .idempotencyConflict, 409⟩

/-- The answer to a request whose key is in the journal. -/
def replay (payload : ActivityPayload) : BudgetCall → Except BudgetOrchestratorError BudgetResult
  | .reserve _ stepCostLrt _ _ => do
    assertSameIdempotentNumber payload.requestedStepCostLrt stepCostLrt
    let decision ← found payload.decision
      ⟨"stored budget reservation event is missing its decision", .invalidInput, 409⟩
    return .reserve decision ((payload.reservedDelta <|> payload.stepCostLrt).getD 0)
  | .reconcile _ actualCostLrt reservedCostLrt => do
    assertSameIdempotentNumber payload.requestedActualCostLrt actualCostLrt
    assertSameIdempotentNumber payload.requestedReservedCostLrt reservedCostLrt
    return .reconcile ((payload.reservedDelta <|> payload.reservedCostLrt).getD 0)
      ((payload.usedDelta <|> payload.actualCostLrt).getD 0) payload.becameExhausted

/-- What a call writes: one update of the session row, then its events in order. -/
structure BudgetWrite where
  update : SessionUpdate
  events : List (ActivityEventType × ActivityPayload)
  result : BudgetResult

/-- What a fresh request comes to. -/
inductive BudgetOutcome where
  | answer (result : BudgetResult)
  | write (written : BudgetWrite)

def reservePayload (key : String) (requestedStepCostLrt : Rat) (decision : AuthorizeDecision)
    (reservedDelta : Rat) : ActivityPayload :=
  { idempotencyKey := some key
    requestedStepCostLrt := some requestedStepCostLrt
    stepCostLrt := some reservedDelta
    reservedDelta := some reservedDelta
    decision := some (.own decision) }

def reserveBudget (key : String) (stepCostLrt : Rat) (options : BudgetSentinelOptions) (nowMs : Rat)
    (session : SessionRow) (latestMeter : Option LatestMeter) : BudgetOutcome :=
  let state := toSentinelState session latestMeter
  let decision := authorize (.finite stepCostLrt) state options nowMs
  if decision.allowed then
    let reservation := applyReservation (.finite stepCostLrt) state
    .write
      { update :=
          { lrtReserved := some reservation.state.lrtReserved
            lrtUsed := some reservation.state.lrtUsed
            meterConfidence := some state.meterConfidence }
        events := [(.budgetReserved,
          reservePayload key stepCostLrt decision reservation.reservedDelta)]
        result := .reserve (.own decision) reservation.reservedDelta }
  else if decision.reason = .ceilingExceeded ∧ session.status ≠ .budgetExhausted then
    .write
      { update :=
          { lrtReserved := some state.lrtReserved
            lrtUsed := some state.lrtUsed
            status := some .budgetExhausted
            meterConfidence := some state.meterConfidence }
        events := [(.budgetExhausted, {})]
        result := .reserve (.own decision) 0 }
  else .answer (.reserve (.own decision) 0)

def reconcilePayload (key : String) (actualCostLrt reservedCostLrt : Rat)
    (reconciliation : ReconciliationResult) : ActivityPayload :=
  { idempotencyKey := some key
    requestedActualCostLrt := some actualCostLrt
    requestedReservedCostLrt := some reservedCostLrt
    actualCostLrt := some reconciliation.usedDelta
    reservedCostLrt := some reconciliation.reservedDelta
    usedDelta := some reconciliation.usedDelta
    reservedDelta := some reconciliation.reservedDelta
    becameExhausted := reconciliation.becameExhausted }

def reconcileBudget (key : String) (actualCostLrt reservedCostLrt : Rat) (session : SessionRow)
    (latestMeter : Option LatestMeter) : BudgetOutcome :=
  let state := toSentinelState session latestMeter
  let reconciliation := applyReconciliation (.finite actualCostLrt) (.finite reservedCostLrt) state
  .write
    { update :=
        { lrtReserved := some reconciliation.state.lrtReserved
          lrtUsed := some reconciliation.state.lrtUsed
          status := some reconciliation.state.status
          meterConfidence := some state.meterConfidence }
      events :=
        (.budgetReconciled, reconcilePayload key actualCostLrt reservedCostLrt reconciliation) ::
          if reconciliation.becameExhausted then [(.budgetExhausted, {})] else []
      result := .reconcile reconciliation.reservedDelta reconciliation.usedDelta
        reconciliation.becameExhausted }

def BudgetCall.outcome (session : SessionRow) (latestMeter : Option LatestMeter) :
    BudgetCall → BudgetOutcome
  | .reserve key stepCostLrt options nowMs =>
    reserveBudget key stepCostLrt options nowMs session latestMeter
  | .reconcile key actualCostLrt reservedCostLrt =>
    reconcileBudget key actualCostLrt reservedCostLrt session latestMeter

/-! ## Calls -/

/-- Where a call stands between two statements. `updated` holds the row as the
transaction sees it and the events that are still to be emitted; `accounted`: a
reservation or reconciliation event is in the journal already. -/
inductive Phase where
  | idle
  | waiting (call : BudgetCall)
  | locked (call : BudgetCall)
  | loaded (call : BudgetCall) (session : SessionRow)
  | metered (call : BudgetCall) (session : SessionRow) (latestMeter : Option LatestMeter)
  | answering (call : BudgetCall) (result : BudgetResult)
  | deciding (call : BudgetCall) (session : SessionRow) (written : BudgetWrite)
  | updated (call : BudgetCall) (row : SessionRow)
      (remaining : List (ActivityEventType × ActivityPayload)) (accounted : Bool)
      (result : BudgetResult)
  | returned (call : BudgetCall) (result : BudgetResult)
  | failed

/-- The call's transaction holds the session's advisory lock. -/
def Phase.holdsLock : Phase → Bool
  | .idle | .waiting _ | .returned _ _ | .failed => false
  | _ => true

/-- The call has not begun, or is over. -/
def Phase.resting : Phase → Bool
  | .idle | .returned _ _ | .failed => true
  | _ => false

structure LedgerState where
  session : Option SessionRow
  journal : List ActivityEvent
  lockHolder : Option Nat
  phase : Nat → Phase

def LedgerState.enter (s : LedgerState) (call : Nat) (next : Phase) : LedgerState :=
  { s with phase := Function.update s.phase call next }

/-- A new session, if there is one. -/
def initial (session : Option SessionRow) : LedgerState where
  session := session.map fun row => { row with lrtReserved := 0, lrtUsed := 0 }
  journal := []
  lockHolder := none
  phase _ := .idle

/-- The call is over, and its transaction is rolled back or committed. -/
def LedgerState.finish (s : LedgerState) (call : Nat) (last : Phase) : LedgerState :=
  { s.enter call last with
    lockHolder := if (s.phase call).holdsLock then none else s.lockHolder }

def accountsFor : ActivityEventType → Bool
  | .budgetReserved | .budgetReconciled => true
  | _ => false

inductive LedgerStep where
  | start (call : Nat) (input : BudgetInput)
  | acquireLock (call : Nat)
  | loadSession (call : Nat)
  | loadLatestMeter (call : Nat) (latestMeter : Option LatestMeter)
  | loadBudgetEvent (call : Nat) (existing : Option ActivityEvent)
  | updateSessionBudget (call : Nat)
  | emitActivity (call : Nat) (now : Nat)
  | commit (call : Nat)
  | fail (call : Nat)
  | postActivity (eventType : ActivityEventType) (payload : ActivityPayload) (now : Nat)

/-- One statement; `error` when the call is not at that statement. -/
def ledgerStep (s : LedgerState) : LedgerStep → Except Unit LedgerState
  | .start call input =>
    match s.phase call with
    | .idle =>
      match validate input with
      | .ok valid => .ok (s.enter call (.waiting valid))
      | .error _ => .ok (s.enter call .failed)
    | _ => .error ()
  | .acquireLock call =>
    match s.phase call, s.lockHolder with
    | .waiting budgetCall, none =>
      .ok { s.enter call (.locked budgetCall) with lockHolder := some call }
    | _, _ => .error ()
  | .loadSession call =>
    match s.phase call with
    | .locked budgetCall =>
      match checkSession s.session with
      | .ok row => .ok (s.enter call (.loaded budgetCall row))
      | .error _ => .ok (s.finish call .failed)
    | _ => .error ()
  | .loadLatestMeter call latestMeter =>
    match s.phase call with
    | .loaded budgetCall row => .ok (s.enter call (.metered budgetCall row latestMeter))
    | _ => .error ()
  | .loadBudgetEvent call existing =>
    match s.phase call with
    | .metered budgetCall row latestMeter =>
      if isNewest s.journal budgetCall.eventType budgetCall.key existing then
        match existing with
        | some event =>
          match replay event.payload budgetCall with
          | .ok result => .ok (s.enter call (.answering budgetCall result))
          | .error _ => .ok (s.finish call .failed)
        | none =>
          match budgetCall.outcome row latestMeter with
          | .answer result => .ok (s.enter call (.answering budgetCall result))
          | .write written => .ok (s.enter call (.deciding budgetCall row written))
      else .error ()
    | _ => .error ()
  | .updateSessionBudget call =>
    match s.phase call with
    | .deciding budgetCall row written =>
      match written.update.set row with
      | some next =>
        .ok (s.enter call (.updated budgetCall next written.events false written.result))
      | none => .ok (s.finish call .failed)
    | _ => .error ()
  | .emitActivity call now =>
    match s.phase call with
    | .updated budgetCall row ((eventType, payload) :: remaining) accounted result =>
      .ok { s.enter call (.updated budgetCall row remaining (accounted || accountsFor eventType)
          result) with
        journal := s.journal ++ [⟨eventType, payload, now⟩] }
    | _ => .error ()
  | .commit call =>
    match s.phase call with
    | .answering budgetCall result => .ok (s.finish call (.returned budgetCall result))
    | .updated budgetCall row [] _ result =>
      .ok { s.finish call (.returned budgetCall result) with session := some row }
    | _ => .error ()
  | .fail call =>
    match s.phase call with
    | .returned _ _ => .error ()
    | _ => .ok (s.finish call .failed)
  | .postActivity eventType payload now =>
    match s.session with
    | some row =>
      if row.roomAssigned then .ok { s with journal := s.journal ++ [⟨eventType, payload, now⟩] }
      else .error ()
    | none => .error ()

/-! ## The session row -/

end LetAgents.Rental.BudgetLedger

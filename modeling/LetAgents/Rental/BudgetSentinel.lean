import LetAgents.Lib.Js

/-!
# Budget Sentinel decisions

Source: src/api/rental/budget-sentinel.ts:45-428 and the threshold table of
src/shared/rental/lrt.ts:216-244. Pure: a state snapshot in, a decision or a new
state out. Amounts are doubles, so every sum, difference and product is rounded.
-/
namespace LetAgents.Rental.BudgetSentinel

open Lib.Js

inductive QuotaConfidence where
  | officialExact | localExact | derived | calibrated | estimated | weakEstimate | unknown
  deriving DecidableEq

inductive SessionStatus where
  | requested | accepted | provisioning | active | blocked | patchReview | prOpened
  | budgetExhausted | stale | completed | cancelled | expired | failed
  deriving DecidableEq

structure BudgetSentinelState where
  status : SessionStatus
  lrtLimit : Option Int
  budgetStopThreshold : Option Rat
  lrtReserved : Rat
  lrtUsed : Rat
  meterConfidence : QuotaConfidence
  lastMeterAt : Option Int

structure BudgetSentinelOptions where
  staleMs : Option Rat
  staleCeilingFraction : Option Rat

def resolveStaleMs (options : BudgetSentinelOptions) : Rat := options.staleMs.getD 30000

def resolveStaleCeilingFraction (options : BudgetSentinelOptions) : Rat :=
  options.staleCeilingFraction.getD (1 / 2)

inductive BudgetSentinelReason where
  | authorized | stepCostInvalid | noLrtLimit | budgetExhausted | ceilingExceeded
  | meterStaleConservative
  deriving DecidableEq

structure AuthorizeDecision where
  allowed : Bool
  reason : BudgetSentinelReason
  effectiveCeiling : Rat
  reservedAfter : Rat
  remaining : Rat
  meterStale : Bool
  staleSinceMs : Option Rat
  deriving DecidableEq

def stopThresholdByConfidence : QuotaConfidence → Rat
  | .officialExact | .localExact => double (98 / 100)
  | .derived => double (95 / 100)
  | .calibrated => double (92 / 100)
  | .estimated => double (87 / 100)
  | .weakEstimate => double (80 / 100)
  | .unknown => double (75 / 100)

/-- A per-session override counts only between 0 (excluded) and 1. -/
def resolveStopThresholdFraction (state : BudgetSentinelState) : Rat :=
  match state.budgetStopThreshold with
  | some threshold =>
    if 0 < threshold ∧ threshold ≤ 1 then threshold
    else stopThresholdByConfidence state.meterConfidence
  | none => stopThresholdByConfidence state.meterConfidence

def effectiveLrtCeiling (state : BudgetSentinelState) : Rat :=
  match state.lrtLimit with
  | some limit =>
    if limit ≤ 0 then 0 else (double (limit * resolveStopThresholdFraction state)).floor
  | none => 0

def isMeterStale (state : BudgetSentinelState) (nowMs : Rat) (options : BudgetSentinelOptions) :
    Bool :=
  match state.lastMeterAt with
  | none => true
  | some lastMs => decide (resolveStaleMs options < nowMs - lastMs)

def staleAgeMs (state : BudgetSentinelState) (nowMs : Rat) (options : BudgetSentinelOptions) :
    Option Rat :=
  if isMeterStale state nowMs options then
    match state.lastMeterAt with
    | none => some (-1)
    | some lastMs => some (max 0 (nowMs - lastMs))
  else none

def authorize (stepCostLrt : JsNumber) (state : BudgetSentinelState)
    (options : BudgetSentinelOptions) (nowMs : Rat) : AuthorizeDecision :=
  let ceiling := effectiveLrtCeiling state
  let reservedBefore := double (state.lrtReserved + state.lrtUsed)
  let meterStale := isMeterStale state nowMs options
  let denied (reason : BudgetSentinelReason) : AuthorizeDecision :=
    { allowed := false, reason, effectiveCeiling := ceiling, reservedAfter := reservedBefore,
      remaining := max 0 (double (ceiling - reservedBefore)), meterStale,
      staleSinceMs := staleAgeMs state nowMs options }
  match stepCostLrt with
  | .notFinite => denied .stepCostInvalid
  | .finite cost =>
    if cost < 0 then denied .stepCostInvalid
    else if state.status = .budgetExhausted then denied .budgetExhausted
    else if ceiling ≤ 0 then denied .noLrtLimit
    else if ceiling < double (reservedBefore + cost) then denied .ceilingExceeded
    else if meterStale ∧
        (double (ceiling * resolveStaleCeilingFraction options)).floor <
          double (reservedBefore + cost) then denied .meterStaleConservative
    else { denied .authorized with
      allowed := true, reservedAfter := double (reservedBefore + cost) }

/-- `Number.isFinite(cost) && cost > 0 ? cost : 0`. -/
def positivePart (cost : JsNumber) : Rat :=
  match cost with
  | .finite value => if 0 < value then value else 0
  | .notFinite => 0

structure ReservationResult where
  state : BudgetSentinelState
  reservedDelta : Rat

def applyReservation (stepCostLrt : JsNumber) (state : BudgetSentinelState) : ReservationResult where
  state := { state with lrtReserved := double (state.lrtReserved + positivePart stepCostLrt) }
  reservedDelta := positivePart stepCostLrt

structure ReconciliationResult where
  state : BudgetSentinelState
  reservedDelta : Rat
  usedDelta : Rat
  becameExhausted : Bool

def applyReconciliation (actualCostLrt reservedCostLrt : JsNumber) (state : BudgetSentinelState) :
    ReconciliationResult :=
  let usedDelta := positivePart actualCostLrt
  let reservedDelta :=
    if 0 < positivePart reservedCostLrt then min (positivePart reservedCostLrt) state.lrtReserved
    else 0
  let newReserved := max 0 (double (state.lrtReserved - reservedDelta))
  let newUsed := double (state.lrtUsed + usedDelta)
  let ceiling := effectiveLrtCeiling state
  let becameExhausted := decide (0 < ceiling ∧ state.status ≠ .budgetExhausted ∧
    ceiling ≤ double (newUsed + newReserved))
  { state := { state with
      status := if becameExhausted then .budgetExhausted else state.status
      lrtReserved := newReserved
      lrtUsed := newUsed }
    reservedDelta, usedDelta, becameExhausted }

/-- Reconciliation keeps the status it read or exhausts the budget. -/
theorem applyReconciliation_status (actual reserved : JsNumber) (state : BudgetSentinelState) :
    (applyReconciliation actual reserved state).state.status = state.status ∨
      (applyReconciliation actual reserved state).state.status = .budgetExhausted := by
  have either : ∀ exhausted : Bool,
      (if exhausted then SessionStatus.budgetExhausted else state.status) = state.status ∨
        (if exhausted then SessionStatus.budgetExhausted else state.status) =
          .budgetExhausted := by
    intro exhausted
    cases exhausted
    · exact .inl rfl
    · exact .inr rfl
  exact either _

end LetAgents.Rental.BudgetSentinel

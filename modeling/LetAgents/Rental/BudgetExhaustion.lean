import LetAgents.Rental.BudgetAgreement

/-!
# The budget ceiling of one rental session

Source: src/api/rental/budget-orchestrator.ts:392-604 and budget-extension.ts:296-371.

The budget calls hold the session's advisory lock from before their read until they
commit, so they run one after the other. Reservations and reconciliations keep a
session that is not exhausted within its ceiling, except that a ceiling of 0 exhausts
nobody; an approved extension makes an exhausted session active whatever it has used.
-/
namespace LetAgents.Rental.BudgetExhaustion

open Lib Lib.Js Lib.Checked Lib.Replay BudgetSentinel SessionLifecycle
open BudgetAgreement
  (integerColumn_some positivePart_nonnegative CountersNonnegative)

/-! ## The calls -/

inductive BudgetOperation where
  | reserve (stepCostLrt : JsNumber) (options : BudgetSentinelOptions) (nowMs : Rat)
      (reads : BudgetReads)
  | reconcile (actualCostLrt reservedCostLrt : JsNumber) (reads : BudgetReads)
  /-- `approved`: the amount that the renter names or the request asks for, or what the
  checks of the request throw. -/
  | approveExtension (renter : Option Bool) (approved : Except String JsNumber)

def assertPositiveLrt (value : JsNumber) (field : String) : Except String Int :=
  match value with
  | .finite number =>
    if number.den = 1 ∧ 0 < number then .ok number.num
    else .error (field ++ " must be a finite positive integer")
  | .notFinite => .error (field ++ " must be a finite positive integer")

def approvedAmount (approved : Except String JsNumber) : Except String Int := do
  let value ← approved
  assertPositiveLrt value "approvedAdditionalLrt"

def BudgetOperation.decide (read : SessionRow) :
    BudgetOperation → Except String (Option SessionUpdate)
  | .reserve stepCostLrt options nowMs reads => reserveBudget stepCostLrt options nowMs reads read
  | .reconcile actualCostLrt reservedCostLrt reads =>
    reconcileBudget actualCostLrt reservedCostLrt reads read
  | .approveExtension renter approved =>
    (approveBudgetExtension renter (approvedAmount approved) read).map some

/-- One call, from its read to its commit. -/
def budgetStep (row : SessionRow) (operation : BudgetOperation) : Except String SessionRow := do
  match ← operation.decide row with
  | none => return row
  | some update => found (update.set row) "database error"

/-- A session as it is created. -/
def newSession (row : SessionRow) : SessionRow := { row with lrtReserved := 0, lrtUsed := 0 }

/-- The ceiling under the confidence that the row has stored, which is the one that the
last budget write found. -/
def ceiling (row : SessionRow) : Rat := effectiveLrtCeiling (toSentinelState row none)

/-- A session over its ceiling is exhausted. -/
def Guarded (row : SessionRow) : Prop :=
  ceiling row < (row.lrtUsed : Rat) + row.lrtReserved → row.status = .budgetExhausted

instance (row : SessionRow) : Decidable (Guarded row) := by unfold Guarded; infer_instance

/-- A reconciliation finds a ceiling to compare with, or leaves nothing to compare. An
extension that makes an exhausted session active brings the ceiling up to what the
session has used and reserved. -/
def Covered (row : SessionRow) : BudgetOperation → Prop
  | .reserve .. => True
  | .reconcile actualCostLrt reservedCostLrt reads =>
    0 < effectiveLrtCeiling (toSentinelState row reads.latestMeter) ∨
      row.status = .budgetExhausted ∨
      row.lrtUsed = 0 ∧ positivePart actualCostLrt = 0 ∧
        (row.lrtReserved : Rat) ≤ positivePart reservedCostLrt
  | .approveExtension _ approved =>
    row.status = .budgetExhausted → ∀ amount ∈ (approvedAmount approved).toOption,
      (row.lrtUsed : Rat) + row.lrtReserved ≤
        ceiling { row with lrtLimit := some (row.lrtLimit.getD 0 + amount) }

instance (row : SessionRow) (operation : BudgetOperation) : Decidable (Covered row operation) := by
  cases operation <;> unfold Covered <;> infer_instance

/-! ## The ceiling -/

theorem stopThreshold_pos (state : BudgetSentinelState) : 0 < resolveStopThresholdFraction state := by
  have table : ∀ confidence, 0 < stopThresholdByConfidence confidence := by
    intro confidence
    cases confidence <;> decide +kernel
  unfold resolveStopThresholdFraction
  split
  · split
    · rename_i within
      exact within.1
    · exact table _
  · exact table _

theorem ceiling_nonneg (row : SessionRow) : 0 ≤ ceiling row := by
  unfold ceiling effectiveLrtCeiling
  split
  · rename_i limit _
    split
    · exact le_rfl
    · rename_i positive
      have product : (0 : Rat) ≤ limit * resolveStopThresholdFraction (toSentinelState row none) :=
        mul_nonneg (by exact_mod_cast (not_le.mp positive).le) (stopThreshold_pos _).le
      exact_mod_cast Rat.le_floor_iff.mpr (by exact_mod_cast Double.double_nonneg product)
  · exact le_rfl

/-- The ceiling is a whole number. -/
theorem effectiveLrtCeiling_whole (state : BudgetSentinelState) :
    ∃ whole : Int, effectiveLrtCeiling state = whole := by
  unfold effectiveLrtCeiling
  split
  · split
    · exact ⟨0, rfl⟩
    · exact ⟨_, rfl⟩
  · exact ⟨0, rfl⟩

variable {row next read : SessionRow} {amount : Int} {update : SessionUpdate}
  {operation : BudgetOperation} {options : BudgetSentinelOptions} {nowMs : Rat}
  {reads : BudgetReads}

/-- A larger limit lowers no ceiling. -/
theorem ceiling_mono (positive : 0 < amount)
    (limit : next.lrtLimit = some (row.lrtLimit.getD 0 + amount))
    (threshold : next.budgetStopThreshold = row.budgetStopThreshold)
    (confidence : next.meterConfidence = row.meterConfidence) : ceiling row ≤ ceiling next := by
  have fraction : resolveStopThresholdFraction (toSentinelState next none) =
      resolveStopThresholdFraction (toSentinelState row none) := by
    simp only [resolveStopThresholdFraction, toSentinelState, threshold, confidence]
  have nonneg := ceiling_nonneg next
  cases before : row.lrtLimit with
  | none =>
    have zero : ceiling row = 0 := by
      simp only [ceiling, effectiveLrtCeiling, toSentinelState, before]
    rwa [zero]
  | some old =>
    rw [before, Option.getD_some] at limit
    by_cases nothing : old ≤ 0
    · have zero : ceiling row = 0 := by
        simp only [ceiling, effectiveLrtCeiling, toSentinelState, before, if_pos nothing]
      rwa [zero]
    · have something : ¬old + amount ≤ 0 := by omega
      have first : ceiling row =
          (double (old * resolveStopThresholdFraction (toSentinelState row none))).floor := by
        unfold ceiling effectiveLrtCeiling
        simp only [toSentinelState, before, if_neg nothing]
      have second : ceiling next = (double ((old + amount : Int) *
          resolveStopThresholdFraction (toSentinelState row none))).floor := by
        rw [← fraction]
        unfold ceiling effectiveLrtCeiling
        simp only [toSentinelState, limit, if_neg something]
      have rate := (stopThreshold_pos (toSentinelState row none)).le
      have low : (0 : Rat) ≤ old := by exact_mod_cast (not_le.mp nothing).le
      have grows : (old : Rat) ≤ (old + amount : Int) := by exact_mod_cast (by omega)
      have rounded := Double.double_mono (mul_nonneg low rate)
        (mul_le_mul_of_nonneg_right grows rate)
      rw [first, second]
      exact_mod_cast Rat.le_floor_iff.mpr (le_trans (Rat.floor_le _) rounded)

/-! ## What a call writes -/

structure Written (update : SessionUpdate) (row next : SessionRow) : Prop where
  reserved : integerColumn (update.lrtReserved.getD row.lrtReserved) = some next.lrtReserved
  used : integerColumn (update.lrtUsed.getD row.lrtUsed) = some next.lrtUsed
  limit : update.lrtLimit row = some next.lrtLimit
  status : next.status = update.status.getD row.status
  confidence : next.meterConfidence = (update.meterConfidence <|> row.meterConfidence)
  threshold : next.budgetStopThreshold = row.budgetStopThreshold

theorem set_written (ok : update.set row = some next) : Written update row next := by
  simp only [SessionUpdate.set, Option.bind_eq_bind, Option.bind_eq_some_iff] at ok
  obtain ⟨_, reserved, _, used, _, limit, written⟩ := ok
  cases written
  exact ⟨reserved, used, limit, rfl, rfl, rfl⟩

/-- A call writes nothing, or what its decision sets. -/
theorem budgetStep_written (ok : budgetStep row operation = .ok next) :
    next = row ∨ ∃ update, operation.decide row = .ok (some update) ∧ Written update row next := by
  obtain ⟨decision, decided, ok⟩ := bind_ok ok
  cases decision with
  | none =>
    cases ok
    exact .inl rfl
  | some update => exact .inr ⟨update, decided, set_written (found_ok ok)⟩

theorem reserveBudget_decided
    (ok : reserveBudget stepCostLrt options nowMs reads read = .ok (some update)) :
    (∃ cost, stepCostLrt = .finite cost ∧ 0 ≤ cost) ∧
      update.additionalLrt = none ∧
      update.meterConfidence = some (toSentinelState read reads.latestMeter).meterConfidence ∧
      update.lrtUsed = some (read.lrtUsed : Rat) ∧
      (update.status = none ∧
          (authorize stepCostLrt (toSentinelState read reads.latestMeter) options nowMs).allowed =
            true ∧
          update.lrtReserved = some (double (read.lrtReserved + positivePart stepCostLrt)) ∨
        update.status = some .budgetExhausted ∧
          update.lrtReserved = some (read.lrtReserved : Rat)) := by
  obtain ⟨_, nonnegative, ok⟩ := bind_ok ok
  obtain ⟨_, ok⟩ := require_bind_ok ok
  have finite : ∃ cost, stepCostLrt = .finite cost ∧ 0 ≤ cost := by
    cases stepCostLrt with
    | notFinite => cases nonnegative
    | finite cost =>
      simp only [SessionLifecycle.finiteNonNegative] at nonnegative
      split at nonnegative
      · exact ⟨cost, rfl, ‹_›⟩
      · cases nonnegative
  refine ⟨finite, ?_⟩
  split at ok
  · cases ok
  · dsimp only at ok
    split at ok
    · rename_i allowed
      cases ok
      exact ⟨rfl, rfl, rfl, .inl ⟨rfl, allowed, rfl⟩⟩
    · split at ok
      · cases ok
        exact ⟨rfl, rfl, rfl, .inr ⟨rfl, rfl⟩⟩
      · cases ok

theorem reconcileBudget_decided
    (ok : reconcileBudget actualCostLrt reservedCostLrt reads read = .ok (some update)) :
    let result := applyReconciliation actualCostLrt reservedCostLrt
      (toSentinelState read reads.latestMeter)
    update = {
      lrtReserved := some result.state.lrtReserved
      lrtUsed := some result.state.lrtUsed
      status := some result.state.status
      meterConfidence := some (toSentinelState read reads.latestMeter).meterConfidence } := by
  obtain ⟨_, _, ok⟩ := bind_ok ok
  obtain ⟨_, _, ok⟩ := bind_ok ok
  obtain ⟨_, ok⟩ := require_bind_ok ok
  split at ok
  · cases ok
  · cases ok
    rfl

theorem assertPositiveLrt_ok (ok : assertPositiveLrt value field = .ok amount) : 0 < amount := by
  cases value with
  | notFinite => cases ok
  | finite number =>
    simp only [assertPositiveLrt] at ok
    split at ok
    · rename_i accepted
      cases ok
      exact Rat.num_pos.mpr accepted.2
    · cases ok

theorem approveBudgetExtension_decided
    (ok : approveBudgetExtension renter approved read = .ok update) :
    ∃ amount, approved = .ok amount ∧ update = {
      additionalLrt := some amount
      status := some (if read.status = .budgetExhausted then .active else read.status) } := by
  obtain ⟨_, ok⟩ := require_bind_ok ok
  obtain ⟨_, ok⟩ := require_bind_ok ok
  obtain ⟨_, ok⟩ := require_bind_ok ok
  obtain ⟨_, ok⟩ := require_bind_ok ok
  obtain ⟨amount, given, ok⟩ := bind_ok ok
  cases ok
  exact ⟨amount, given, rfl⟩

/-- An extension that goes through adds an approved amount. -/
theorem approvedAmount_ok (ok : approvedAmount approved = .ok amount) : 0 < amount := by
  obtain ⟨_, _, ok⟩ := bind_ok ok
  exact assertPositiveLrt_ok ok

/-! ## The counters -/

/-- The counters are stored in integer columns and never negative. -/
structure Stored (row : SessionRow) : Prop where
  nonnegative : CountersNonnegative row
  reserved : row.lrtReserved ≤ 2147483647
  used : row.lrtUsed ≤ 2147483647

theorem column_nonneg (ok : integerColumn value = some stored) (nonnegative : 0 ≤ value) :
    0 ≤ stored ∧ stored ≤ 2147483647 := by
  obtain ⟨rfl, bound⟩ := integerColumn_some ok
  exact ⟨by exact_mod_cast nonnegative, bound⟩

/-- The sum of two columns is a double. -/
theorem double_columns {first second : Int} (nonnegative : 0 ≤ first) (nonnegative' : 0 ≤ second)
    (small : first ≤ 2147483647) (small' : second ≤ 2147483647) :
    double ((first : Rat) + second) = (first : Rat) + second := by
  obtain ⟨m, rfl⟩ := Int.eq_ofNat_of_zero_le nonnegative
  obtain ⟨n, rfl⟩ := Int.eq_ofNat_of_zero_le nonnegative'
  have whole := Double.double_exact (n := m + n) (by omega)
  push_cast at whole ⊢
  exact whole

theorem Written.stored (written : Written update row next)
    (reserved : 0 ≤ update.lrtReserved.getD row.lrtReserved)
    (used : 0 ≤ update.lrtUsed.getD row.lrtUsed) : Stored next :=
  ⟨⟨(column_nonneg written.reserved reserved).1, (column_nonneg written.used used).1⟩,
    (column_nonneg written.reserved reserved).2, (column_nonneg written.used used).2⟩

theorem positivePart_nonneg (value : JsNumber) : 0 ≤ positivePart value := by
  unfold positivePart
  split
  · split
    · rename_i positive
      exact positive.le
    · exact le_rfl
  · exact le_rfl

theorem budgetStep_stored (stored : Stored row) (ok : budgetStep row operation = .ok next) :
    Stored next := by
  have reserved : (0 : Rat) ≤ row.lrtReserved := by exact_mod_cast stored.nonnegative.1
  have used : (0 : Rat) ≤ row.lrtUsed := by exact_mod_cast stored.nonnegative.2
  rcases budgetStep_written ok with rfl | ⟨update, decided, written⟩
  · exact stored
  · cases operation with
    | reserve stepCostLrt options nowMs reads =>
      obtain ⟨_, _, _, usedSame, outcome⟩ := reserveBudget_decided decided
      refine written.stored ?_ ?_
      · rcases outcome with ⟨_, _, sum⟩ | ⟨_, same⟩
        · rw [sum]
          exact Double.double_nonneg (add_nonneg reserved (positivePart_nonneg _))
        · rw [same]
          exact reserved
      · rw [usedSame]
        exact used
    | reconcile actualCostLrt reservedCostLrt reads =>
      obtain rfl := reconcileBudget_decided decided
      exact written.stored (le_max_left _ _)
        (Double.double_nonneg (add_nonneg used (positivePart_nonneg _)))
    | approveExtension renter approved =>
      obtain ⟨_, approvedUpdate, same⟩ := map_ok decided
      cases same
      obtain ⟨_, _, rfl⟩ := approveBudgetExtension_decided approvedUpdate
      exact written.stored reserved used

/-! ## The ceiling holds -/

/-- The stored row has the ceiling that its last budget write compared with. -/
theorem ceiling_written (written : Written update row next)
    (additional : update.additionalLrt = none)
    (confidence : update.meterConfidence = some (toSentinelState row latestMeter).meterConfidence) :
    ceiling next = effectiveLrtCeiling (toSentinelState row latestMeter) := by
  have limit : next.lrtLimit = row.lrtLimit := by
    have same := written.limit
    rw [SessionUpdate.lrtLimit, additional] at same
    exact (Option.some.inj same).symm
  have stored : next.meterConfidence = some (toSentinelState row latestMeter).meterConfidence := by
    rw [written.confidence, confidence]
    rfl
  have read : (toSentinelState next none).meterConfidence =
      (toSentinelState row latestMeter).meterConfidence := by
    change (none <|> next.meterConfidence).getD .unknown = _
    rw [stored]
    rfl
  have fraction : resolveStopThresholdFraction (toSentinelState next none) =
      resolveStopThresholdFraction (toSentinelState row latestMeter) := by
    unfold resolveStopThresholdFraction
    rw [read]
    simp only [toSentinelState, written.threshold]
  unfold ceiling effectiveLrtCeiling
  rw [fraction]
  simp only [toSentinelState, limit]

/-- Whole counters that take a reservation within the ceiling stay within it, however
the sums are rounded. -/
theorem reservation_within {reserved used stored : Int} {cost ceil : Rat} (nonnegative : 0 ≤ reserved)
    (nonnegative' : 0 ≤ used) (small : reserved ≤ 2147483647) (small' : used ≤ 2147483647)
    (some' : 0 ≤ cost) (whole : ∃ n : Int, ceil = n)
    (within : double (double ((reserved : Rat) + used) + cost) ≤ ceil)
    (column : integerColumn (double (reserved + cost)) = some stored) :
    (used : Rat) + stored ≤ ceil := by
  obtain ⟨limit, rfl⟩ := whole
  obtain ⟨same, bound⟩ := integerColumn_some column
  obtain ⟨r, rfl⟩ := Int.eq_ofNat_of_zero_le nonnegative
  obtain ⟨u, rfl⟩ := Int.eq_ofNat_of_zero_le nonnegative'
  have sum : double (((r : Int) : Rat) + (u : Int)) = (r + u : Nat) := by
    rw [double_columns nonnegative nonnegative' small small']
    push_cast
    rfl
  rw [sum] at within
  by_contra above
  rw [not_le] at above
  have next : limit < u + stored := by exact_mod_cast above
  -- A half below the stored sum is a double, so neither rounding crosses it.
  have enough : (r : Rat) + cost > (2 * (limit + 1 - u) - 1 : Int) / 2 := by
    by_contra low
    rw [gt_iff_lt, not_lt] at low
    have half : 0 ≤ 2 * (limit + 1 - u) - 1 := by
      by_contra negative
      have : (2 * (limit + 1 - u) - 1 : Int) / (2 : Rat) < 0 :=
        div_neg_of_neg_of_pos (by exact_mod_cast not_le.mp negative) (by norm_num)
      linarith
    obtain ⟨h, halves⟩ := Int.eq_ofNat_of_zero_le half
    have exact' := Double.double_dyadic (n := h) (j := 1) (by omega) (by omega)
    have rounded := Double.double_mono (by positivity) low
    rw [halves] at rounded
    push_cast at rounded
    rw [pow_one] at exact'
    rw [exact', show ((r : Rat) + cost) = ((r : Int) : Rat) + cost from rfl, same] at rounded
    have high : ((limit + 1 - u : Int) : Rat) ≤ stored := by exact_mod_cast (by omega)
    have value : (h : Rat) = 2 * (limit + 1 - u) - 1 := by exact_mod_cast halves.symm
    push_cast at high
    linarith
  have half : 0 ≤ 2 * (limit + 1) - 1 := by
    have nonneg : (0 : Rat) ≤ limit :=
      le_trans (Double.double_nonneg (by positivity)) within
    have : 0 ≤ limit := by exact_mod_cast nonneg
    omega
  obtain ⟨h, halves⟩ := Int.eq_ofNat_of_zero_le half
  have exact' := Double.double_dyadic (n := h) (j := 1) (by omega) (by omega)
  rw [pow_one] at exact'
  have value : (h : Rat) = 2 * (limit + 1) - 1 := by exact_mod_cast halves.symm
  have reached : (h : Rat) / 2 ≤ (r + u : Nat) + cost := by
    push_cast at enough ⊢
    linarith
  have rounded := Double.double_mono (by positivity) reached
  linarith

/-- An allowed step stays within the ceiling of the decision, in rounded sums. -/
theorem authorize_allowed (allowed : (authorize (.finite cost) state options nowMs).allowed = true) :
    0 ≤ cost ∧
      double (double (state.lrtReserved + state.lrtUsed) + cost) ≤ effectiveLrtCeiling state := by
  unfold authorize at allowed
  dsimp only at allowed
  split at allowed
  · cases allowed
  · rename_i nonnegative
    refine ⟨not_lt.mp nonnegative, ?_⟩
    split at allowed
    · cases allowed
    · split at allowed
      · cases allowed
      · split at allowed
        · cases allowed
        · rename_i within
          exact not_lt.mp within

theorem reserve_guarded {stepCostLrt : JsNumber} (stored : Stored row)
    (decided : reserveBudget stepCostLrt options nowMs reads row = .ok (some update))
    (written : Written update row next) : Guarded next := by
  obtain ⟨⟨cost, rfl, nonnegative⟩, additional, confidence, usedSame, outcome⟩ :=
    reserveBudget_decided decided
  have used := written.used
  rw [usedSame, Option.getD_some] at used
  have usedEq : (row.lrtUsed : Rat) = next.lrtUsed := (integerColumn_some used).1
  rcases outcome with ⟨_, allowed, sum⟩ | ⟨exhausted, _⟩
  · intro above
    have column := written.reserved
    rw [sum, Option.getD_some, positivePart_nonnegative nonnegative] at column
    have within := reservation_within stored.nonnegative.1 stored.nonnegative.2 stored.reserved
      stored.used nonnegative (effectiveLrtCeiling_whole _) (authorize_allowed allowed).2 column
    rw [ceiling_written written additional confidence, ← usedEq] at above
    exact absurd above (not_lt.mpr within)
  · intro _
    rw [written.status, exhausted, Option.getD_some]

theorem reconcile_guarded {actualCostLrt reservedCostLrt : JsNumber} (stored : Stored row)
    (covered : Covered row (.reconcile actualCostLrt reservedCostLrt reads))
    (decided : reconcileBudget actualCostLrt reservedCostLrt reads row = .ok (some update))
    (written : Written update row next) (stored' : Stored next) : Guarded next := by
  obtain rfl := reconcileBudget_decided decided
  intro above
  rw [ceiling_written written rfl rfl] at above
  obtain ⟨reservedEq, _⟩ := integerColumn_some written.reserved
  obtain ⟨usedEq, _⟩ := integerColumn_some written.used
  -- The stored counters are whole, so their sum is the one that was compared.
  have total := double_columns stored'.nonnegative.2 stored'.nonnegative.1 stored'.used
    stored'.reserved
  rw [written.status, Option.getD_some]
  by_cases exhausted : row.status = .budgetExhausted
  · rcases applyReconciliation_status actualCostLrt reservedCostLrt
      (toSentinelState row reads.latestMeter) with same | exhausts
    · rw [same]
      exact exhausted
    · exact exhausts
  · rcases covered with positive | already | ⟨nothing, none', settled⟩
    · have reached : effectiveLrtCeiling (toSentinelState row reads.latestMeter) ≤
          double ((next.lrtUsed : Rat) + next.lrtReserved) := by
        rw [total]
        exact above.le
      rw [← usedEq, ← reservedEq] at reached
      have became : (applyReconciliation actualCostLrt reservedCostLrt
          (toSentinelState row reads.latestMeter)).becameExhausted = true :=
        decide_eq_true ⟨positive, exhausted, reached⟩
      change (if (applyReconciliation actualCostLrt reservedCostLrt
        (toSentinelState row reads.latestMeter)).becameExhausted then _ else _) = _
      rw [became, if_pos rfl]
    · exact absurd already exhausted
    · have noUse : (next.lrtUsed : Rat) = 0 := by
        rw [← usedEq]
        change double ((row.lrtUsed : Rat) + positivePart actualCostLrt) = 0
        rw [nothing, none', Int.cast_zero, add_zero]
        rfl
      have noReservation : (next.lrtReserved : Rat) = 0 := by
        have nonneg : (0 : Rat) ≤ row.lrtReserved := by exact_mod_cast stored.nonnegative.1
        have delta : (if 0 < positivePart reservedCostLrt then
            min (positivePart reservedCostLrt) (row.lrtReserved : Rat) else 0) = row.lrtReserved := by
          split
          · exact min_eq_right settled
          · rename_i zero
            linarith
        rw [← reservedEq]
        change max 0 (double ((row.lrtReserved : Rat) - if 0 < positivePart reservedCostLrt then
          min (positivePart reservedCostLrt) (row.lrtReserved : Rat) else 0)) = 0
        rw [delta, sub_self]
        rfl
      rw [noUse, noReservation, add_zero, ← ceiling_written written rfl rfl] at above
      exact absurd (ceiling_nonneg next) (not_le.mpr above)

theorem approve_guarded (guarded : Guarded row)
    (covered : Covered row (.approveExtension renter approved))
    (decided : approveBudgetExtension renter (approvedAmount approved) row = .ok update)
    (written : Written update row next) : Guarded next := by
  obtain ⟨amount, given, rfl⟩ := approveBudgetExtension_decided decided
  have reserved : (row.lrtReserved : Rat) = next.lrtReserved := (integerColumn_some written.reserved).1
  have used : (row.lrtUsed : Rat) = next.lrtUsed := (integerColumn_some written.used).1
  have limit : next.lrtLimit = some (row.lrtLimit.getD 0 + amount) := by
    obtain ⟨sum, column, same⟩ := Option.map_eq_some_iff.mp written.limit
    have value : ((row.lrtLimit.getD 0 + amount : Int) : Rat) = sum := by
      exact_mod_cast (integerColumn_some column).1
    rw [← same, show row.lrtLimit.getD 0 + amount = sum by exact_mod_cast value]
  intro above
  rw [← used, ← reserved] at above
  by_cases exhausted : row.status = .budgetExhausted
  · have raised := covered exhausted amount (by rw [given]; rfl)
    have same : ceiling next =
        ceiling { row with lrtLimit := some (row.lrtLimit.getD 0 + amount) } := by
      have confidence := written.confidence
      change next.meterConfidence = row.meterConfidence at confidence
      unfold ceiling effectiveLrtCeiling resolveStopThresholdFraction
      simp only [toSentinelState, limit, confidence, written.threshold]
    rw [← same] at raised
    exact absurd above (not_lt.mpr raised)
  · have grown := ceiling_mono (approvedAmount_ok given) limit written.threshold written.confidence
    exact absurd (guarded (lt_of_le_of_lt grown above)) exhausted

theorem budgetStep_guarded (stored : Stored row) (guarded : Guarded row)
    (covered : Covered row operation) (ok : budgetStep row operation = .ok next) :
    Guarded next := by
  have stored' := budgetStep_stored stored ok
  rcases budgetStep_written ok with rfl | ⟨update, decided, written⟩
  · exact guarded
  · cases operation with
    | reserve => exact reserve_guarded stored decided written
    | reconcile => exact reconcile_guarded stored covered decided written stored'
    | approveExtension =>
      obtain ⟨_, approvedUpdate, same⟩ := map_ok decided
      cases same
      exact approve_guarded guarded covered approvedUpdate written

/-! ## Runs -/

theorem newSession_stored (row : SessionRow) : Stored (newSession row) :=
  ⟨⟨le_rfl, le_rfl⟩, (by decide : (0 : Int) ≤ 2147483647), (by decide : (0 : Int) ≤ 2147483647)⟩

theorem newSession_guarded (row : SessionRow) : Guarded (newSession row) := by
  intro above
  have zero : ((newSession row).lrtUsed : Rat) + (newSession row).lrtReserved = 0 := add_zero _
  rw [zero] at above
  exact absurd (ceiling_nonneg _) (not_le.mpr above)

/-- Every run of budget calls, whatever they are asked for, keeps the counters. -/
theorem counters_stored (row : SessionRow) (log : List BudgetOperation) :
    Stored (replay budgetStep (newSession row) log) :=
  replay_preserves (fun _ _ => True) Stored (fun _ _ _ stored _ => budgetStep_stored stored)
    (meets_of_forall (fun _ _ => trivial) _ _) (newSession_stored row)

/-- After budget calls that meet the condition, a session over its ceiling is exhausted,
and no reservation that the counters take exactly is allowed past the ceiling. -/
theorem ceiling_kept (row : SessionRow) (log : List BudgetOperation)
    (covered : Meets budgetStep Covered (newSession row) log) :
    let reached := replay budgetStep (newSession row) log
    CountersNonnegative reached ∧ Guarded reached ∧
      ∀ (cost : Rat) (options : BudgetSentinelOptions) (nowMs : Rat)
        (latestMeter : Option LatestMeter),
        double ((reached.lrtReserved : Rat) + reached.lrtUsed + cost) =
            (reached.lrtReserved : Rat) + reached.lrtUsed + cost →
          (authorize (.finite cost) (toSentinelState reached latestMeter) options nowMs).allowed =
              true →
            (reached.lrtReserved : Rat) + reached.lrtUsed + cost ≤
              effectiveLrtCeiling (toSentinelState reached latestMeter) := by
  have stored := counters_stored row log
  have both : ∀ s a next, Stored s ∧ Guarded s → Covered s a → budgetStep s a = .ok next →
      Stored next ∧ Guarded next := fun _ _ _ held met ok =>
    ⟨budgetStep_stored held.1 ok, budgetStep_guarded held.1 held.2 met ok⟩
  have held := replay_preserves Covered _ both covered
    ⟨newSession_stored row, newSession_guarded row⟩
  refine ⟨stored.nonnegative, held.2, fun cost options nowMs latestMeter exact' allowed => ?_⟩
  have within := (authorize_allowed allowed).2
  have sum := double_columns stored.nonnegative.1 stored.nonnegative.2 stored.reserved stored.used
  change double (double (_ + _) + cost) ≤ _ at within
  simp only [toSentinelState] at within
  rwa [sum, exact'] at within

/-- An active session with a limit of 100 LRT under an exact meter. -/
def exactSession : SessionRow where
  status := .active
  requestExpiresAt := none
  directMember := false
  roomAssigned := true
  launchAttempt := 0
  launchState := none
  daemonEntryId := none
  lrtLimit := some 100
  lrtReserved := 0
  lrtUsed := 0
  budgetStopThreshold := none
  meterConfidence := some .officialExact
  heartbeatCount := 0

/-- Usage overruns the ceiling by half, and an extension by 1 LRT makes the session
active again: it is over the new ceiling and not exhausted. -/
theorem extended_session_over_ceiling :
    isTerminal exactSession.status = false ∧
      ¬Guarded (replay budgetStep (newSession exactSession)
        [.reconcile (.finite 150) (.finite 0) ⟨none, false⟩,
          .approveExtension (some true) (.ok (.finite 1))]) := by
  decide +kernel

/-- A sufficient extension of the same session. -/
theorem extended_session_covered :
    Guarded (replay budgetStep (newSession exactSession)
      [.reserve (.finite 40) ⟨none, none⟩ 0 ⟨none, false⟩,
        .reconcile (.finite 150) (.finite 40) ⟨none, false⟩,
        .approveExtension (some true) (.ok (.finite 100))]) :=
  (ceiling_kept exactSession _ (by decide +kernel)).2.1

end LetAgents.Rental.BudgetExhaustion

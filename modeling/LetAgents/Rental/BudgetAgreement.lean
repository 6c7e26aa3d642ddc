import Mathlib.Data.Rat.Cast.Order
import LetAgents.Lib.Double
import LetAgents.Lib.Replay
import LetAgents.Rental.BudgetLedger

/-!
# The budget ledger and its journal

The counters of the session row and the events of the journal agree while no call is
between its first accounting event and its commit. A call that fails there leaves its
event behind, and the participants' route can write such an event itself: `intact`
excludes the two, and an amount with a fraction that rounding absorbs.
-/
namespace LetAgents.Rental.BudgetAgreement

open Lib Lib.Js Lib.Checked BudgetSentinel
open LetAgents.Rental.SessionLifecycle (SessionRow SessionUpdate LatestMeter integerColumn toSentinelState)
open BudgetLedger

/-! ## Totals -/

/-- The journal without its times. -/
def entries (journal : List ActivityEvent) : List (ActivityEventType × ActivityPayload) :=
  journal.map fun event => (event.eventType, event.payload)

/-- The sum of a payload number over the events of a type. -/
def total (entries : List (ActivityEventType × ActivityPayload)) (eventType : ActivityEventType)
    (field : ActivityPayload → Option Rat) : Rat :=
  ((entries.filter fun entry => entry.1 = eventType).map fun entry => (field entry.2).getD 0).sum

/-- The reservations under a key. -/
def reservations (entries : List (ActivityEventType × ActivityPayload)) (key : String) :
    List ActivityPayload :=
  (entries.filter fun entry =>
    entry.1 = .budgetReserved && entry.2.idempotencyKey = some key).map Prod.snd

/-- The counters are the sums of the deltas. -/
structure Agrees (row : SessionRow) (entries : List (ActivityEventType × ActivityPayload)) : Prop where
  reserved : (row.lrtReserved : Rat) = total entries .budgetReserved (·.reservedDelta) -
    total entries .budgetReconciled (·.reservedDelta)
  used : (row.lrtUsed : Rat) = total entries .budgetReconciled (·.usedDelta)

/-- The amount of a reservation is in the journal once. -/
def Counted (entries : List (ActivityEventType × ActivityPayload)) : BudgetCall → Prop
  | .reserve key stepCostLrt _ _ =>
    (reservations entries key).map (·.reservedDelta) = [some stepCostLrt]
  | .reconcile .. => True

@[simp] theorem entries_append (journal : List ActivityEvent) (event : ActivityEvent) :
    entries (journal ++ [event]) = entries journal ++ [(event.eventType, event.payload)] :=
  List.map_append

@[simp] theorem total_append (first second : List (ActivityEventType × ActivityPayload))
    (eventType : ActivityEventType) (field : ActivityPayload → Option Rat) :
    total (first ++ second) eventType field = total first eventType field +
      total second eventType field := by
  simp only [total, List.filter_append, List.map_append, List.sum_append]

theorem total_single (entry : ActivityEventType × ActivityPayload) (eventType : ActivityEventType)
    (field : ActivityPayload → Option Rat) :
    total [entry] eventType field = if entry.1 = eventType then (field entry.2).getD 0 else 0 := by
  by_cases same : entry.1 = eventType
  · simp [total, same]
  · simp [total, same]

@[simp] theorem reservations_append (first second : List (ActivityEventType × ActivityPayload))
    (key : String) :
    reservations (first ++ second) key = reservations first key ++ reservations second key := by
  simp only [reservations, List.filter_append, List.map_append]

variable {entry : ActivityEventType × ActivityPayload} {row next : SessionRow}
  {known : List (ActivityEventType × ActivityPayload)} {value : Rat} {stored : Int} {call : Nat}
  {s : LedgerState} {key : String} {latestMeter : Option LatestMeter} {written : BudgetWrite}
  {phase : Phase} {session : Option SessionRow} {result : BudgetResult} {budgetCall : BudgetCall}

theorem reservations_other (key : String) (other : entry.1 ≠ .budgetReserved) :
    reservations [entry] key = [] := by
  simp [reservations, other]

theorem reservations_single (entry : ActivityEventType × ActivityPayload) (key : String) :
    (reservations [entry] key).length ≤ 1 := by
  simp only [reservations, List.length_map]
  exact List.length_filter_le _ _

/-- Events that account for nothing change no total. -/
theorem Agrees.note (agrees : Agrees row known) (other : accountsFor entry.1 = false) :
    Agrees row (known ++ [entry]) := by
  have notReserved : entry.1 ≠ .budgetReserved := by
    rintro same
    rw [same] at other
    cases other
  have notReconciled : entry.1 ≠ .budgetReconciled := by
    rintro same
    rw [same] at other
    cases other
  refine ⟨?_, ?_⟩
  · rw [total_append, total_append, total_single, total_single, if_neg notReserved,
      if_neg notReconciled, add_zero, add_zero]
    exact agrees.reserved
  · rw [total_append, total_single, if_neg notReconciled, add_zero]
    exact agrees.used

/-! ## Whole numbers -/

theorem integerColumn_some (ok : integerColumn value = some stored) :
    value = stored ∧ stored ≤ 2147483647 := by
  unfold integerColumn at ok
  split at ok
  · rename_i fits
    cases ok
    exact ⟨(Rat.den_eq_one_iff value).mp fits.1 |>.symm, fits.2.2⟩
  · cases ok

/-- A stored whole sum is exact. -/
theorem integerColumn_double {n : Nat} (ok : integerColumn (double (n : Rat)) = some stored) :
    (stored : Rat) = n := by
  obtain ⟨same, bound⟩ := integerColumn_some ok
  rcases Double.double_exact_or_large n with exact' | large
  · rw [← same, exact']
  · have small : (stored : Rat) ≤ 2147483647 := by exact_mod_cast bound
    rw [same] at large
    have impossible : (2 : Rat) ^ 53 ≤ 2147483647 := le_trans large small
    norm_num at impossible

theorem whole_eq (nonnegative : 0 ≤ value) (whole : value.den = 1) : ∃ n : Nat, value = n := by
  refine ⟨value.num.toNat, ?_⟩
  have numerator : (value.num.toNat : Int) = value.num :=
    Int.toNat_of_nonneg (Rat.num_nonneg.mpr nonnegative)
  have same := (Rat.den_eq_one_iff value).mp whole
  have cast : ((value.num.toNat : Int) : Rat) = value := by rw [numerator, same]
  exact_mod_cast cast.symm

/-- The amounts that a call moves are whole numbers. -/
def wholeDeltas (row : SessionRow) : BudgetCall → Bool
  | .reserve _ stepCostLrt _ _ => stepCostLrt.den = 1
  | .reconcile _ actualCostLrt reservedCostLrt =>
    actualCostLrt.den = 1 && (min reservedCostLrt (row.lrtReserved : Rat)).den = 1

def CostsNonnegative : BudgetCall → Prop
  | .reserve _ stepCostLrt _ _ => 0 ≤ stepCostLrt
  | .reconcile _ actualCostLrt reservedCostLrt => 0 ≤ actualCostLrt ∧ 0 ≤ reservedCostLrt

theorem finiteNonNegative_ok {value : JsNumber} {name : String}
    (ok : BudgetLedger.finiteNonNegative value name = .ok number) :
    value = .finite number ∧ 0 ≤ number := by
  cases value with
  | notFinite => cases ok
  | finite given =>
    simp only [BudgetLedger.finiteNonNegative] at ok
    split at ok
    · cases ok
      exact ⟨rfl, ‹_›⟩
    · cases ok

theorem validate_nonnegative {call : BudgetCall} (ok : validate input = .ok call) :
    CostsNonnegative call := by
  cases input with
  | reserve key cost options nowMs =>
    obtain ⟨_, _, ok⟩ := bind_ok ok
    obtain ⟨number, finite, ok⟩ := bind_ok ok
    cases ok
    exact (finiteNonNegative_ok finite).2
  | reconcile key actual reserved =>
    obtain ⟨_, _, ok⟩ := bind_ok ok
    obtain ⟨first, actualFinite, ok⟩ := bind_ok ok
    obtain ⟨second, reservedFinite, ok⟩ := bind_ok ok
    cases ok
    exact ⟨(finiteNonNegative_ok actualFinite).2, (finiteNonNegative_ok reservedFinite).2⟩

theorem positivePart_nonnegative (nonnegative : 0 ≤ value) :
    positivePart (.finite value) = value := by
  unfold positivePart
  dsimp only
  split
  · rfl
  · rename_i zero
    rw [not_lt] at zero
    exact (le_antisymm zero nonnegative).symm

/-! ## One call -/

/-- The counters are never negative. -/
def CountersNonnegative (row : SessionRow) : Prop := 0 ≤ row.lrtReserved ∧ 0 ≤ row.lrtUsed

/-- Setting both counters to whole sums. -/
theorem set_counters {update : SessionUpdate} {reserved used : Nat}
    (setReserved : update.lrtReserved = some (double (reserved : Rat)))
    (setUsed : update.lrtUsed = some (double (used : Rat))) (ok : update.set row = some next) :
    (next.lrtReserved : Rat) = reserved ∧ (next.lrtUsed : Rat) = used ∧ CountersNonnegative next := by
  simp only [SessionUpdate.set, setReserved, setUsed, Option.getD_some, Option.bind_eq_bind,
    Option.bind_eq_some_iff] at ok
  obtain ⟨lrtReserved, reservedStored, lrtUsed, usedStored, limit, _, written⟩ := ok
  cases written
  have reservedExact := integerColumn_double reservedStored
  have usedExact := integerColumn_double usedStored
  refine ⟨reservedExact, usedExact, ?_, ?_⟩
  · have nonnegative : (0 : Rat) ≤ lrtReserved := reservedExact ▸ Nat.cast_nonneg reserved
    exact_mod_cast nonnegative
  · have nonnegative : (0 : Rat) ≤ lrtUsed := usedExact ▸ Nat.cast_nonneg used
    exact_mod_cast nonnegative

/-- A column that already holds the value keeps it. -/
theorem double_column {value : Int} (ok : integerColumn (value : Rat) = some stored)
    (nonnegative : 0 ≤ value) : double (value : Rat) = value := by
  have bound := (integerColumn_some ok).2
  have same : (value : Rat) = (stored : Rat) := (integerColumn_some ok).1
  obtain ⟨n, rfl⟩ := Int.eq_ofNat_of_zero_le nonnegative
  have equal : (n : Int) = stored := by exact_mod_cast same
  have small : n < 2 ^ 53 := by
    omega
  exact Double.double_exact small

/-- Setting the counters to the values they have. -/
theorem set_same {update : SessionUpdate}
    (setReserved : update.lrtReserved = some (row.lrtReserved : Rat))
    (setUsed : update.lrtUsed = some (row.lrtUsed : Rat)) (ok : update.set row = some next) :
    next.lrtReserved = row.lrtReserved ∧ next.lrtUsed = row.lrtUsed := by
  simp only [SessionUpdate.set, setReserved, setUsed, Option.getD_some, Option.bind_eq_bind,
    Option.bind_eq_some_iff] at ok
  obtain ⟨lrtReserved, reservedStored, lrtUsed, usedStored, limit, _, written⟩ := ok
  cases written
  have reservedSame : (row.lrtReserved : Rat) = lrtReserved := (integerColumn_some reservedStored).1
  have usedSame : (row.lrtUsed : Rat) = lrtUsed := (integerColumn_some usedStored).1
  exact ⟨by exact_mod_cast reservedSame.symm, by exact_mod_cast usedSame.symm⟩

/-- A call that still has events to emit: with them, the row of its transaction agrees
with the journal. -/
structure Emitting (session : Option SessionRow)
    (known : List (ActivityEventType × ActivityPayload)) (call : BudgetCall) (row : SessionRow)
    (remaining : List (ActivityEventType × ActivityPayload)) (accounted : Bool)
    (result : BudgetResult) : Prop where
  agrees : Agrees row (known ++ remaining)
  nonnegative : CountersNonnegative row
  unaccounted : accounted = false → ∀ row ∈ session, Agrees row known
  reservation : (∃ key stepCostLrt payload, remaining = [(.budgetReserved, payload)] ∧
      payload.idempotencyKey = some key ∧ payload.reservedDelta = some stepCostLrt ∧
      payload.requestedStepCostLrt = some stepCostLrt ∧ reservations known key = []) ∨
    ∀ entry ∈ remaining, entry.1 ≠ .budgetReserved
  counted : result.allowed = true → Counted (known ++ remaining) call

theorem reserve_emitting {stepCostLrt : Rat} {nowMs : Rat} (stepNonnegative : 0 ≤ stepCostLrt)
    (whole : (written.events.any fun entry => accountsFor entry.1) = true → stepCostLrt.den = 1)
    (agrees : Agrees row known) (nonnegative : CountersNonnegative row)
    (fresh : reservations known key = [])
    (outcome : BudgetLedger.reserveBudget key stepCostLrt options nowMs row latestMeter = .write written)
    (ok : written.update.set row = some next) :
    Emitting (some row) known (.reserve key stepCostLrt options nowMs) next written.events false
      written.result := by
  have before : false = false → ∀ other ∈ some row, Agrees other known := by
    rintro _ _ ⟨rfl⟩
    exact agrees
  unfold BudgetLedger.reserveBudget at outcome
  dsimp only at outcome
  split at outcome
  · cases outcome
    obtain ⟨n, rfl⟩ := whole_eq stepNonnegative (whole rfl)
    obtain ⟨reserved, reservedEq⟩ := Int.eq_ofNat_of_zero_le nonnegative.1
    obtain ⟨used, usedEq⟩ := Int.eq_ofNat_of_zero_le nonnegative.2
    have usedColumn : ∃ stored, integerColumn (row.lrtUsed : Rat) = some stored := by
      simp only [SessionUpdate.set, applyReservation, toSentinelState, Option.getD_some,
        Option.bind_eq_bind, Option.bind_eq_some_iff] at ok
      obtain ⟨_, _, stored, usedStored, _⟩ := ok
      exact ⟨stored, usedStored⟩
    obtain ⟨stored, usedStored⟩ := usedColumn
    have usedExact := double_column usedStored nonnegative.2
    have setReserved : (applyReservation (.finite (n : Rat))
        (toSentinelState row latestMeter)).state.lrtReserved = double ((reserved + n : Nat) : Rat) := by
      simp only [applyReservation, toSentinelState, positivePart_nonnegative stepNonnegative, reservedEq]
      push_cast
      rfl
    have setUsed : (applyReservation (.finite (n : Rat))
        (toSentinelState row latestMeter)).state.lrtUsed = double ((used : Nat) : Rat) := by
      simp only [applyReservation, toSentinelState]
      rw [usedEq, Int.cast_natCast] at usedExact ⊢
      rw [usedExact]
    obtain ⟨reservedSum, usedSum, nextNonnegative⟩ :=
      set_counters (congrArg some setReserved) (congrArg some setUsed) ok
    have rowReserved := agrees.reserved
    have rowUsed := agrees.used
    rw [reservedEq, Int.cast_natCast] at rowReserved
    rw [usedEq, Int.cast_natCast] at rowUsed
    have delta : (applyReservation (.finite (n : Rat)) (toSentinelState row latestMeter)).reservedDelta =
        n := positivePart_nonnegative stepNonnegative
    refine ⟨⟨?_, ?_⟩, nextNonnegative, before, .inl ⟨key, n, _, rfl, rfl, ?_, rfl, fresh⟩, fun _ => ?_⟩
    · rw [reservedSum, total_append, total_append, total_single, total_single]
      simp only [reservePayload, delta, Option.getD_some]
      push_cast
      rw [rowReserved]
      ring
    · rw [usedSum, total_append, total_single]
      simp only [reduceCtorEq, if_false, add_zero]
      exact rowUsed
    · simp only [reservePayload, delta]
    · change (reservations (known ++ [_]) key).map (·.reservedDelta) = [some (n : Rat)]
      rw [reservations_append, fresh, List.nil_append]
      simp [reservations, reservePayload, delta]
  · split at outcome
    · cases outcome
      obtain ⟨sameReserved, sameUsed⟩ := set_same rfl rfl ok
      have sameRow : Agrees next known := by
        refine ⟨?_, ?_⟩
        · rw [sameReserved]
          exact agrees.reserved
        · rw [sameUsed]
          exact agrees.used
      refine ⟨sameRow.note rfl, ?_, before, .inr ?_, fun allowed => ?_⟩
      · unfold CountersNonnegative
        rw [sameReserved, sameUsed]
        exact nonnegative
      · intro entry member
        rw [List.mem_singleton.mp member]
        exact nofun
      · rename_i denied _
        exact absurd allowed denied
    · cases outcome

theorem reconcile_emitting {actualCostLrt reservedCostLrt : Rat}
    (actualNonnegative : 0 ≤ actualCostLrt) (reservedNonnegative : 0 ≤ reservedCostLrt)
    (actualWhole : actualCostLrt.den = 1)
    (releasedWhole : (min reservedCostLrt (row.lrtReserved : Rat)).den = 1)
    (agrees : Agrees row known) (nonnegative : CountersNonnegative row)
    (outcome : BudgetLedger.reconcileBudget key actualCostLrt reservedCostLrt row latestMeter = .write written)
    (ok : written.update.set row = some next) :
    Emitting (some row) known (.reconcile key actualCostLrt reservedCostLrt) next written.events false
      written.result := by
  have before : false = false → ∀ other ∈ some row, Agrees other known := by
    rintro _ _ ⟨rfl⟩
    exact agrees
  cases outcome
  obtain ⟨actual, rfl⟩ := whole_eq actualNonnegative actualWhole
  obtain ⟨reserved, reservedEq⟩ := Int.eq_ofNat_of_zero_le nonnegative.1
  have counterNonnegative : (0 : Rat) ≤ row.lrtReserved := by exact_mod_cast nonnegative.1
  -- at most what is reserved is released
  obtain ⟨released, releasedEq⟩ :=
    whole_eq (le_min reservedNonnegative counterNonnegative) releasedWhole
  have enough : released ≤ reserved := by
    have bound := min_le_right reservedCostLrt (row.lrtReserved : Rat)
    rw [releasedEq, reservedEq, Int.cast_natCast] at bound
    exact_mod_cast bound
  obtain ⟨used, usedEq⟩ := Int.eq_ofNat_of_zero_le nonnegative.2
  have rowReserved := agrees.reserved
  have rowUsed := agrees.used
  rw [reservedEq, Int.cast_natCast] at rowReserved
  rw [usedEq, Int.cast_natCast] at rowUsed
  let reconciliation := applyReconciliation (.finite (actual : Rat)) (.finite reservedCostLrt)
    (toSentinelState row latestMeter)
  have usedDelta : reconciliation.usedDelta = actual := positivePart_nonnegative actualNonnegative
  have reservedDelta : reconciliation.reservedDelta = (released : Rat) := by
    change (if 0 < positivePart (.finite reservedCostLrt) then
      min (positivePart (.finite reservedCostLrt)) (row.lrtReserved : Rat) else 0) = _
    rw [positivePart_nonnegative reservedNonnegative, releasedEq]
    split
    · rfl
    · rename_i zero
      rw [not_lt] at zero
      have none' : reservedCostLrt = 0 := le_antisymm zero reservedNonnegative
      rw [← releasedEq, none', min_eq_left counterNonnegative]
  have rest : (row.lrtReserved : Rat) - reconciliation.reservedDelta =
      ((reserved - released : Nat) : Rat) := by
    rw [reservedDelta, reservedEq, Int.cast_natCast, Nat.cast_sub enough]
  have setReserved : reconciliation.state.lrtReserved =
      double ((reserved - released : Nat) : Rat) := by
    change max 0 (double ((row.lrtReserved : Rat) - reconciliation.reservedDelta)) = _
    rw [rest]
    refine max_eq_right ?_
    rcases Double.double_exact_or_large (reserved - released) with exact' | large
    · rw [exact']
      exact Nat.cast_nonneg _
    · exact le_trans (by norm_num) large
  have setUsed : reconciliation.state.lrtUsed = double ((used + actual : Nat) : Rat) := by
    change double ((row.lrtUsed : Rat) + reconciliation.usedDelta) = _
    rw [usedDelta, usedEq, Int.cast_natCast]
    push_cast
    rfl
  obtain ⟨reservedSum, usedSum, nextNonnegative⟩ :=
    set_counters (congrArg some setReserved) (congrArg some setUsed) ok
  have exhausted : ∀ entry ∈ (if reconciliation.becameExhausted then
      [((.budgetExhausted : ActivityEventType), ({} : ActivityPayload))] else []),
      entry = (.budgetExhausted, {}) := by
    intro entry member
    split at member
    · exact List.mem_singleton.mp member
    · cases member
  have single : Agrees next (known ++ [(.budgetReconciled,
      reconcilePayload key actual reservedCostLrt reconciliation)]) := by
    refine ⟨?_, ?_⟩
    · rw [reservedSum, total_append, total_append, total_single, total_single]
      simp only [reduceCtorEq, if_false, if_true, reconcilePayload, Option.getD_some]
      rw [reservedDelta, Nat.cast_sub enough, rowReserved]
      ring
    · rw [usedSum, total_append, total_single]
      simp only [if_true, reconcilePayload, Option.getD_some]
      rw [usedDelta, Nat.cast_add, rowUsed]
  refine ⟨?_, nextNonnegative, before, .inr ?_, nofun⟩
  · change Agrees next (known ++ (.budgetReconciled,
      reconcilePayload key actual reservedCostLrt reconciliation) ::
        if reconciliation.becameExhausted then [(.budgetExhausted, {})] else [])
    split
    · have noted : Agrees next ((known ++ [(.budgetReconciled,
          reconcilePayload key actual reservedCostLrt reconciliation)]) ++
          [(.budgetExhausted, ({} : ActivityPayload))]) :=
        single.note rfl
      rw [List.append_assoc] at noted
      exact noted
    · exact single
  · intro entry member
    rcases List.mem_cons.mp member with rfl | more
    · exact nofun
    · rw [exhausted entry more]
      exact nofun

/-! ## The invariant -/

/-- What holds of a call by where it stands. -/
def PhaseSound (session : Option SessionRow)
    (known : List (ActivityEventType × ActivityPayload)) : Phase → Prop
  | .waiting call | .locked call => CostsNonnegative call
  | .loaded call row | .metered call row _ => CostsNonnegative call ∧ session = some row
  | .answering call result | .returned call result => result.allowed = true → Counted known call
  | .deciding call row written => CostsNonnegative call ∧ session = some row ∧
      (call.eventType = .budgetReserved → reservations known call.key = []) ∧
      ∃ latestMeter, call.outcome row latestMeter = .write written
  | .updated call row remaining accounted result =>
    Emitting session known call row remaining accounted result
  | .idle | .failed => True

/-- The call is between its first accounting event and its commit. -/
def Phase.accounted : Phase → Bool
  | .updated _ _ _ accounted _ => accounted
  | _ => false

structure LedgerSound (s : LedgerState) : Prop where
  lock : ∀ call, (s.phase call).holdsLock = true → s.lockHolder = some call
  phases : ∀ call, PhaseSound s.session (entries s.journal) (s.phase call)
  agrees : (∀ call, Phase.accounted (s.phase call) = false) →
    ∀ row ∈ s.session, Agrees row (entries s.journal)
  nonnegative : ∀ row ∈ s.session, CountersNonnegative row
  once : ∀ key, (reservations (entries s.journal) key).length ≤ 1
  own : ∀ entry ∈ entries s.journal, entry.1 = .budgetReserved →
    entry.2.reservedDelta = entry.2.requestedStepCostLrt

theorem initial_sound (session : Option SessionRow) : LedgerSound (initial session) := by
  have zero : ∀ row ∈ (initial session).session, row.lrtReserved = 0 ∧ row.lrtUsed = 0 := by
    intro row member
    obtain ⟨old, _, rfl⟩ := Option.map_eq_some_iff.mp member
    exact ⟨rfl, rfl⟩
  refine ⟨nofun, fun _ => trivial, fun _ row member => ⟨?_, ?_⟩, fun row member => ?_,
    fun _ => Nat.zero_le _, fun _ member => absurd member List.not_mem_nil⟩
  · rw [(zero row member).1]
    exact (sub_self (0 : Rat)).symm
  · rw [(zero row member).2]
    rfl
  · unfold CountersNonnegative
    rw [(zero row member).1, (zero row member).2]
    exact ⟨le_rfl, le_rfl⟩

theorem enter_phase (s : LedgerState) (call other : Nat) (next : Phase) :
    (s.enter call next).phase other = if other = call then next else s.phase other := by
  simp only [LedgerState.enter, Function.update_apply]

theorem finish_phase (s : LedgerState) (call other : Nat) (last : Phase) :
    (s.finish call last).phase other = if other = call then last else s.phase other :=
  enter_phase s call other last

/-- Only the holder of the lock is between its update and its commit. -/
theorem LedgerSound.others (sound : LedgerSound s) (holds : (s.phase call).holdsLock = true)
    (different : other ≠ call) : (s.phase other).holdsLock = false := by
  by_contra held
  have mine := sound.lock call holds
  rw [sound.lock other (by simpa using held)] at mine
  exact different (Option.some.inj mine)

theorem accounted_holds (accounted : Phase.accounted phase = true) : phase.holdsLock = true := by
  cases phase with
  | updated => rfl
  | _ => cases accounted

/-- A call goes on without writing anything. -/
theorem enter_sound {next : Phase} (before : LedgerSound s)
    (facts : PhaseSound s.session (entries s.journal) next)
    (holds : next.holdsLock = true → (s.phase call).holdsLock = true)
    (unaccounted : Phase.accounted (s.phase call) = false) : LedgerSound (s.enter call next) := by
  refine ⟨fun other => ?_, fun other => ?_, fun quiet => ?_, before.nonnegative, before.once,
    before.own⟩
  · rw [enter_phase]
    split
    · rename_i same
      rw [same]
      exact fun held => before.lock call (holds held)
    · exact before.lock other
  · rw [enter_phase]
    split
    · exact facts
    · exact before.phases other
  · refine before.agrees fun other => ?_
    by_cases same : other = call
    · rw [same]
      exact unaccounted
    · have others := quiet other
      rw [enter_phase, if_neg same] at others
      exact others

/-- A call ends without writing anything. -/
theorem finish_sound (before : LedgerSound s)
    (facts : PhaseSound s.session (entries s.journal) last) (rests : last.holdsLock = false)
    (unaccounted : Phase.accounted (s.phase call) = false) : LedgerSound (s.finish call last) := by
  refine ⟨fun other held => ?_, fun other => ?_, fun quiet => ?_, before.nonnegative, before.once,
    before.own⟩
  · rw [finish_phase] at held
    split at held
    · rw [rests] at held
      cases held
    · rename_i different
      have released : (s.phase call).holdsLock = false := by
        by_contra holds
        rw [before.others (by simpa using holds) different] at held
        cases held
      simp only [LedgerState.finish, released]
      exact before.lock other held
  · rw [finish_phase]
    split
    · exact facts
    · exact before.phases other
  · refine before.agrees fun other => ?_
    by_cases same : other = call
    · rw [same]
      exact unaccounted
    · have others := quiet other
      rw [finish_phase, if_neg same] at others
      exact others

/-- An event that accounts for nothing disturbs no call. -/
theorem PhaseSound.note (facts : PhaseSound session known phase)
    (other : accountsFor entry.1 = false) : PhaseSound session (known ++ [entry]) phase := by
  have notReserved : entry.1 ≠ .budgetReserved := by
    rintro same
    rw [same] at other
    cases other
  have same : ∀ key, reservations (known ++ [entry]) key = reservations known key := by
    intro key
    rw [reservations_append, reservations_other key notReserved, List.append_nil]
  have counted : ∀ {rest : List (ActivityEventType × ActivityPayload)} {call : BudgetCall},
      Counted (known ++ rest) call → Counted ((known ++ [entry]) ++ rest) call := by
    intro rest call holds
    cases call with
    | reconcile => exact trivial
    | reserve key =>
      simp only [Counted, reservations_append] at holds ⊢
      rw [reservations_other key notReserved, List.append_nil]
      exact holds
  have single : ∀ {call : BudgetCall}, Counted known call → Counted (known ++ [entry]) call := by
    intro call holds
    have added : Counted ((known ++ [entry]) ++ []) call :=
      counted (by rw [List.append_nil]; exact holds)
    rw [List.append_nil] at added
    exact added
  cases phase with
  | idle | waiting | locked | loaded | metered | failed => exact facts
  | answering call result | returned call result => exact fun allowed => single (facts allowed)
  | deciding call row written =>
    obtain ⟨costs, row, fresh, outcome⟩ := facts
    exact ⟨costs, row, fun reserves => (same _).trans (fresh reserves), outcome⟩
  | updated call row remaining accounted result =>
    obtain ⟨agrees, nonnegative, unaccounted, reservation, held⟩ := facts
    refine ⟨?_, nonnegative, fun fresh row member => (unaccounted fresh row member).note other, ?_,
      fun allowed => counted (held allowed)⟩
    · have notReconciled : entry.1 ≠ .budgetReconciled := by
        rintro same
        rw [same] at other
        cases other
      refine ⟨?_, ?_⟩
      · have sums := agrees.reserved
        simp only [total_append, total_single, notReserved, notReconciled, if_false, add_zero]
          at sums ⊢
        exact sums
      · have sums := agrees.used
        simp only [total_append, total_single, notReconciled, if_false, add_zero] at sums ⊢
        exact sums
    · refine reservation.imp ?_ id
      rintro ⟨key, cost, payload, shape, keyed, delta, requested, fresh⟩
      exact ⟨key, cost, payload, shape, keyed, delta, requested, (same key).trans fresh⟩

/-! ## Steps -/

/-- The steps that keep ledger and journal together: no call fails between its first
accounting event and its commit, no participant posts an accounting event, and no
column rounds a fraction away. -/
def intact (s : LedgerState) : LedgerStep → Bool
  | .updateSessionBudget call =>
    match s.phase call with
    | .deciding budgetCall row written =>
      wholeDeltas row budgetCall || (written.update.set row).isNone ||
        !written.events.any fun entry => accountsFor entry.1
    | _ => true
  | .fail call => !Phase.accounted (s.phase call)
  | .postActivity eventType _ _ => !accountsFor eventType
  | _ => true

def Intact (s : LedgerState) (step : LedgerStep) : Prop := intact s step = true

instance (s : LedgerState) (step : LedgerStep) : Decidable (Intact s step) :=
  inferInstanceAs (Decidable (_ = true))

theorem reservations_entries (journal : List ActivityEvent) (key : String) :
    reservations (entries journal) key =
      (keyedEvents journal .budgetReserved key).map (·.payload) := by
  simp only [reservations, entries, List.filter_map, List.map_map]
  rfl

/-- The answer to a repeated request was counted when its event was written. -/
theorem replay_counted (before : LedgerSound s) {call : BudgetCall}
    (newest : isNewest s.journal call.eventType call.key (some event) = true)
    (ok : replay event.payload call = .ok result) : Counted (entries s.journal) call := by
  cases call with
  | reconcile => exact trivial
  | reserve key cost options nowMs =>
    simp only [isNewest, Bool.and_eq_true, List.contains_iff_mem] at newest
    have member := newest.1
    obtain ⟨same, _⟩ := require_bind_ok ok
    have listed := List.mem_map_of_mem (f := fun event : ActivityEvent => event.payload) member
    have stored := (List.mem_filter.mp member).1
    have typed := (List.mem_filter.mp member).2
    simp only [Bool.and_eq_true, decide_eq_true_eq] at typed
    have delta := before.own (event.eventType, event.payload)
      (List.mem_map_of_mem (f := fun event : ActivityEvent => (event.eventType, event.payload)) stored)
      typed.1
    have once := before.once key
    change (reservations (entries s.journal) key).map (·.reservedDelta) = [some cost]
    rw [reservations_entries] at once ⊢
    change event.payload ∈ (keyedEvents s.journal .budgetReserved key).map _ at listed
    match shape : (keyedEvents s.journal .budgetReserved key).map (fun event => event.payload) with
    | [] =>
      rw [shape] at listed
      cases listed
    | [payload] =>
      rw [shape, List.mem_singleton] at listed
      rw [shape, List.map_singleton, ← listed, delta, same]
    | _ :: _ :: _ =>
      rw [shape] at once
      simp at once

theorem answer_denied {call : BudgetCall}
    (outcome : call.outcome row latestMeter = .answer result) : result.allowed = false := by
  cases call with
  | reserve key cost options nowMs =>
    simp only [BudgetCall.outcome, BudgetLedger.reserveBudget] at outcome
    split at outcome
    · cases outcome
    · rename_i denied
      split at outcome
      · cases outcome
      · cases outcome
        simpa [BudgetResult.allowed, StoredDecision.allowed] using denied
  | reconcile => cases outcome

theorem outcome_emitting {call : BudgetCall} (costs : CostsNonnegative call)
    (whole : (written.events.any fun entry => accountsFor entry.1) = true → wholeDeltas row call = true)
    (agrees : Agrees row known) (nonnegative : CountersNonnegative row)
    (fresh : call.eventType = .budgetReserved → reservations known call.key = [])
    (outcome : call.outcome row latestMeter = .write written)
    (ok : written.update.set row = some next) :
    Emitting (some row) known call next written.events false written.result := by
  cases call with
  | reserve key cost options nowMs =>
    exact reserve_emitting costs (fun accounts => of_decide_eq_true (whole accounts)) agrees nonnegative
      (fresh rfl) outcome ok
  | reconcile key actual reserved =>
    have accounts : (written.events.any fun entry => accountsFor entry.1) = true := by
      cases outcome
      rfl
    have deltas := whole accounts
    simp only [wholeDeltas, Bool.and_eq_true, decide_eq_true_eq] at deltas
    exact reconcile_emitting costs.1 costs.2 deltas.1 deltas.2 agrees nonnegative outcome ok

/-- A fresh reservation leaves what other keys count alone. -/
theorem Counted.reserve {call : BudgetCall} (counted : Counted known call)
    (keyed : payload.idempotencyKey = some key) (fresh : reservations known key = []) :
    Counted (known ++ [(.budgetReserved, payload)]) call := by
  cases call with
  | reconcile => exact trivial
  | reserve other cost options nowMs =>
    have different : other ≠ key := by
      rintro rfl
      simp only [Counted, fresh] at counted
      cases counted
    have none' : reservations [(.budgetReserved, payload)] other = [] := by
      have unequal : ¬ key = other := fun same => different same.symm
      simp [reservations, keyed, unequal]
    simp only [Counted, reservations_append, none', List.append_nil]
    exact counted

theorem emit_sound (before : LedgerSound s)
    (position : s.phase call = .updated budgetCall row ((eventType, payload) :: remaining) accounted result) :
    LedgerSound { s.enter call
      (.updated budgetCall row remaining (accounted || accountsFor eventType) result) with
        journal := s.journal ++ [⟨eventType, payload, now⟩] } := by
  have facts := before.phases call
  rw [position] at facts
  obtain ⟨agrees, nonnegative, unaccounted, reservation, counted⟩ := facts
  have holds : (s.phase call).holdsLock = true := by rw [position]; rfl
  have reassoc : (entries s.journal ++ [(eventType, payload)]) ++ remaining =
      entries s.journal ++ (eventType, payload) :: remaining := by
    rw [List.append_assoc]
    rfl
  have fresh : eventType = .budgetReserved → ∃ key cost, payload.idempotencyKey = some key ∧
      payload.reservedDelta = some cost ∧ payload.requestedStepCostLrt = some cost ∧
      reservations (entries s.journal) key = [] := by
    rintro rfl
    rcases reservation with ⟨key, cost, stored, shape, keyed, delta, requested, free⟩ | none'
    · cases shape
      exact ⟨key, cost, keyed, delta, requested, free⟩
    · exact absurd rfl (none' _ List.mem_cons_self)
  have quietAgrees : (accounted || accountsFor eventType) = false → ∀ row ∈ s.session,
      Agrees row (entries s.journal ++ [(eventType, payload)]) := by
    intro quiet row member
    rw [Bool.or_eq_false_iff] at quiet
    exact (unaccounted quiet.1 row member).note quiet.2
  refine ⟨fun other => ?_, fun other => ?_, fun quiet => ?_, before.nonnegative, fun key => ?_, ?_⟩
  · change ((s.enter call _).phase other).holdsLock = true → _
    rw [enter_phase]
    split
    · rename_i same
      rw [same]
      exact fun _ => before.lock call holds
    · exact before.lock other
  · change PhaseSound s.session (entries (s.journal ++ [_])) ((s.enter call _).phase other)
    rw [enter_phase, entries_append]
    split
    · refine ⟨?_, nonnegative, quietAgrees, .inr ?_, fun allowed => ?_⟩
      · rw [reassoc]
        exact agrees
      · rcases reservation with ⟨_, _, _, shape, _⟩ | none'
        · cases shape
          exact fun _ member => absurd member List.not_mem_nil
        · exact fun entry member => none' entry (.tail _ member)
      · rw [reassoc]
        exact counted allowed
    · rename_i different
      have outside := before.others holds different
      have others := before.phases other
      cases shape : s.phase other with
      | idle | failed => exact trivial
      | waiting call =>
        rw [shape] at others
        exact others
      | returned otherCall result =>
        rw [shape] at others
        intro allowed
        by_cases reserved : eventType = .budgetReserved
        · obtain ⟨key, _, keyed, _, _, free⟩ := fresh reserved
          rw [reserved]
          exact (others allowed).reserve keyed free
        · cases otherCall with
          | reconcile => exact trivial
          | reserve key =>
            have held := others allowed
            simp only [Counted, reservations_append] at held ⊢
            rw [reservations_other key reserved, List.append_nil]
            exact held
      | _ =>
        rw [shape] at outside
        cases outside
  · change ∀ row ∈ s.session, Agrees row (entries (s.journal ++ [_]))
    rw [entries_append]
    refine quietAgrees ?_
    have own := quiet call
    rw [enter_phase, if_pos rfl] at own
    exact own
  · change (reservations (entries (s.journal ++ [_])) key).length ≤ 1
    rw [entries_append, reservations_append, List.length_append]
    by_cases reserved : eventType = .budgetReserved
    · obtain ⟨mine, _, keyed, _, _, free⟩ := fresh reserved
      by_cases same : key = mine
      · rw [same, free]
        rw [List.length_nil, Nat.zero_add]
        exact reservations_single _ mine
      · have unequal : ¬ mine = key := fun equal => same equal.symm
        have none' : reservations [(eventType, payload)] key = [] := by
          simp [reservations, keyed, unequal]
        rw [none']
        exact before.once key
    · rw [reservations_other key reserved]
      exact before.once key
  · intro entry member
    rw [entries_append] at member
    rcases List.mem_append.mp member with old | new
    · exact before.own entry old
    · intro typed
      rw [List.mem_singleton] at new
      subst new
      obtain ⟨_, _, _, delta, requested, _⟩ := fresh typed
      rw [delta, requested]

/-- What holds of a call outside the lock does not depend on the session row. -/
theorem PhaseSound.outside (facts : PhaseSound session known phase)
    (outside : phase.holdsLock = false) : PhaseSound other known phase := by
  cases phase with
  | idle | waiting | returned | failed => exact facts
  | _ => cases outside

theorem commit_sound (before : LedgerSound s)
    (position : s.phase call = .updated budgetCall row [] accounted result) :
    LedgerSound { s.finish call (.returned budgetCall result) with session := some row } := by
  have holds : (s.phase call).holdsLock = true := by rw [position]; rfl
  have facts := before.phases call
  rw [position] at facts
  obtain ⟨agrees, nonnegative, _, _, counted⟩ := facts
  rw [List.append_nil] at agrees counted
  refine ⟨fun other held => ?_, fun other => ?_, fun _ => ?_, ?_, before.once, before.own⟩
  · change ((s.finish call _).phase other).holdsLock = true at held
    rw [finish_phase] at held
    split at held
    · cases held
    · rename_i different
      rw [before.others holds different] at held
      cases held
  · change PhaseSound (some row) (entries s.journal) ((s.finish call _).phase other)
    rw [finish_phase]
    split
    · exact counted
    · rename_i different
      exact (before.phases other).outside (before.others holds different)
  · rintro _ ⟨rfl⟩
    exact agrees
  · rintro _ ⟨rfl⟩
    exact nonnegative

theorem checkSession_ok (ok : checkSession session = .ok row) : session = some row := by
  obtain ⟨loaded, present, ok⟩ := found_bind_ok ok
  obtain ⟨_, ok⟩ := require_bind_ok ok
  cases ok
  exact present

/-- A participant's note leaves everything as it was. -/
theorem post_sound (before : LedgerSound s) (other : accountsFor eventType = false)
    (payload : ActivityPayload) (now : Nat) :
    LedgerSound { s with journal := s.journal ++ [⟨eventType, payload, now⟩] } := by
  have notReserved : eventType ≠ .budgetReserved := by
    rintro rfl
    cases other
  refine ⟨before.lock, fun call => ?_, fun quiet row member => ?_, before.nonnegative, fun key => ?_,
    fun entry member typed => ?_⟩
  · change PhaseSound s.session (entries (s.journal ++ [_])) (s.phase call)
    rw [entries_append]
    exact (before.phases call).note other
  · change Agrees row (entries (s.journal ++ [_]))
    rw [entries_append]
    exact (before.agrees quiet row member).note other
  · change (reservations (entries (s.journal ++ [_])) key).length ≤ 1
    rw [entries_append, reservations_append, reservations_other key notReserved, List.append_nil]
    exact before.once key
  · change entry ∈ entries (s.journal ++ [_]) at member
    rw [entries_append] at member
    rcases List.mem_append.mp member with old | new
    · exact before.own entry old typed
    · rw [List.mem_singleton] at new
      subst new
      exact absurd typed notReserved

theorem acquire_sound (before : LedgerSound s) (position : s.phase call = .waiting budgetCall)
    (free : s.lockHolder = none) :
    LedgerSound { s.enter call (.locked budgetCall) with lockHolder := some call } := by
  refine ⟨fun other held => ?_, fun other => ?_, fun quiet => ?_, before.nonnegative, before.once,
    before.own⟩
  · change ((s.enter call _).phase other).holdsLock = true at held
    rw [enter_phase] at held
    split at held
    · rename_i same
      rw [same]
    · have holder := before.lock other held
      rw [free] at holder
      cases holder
  · change PhaseSound s.session (entries s.journal) ((s.enter call _).phase other)
    rw [enter_phase]
    split
    · have facts := before.phases call
      rw [position] at facts
      exact facts
    · exact before.phases other
  · refine before.agrees fun other => ?_
    by_cases same : other = call
    · rw [same, position]
      rfl
    · have others : Phase.accounted ((s.enter call _).phase other) = false := quiet other
      rw [enter_phase, if_neg same] at others
      exact others

theorem ledgerStep_sound (s : LedgerState) (step : LedgerStep) (next : LedgerState)
    (before : LedgerSound s) (kept : Intact s step) (ok : ledgerStep s step = .ok next) :
    LedgerSound next := by
  have phaseOf (call : Nat) (phase : Phase) (position : s.phase call = phase) :
      PhaseSound s.session (entries s.journal) phase := position ▸ before.phases call
  cases step with
  | start call input =>
    simp only [ledgerStep] at ok
    split at ok
    · rename_i position
      have quiet : Phase.accounted (s.phase call) = false := by rw [position]; rfl
      split at ok
      · rename_i valid accepted
        cases ok
        exact enter_sound before (validate_nonnegative accepted) nofun quiet
      · cases ok
        exact enter_sound before trivial nofun quiet
    · cases ok
  | acquireLock call =>
    simp only [ledgerStep] at ok
    split at ok
    · rename_i budgetCall position free
      cases ok
      exact acquire_sound before position free
    · cases ok
  | loadSession call =>
    simp only [ledgerStep] at ok
    split at ok
    · rename_i budgetCall position
      have quiet : Phase.accounted (s.phase call) = false := by rw [position]; rfl
      have costs : CostsNonnegative budgetCall := phaseOf call _ position
      split at ok
      · rename_i row loaded
        cases ok
        refine enter_sound before ⟨costs, checkSession_ok loaded⟩ (fun _ => ?_) quiet
        rw [position]
        rfl
      · cases ok
        exact finish_sound before trivial rfl quiet
    · cases ok
  | loadLatestMeter call latestMeter =>
    simp only [ledgerStep] at ok
    split at ok
    · rename_i budgetCall row position
      cases ok
      have facts : CostsNonnegative budgetCall ∧ s.session = some row := phaseOf call _ position
      refine enter_sound before facts (fun _ => ?_) ?_
      · rw [position]
        rfl
      · rw [position]
        rfl
    · cases ok
  | loadBudgetEvent call existing =>
    simp only [ledgerStep] at ok
    split at ok
    · rename_i budgetCall row latestMeter position
      have quiet : Phase.accounted (s.phase call) = false := by rw [position]; rfl
      have holds : (s.phase call).holdsLock = true := by rw [position]; rfl
      have facts : CostsNonnegative budgetCall ∧ s.session = some row := phaseOf call _ position
      split at ok
      · rename_i newest
        split at ok
        · rename_i event
          split at ok
          · rename_i result answered
            cases ok
            exact enter_sound before (fun _ => replay_counted before newest answered)
              (fun _ => holds) quiet
          · cases ok
            exact finish_sound before trivial rfl quiet
        · split at ok
          · rename_i result answered
            cases ok
            refine enter_sound before (fun allowed => ?_) (fun _ => holds) quiet
            rw [answer_denied answered] at allowed
            cases allowed
          · rename_i written decided
            cases ok
            refine enter_sound before ⟨facts.1, facts.2, fun reserves => ?_, _, decided⟩
              (fun _ => holds) quiet
            rw [reservations_entries, ← reserves, List.isEmpty_iff.mp newest]
            rfl
      · cases ok
    · cases ok
  | updateSessionBudget call =>
    simp only [ledgerStep] at ok
    split at ok
    · rename_i budgetCall row written position
      have quiet : Phase.accounted (s.phase call) = false := by rw [position]; rfl
      have holds : (s.phase call).holdsLock = true := by rw [position]; rfl
      obtain ⟨costs, present, fresh, latestMeter, outcome⟩ := phaseOf call _ position
      split at ok
      · rename_i stored set
        cases ok
        -- no other call is past its update, so the counters agree with the journal
        have agrees : Agrees row (entries s.journal) := by
          refine before.agrees (fun other => ?_) row present
          by_cases same : other = call
          · rw [same]
            exact quiet
          · have outside := before.others holds same
            cases accounted : Phase.accounted (s.phase other) with
            | false => rfl
            | true =>
              rw [accounted_holds accounted] at outside
              cases outside
        have whole : (written.events.any fun entry => accountsFor entry.1) = true →
            wholeDeltas row budgetCall = true := by
          intro accounts
          simpa [Intact, intact, position, set, accounts] using kept
        refine enter_sound before ?_ (fun _ => holds) quiet
        rw [present]
        exact outcome_emitting costs whole agrees (before.nonnegative row present) fresh outcome set
      · cases ok
        exact finish_sound before trivial rfl quiet
    · cases ok
  | emitActivity call now =>
    simp only [ledgerStep] at ok
    split at ok
    · rename_i position
      cases ok
      exact emit_sound before position
    · cases ok
  | commit call =>
    simp only [ledgerStep] at ok
    split at ok
    · rename_i budgetCall result position
      cases ok
      have facts : result.allowed = true → Counted (entries s.journal) budgetCall :=
        phaseOf call _ position
      refine finish_sound before facts rfl ?_
      rw [position]
      rfl
    · rename_i position
      cases ok
      exact commit_sound before position
    · cases ok
  | fail call =>
    simp only [ledgerStep] at ok
    split at ok
    · cases ok
    · cases ok
      refine finish_sound before trivial rfl ?_
      simpa [Intact, intact] using kept
  | postActivity eventType payload now =>
    simp only [ledgerStep] at ok
    split at ok
    · split at ok
      · cases ok
        refine post_sound before ?_ payload now
        simpa [Intact, intact] using kept
      · cases ok
    · cases ok

/-! ## The agreement -/

/-- Counters and journal agree when no call is in flight, and the amount of every
allowed reservation is in the journal once. -/
structure BudgetAccounted (s : LedgerState) : Prop where
  reserved : (∀ call, (s.phase call).resting = true) → ∀ row ∈ s.session,
    (row.lrtReserved : Rat) = total (entries s.journal) .budgetReserved (·.reservedDelta) -
      total (entries s.journal) .budgetReconciled (·.reservedDelta)
  used : (∀ call, (s.phase call).resting = true) → ∀ row ∈ s.session,
    (row.lrtUsed : Rat) = total (entries s.journal) .budgetReconciled (·.usedDelta)
  counted : ∀ call key stepCostLrt options nowMs result,
    s.phase call = .returned (.reserve key stepCostLrt options nowMs) result →
    result.allowed = true →
    (reservations (entries s.journal) key).map (·.reservedDelta) = [some stepCostLrt]

theorem LedgerSound.accounted (sound : LedgerSound s) : BudgetAccounted s := by
  have resting : (∀ call, (s.phase call).resting = true) → ∀ row ∈ s.session,
      Agrees row (entries s.journal) := by
    intro rests
    refine sound.agrees fun call => ?_
    have rest := rests call
    cases position : s.phase call with
    | updated =>
      rw [position] at rest
      cases rest
    | _ => rfl
  refine ⟨fun rests row member => (resting rests row member).reserved,
    fun rests row member => (resting rests row member).used, ?_⟩
  intro call key stepCostLrt options nowMs result position allowed
  have facts := sound.phases call
  rw [position] at facts
  exact facts allowed

/-- In every run without a failure between accounting event and commit and without a
posted accounting event, ledger and journal agree. -/
theorem budget_accounted (session : Option SessionRow) (steps : List LedgerStep)
    (kept : Replay.Meets ledgerStep Intact (BudgetLedger.initial session) steps) :
    BudgetAccounted (Replay.replay ledgerStep (BudgetLedger.initial session) steps) :=
  (Replay.replay_preserves Intact LedgerSound
    (fun s step next sound intact ok => ledgerStep_sound s step next sound intact ok)
    kept (initial_sound session)).accounted

/-- The statements of one request on a session that has no such event. -/
def statements (call : Nat) (input : BudgetInput) : List LedgerStep :=
  [.start call input, .acquireLock call, .loadSession call, .loadLatestMeter call none,
    .loadBudgetEvent call none, .updateSessionBudget call, .emitActivity call 1]

def sampleReserve : BudgetInput := .reserve (some "k") (.finite 5) ⟨none, none⟩ 0

def sampleReconcile : BudgetInput := .reconcile (some "k") (.finite 3) (.finite 5)

def sampleSession : Option SessionRow := some
  { status := .active, requestExpiresAt := none, directMember := false, roomAssigned := true,
    launchAttempt := 0, launchState := none, daemonEntryId := none, lrtLimit := some 100,
    lrtReserved := 0, lrtUsed := 0, budgetStopThreshold := none, meterConfidence := none,
    heartbeatCount := 0 }

theorem budget_accounted_reserve_reconcile :
    BudgetAccounted (Replay.replay ledgerStep (BudgetLedger.initial sampleSession)
      (statements 0 sampleReserve ++ [.commit 0] ++ (statements 1 sampleReconcile ++ [.commit 1]))) :=
  budget_accounted sampleSession _ (by decide +kernel)

/-- The call that a step belongs to. -/
def stepCall : LedgerStep → Option Nat
  | .start call _ | .acquireLock call | .loadSession call | .loadLatestMeter call _
  | .loadBudgetEvent call _ | .updateSessionBudget call | .emitActivity call _ | .commit call
  | .fail call => some call
  | .postActivity .. => none

/-- A step moves its own call and no other. -/
theorem other_phase {next : LedgerState} (ok : ledgerStep s step = .ok next)
    (different : stepCall step ≠ some call) : next.phase call = s.phase call := by
  have enters (mine : Nat) (unequal : mine ≠ call) (phase : Phase) :
      (s.enter mine phase).phase call = s.phase call := by
    rw [enter_phase, if_neg (Ne.symm unequal)]
  cases step with
  | postActivity eventType payload now =>
    simp only [ledgerStep] at ok
    split at ok
    · split at ok
      · cases ok
        rfl
      · cases ok
    · cases ok
  | start mine | acquireLock mine | loadSession mine | loadLatestMeter mine | loadBudgetEvent mine
  | updateSessionBudget mine | emitActivity mine | commit mine | fail mine =>
    have unequal : mine ≠ call := fun same => different (congrArg some same)
    simp only [ledgerStep] at ok
    repeat' split at ok
    all_goals first
      | cases ok; exact enters mine unequal _
      | cases ok

theorem untouched_phase (s : LedgerState) (steps : List LedgerStep) (call : Nat)
    (untouched : ∀ step ∈ steps, stepCall step ≠ some call) :
    (Replay.replay ledgerStep s steps).phase call = s.phase call := by
  induction steps generalizing s with
  | nil => rfl
  | cons step rest ih =>
    rw [Replay.replay_cons, ih _ fun other member => untouched other (.tail _ member)]
    cases result : ledgerStep s step with
    | ok next =>
      rw [Replay.attempt_of_ok result]
      exact other_phase result (untouched step List.mem_cons_self)
    | error => rw [Replay.attempt_of_error result]

/-- A reservation that fails after its event is emitted. -/
def failedReservation : List LedgerStep := statements 0 sampleReserve ++ [.fail 0]

/-- The event stays behind: the counter is zero, the journal has five. -/
theorem failed_reservation_stays :
    ¬ ∀ session steps, BudgetAccounted
      (Replay.replay ledgerStep (BudgetLedger.initial session) steps) := by
  intro accounted
  let last := Replay.replay ledgerStep (BudgetLedger.initial sampleSession) failedReservation
  have rests : ∀ call, (last.phase call).resting = true := by
    intro call
    by_cases mine : call = 0
    · rw [mine]
      decide +kernel
    · have others : ∀ step ∈ failedReservation, stepCall step = some 0 := by decide +kernel
      have untouched := untouched_phase (BudgetLedger.initial sampleSession) failedReservation call
        fun step member same => mine (Option.some.inj ((others step member).symm.trans same)).symm
      change (LedgerState.phase (Replay.replay _ _ _) call).resting = true
      rw [untouched]
      rfl
  have lost : ∃ row ∈ last.session, (row.lrtReserved : Rat) ≠
      total (entries last.journal) .budgetReserved (·.reservedDelta) -
        total (entries last.journal) .budgetReconciled (·.reservedDelta) := by
    decide +kernel
  obtain ⟨row, member, unequal⟩ := lost
  exact unequal ((accounted sampleSession failedReservation).reserved rests row member)

end LetAgents.Rental.BudgetAgreement

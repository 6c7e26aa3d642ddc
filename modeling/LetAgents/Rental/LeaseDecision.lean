import LetAgents.Rental.BudgetSentinel

/-!
# Quota leases

Source: src/api/rental/quota-lease.ts:47-314, quota-lease-orchestrator.ts:109-283 and
sessions/quota.ts:65-159.

A session leases the lane whose quota it spends. The lease is one `jsonb` column of the
session row; what decides about it is pure.

Modelling boundary: the activity events are left out, since no decision reads them, and
`materiallyChanged` and `refreshLease`, which no caller of these functions uses.
-/
namespace LetAgents.Rental.LeaseDecision

open Lib.Js BudgetSentinel

/-! ## Lanes -/

/-- `none` for an account that is no string. -/
structure QuotaLane where
  provider : String
  model : Option String
  quotaLaneId : Option String
  providerAccountId : Option String

structure QuotaLeaseSnapshot where
  nativeUnit : Option String
  nativeRemaining : Option Rat
  nativeResetAt : Option String
  confidence : QuotaConfidence
  observedAt : String

structure QuotaLease where
  sessionId : String
  lane : QuotaLane
  lockedAt : String
  lastRefreshedAt : String
  releasedAt : Option String
  releaseReason : Option String
  snapshot : QuotaLeaseSnapshot

def laneKey (provider : String) (model : Option String) : String :=
  provider ++ "::" ++ model.getD ""

def laneKeyOf (lane : QuotaLane) : String := laneKey lane.provider lane.model

def normalizedAccountId (lane : QuotaLane) : Option String :=
  lane.providerAccountId.filter fun value => trim value ≠ ""

def lanesConflict (a b : QuotaLane) : Bool :=
  laneKeyOf a = laneKeyOf b &&
    match normalizedAccountId a, normalizedAccountId b with
    | some accountA, some accountB => accountA = accountB
    | _, _ => true

theorem lanesConflict_comm (a b : QuotaLane) : lanesConflict a b = lanesConflict b a := by
  unfold lanesConflict
  cases normalizedAccountId a with
  | none | some accountA => cases normalizedAccountId b <;> simp only [eq_comm]

/-- A lane without an account conflicts with every account of its provider and model. -/
theorem lanesConflict_of_accountless (provider : a.provider = b.provider)
    (model : a.model = b.model) (accountless : normalizedAccountId a = none) :
    lanesConflict a b = true := by
  have key : laneKeyOf a = laneKeyOf b := by
    unfold laneKeyOf
    rw [provider, model]
  simp [lanesConflict, key, accountless]

/-! ## Capacity -/

def maxLaneCapacity : Int := 16

def isExactConfidence (confidence : QuotaConfidence) : Bool :=
  confidence = .officialExact || confidence = .localExact

/-- `none` for a number that is missing. -/
def laneCapacity (maxConcurrentSessions : Option Int) (confidences : List QuotaConfidence) : Int :=
  let requested := match maxConcurrentSessions with
    | some value => if 1 ≤ value then min value maxLaneCapacity else 1
    | none => 1
  if requested = 1 then 1
  else if confidences = [] then 1
  else if confidences.all isExactConfidence then requested
  else 1

theorem one_le_laneCapacity (maxConcurrentSessions : Option Int)
    (confidences : List QuotaConfidence) : 1 ≤ laneCapacity maxConcurrentSessions confidences := by
  unfold laneCapacity
  cases maxConcurrentSessions with
  | none => simp
  | some value =>
    dsimp only
    by_cases positive : 1 ≤ value
    · have bound : 1 ≤ min value maxLaneCapacity := le_min positive (by decide)
      rw [if_pos positive]
      split
      · exact le_refl 1
      · split
        · exact le_refl 1
        · split
          · exact bound
          · exact le_refl 1
    · rw [if_neg positive, if_pos rfl]

/-! ## Decisions -/

inductive QuotaLeaseReason where
  | available | laneLocked | invalidLane | alreadyReleased | sameSession

structure CanCreateLeaseDecision where
  allowed : Bool
  reason : QuotaLeaseReason
  heldBy : Option String
  activeCount : Nat
  capacity : Int

/-- `!!lease.releasedAt`. -/
def QuotaLease.released (lease : QuotaLease) : Bool := present lease.releasedAt

/-- The loop over the active leases: the session that renews, or all holders. -/
def scanHolders (lane : QuotaLane) (sessionId : String) :
    List QuotaLease → List String → Except (String × Nat) (List String)
  | [], holders => .ok holders
  | lease :: rest, holders =>
    if lease.released then scanHolders lane sessionId rest holders
    else if ¬ lanesConflict lease.lane lane then scanHolders lane sessionId rest holders
    else if lease.sessionId = sessionId then .error (lease.sessionId, holders.length)
    else scanHolders lane sessionId rest (holders ++ [lease.sessionId])

def canCreateLease (active : List QuotaLease) (lane : QuotaLane) (sessionId : String)
    (capacity : Int) : CanCreateLeaseDecision :=
  let effectiveCapacity := if 1 ≤ capacity then capacity else 1
  if trim lane.provider = "" then ⟨false, .invalidLane, none, 0, effectiveCapacity⟩
  else match scanHolders lane sessionId active [] with
    | .error (heldBy, count) => ⟨true, .sameSession, some heldBy, count, effectiveCapacity⟩
    | .ok holders =>
      if effectiveCapacity ≤ holders.length then
        ⟨false, .laneLocked, holders.head?, holders.length, effectiveCapacity⟩
      else ⟨true, .available, none, holders.length, effectiveCapacity⟩

def createLease (sessionId : String) (lane : QuotaLane) (snapshot : QuotaLeaseSnapshot)
    (nowIso : String) : QuotaLease where
  sessionId := sessionId
  lane := lane
  lockedAt := nowIso
  lastRefreshedAt := nowIso
  releasedAt := none
  releaseReason := none
  snapshot := snapshot

/-- The lease after its release; `none` when that changes nothing. -/
def releaseLease (lease : QuotaLease) (reason nowIso : String) : Option QuotaLease :=
  if lease.released then none
  else some { lease with releasedAt := some nowIso, releaseReason := some reason }

/-! ## Requests -/

structure AcquireLeaseInput where
  sessionId : String
  roomId : Option String
  lane : QuotaLane
  snapshot : QuotaLeaseSnapshot
  laneCapacity : Option Int

structure AcquireLeaseFailure where
  reason : QuotaLeaseReason
  conflictingSessionId : Option String

/-- `acquireLeaseLocked`, up to the write of the lease it returns. -/
def acquireLeaseLocked (input : AcquireLeaseInput) (active : List QuotaLease) (nowIso : String) :
    Except AcquireLeaseFailure QuotaLease :=
  let decision := canCreateLease active input.lane input.sessionId (input.laneCapacity.getD 1)
  if decision.allowed then .ok (createLease input.sessionId input.lane input.snapshot nowIso)
  else .error ⟨decision.reason, decision.heldBy⟩

/-- What `releaseSessionLease` writes over the lease it loaded. -/
def releaseSessionLease (current : Option QuotaLease) (reason nowIso : String) : Option QuotaLease :=
  current.bind fun lease => releaseLease lease reason nowIso

/-! ## What a grant says -/

/-- An active lease of another session in the way of a request. -/
def rival (lane : QuotaLane) (sessionId : String) (lease : QuotaLease) : Bool :=
  !lease.released && lanesConflict lease.lane lane && lease.sessionId ≠ sessionId

/-- An active lease that the request renews. -/
def renewed (lane : QuotaLane) (sessionId : String) (lease : QuotaLease) : Bool :=
  !lease.released && lanesConflict lease.lane lane && lease.sessionId = sessionId

theorem scanHolders_spec (lane : QuotaLane) (sessionId : String) (active : List QuotaLease)
    (holders : List String) :
    match scanHolders lane sessionId active holders with
    | .error _ => active.any (renewed lane sessionId) = true
    | .ok found => active.any (renewed lane sessionId) = false ∧
        found.length = holders.length + active.countP (rival lane sessionId) := by
  induction active generalizing holders with
  | nil => simp [scanHolders]
  | cons lease rest ih =>
    unfold scanHolders
    by_cases isOver : lease.released = true
    · have notRenewed : renewed lane sessionId lease = false := by simp [renewed, isOver]
      have notRival : rival lane sessionId lease = false := by simp [rival, isOver]
      rw [if_pos isOver, List.any_cons, notRenewed, Bool.false_or,
        List.countP_cons_of_neg (by rw [notRival]; exact Bool.false_ne_true)]
      exact ih holders
    · rw [if_neg isOver]
      by_cases conflicts : lanesConflict lease.lane lane = true
      · rw [if_neg (not_not.mpr conflicts)]
        by_cases own : lease.sessionId = sessionId
        · rw [if_pos own]
          simp [renewed, isOver, conflicts, own]
        · have notRenewed : renewed lane sessionId lease = false := by simp [renewed, own]
          have counted : rival lane sessionId lease = true := by simp [rival, isOver, conflicts, own]
          rw [if_neg own, List.any_cons, notRenewed, Bool.false_or, List.countP_cons_of_pos counted]
          have tail := ih (holders ++ [lease.sessionId])
          cases result : scanHolders lane sessionId rest (holders ++ [lease.sessionId]) with
          | error held =>
            rw [result] at tail
            exact tail
          | ok found =>
            rw [result] at tail
            refine ⟨tail.1, ?_⟩
            rw [tail.2, List.length_append, List.length_singleton]
            omega
      · rw [if_pos conflicts]
        have notRenewed : renewed lane sessionId lease = false := by simp [renewed, conflicts]
        have notRival : rival lane sessionId lease = false := by simp [rival, conflicts]
        rw [List.any_cons, notRenewed, Bool.false_or,
          List.countP_cons_of_neg (by rw [notRival]; exact Bool.false_ne_true)]
        exact ih holders

/-- A grant renews a lease of the session, or counted fewer rivals than the capacity. The
order of the active leases does not matter. -/
theorem canCreateLease_allowed (positive : 1 ≤ capacity) :
    (canCreateLease active lane sessionId capacity).allowed = true ↔ trim lane.provider ≠ "" ∧
      (active.any (renewed lane sessionId) = true ∨
        (active.countP (rival lane sessionId) : Int) < capacity) := by
  have scan := scanHolders_spec lane sessionId active []
  unfold canCreateLease
  by_cases invalid : trim lane.provider = ""
  · simp [invalid]
  · rw [if_neg invalid]
    cases result : scanHolders lane sessionId active [] with
    | error held =>
      rw [result] at scan
      simp only [true_iff]
      exact ⟨invalid, .inl scan⟩
    | ok found =>
      rw [result] at scan
      have length : (found.length : Int) = active.countP (rival lane sessionId) := by
        rw [scan.2, List.length_nil, Nat.zero_add]
      simp only [if_pos positive, length, scan.1, Bool.false_eq_true, false_or]
      split
      · rename_i full
        simp only [Bool.false_eq_true, false_iff, not_and, not_lt]
        exact fun _ => full
      · rename_i room
        simp only [true_iff]
        exact ⟨invalid, not_le.mp room⟩

theorem acquireLeaseLocked_ok (ok : acquireLeaseLocked input active nowIso = .ok lease) :
    (canCreateLease active input.lane input.sessionId (input.laneCapacity.getD 1)).allowed = true ∧
      lease = createLease input.sessionId input.lane input.snapshot nowIso := by
  unfold acquireLeaseLocked at ok
  dsimp only at ok
  split at ok
  · rename_i allowed
    cases ok
    exact ⟨allowed, rfl⟩
  · cases ok

end LetAgents.Rental.LeaseDecision

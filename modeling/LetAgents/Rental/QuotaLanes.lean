import Mathlib.Data.List.Dedup
import LetAgents.Lib.Checked
import LetAgents.Lib.Replay
import LetAgents.Lib.Table
import LetAgents.Rental.LeaseDecision

/-!
# Quota lanes

Every lease was granted with a capacity, and the other leases in its way should stay
below it. A grant checks the newcomer's own capacity against the leases of its provider
and model; `fits` is what it does not check: the room of each holder, the lane that a
renewal moves to, and a lane key that two pairs of provider and model spell alike.
-/
namespace LetAgents.Rental.QuotaLanes

open Lib Lib.Js Lib.Checked
open LetAgents.Rental.BudgetSentinel (QuotaConfidence)
open LeaseDecision

/-! ## The table -/

/-- A row of `rental_sessions`; `capacity` is not a column, but what its last lease was
granted with. -/
structure LeaseRow where
  id : String
  quotaLease : Option QuotaLease
  capacity : Int

/-- `quota_lease IS NOT NULL AND quota_lease->>'releasedAt' IS NULL`. -/
def LeaseRow.active (row : LeaseRow) : Option QuotaLease :=
  row.quotaLease.filter fun lease => lease.releasedAt.isNone

def listedUnder (lane : QuotaLane) (lease : QuotaLease) : Bool :=
  lease.lane.provider = lane.provider && lease.lane.model.getD "" = lane.model.getD ""

def loadActiveLeasesForLane (rows : List LeaseRow) (lane : QuotaLane) : List QuotaLease :=
  rows.filterMap fun row => row.active.filter (listedUnder lane)

def loadSessionLease (rows : List LeaseRow) (sessionId : String) : Option QuotaLease :=
  (Table.find LeaseRow.id sessionId rows).bind LeaseRow.quotaLease

/-- `granted`: the capacity, where the write is a grant. -/
def persistSessionLease (rows : List LeaseRow) (sessionId : String) (lease : QuotaLease)
    (granted : Option Int) : List LeaseRow :=
  rows.map fun row =>
    if row.id = sessionId then
      { row with quotaLease := some lease, capacity := granted.getD row.capacity }
    else row

/-- Sessions without leases. -/
def initial (sessions : List String) : List LeaseRow :=
  sessions.dedup.map fun id => ⟨id, none, 1⟩

inductive LaneStep where
  | acquireLease (sessionId : String) (roomId : Option String) (lane : QuotaLane)
      (snapshot : QuotaLeaseSnapshot) (maxConcurrentSessions : Option Int)
      (confidences : List QuotaConfidence) (now : String)
  | releaseSessionLease (sessionId reason now : String)

/-- One call; its lock makes an acquisition one step. -/
def laneStep (rows : List LeaseRow) : LaneStep → Except AcquireLeaseFailure (List LeaseRow)
  | .acquireLease sessionId roomId lane snapshot maxConcurrentSessions confidences now => do
    let capacity := laneCapacity maxConcurrentSessions confidences
    let lease ← acquireLeaseLocked ⟨sessionId, roomId, lane, snapshot, some capacity⟩
      (loadActiveLeasesForLane rows lane) now
    return persistSessionLease rows sessionId lease (some capacity)
  | .releaseSessionLease sessionId reason now =>
    match LeaseDecision.releaseSessionLease (loadSessionLease rows sessionId) reason now with
    | some lease => .ok (persistSessionLease rows sessionId lease none)
    | none => .ok rows

/-! ## Rivals -/

/-- The session holds a lease that is in the way of the lane. -/
def LeaseRow.conflicts (row : LeaseRow) (lane : QuotaLane) : Bool :=
  row.active.any fun lease => lanesConflict lease.lane lane

/-- The other sessions that are in the way of the lane. -/
def rivals (rows : List LeaseRow) (sessionId : String) (lane : QuotaLane) : Nat :=
  rows.countP fun row => row.id ≠ sessionId && row.conflicts lane

/-- Those of them that the requesting session is not one of. -/
def rivalsWithout (rows : List LeaseRow) (sessionId requester : String) (lane : QuotaLane) : Nat :=
  rows.countP fun row => row.id ≠ sessionId && row.id ≠ requester && row.conflicts lane

/-- The decision on the leases of the lane's provider and model. -/
def grants (rows : List LeaseRow) (sessionId : String) (lane : QuotaLane) (capacity : Int) : Bool :=
  trim lane.provider ≠ "" &&
    ((loadActiveLeasesForLane rows lane).any (renewed lane sessionId) ||
      decide (((loadActiveLeasesForLane rows lane).countP (rival lane sessionId) : Int) < capacity))

/-- Each other session in the way of the lane has room for one more rival. -/
def holdersHaveRoom (rows : List LeaseRow) (sessionId : String) (lane : QuotaLane) : Bool :=
  rows.all fun row => row.id = sessionId || row.active.all fun lease =>
    !lanesConflict lease.lane lane ||
      decide ((rivalsWithout rows row.id sessionId lease.lane : Int) + 2 ≤ row.capacity)

/-- Another session holds a lease with the lane's key but another provider or model. -/
def keyCollides (rows : List LeaseRow) (sessionId : String) (lane : QuotaLane) : Bool :=
  rows.any fun row => row.id ≠ sessionId && row.active.any fun lease =>
    lanesConflict lease.lane lane && !listedUnder lane lease

/-- What a grant does not check. -/
def fits (rows : List LeaseRow) (sessionId : String) (lane : QuotaLane) (capacity : Int) : Bool :=
  holdersHaveRoom rows sessionId lane &&
    (!((loadActiveLeasesForLane rows lane).any (renewed lane sessionId) ||
        keyCollides rows sessionId lane) ||
      decide ((rivals rows sessionId lane : Int) + 1 ≤ capacity))

/-- Every grant fits. -/
def Fits (rows : List LeaseRow) : LaneStep → Prop
  | .acquireLease sessionId _ lane _ maxConcurrentSessions confidences _ =>
    let capacity := laneCapacity maxConcurrentSessions confidences
    grants rows sessionId lane capacity = true → fits rows sessionId lane capacity = true
  | .releaseSessionLease .. => True

instance (rows : List LeaseRow) (step : LaneStep) : Decidable (Fits rows step) :=
  match step with
  | .acquireLease sessionId _ lane _ maxConcurrentSessions confidences _ =>
    inferInstanceAs (Decidable (grants rows sessionId lane (laneCapacity maxConcurrentSessions
      confidences) = true → fits rows sessionId lane (laneCapacity maxConcurrentSessions
      confidences) = true))
  | .releaseSessionLease .. => inferInstanceAs (Decidable True)

/-- Every lease has fewer rivals than it was granted places, one with a single place has
none, and an account-less lease is in the way of every lease of its provider and model. -/
structure LanesExclusive (rows : List LeaseRow) : Prop where
  bounded : ∀ row ∈ rows, ∀ lease ∈ row.active,
    (rivals rows row.id lease.lane : Int) ≤ row.capacity - 1
  alone : ∀ row ∈ rows, ∀ lease ∈ row.active, row.capacity = 1 →
    ∀ other ∈ rows, other.id ≠ row.id → other.conflicts lease.lane = false
  legacy : ∀ row ∈ rows, ∀ lease ∈ row.active, ∀ other ∈ rows, ∀ held ∈ other.active,
    lease.lane.provider = held.lane.provider → lease.lane.model = held.lane.model →
    normalizedAccountId lease.lane = none → lanesConflict lease.lane held.lane = true

/-! ## The invariant -/

structure LanesSound (rows : List LeaseRow) : Prop where
  keyed : Table.Keyed LeaseRow.id rows
  own : ∀ row ∈ rows, ∀ lease ∈ row.quotaLease, lease.sessionId = row.id
  room : ∀ row ∈ rows, ∀ lease ∈ row.active, (rivals rows row.id lease.lane : Int) + 1 ≤ row.capacity

variable {lease : QuotaLease} {rows : List LeaseRow} {sessionId : String}

theorem active_iff {row : LeaseRow} :
    lease ∈ row.active ↔ lease ∈ row.quotaLease ∧ lease.releasedAt = none := by
  simp [LeaseRow.active]

theorem initial_sound (sessions : List String) : LanesSound (initial sessions) := by
  have none' : ∀ row ∈ initial sessions, row.quotaLease = none := by
    intro row member
    obtain ⟨id, _, rfl⟩ := List.mem_map.mp member
    rfl
  refine ⟨?_, fun row member lease held => ?_, fun row member lease held => ?_⟩
  · have ids : (initial sessions).map LeaseRow.id = sessions.dedup := by
      rw [initial, List.map_map]
      exact List.map_id _
    rw [Table.Keyed, ids]
    exact List.nodup_dedup sessions
  · rw [none' row member] at held
    cases held
  · rw [active_iff, none' row member] at held
    exact absurd held.1 (Option.not_mem_none _)

/-- The rows a lane lists are the rivals, where no key collides. -/
theorem listed_rivals (own : ∀ row ∈ rows, ∀ lease ∈ row.quotaLease, lease.sessionId = row.id)
    (distinct : keyCollides rows sessionId lane = false) :
    (loadActiveLeasesForLane rows lane).countP (rival lane sessionId) =
      rivals rows sessionId lane := by
  induction rows with
  | nil => rfl
  | cons row rest ih =>
    simp only [keyCollides, List.any_cons, Bool.or_eq_false_iff] at distinct
    have tail := ih (fun other member => own other (.tail _ member)) distinct.2
    have same : (match row.active.filter (listedUnder lane) with
        | some lease => if rival lane sessionId lease then 1 else 0
        | none => 0) = if (decide (row.id ≠ sessionId) && row.conflicts lane) = true then 1 else 0 := by
      cases held : row.active with
      | none => simp [LeaseRow.conflicts, held]
      | some lease =>
        have active : lease ∈ row.active := held
        obtain ⟨stored, open'⟩ := active_iff.mp active
        have mine := own row List.mem_cons_self lease stored
        have notReleased : lease.released = false := by
          simp [QuotaLease.released, present, open']
        have head := distinct.1
        rw [held] at head
        simp only [Option.any_some] at head
        by_cases listed : listedUnder lane lease = true
        · simp only [Option.filter_some, listed, if_true, LeaseRow.conflicts, held,
            Option.any_some, rival, notReleased, mine, Bool.not_false, Bool.true_and]
          rw [Bool.and_comm]
        · rw [Bool.not_eq_true] at listed
          rw [listed, Bool.not_false, Bool.and_true] at head
          simp only [Option.filter_some, listed, Bool.false_eq_true, if_false,
            LeaseRow.conflicts, held, Option.any_some]
          rw [head, if_neg Bool.false_ne_true]
    have step : (loadActiveLeasesForLane (row :: rest) lane).countP (rival lane sessionId) =
        (loadActiveLeasesForLane rest lane).countP (rival lane sessionId) +
          match row.active.filter (listedUnder lane) with
          | some lease => if rival lane sessionId lease then 1 else 0
          | none => 0 := by
      simp only [loadActiveLeasesForLane, List.filterMap_cons]
      cases row.active.filter (listedUnder lane) with
      | none => rfl
      | some lease => exact List.countP_cons
    rw [step, same, tail]
    simp only [rivals, List.countP_cons]

/-! ## Steps -/

theorem persist_keyed (keyed : Table.Keyed LeaseRow.id rows) (sessionId : String)
    (lease : QuotaLease) (granted : Option Int) :
    Table.Keyed LeaseRow.id (persistSessionLease rows sessionId lease granted) := by
  refine keyed.map fun row _ => ?_
  split
  · rfl
  · rfl

/-- A row after a write is the written row of the session, or as it was. -/
theorem mem_persist (member : row ∈ persistSessionLease rows sessionId lease granted) :
    (row.id = sessionId ∧ row.quotaLease = some lease ∧ ∀ capacity, granted = some capacity →
      row.capacity = capacity) ∨ (row ∈ rows ∧ row.id ≠ sessionId) := by
  obtain ⟨old, oldMember, rfl⟩ := List.mem_map.mp member
  by_cases mine : old.id = sessionId
  · rw [if_pos mine]
    refine .inl ⟨mine, rfl, ?_⟩
    rintro capacity rfl
    rfl
  · rw [if_neg mine]
    exact .inr ⟨oldMember, mine⟩

theorem persist_own (own : ∀ row ∈ rows, ∀ lease ∈ row.quotaLease, lease.sessionId = row.id)
    (mine : lease.sessionId = sessionId) :
    ∀ row ∈ persistSessionLease rows sessionId lease granted, ∀ lease ∈ row.quotaLease,
      lease.sessionId = row.id := by
  intro row member held stored
  rcases mem_persist member with ⟨id, written, _⟩ | ⟨old, _⟩
  · rw [written] at stored
    cases stored
    rw [mine, id]
  · exact own row old held stored

/-- Whom a lane meets after a write: those it met before, other than the writer, and the
writer if its new lease is in the way. -/
theorem rivals_persist (keyed : Table.Keyed LeaseRow.id rows) (sessionId other : String)
    (lease : QuotaLease) (granted : Option Int) (lane : QuotaLane) :
    rivals (persistSessionLease rows sessionId lease granted) other lane ≤
      rivalsWithout rows other sessionId lane +
        if lease.releasedAt = none ∧ lanesConflict lease.lane lane = true then 1 else 0 := by
  unfold rivals persistSessionLease
  rw [List.countP_map]
  refine le_trans (Table.countP_le_add (q := fun row =>
    row.id ≠ other && row.id ≠ sessionId && row.conflicts lane) (r := fun row =>
    row.id = sessionId && (lease.releasedAt.isNone && lanesConflict lease.lane lane)) ?_) ?_
  · intro row _ counted
    by_cases mine : row.id = sessionId
    · refine .inr ?_
      simp only [Function.comp_apply, mine, if_true, Bool.and_eq_true, LeaseRow.conflicts,
        LeaseRow.active, Option.any_filter] at counted
      simpa [mine] using counted.2
    · refine .inl ?_
      simpa [mine] using counted
  · refine Nat.add_le_add_left ?_ _
    by_cases inWay : lease.releasedAt = none ∧ lanesConflict lease.lane lane = true
    · rw [if_pos inWay]
      refine le_trans (List.countP_mono_left fun row _ counted => ?_) (keyed.countP_le_one sessionId)
      simp only [Bool.and_eq_true] at counted
      exact counted.1
    · rw [if_neg inWay]
      refine le_of_eq (List.countP_eq_zero.mpr fun row _ counted => inWay ?_)
      simpa using (And.right (by simpa using counted))

/-- The writer's own rivals stay the same. -/
theorem rivals_persist_own (rows : List LeaseRow) (sessionId : String) (lease : QuotaLease)
    (granted : Option Int) (lane : QuotaLane) :
    rivals (persistSessionLease rows sessionId lease granted) sessionId lane =
      rivals rows sessionId lane := by
  unfold rivals persistSessionLease
  rw [List.countP_map]
  refine List.countP_congr fun row _ => ?_
  by_cases mine : row.id = sessionId
  · simp [mine]
  · simp [mine]

theorem rivalsWithout_le (rows : List LeaseRow) (sessionId requester : String) (lane : QuotaLane) :
    rivalsWithout rows sessionId requester lane ≤ rivals rows sessionId lane := by
  refine List.countP_mono_left fun row _ counted => ?_
  simp only [Bool.and_eq_true] at counted ⊢
  exact ⟨counted.1.1, counted.2⟩

theorem acquire_sound (before : LanesSound rows)
    (granted : grants rows sessionId lane capacity = true)
    (fit : fits rows sessionId lane capacity = true) :
    LanesSound (persistSessionLease rows sessionId (createLease sessionId lane snapshot now)
      (some capacity)) := by
  simp only [fits, Bool.and_eq_true, holdersHaveRoom, List.all_eq_true] at fit
  refine ⟨persist_keyed before.keyed _ _ _, persist_own before.own rfl, fun row member lease held => ?_⟩
  obtain ⟨stored, open'⟩ := active_iff.mp held
  rcases mem_persist member with ⟨id, written, capacityOf⟩ | ⟨old, different⟩
  · -- the newcomer: the grant counted its rivals, or `fits` did
    rw [written] at stored
    cases stored
    rw [capacityOf capacity rfl, id]
    have counted : (rivals rows sessionId lane : Int) + 1 ≤ capacity := by
      by_cases unchecked : ((loadActiveLeasesForLane rows lane).any (renewed lane sessionId) ||
          keyCollides rows sessionId lane) = true
      · simpa [unchecked] using fit.2
      · simp only [Bool.not_eq_true, Bool.or_eq_false_iff] at unchecked
        simp only [grants, unchecked.1, Bool.false_or, Bool.and_eq_true, decide_eq_true_eq,
          listed_rivals before.own unchecked.2] at granted
        omega
    rw [rivals_persist_own]
    exact counted
  · have bound := rivals_persist before.keyed sessionId row.id
      (createLease sessionId lane snapshot now) (some capacity) lease.lane
    by_cases conflict : lanesConflict lane lease.lane = true
    · -- a holder in the way of the newcomer
      have inWay : lanesConflict lease.lane lane = true := by rw [lanesConflict_comm, conflict]
      have holder : row.active = some lease := held
      have room : (rivalsWithout rows row.id sessionId lease.lane : Int) + 2 ≤ row.capacity := by
        have checked := fit.1 row old
        rw [holder] at checked
        simpa [different, inWay] using checked
      have one : rivals _ row.id lease.lane ≤ rivalsWithout rows row.id sessionId lease.lane + 1 :=
        le_trans bound (Nat.add_le_add_left (by split <;> omega) _)
      omega
    · have none' : ¬ ((createLease sessionId lane snapshot now).releasedAt = none ∧
          lanesConflict (createLease sessionId lane snapshot now).lane lease.lane = true) :=
        fun inWay => conflict inWay.2
      rw [if_neg none', Nat.add_zero] at bound
      have fewer := rivalsWithout_le rows row.id sessionId lease.lane
      have room := before.room row old lease held
      omega

theorem release_sound (before : LanesSound rows)
    (ok : LeaseDecision.releaseSessionLease (loadSessionLease rows sessionId) reason now = some lease) :
    LanesSound (persistSessionLease rows sessionId lease none) := by
  obtain ⟨current, loaded, ok⟩ := Option.bind_eq_some_iff.mp ok
  obtain ⟨row, found, stored⟩ := Option.bind_eq_some_iff.mp loaded
  obtain ⟨member, id⟩ := Table.mem_of_find found
  have mine : lease.sessionId = sessionId ∧ lease.releasedAt = some now := by
    unfold releaseLease at ok
    split at ok
    · cases ok
    · cases ok
      exact ⟨(before.own row member current stored).trans id, rfl⟩
  refine ⟨persist_keyed before.keyed _ _ _, persist_own before.own mine.1, fun row member other held => ?_⟩
  obtain ⟨written, open'⟩ := active_iff.mp held
  rcases mem_persist member with ⟨_, same, _⟩ | ⟨old, different⟩
  · rw [same] at written
    cases written
    rw [mine.2] at open'
    cases open'
  · have bound := rivals_persist before.keyed sessionId row.id lease none other.lane
    have none' : ¬ (lease.releasedAt = none ∧ lanesConflict lease.lane other.lane = true) := by
      rintro ⟨unreleased, _⟩
      rw [mine.2] at unreleased
      cases unreleased
    rw [if_neg none', Nat.add_zero] at bound
    have fewer := rivalsWithout_le rows row.id sessionId other.lane
    have room := before.room row old other held
    omega

theorem laneStep_sound (rows : List LeaseRow) (step : LaneStep) (next : List LeaseRow)
    (before : LanesSound rows) (fit : Fits rows step) (ok : laneStep rows step = .ok next) :
    LanesSound next := by
  cases step with
  | acquireLease sessionId roomId lane snapshot maxConcurrentSessions confidences now =>
    obtain ⟨lease, acquired, written⟩ := bind_ok ok
    cases written
    obtain ⟨allowed, rfl⟩ := acquireLeaseLocked_ok acquired
    have granted : grants rows sessionId lane (laneCapacity maxConcurrentSessions confidences) =
        true := by
      have conditions := (canCreateLease_allowed (one_le_laneCapacity _ _)).mp allowed
      simpa [grants] using conditions
    exact acquire_sound before granted (fit granted)
  | releaseSessionLease sessionId reason now =>
    simp only [laneStep] at ok
    split at ok
    · rename_i lease released
      cases ok
      exact release_sound before released
    · cases ok
      exact before

/-! ## Exclusivity -/

theorem LanesSound.exclusive (sound : LanesSound rows) : LanesExclusive rows := by
  refine ⟨fun row member lease held => ?_, fun row member lease held single other others different => ?_,
    fun row _ lease _ other _ held _ provider model accountless =>
      lanesConflict_of_accountless provider model accountless⟩
  · have room := sound.room row member lease held
    omega
  · have room := sound.room row member lease held
    have none' : rivals rows row.id lease.lane = 0 := by omega
    have absent := List.countP_eq_zero.mp none' other others
    simpa [different] using absent

/-- In every run whose grants fit, the lanes stay exclusive. -/
theorem lanes_exclusive (sessions : List String) (steps : List LaneStep)
    (fit : Replay.Meets laneStep Fits (initial sessions) steps) :
    LanesExclusive (Replay.replay laneStep (initial sessions) steps) :=
  (Replay.replay_preserves Fits LanesSound laneStep_sound fit (initial_sound sessions)).exclusive

def sampleLane : QuotaLane := ⟨"codex", some "gpt", none, some "owner"⟩

def sampleSnapshot (confidence : QuotaConfidence) : QuotaLeaseSnapshot :=
  ⟨some "tokens", none, none, confidence, "t0"⟩

/-- A session takes the sample lane for a listing with three places. -/
def take (sessionId : String) (confidence : QuotaConfidence) : LaneStep :=
  .acquireLease sessionId none sampleLane (sampleSnapshot confidence) (some 3)
    [confidence, confidence] "t1"

theorem exact_sessions_share_lane :
    LanesExclusive (Replay.replay laneStep (initial ["a", "b"])
      [take "a" .officialExact, take "b" .officialExact, .releaseSessionLease "a" "done" "t2"]) :=
  lanes_exclusive _ _ (by decide +kernel)

/-- A lease of an estimated meter has the lane alone, until an exact listing asks. -/
theorem exact_request_joins_single_lane :
    ¬ ∀ sessions steps, LanesExclusive (Replay.replay laneStep (initial sessions) steps) := by
  intro exclusive
  have joined : ∃ row ∈ Replay.replay laneStep (initial ["a", "b"])
      [take "a" .estimated, take "b" .officialExact], ∃ lease ∈ row.active, row.capacity = 1 ∧
      ∃ other ∈ Replay.replay laneStep (initial ["a", "b"])
        [take "a" .estimated, take "b" .officialExact], other.id ≠ row.id ∧
        other.conflicts lease.lane = true := by
    decide +kernel
  obtain ⟨row, member, lease, held, single, other, others, different, conflict⟩ := joined
  have apart := (exclusive _ _).alone row member lease held single other others different
  rw [apart] at conflict
  cases conflict

end LetAgents.Rental.QuotaLanes

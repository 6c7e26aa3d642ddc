import Mathlib.Data.List.Nodup
import LetAgents.Rental.UsageIngest
import LetAgents.Lib.Replay

/-!
# No usage is lost, and when it is

The advisory lock serialises the bodies of the ingest transactions, so every key
keeps one row whatever the interleaving. The rolling totals are carried from the
row with the greatest `created_at`, which is a transaction's start time and not
its turn at the lock: two transactions that start in one order and get the lock
in the other lose a delta. Where each insert started after every row it finds,
the latest row carries the sum over all rows.
-/
namespace LetAgents.Rental.UsageTotals

open UsageIngest Lib

/-! ## Sums -/

/-- The sum of one counter's contributions over the stored rows. -/
def reportedTotal (counter : Counter) (meters : List StoredMeter) : Int :=
  (meters.map fun stored => contribution counter stored.report).sum

theorem reportedTotal_append (counter : Counter) (meters : List StoredMeter) (m : StoredMeter) :
    reportedTotal counter (meters ++ [m]) =
      reportedTotal counter meters + contribution counter m.report := by
  simp [reportedTotal]

/-- The row has the greatest `created_at` of the session. -/
def Newest (meters : List StoredMeter) (row : MeterRow) : Prop :=
  ∀ other ∈ meters, other.row.createdAt ≤ row.createdAt

/-- The newest row carries everything that was reported. -/
def Balanced (meters : List StoredMeter) : Prop :=
  ∀ m ∈ meters, Newest meters m.row →
    ∀ counter, m.row.carried counter = reportedTotal counter meters

theorem buildRow_carried (report : ValidReport) (previous : Option MeterRow) (startedAt : Nat)
    (counter : Counter) :
    (buildRow report previous startedAt).carried counter = carryForward previous counter report := by
  cases counter <;> rfl

variable {meters : List StoredMeter} {row : MeterRow} {s : IngestState} {call : Nat}
  {report : ValidReport}

theorem isLatest_none (latest : isLatest meters none = true) : meters = [] := by
  simpa [isLatest] using latest

theorem isLatest_some (latest : isLatest meters (some row) = true) :
    (∃ m ∈ meters, m.row = row) ∧ Newest meters row := by
  simpa [isLatest, Newest] using latest

/-- Carrying forward from a latest row of a balanced table gives the table's sum
with the new report added. -/
theorem carryForward_balanced (balanced : Balanced meters)
    (latest : isLatest meters previous = true) (counter : Counter) (report : ValidReport) :
    carryForward previous counter report =
      reportedTotal counter meters + contribution counter report := by
  cases previous with
  | none =>
    obtain rfl := isLatest_none latest
    rfl
  | some row =>
    obtain ⟨⟨m, member, rfl⟩, newest⟩ := isLatest_some latest
    have carried := balanced m member newest counter
    simp only [carryForward, Option.map_some, Option.getD_some, carried]

/-! ## Keys -/

def keys (meters : List StoredMeter) : List String :=
  meters.map fun m => m.row.idempotencyKey

theorem loadByIdempotency_none (missing : loadByIdempotency meters key = none) :
    key ∉ keys meters := by
  intro present
  obtain ⟨m, member, same⟩ := List.mem_map.1 present
  have absent := List.find?_eq_none.1 missing m.row (List.mem_map.2 ⟨m, member, rfl⟩)
  simp [same] at absent

theorem loadByIdempotency_some (found : loadByIdempotency meters key = some row) :
    row.idempotencyKey = key ∧ ∃ m ∈ meters, m.row = row := by
  have keyed := List.find?_some found
  obtain ⟨m, member, same⟩ := List.mem_map.1 (List.mem_of_find?_eq_some found)
  exact ⟨by simpa using keyed, m, member, same⟩

/-- The rows stored under a key. -/
def rowsOf (meters : List StoredMeter) (key : String) : List StoredMeter :=
  meters.filter fun m => m.row.idempotencyKey = key

theorem rowsOf_length (unique : (keys meters).Nodup) (member : m ∈ meters) :
    (rowsOf meters m.row.idempotencyKey).length = 1 := by
  have counted := List.count_eq_one_of_mem unique (List.mem_map.2 ⟨m, member, rfl⟩)
  rw [keys, List.count_eq_countP, List.countP_map, List.countP_eq_length_filter] at counted
  congr 1

/-! ## The invariant -/

/-- What a call's position says about the committed rows. -/
def PhaseSound (meters : List StoredMeter) : Phase → Prop
  | .freshKey report _ => report.idempotencyKey ∉ keys meters
  | .loaded report _ previous =>
    report.idempotencyKey ∉ keys meters ∧ isLatest meters previous = true
  | .inserted report row =>
    report.idempotencyKey ∉ keys meters ∧ (∀ m ∈ meters, m.row.createdAt < row.createdAt) ∧
      ∃ previous startedAt, isLatest meters previous = true ∧
        row = buildRow report previous startedAt
  | .replying report row | .returned report row =>
    row.idempotencyKey = report.idempotencyKey ∧ ∃ m ∈ meters, m.row = row
  | _ => True

structure Sound (s : IngestState) : Prop where
  unique : (keys s.meters).Nodup
  lock : ∀ call, (s.phase call).holdsLock = true → s.lockHolder = some call
  phases : ∀ call, PhaseSound s.meters (s.phase call)
  deltas : ∀ m ∈ s.meters, m.row.lrtDelta = contribution .lrt m.report
  balanced : Balanced s.meters

theorem initial_sound (session : Option SessionLane) : Sound (initial session) where
  unique := List.nodup_nil
  lock _ held := by simp [initial, Phase.holdsLock] at held
  phases _ := trivial
  deltas _ member := by simp [initial] at member
  balanced _ member := by simp [initial] at member

theorem enter_phase (s : IngestState) (call other : Nat) (next : Phase) :
    (s.enter call next).phase other = if other = call then next else s.phase other := by
  simp only [IngestState.enter, Function.update_apply]

/-- A step that leaves the table alone and moves one call inside or outside the
lock it already has. -/
theorem enter_sound (before : Sound s) (facts : PhaseSound s.meters next)
    (held : next.holdsLock = true → (s.phase call).holdsLock = true) :
    Sound (s.enter call next) where
  unique := before.unique
  deltas := before.deltas
  balanced := before.balanced
  lock other held' := by
    rw [enter_phase] at held'
    split at held'
    · rename_i same
      subst same
      exact before.lock other (held held')
    · exact before.lock other held'
  phases other := by
    rw [enter_phase]
    split
    · exact facts
    · exact before.phases other

/-- A step after which the call holds no lock and nobody else does. -/
theorem release_sound (before : Sound s) (held : (s.phase call).holdsLock = true)
    (facts : PhaseSound s.meters next) (free : next.holdsLock = false) :
    Sound { s.enter call next with lockHolder := none } where
  unique := before.unique
  deltas := before.deltas
  balanced := before.balanced
  lock other held' := by
    rw [enter_phase] at held'
    split at held'
    · rw [free] at held'
      cases held'
    · rename_i different
      have mine := before.lock call held
      rw [before.lock other held'] at mine
      exact absurd (Option.some.inj mine) different
  phases other := by
    rw [enter_phase]
    split
    · exact facts
    · exact before.phases other

theorem giveUp_sound (before : Sound s) : Sound (s.giveUp call) := by
  unfold IngestState.giveUp
  split
  · rename_i held
    exact release_sound before held trivial rfl
  · exact enter_sound before trivial (nofun)

theorem acquireLock_sound (before : Sound s) (free : s.lockHolder = none) :
    Sound { s.enter call (.locked report startedAt) with lockHolder := some call } where
  unique := before.unique
  deltas := before.deltas
  balanced := before.balanced
  lock other held := by
    rw [enter_phase] at held
    split at held
    · rename_i same
      rw [same]
    · have holder := before.lock other held
      rw [free] at holder
      cases holder
  phases other := by
    rw [enter_phase]
    split
    · exact trivial
    · exact before.phases other

/-- Outside the lock a call only remembers rows that stay. -/
theorem PhaseSound.extend (m : StoredMeter) (facts : PhaseSound meters phase)
    (outside : phase.holdsLock = false) : PhaseSound (meters ++ [m]) phase := by
  cases phase with
  | returned report row =>
    obtain ⟨keyed, stored, member, same⟩ := facts
    exact ⟨keyed, stored, List.mem_append_left _ member, same⟩
  | locked | freshKey | loaded | replying | inserted => cases outside
  | idle | validated | unknownKey | admitted | waiting | failed => exact trivial

theorem balanced_append (balanced : Balanced meters) (latest : isLatest meters previous = true)
    (newer : ∀ m ∈ meters, m.row.createdAt < startedAt) :
    Balanced (meters ++ [⟨buildRow report previous startedAt, report⟩]) := by
  intro m member newest counter
  rw [reportedTotal_append]
  rcases List.mem_append.1 member with old | new
  · have behind := newest ⟨buildRow report previous startedAt, report⟩ (by simp)
    have ahead := newer m old
    simp only [buildRow] at behind
    omega
  · obtain rfl := List.mem_singleton.1 new
    simp only [buildRow_carried]
    exact carryForward_balanced balanced latest counter report

theorem commit_inserted_sound (before : Sound s) (position : s.phase call = .inserted report row) :
    Sound { s.enter call (.returned report row) with
      lockHolder := none, meters := s.meters ++ [⟨row, report⟩] } := by
  have facts := before.phases call
  have held : (s.phase call).holdsLock = true := by rw [position]; rfl
  rw [position] at facts
  obtain ⟨fresh, newer, previous, startedAt, latest, rfl⟩ := facts
  have free : ∀ other, other ≠ call → (s.phase other).holdsLock = false := by
    intro other different
    by_contra holds
    have mine := before.lock call held
    rw [before.lock other (by simpa using holds)] at mine
    exact different (Option.some.inj mine)
  refine ⟨?_, ?_, ?_, ?_, balanced_append before.balanced latest newer⟩
  · simp only [keys, List.map_append]
    exact List.nodup_append.2 ⟨before.unique, List.nodup_singleton _, by
      intro key member other single same
      rw [same, List.mem_singleton.1 single] at member
      exact fresh member⟩
  · intro other held'
    rw [enter_phase] at held'
    split at held'
    · cases held'
    · rename_i different
      rw [free other different] at held'
      cases held'
  · intro other
    rw [enter_phase]
    split
    · exact ⟨rfl, _, List.mem_append_right _ (List.mem_singleton_self _), rfl⟩
    · rename_i different
      exact (before.phases other).extend _ (free other different)
  · intro m member
    rcases List.mem_append.1 member with old | new
    · exact before.deltas m old
    · obtain rfl := List.mem_singleton.1 new
      rfl

/-! ## Runs -/

/-- The call that inserts started its transaction after every row it finds. -/
def insertStartsLast (s : IngestState) : IngestStep → Bool
  | .insert call =>
    match s.phase call with
    | .loaded _ startedAt _ => s.meters.all fun m => decide (m.row.createdAt < startedAt)
    | _ => true
  | _ => true

def InsertStartsLast (s : IngestState) (step : IngestStep) : Prop := insertStartsLast s step = true

instance (s : IngestState) (step : IngestStep) : Decidable (InsertStartsLast s step) :=
  inferInstanceAs (Decidable (_ = true))

theorem ingestStep_sound (before : Sound s) (condition : InsertStartsLast s step)
    (ok : ingestStep s step = .ok next) : Sound next := by
  cases step with
  | start call report =>
    simp only [ingestStep] at ok
    split at ok
    · split at ok <;> cases ok <;>
        exact enter_sound before trivial (nofun)
    · cases ok
  | readEarly call =>
    simp only [ingestStep] at ok
    split at ok
    · rename_i report position
      split at ok
      · rename_i existing found
        cases ok
        exact enter_sound before (loadByIdempotency_some found)
          (nofun)
      · cases ok
        exact enter_sound before trivial (nofun)
    · cases ok
  | readSession call =>
    simp only [ingestStep] at ok
    split at ok
    · split at ok <;> cases ok <;>
        exact enter_sound before trivial (nofun)
    · cases ok
  | begin call now =>
    simp only [ingestStep] at ok
    split at ok
    · cases ok
      exact enter_sound before trivial (nofun)
    · cases ok
  | acquireLock call =>
    simp only [ingestStep] at ok
    split at ok
    · rename_i position free
      cases ok
      exact acquireLock_sound before free
    · cases ok
  | readLocked call =>
    simp only [ingestStep] at ok
    split at ok
    · rename_i report startedAt position
      split at ok
      · rename_i existing found
        cases ok
        exact enter_sound before (loadByIdempotency_some found) (fun _ => by rw [position]; rfl)
      · rename_i missing
        cases ok
        exact enter_sound before (loadByIdempotency_none missing) (fun _ => by rw [position]; rfl)
    · cases ok
  | readLatest call previous =>
    simp only [ingestStep] at ok
    split at ok
    · rename_i report startedAt position
      have facts := before.phases call
      rw [position] at facts
      split at ok
      · rename_i latest
        cases ok
        exact enter_sound before ⟨facts, latest⟩ (fun _ => by rw [position]; rfl)
      · cases ok
    · cases ok
  | insert call =>
    simp only [ingestStep] at ok
    split at ok
    · rename_i report startedAt previous position
      have facts := before.phases call
      rw [position] at facts
      split at ok
      · cases ok
        exact giveUp_sound before
      · cases ok
        refine enter_sound before ⟨facts.1, ?_, previous, startedAt, facts.2, rfl⟩
          (fun _ => by rw [position]; rfl)
        have later : ∀ m ∈ s.meters, m.row.createdAt < startedAt := by
          simpa [InsertStartsLast, insertStartsLast, position] using condition
        exact later
    · cases ok
  | commit call =>
    simp only [ingestStep] at ok
    split at ok
    · rename_i report row position
      cases ok
      have facts := before.phases call
      rw [position] at facts
      exact release_sound before (by rw [position]; rfl) facts rfl
    · rename_i report row position
      cases ok
      exact commit_inserted_sound before position
    · cases ok
  | fail call =>
    simp only [ingestStep] at ok
    split at ok
    · cases ok
    · cases ok
      exact giveUp_sound before
  | changeSession session =>
    simp only [ingestStep, Except.ok.injEq] at ok
    subst ok
    exact ⟨before.unique, before.lock, before.phases, before.deltas, before.balanced⟩

/-- Every call that returned has exactly one row for its key, and the newest row
carries the sums over all rows. -/
structure UsageAccounted (s : IngestState) : Prop where
  keyed : ∀ call report row, s.phase call = .returned report row →
    (rowsOf s.meters report.idempotencyKey).length = 1
  unique : (keys s.meters).Nodup
  lrt : ∀ m ∈ s.meters, Newest s.meters m.row →
    m.row.lrtTotal = (s.meters.map fun stored => stored.row.lrtDelta).sum
  counters : ∀ m ∈ s.meters, Newest s.meters m.row →
    ∀ counter, m.row.carried counter = reportedTotal counter s.meters

theorem Sound.accounted (sound : Sound s) : UsageAccounted s where
  unique := sound.unique
  counters := sound.balanced
  keyed call report row position := by
    have facts := sound.phases call
    rw [position] at facts
    obtain ⟨keyed, m, member, rfl⟩ := facts
    rw [← keyed]
    exact rowsOf_length sound.unique member
  lrt m member newest := by
    have carried := sound.balanced m member newest .lrt
    have deltas : (s.meters.map fun stored => stored.row.lrtDelta) =
        s.meters.map fun stored => contribution .lrt stored.report :=
      List.map_congr_left sound.deltas
    rw [deltas]
    exact carried

/-- Where every insert's transaction started after the rows it finds, no usage is
lost, in every state of every interleaving. -/
theorem usage_accounted_of_start_order (session : Option SessionLane) (steps : List IngestStep)
    (ordered : Replay.Meets ingestStep InsertStartsLast (initial session) steps) :
    UsageAccounted (Replay.replay ingestStep (initial session) steps) :=
  (Replay.replay_preserves InsertStartsLast Sound
    (fun _ _ _ before condition ok => ingestStep_sound before condition ok)
    ordered (initial_sound session)).accounted

/-- One adapter report with nothing but an estimate. -/
def sampleReport (key : String) (lrtUsed : Rat) : IngestUsageReport where
  source := .adapter
  provider := some "codex"
  model := none
  delta := ⟨none, none, none, none, none, none, none, none, none, none⟩
  lrtUsed := some (.finite lrtUsed)
  confidence := some "derived"
  idempotencyKey := key

/-- The statements of one call up to `BEGIN` at `now`. -/
def opening (call now : Nat) (report : IngestUsageReport) : List IngestStep :=
  [.start call report, .readEarly call, .readSession call, .begin call now]

/-- The statements of one call from the lock to its commit. -/
def closing (call : Nat) (previous : Option MeterRow) : List IngestStep :=
  [.acquireLock call, .readLocked call, .readLatest call previous, .insert call, .commit call]

def sampleLane : Option SessionLane := some ⟨some "codex", none⟩

/-- The row of a sample report that found an empty table. -/
def firstRow (key : String) (lrtUsed : Int) (createdAt : Nat) : MeterRow :=
  ⟨.adapter, 0, 0, 0, 0, 0, 0, lrtUsed, lrtUsed, .derived, 0, 0, 0, 0, key, createdAt⟩

theorem usage_accounted_in_start_order :
    UsageAccounted (Replay.replay ingestStep (initial sampleLane)
      (opening 0 1 (sampleReport "a" 10) ++ closing 0 none ++
        (opening 1 2 (sampleReport "b" 20) ++ closing 1 (some (firstRow "a" 10 1))))) :=
  usage_accounted_of_start_order _ _ (by decide +kernel)

def hasReturned : Phase → Bool
  | .returned .. => true
  | _ => false

/-- Two calls: the first starts its transaction, the second starts later but gets
the lock first. -/
def lateLockRun : IngestState :=
  Replay.replay ingestStep (initial sampleLane)
    (opening 0 1 (sampleReport "a" 10) ++ opening 1 2 (sampleReport "b" 20) ++
      (closing 1 none ++ closing 0 (some (firstRow "b" 20 2))))

/-- Both calls return, and the newest row misses the first call's usage. -/
theorem late_lock_loses_usage :
    hasReturned (lateLockRun.phase 0) = true ∧ hasReturned (lateLockRun.phase 1) = true ∧
      ¬ UsageAccounted lateLockRun := by
  refine ⟨by decide +kernel, by decide +kernel, fun accounted => ?_⟩
  have lost : ∃ m ∈ lateLockRun.meters,
      (∀ other ∈ lateLockRun.meters, other.row.createdAt ≤ m.row.createdAt) ∧
        m.row.lrtTotal ≠ (lateLockRun.meters.map fun stored => stored.row.lrtDelta).sum := by
    decide +kernel
  obtain ⟨m, member, newest, unequal⟩ := lost
  exact unequal (accounted.lrt m member newest)

end LetAgents.Rental.UsageTotals

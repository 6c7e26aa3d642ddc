import LetAgents.Lib.Replay
import LetAgents.Rental.LeaseDecision
import LetAgents.Rental.SessionLifecycle

/-!
# The lease of one session

Source: src/api/rental/sessions/transitions.ts:43-340, quota-lease-orchestrator.ts:163-283 and
routes/rental/internal/activity-lifecycle-routes.ts:20-36, 88-240.

Accepting a session takes its lease in one transaction and its status in the next; ending
it writes the status first and releases the lease after. Calls interleave at these
statements. A lease that is taken when the session is over already, and one that an expiry
leaves behind, is released by nobody: `Intact` excludes the two.

Modelling boundary: the other leases of the lane, and what the accept transaction checks
beside its fence, are arguments of a step; the launch authority that a terminal call
revokes beside the lease touches neither.
-/
namespace LetAgents.Rental.SessionLease

open Lib Lib.Checked
open LetAgents.Rental.BudgetSentinel (SessionStatus)
open LetAgents.Rental.SessionLifecycle (SessionRow SessionUpdate isRentalLaunchRetry fencedTransition
  isValidTransition)
open LeaseDecision

/-! ## Calls -/

inductive Operation where
  | acceptSession (selection : Option (Except String Unit)) (now : Int)
  | declineSession
  | cancelSession
  | completeRoute
  | cancelRoute

/-- Where a call stands between two statements. -/
inductive Phase where
  | idle
  /-- An expired request was read, and is to be marked. -/
  | expiring (update : SessionUpdate)
  /-- The lease is next. -/
  | accepting (retryingLaunch : Bool) (update : SessionUpdate)
  /-- The accept transaction is next. -/
  | leased (retryingLaunch : Bool) (update : SessionUpdate) (lease : QuotaLease)
  /-- The accept transaction failed; the current status is read next. -/
  | refused
  /-- The fenced write of a terminal status is next. -/
  | ending (update : SessionUpdate) (reason : String)
  /-- `releaseSessionLease`: the lease is loaded next. -/
  | releasing (reason : String)
  /-- `releaseSessionLease`: the released lease is written next. -/
  | writing (lease : QuotaLease)
  | finished

def Phase.resting : Phase → Bool
  | .idle | .finished => true
  | _ => false

/-- The call goes on to release the lease. -/
def Phase.releases : Phase → Bool
  | .releasing _ | .writing _ => true
  | _ => false

structure LeaseState where
  row : SessionRow
  quotaLease : Option QuotaLease
  phase : Nat → Phase

/-- A new request. -/
def initial (row : SessionRow) : LeaseState where
  row := { row with status := .requested }
  quotaLease := none
  phase _ := .idle

def LeaseState.enter (s : LeaseState) (call : Nat) (next : Phase) : LeaseState :=
  { s with phase := Function.update s.phase call next }

/-- The session holds a lease that is not released. -/
def LeaseState.holdsLease (s : LeaseState) : Bool :=
  s.quotaLease.any fun lease => lease.releasedAt.isNone

/-- The first statement of an operation and its decision. -/
def readRow (row : SessionRow) : Operation → Phase
  | .acceptSession selection now =>
    match SessionLifecycle.acceptSession selection now (.ok ()) row with
    | .ok update =>
      if update.status = some .expired then .expiring update
      else .accepting (isRentalLaunchRetry row) update
    | .error _ => .finished
  | .declineSession =>
    match SessionLifecycle.declineSession row with
    | .ok update => .ending update "declined"
    | .error _ => .finished
  | .cancelSession =>
    match SessionLifecycle.cancelSession row with
    | .ok update => .ending update "cancelled"
    | .error _ => .finished
  | .completeRoute =>
    match SessionLifecycle.completeRoute row with
    | .ok update => .ending update "completed"
    | .error _ => .finished
  | .cancelRoute =>
    match SessionLifecycle.cancelRoute row with
    | .ok update => .ending update "cancelled"
    | .error _ => .finished

inductive LeaseStep where
  | readRow (call : Nat) (operation : Operation)
  | markExpired (call : Nat)
  | acquireLease (call : Nat) (input : AcquireLeaseInput) (active : List QuotaLease) (now : String)
  | acceptRow (call : Nat)
  /-- The accept transaction, or a check before the lease, throws. -/
  | refuse (call : Nat)
  | readStatus (call : Nat)
  | writeStatus (call : Nat)
  | loadLease (call : Nat) (now : String)
  | persistLease (call : Nat)
  /-- A call that is none of these moves the accepted session on. -/
  | progress (row : SessionRow)

/-- The statuses without a lease. -/
def leaseless : SessionStatus → Bool
  | .requested | .cancelled | .completed | .expired => true
  | _ => false

/-- The statuses that end a session and should give back its lease. -/
def ended : SessionStatus → Bool
  | .cancelled | .completed | .expired => true
  | _ => false

/-- The row after a fenced update, if the fence finds it. -/
def fenced (update : SessionUpdate) (row : SessionRow) : Option SessionRow :=
  if update.finds row then update.set row else none

/-- One statement; `error` when the call is not at that statement. -/
def leaseStep (s : LeaseState) : LeaseStep → Except Unit LeaseState
  | .readRow call operation =>
    match s.phase call with
    | .idle => .ok (s.enter call (readRow s.row operation))
    | _ => .error ()
  | .markExpired call =>
    match s.phase call with
    | .expiring update =>
      .ok { s.enter call .finished with row := (fenced update s.row).getD s.row }
    | _ => .error ()
  | .acquireLease call input active now =>
    match s.phase call with
    | .accepting retryingLaunch update =>
      match acquireLeaseLocked input active now with
      | .ok lease =>
        .ok { s.enter call (.leased retryingLaunch update lease) with quotaLease := some lease }
      | .error _ => .ok (s.enter call .finished)
    | _ => .error ()
  | .acceptRow call =>
    match s.phase call with
    | .leased retryingLaunch update lease =>
      match fenced update s.row with
      | some row => .ok { s.enter call .finished with row, quotaLease := some lease }
      | none => .ok (s.enter call (if retryingLaunch then .finished else .refused))
    | _ => .error ()
  | .refuse call =>
    match s.phase call with
    | .accepting _ _ => .ok (s.enter call .finished)
    | .leased retryingLaunch _ _ =>
      .ok (s.enter call (if retryingLaunch then .finished else .refused))
    | _ => .error ()
  | .readStatus call =>
    match s.phase call with
    | .refused =>
      .ok (s.enter call
        (if s.row.status = .requested then .releasing "accept_failed" else .finished))
    | _ => .error ()
  | .writeStatus call =>
    match s.phase call with
    | .ending update reason =>
      match fenced update s.row with
      | some row => .ok { s.enter call (.releasing reason) with row }
      | none => .ok (s.enter call .finished)
    | _ => .error ()
  | .loadLease call now =>
    match s.phase call with
    | .releasing reason =>
      match releaseSessionLease s.quotaLease reason now with
      | some lease => .ok (s.enter call (.writing lease))
      | none => .ok (s.enter call .finished)
    | _ => .error ()
  | .persistLease call =>
    match s.phase call with
    | .writing lease => .ok { s.enter call .finished with quotaLease := some lease }
    | _ => .error ()
  | .progress row =>
    if leaseless s.row.status || leaseless row.status then .error () else .ok { s with row }

/-! ## The invariant -/

/-- A call is on its way to release the lease. -/
def Handled (s : LeaseState) : Prop := ∃ call, (s.phase call).releases = true

/-- No lease is taken for a session that is over, and no expiry leaves one behind, unless a
call is on its way to release it. -/
def Intact (s : LeaseState) : LeaseStep → Prop
  | .acquireLease _ input active now =>
    ended s.row.status = true → (acquireLeaseLocked input active now).isOk = true → Handled s
  | .markExpired _ => s.row.status = .requested → s.holdsLease = true → Handled s
  | _ => True

/-- What holds of a call by where it stands. -/
def PhaseSound (row : SessionRow) : Phase → Prop
  | .expiring update => update = { whereStatus := some [.requested], status := some .expired }
  | .accepting retryingLaunch update =>
    update.status = some .accepted ∧ (retryingLaunch = true → row.status ≠ .requested)
  | .leased retryingLaunch update _ =>
    update.status = some .accepted ∧ (retryingLaunch = true → row.status ≠ .requested)
  | .ending update _ => ∃ status, update.status = some status ∧ ended status = true
  | .writing lease => lease.releasedAt ≠ none
  | _ => True

/-- An accept call that has the lease, or is about to release it. -/
def Phase.answersForLease : Phase → Bool
  | .leased .. | .refused | .releasing _ | .writing _ => true
  | _ => false

structure LeaseSound (s : LeaseState) : Prop where
  phases : ∀ call, PhaseSound s.row (s.phase call)
  isOver : ended s.row.status = true → s.holdsLease = true → Handled s
  requested : s.row.status = .requested → s.holdsLease = true →
    ∃ call, (s.phase call).answersForLease = true

theorem initial_sound (row : SessionRow) : LeaseSound (initial row) :=
  ⟨fun _ => trivial, nofun, nofun⟩

theorem enter_phase (s : LeaseState) (call other : Nat) (next : Phase) :
    (s.enter call next).phase other = if other = call then next else s.phase other := by
  simp only [LeaseState.enter, Function.update_apply]

/-- What some call is on its way to do stays so while one call moves on. -/
theorem exists_enter {s : LeaseState} {does : Phase → Bool}
    (before : ∃ call, does (s.phase call) = true)
    (keeps : does (s.phase call) = true → does next = true) :
    ∃ other, does ((s.enter call next).phase other) = true := by
  obtain ⟨other, holds⟩ := before
  by_cases same : other = call
  · refine ⟨call, ?_⟩
    rw [enter_phase, if_pos rfl]
    rw [same] at holds
    exact keeps holds
  · refine ⟨other, ?_⟩
    rw [enter_phase, if_neg same]
    exact holds

theorem does_enter {s : LeaseState} {does : Phase → Bool} (holds : does next = true) :
    ∃ other, does ((s.enter call next).phase other) = true := by
  refine ⟨call, ?_⟩
  rw [enter_phase, if_pos rfl]
  exact holds

/-- A request never comes back, and nothing else in the row matters to a call. -/
theorem PhaseSound.row {row next : SessionRow} (facts : PhaseSound row phase)
    (stays : row.status ≠ .requested → next.status ≠ .requested) : PhaseSound next phase := by
  cases phase with
  | accepting retryingLaunch update
  | leased retryingLaunch update lease => exact ⟨facts.1, fun retries => stays (facts.2 retries)⟩
  | _ => exact facts

theorem LeaseSound.phases_enter (before : LeaseSound s) (facts : PhaseSound row next)
    (stays : s.row.status ≠ .requested → row.status ≠ .requested) (other : Nat) :
    PhaseSound row ((s.enter call next).phase other) := by
  rw [enter_phase]
  split
  · exact facts
  · exact (before.phases other).row stays

theorem fenced_status (ok : fenced update row = some next) :
    next.status = update.status.getD row.status ∧ update.finds row = true := by
  unfold fenced at ok
  split at ok
  · rename_i finds
    simp only [SessionUpdate.set, Option.bind_eq_bind, Option.bind_eq_some_iff] at ok
    obtain ⟨_, _, _, _, _, _, written⟩ := ok
    cases written
    exact ⟨rfl, finds⟩
  · cases ok

/-! ## Steps -/

theorem acceptSession_update
    (ok : SessionLifecycle.acceptSession selection now (.ok ()) row = .ok update) :
    update = { whereStatus := some [.requested], status := some .expired } ∨
      update.status = some .accepted := by
  obtain ⟨_, ok⟩ := require_bind_ok ok
  obtain ⟨_, _, ok⟩ := bind_ok ok
  obtain ⟨_, ok⟩ := require_bind_ok ok
  obtain ⟨_, ok⟩ := require_bind_ok ok
  obtain ⟨_, ok⟩ := require_bind_ok ok
  split at ok
  · cases ok
    exact .inl rfl
  · obtain ⟨_, ok⟩ := require_bind_ok ok
    cases ok
    exact .inr rfl

theorem fencedTransition_update (ok : fencedTransition status row = .ok update) :
    update.status = some status := by
  unfold SessionLifecycle.fencedTransition at ok
  split at ok
  · cases ok
    rfl
  · cases ok

theorem readRow_sound (row : SessionRow) (operation : Operation) :
    PhaseSound row (readRow row operation) := by
  have ends (status : SessionStatus) (reason : String) (isOver : ended status = true) :
      PhaseSound row (match fencedTransition status row with
        | .ok update => .ending update reason
        | .error _ => .finished) := by
    split
    · rename_i update decided
      exact ⟨status, fencedTransition_update decided, isOver⟩
    · exact trivial
  cases operation with
  | acceptSession selection now =>
    simp only [readRow]
    split
    · rename_i update decided
      rcases acceptSession_update decided with rfl | accepts
      · rw [if_pos rfl]
        rfl
      · rw [if_neg (by rw [accepts]; exact nofun)]
        refine ⟨accepts, fun retries status => ?_⟩
        simp [isRentalLaunchRetry, status] at retries
    · exact trivial
  | declineSession => exact ends .cancelled "declined" rfl
  | cancelSession => exact ends .cancelled "cancelled" rfl
  | completeRoute => exact ends .completed "completed" rfl
  | cancelRoute => exact ends .cancelled "cancelled" rfl

/-- A call that neither writes nor answers for the lease moves on. -/
theorem enter_sound (before : LeaseSound s)
    (facts : PhaseSound s.row next)
    (releases : ended s.row.status = true → s.holdsLease = true → (s.phase call).releases = true →
      next.releases = true) (answers : s.row.status = .requested → s.holdsLease = true →
      (s.phase call).answersForLease = true → next.answersForLease = true) :
    LeaseSound (s.enter call next) :=
  ⟨before.phases_enter facts id,
    fun isOver holds => exists_enter (before.isOver isOver holds) (releases isOver holds),
    fun requested holds => exists_enter (before.requested requested holds) (answers requested holds)⟩

/-- A release that changes nothing found no lease, or a released one. -/
theorem release_free {s : LeaseState}
    (unchanged : releaseSessionLease s.quotaLease reason now = none) : s.holdsLease = false := by
  unfold LeaseState.holdsLease
  cases held : s.quotaLease with
  | none => rfl
  | some lease =>
    rw [held] at unchanged
    simp only [releaseSessionLease, Option.bind_some, releaseLease] at unchanged
    split at unchanged
    · rename_i released
      cases time : lease.releasedAt with
      | none =>
        simp only [QuotaLease.released, time] at released
        cases released
      | some releasedAt => simp [time]
    · cases unchanged

/-- A failed accept transaction goes on to read the status, unless it was a retry: the
session is accepted then, and was no request before. -/
theorem refused_sound (before : LeaseSound s)
    (position : s.phase call = .leased retryingLaunch update lease) :
    LeaseSound (s.enter call (if retryingLaunch then .finished else .refused)) := by
  have facts : PhaseSound s.row (.leased retryingLaunch update lease) := position ▸ before.phases call
  refine enter_sound before ?_ ?_ fun requested _ _ => ?_
  · cases retryingLaunch with
    | true | false => exact trivial
  · rw [position]
    exact nofun
  · cases retryingLaunch with
    | true => exact absurd requested (facts.2 rfl)
    | false => rfl

theorem leaseStep_sound (s : LeaseState) (step : LeaseStep) (next : LeaseState)
    (before : LeaseSound s) (intact : Intact s step) (ok : leaseStep s step = .ok next) :
    LeaseSound next := by
  have phaseOf (call : Nat) (phase : Phase) (position : s.phase call = phase) :
      PhaseSound s.row phase := position ▸ before.phases call
  cases step with
  | readRow call operation =>
    simp only [leaseStep] at ok
    split at ok
    · rename_i position
      cases ok
      refine enter_sound before (readRow_sound s.row operation) ?_ ?_
      · rw [position]
        exact nofun
      · rw [position]
        exact nofun
    · cases ok
  | markExpired call =>
    simp only [leaseStep] at ok
    split at ok
    · rename_i update position
      cases ok
      have shape : update = { whereStatus := some [.requested], status := some .expired } :=
        phaseOf call _ position
      cases written : fenced update s.row with
      | none =>
        refine enter_sound before trivial ?_ ?_
        · rw [position]
          exact nofun
        · rw [position]
          exact nofun
      | some row =>
        obtain ⟨status, finds⟩ := fenced_status written
        have expired : row.status = .expired := by
          rw [status, shape]
          rfl
        have requested : s.row.status = .requested := by
          rw [shape] at finds
          simpa [SessionUpdate.finds] using finds
        have notRequested : row.status ≠ .requested := by
          rw [expired]
          exact nofun
        refine ⟨before.phases_enter trivial fun _ => notRequested, fun _ holds => ?_,
          fun again => absurd again notRequested⟩
        refine exists_enter (intact requested holds) ?_
        rw [position]
        exact nofun
    · cases ok
  | acquireLease call input active now =>
    simp only [leaseStep] at ok
    split at ok
    · rename_i retryingLaunch update position
      have facts : update.status = some .accepted ∧
          (retryingLaunch = true → s.row.status ≠ .requested) := phaseOf call _ position
      split at ok
      · rename_i lease acquired
        cases ok
        refine ⟨before.phases_enter facts id, fun isOver _ => ?_, fun _ _ => does_enter rfl⟩
        refine exists_enter (intact isOver ?_) ?_
        · rw [acquired]
          rfl
        · rw [position]
          exact nofun
      · cases ok
        refine enter_sound before trivial ?_ ?_
        · rw [position]
          exact nofun
        · rw [position]
          exact nofun
    · cases ok
  | acceptRow call =>
    simp only [leaseStep] at ok
    split at ok
    · rename_i retryingLaunch update lease position
      have facts : update.status = some .accepted ∧
          (retryingLaunch = true → s.row.status ≠ .requested) := phaseOf call _ position
      split at ok
      · rename_i row written
        cases ok
        have status : row.status = .accepted := by
          rw [(fenced_status written).1, facts.1]
          rfl
        refine ⟨before.phases_enter trivial fun _ => by rw [status]; exact nofun, ?_, ?_⟩
        · rw [status]
          exact nofun
        · rw [status]
          exact nofun
      · cases ok
        exact refused_sound before position
    · cases ok
  | refuse call =>
    simp only [leaseStep] at ok
    split at ok
    · rename_i position
      cases ok
      refine enter_sound before trivial ?_ ?_
      · rw [position]
        exact nofun
      · rw [position]
        exact nofun
    · rename_i position
      cases ok
      exact refused_sound before position
    · cases ok
  | readStatus call =>
    simp only [leaseStep] at ok
    split at ok
    · rename_i position
      cases ok
      refine enter_sound before ?_ ?_ fun requested _ _ => ?_
      · split
        · exact trivial
        · exact trivial
      · rw [position]
        exact nofun
      · rw [if_pos requested]
        rfl
    · cases ok
  | writeStatus call =>
    simp only [leaseStep] at ok
    split at ok
    · rename_i update reason position
      obtain ⟨status, sets, isOver⟩ : ∃ status, update.status = some status ∧ ended status = true :=
        phaseOf call _ position
      split at ok
      · rename_i row written
        cases ok
        have same : row.status = status := by
          rw [(fenced_status written).1, sets]
          rfl
        have notRequested : row.status ≠ .requested := by
          rintro requested
          rw [← same, requested] at isOver
          cases isOver
        exact ⟨before.phases_enter trivial fun _ => notRequested, fun _ _ => does_enter rfl,
          fun requested _ => absurd requested notRequested⟩
      · cases ok
        refine enter_sound before trivial ?_ ?_
        · rw [position]
          exact nofun
        · rw [position]
          exact nofun
    · cases ok
  | loadLease call now =>
    simp only [leaseStep] at ok
    split at ok
    · rename_i reason position
      split at ok
      · rename_i lease released
        cases ok
        refine enter_sound before ?_ (fun _ _ _ => rfl) fun _ _ _ => rfl
        obtain ⟨current, _, released⟩ := Option.bind_eq_some_iff.mp released
        unfold releaseLease at released
        split at released
        · cases released
        · cases released
          exact nofun
      · rename_i unchanged
        cases ok
        have free : s.holdsLease = false := release_free unchanged
        refine enter_sound before trivial (fun _ holds => ?_) fun _ holds => ?_
        · rw [free] at holds
          cases holds
        · rw [free] at holds
          cases holds
    · cases ok
  | persistLease call =>
    simp only [leaseStep] at ok
    split at ok
    · rename_i lease position
      cases ok
      have released : lease.releasedAt ≠ none := phaseOf call _ position
      have free : LeaseState.holdsLease { s.enter call .finished with quotaLease := some lease } =
          false := by
        simpa [LeaseState.holdsLease, Option.isSome_iff_ne_none] using released
      refine ⟨before.phases_enter trivial id, fun _ holds => ?_, fun _ holds => ?_⟩
      · rw [free] at holds
        cases holds
      · rw [free] at holds
        cases holds
    · cases ok
  | progress row =>
    simp only [leaseStep] at ok
    split at ok
    · cases ok
    · rename_i holding
      cases ok
      rw [Bool.not_eq_true, Bool.or_eq_false_iff] at holding
      have notRequested : row.status ≠ .requested := by
        rintro requested
        rw [requested] at holding
        cases holding.2
      refine ⟨fun call => (before.phases call).row fun _ => notRequested, fun isOver => ?_,
        fun requested => absurd requested notRequested⟩
      cases status : row.status <;> rw [status] at isOver holding <;> simp_all [ended, leaseless]

/-! ## No leaked lease -/

/-- When no call is in flight, a session without a claim to its lane holds no lease. -/
def NoLeakedLease (s : LeaseState) : Prop :=
  (∀ call, (s.phase call).resting = true) → leaseless s.row.status = true → s.holdsLease = false

theorem LeaseSound.noLeak (sound : LeaseSound s) : NoLeakedLease s := by
  intro rests free
  by_contra holds
  rw [Bool.not_eq_false] at holds
  by_cases requested : s.row.status = .requested
  · obtain ⟨call, answers⟩ := sound.requested requested holds
    have rest := rests call
    cases position : s.phase call with
    | idle | expiring | accepting | ending | finished =>
      rw [position] at answers
      cases answers
    | leased | refused | releasing | writing =>
      rw [position] at rest
      cases rest
  · have isOver : ended s.row.status = true := by
      cases status : s.row.status with
      | requested => exact absurd status requested
      | cancelled | completed | expired => rfl
      | _ =>
        rw [status] at free
        cases free
    obtain ⟨call, releases⟩ := sound.isOver isOver holds
    have rest := rests call
    cases position : s.phase call with
    | releasing | writing =>
      rw [position] at rest
      cases rest
    | _ =>
      rw [position] at releases
      cases releases

/-- In every run that takes no lease for a session that is over and expires no session
that holds one, no lease leaks. -/
theorem no_leaked_lease (row : SessionRow) (steps : List LeaseStep)
    (intact : Replay.Meets leaseStep Intact (initial row) steps) :
    NoLeakedLease (Replay.replay leaseStep (initial row) steps) :=
  (Replay.replay_preserves Intact LeaseSound leaseStep_sound intact (initial_sound row)).noLeak

def sampleRow : SessionRow :=
  { status := .requested, requestExpiresAt := none, directMember := false, roomAssigned := true,
    launchAttempt := 0, launchState := none, daemonEntryId := none, lrtLimit := none,
    lrtReserved := 0, lrtUsed := 0, budgetStopThreshold := none, meterConfidence := none,
    heartbeatCount := 0 }

def sampleInput : AcquireLeaseInput :=
  ⟨"session", none, ⟨"codex", none, none, some "owner"⟩, ⟨none, none, none, .unknown, "t0"⟩, some 1⟩

/-- An accepted session is cancelled and gives its lease back. -/
theorem cancelled_session_free :
    NoLeakedLease (Replay.replay leaseStep (initial sampleRow)
      [.readRow 0 (.acceptSession none 0), .acquireLease 0 sampleInput [] "t1", .acceptRow 0,
        .readRow 1 .cancelSession, .writeStatus 1, .loadLease 1 "t2", .persistLease 1]) :=
  no_leaked_lease sampleRow _
    ⟨True.intro, fun isOver => absurd isOver (by decide +kernel), True.intro, True.intro, True.intro,
      True.intro, True.intro, True.intro⟩

/-- The statements of an accept that reads the request before a cancel, and takes the lease
after it. -/
def lateAccept : List LeaseStep :=
  [.readRow 0 (.acceptSession none 0), .readRow 1 .cancelSession, .writeStatus 1,
    .loadLease 1 "t1", .acquireLease 0 sampleInput [] "t2", .acceptRow 0, .readStatus 0]

/-- The cancelled session keeps the lease. -/
theorem late_accept_leaks :
    ¬ ∀ row steps, NoLeakedLease (Replay.replay leaseStep (initial row) steps) := by
  intro free
  have rests : ∀ call, ((Replay.replay leaseStep (initial sampleRow) lateAccept).phase call).resting =
      true := by
    intro call
    match call with
    | 0 => decide +kernel
    | 1 => decide +kernel
    | call + 2 => rfl
  have kept := free sampleRow lateAccept rests (by decide +kernel)
  have leaked : (Replay.replay leaseStep (initial sampleRow) lateAccept).holdsLease = true := by
    decide +kernel
  rw [leaked] at kept
  cases kept

end LetAgents.Rental.SessionLease

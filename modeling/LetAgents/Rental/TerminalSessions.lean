import LetAgents.Lib.Replay
import LetAgents.Rental.SessionLifecycle

/-!
# Terminal rental sessions

Half of the writers fence their update on the status they decided from; those
never leave a terminal status, whatever runs beside them. The heartbeat, expiry
and budget writers update by id alone: they are safe where the row still has the
status they read, and a budget call is safe where it exhausts an active session.
Two of the fenced writes are outside the transition table on purpose: an expired
request, and a failed launch that goes back to `accepted`.
-/
namespace LetAgents.Rental.TerminalSessions

open BudgetSentinel SessionLifecycle Lib Lib.Checked

/-- The status is kept, moves along the table, or makes one of the two moves the
code adds to it. -/
def PermittedChange (previous next : SessionStatus) : Prop :=
  next = previous ∨ isValidTransition previous next = true ∨
    (previous = .requested ∧ next = .expired) ∨ (previous = .provisioning ∧ next = .accepted)

theorem permittedChange_terminal (terminal : isTerminal previous = true)
    (change : PermittedChange previous next) : next = previous := by
  rcases change with same | valid | ⟨rfl, _⟩ | ⟨rfl, _⟩
  · exact same
  · cases previous with
    | completed | cancelled | expired | failed =>
      simp [isValidTransition, validTransitions] at valid
    | _ => cases terminal
  · cases terminal
  · cases terminal

/-- The operations whose update names the statuses it may find. -/
def fencesStatus : Operation → Bool
  | .acceptSession .. | .declineSession | .cancelSession | .completeRoute | .cancelRoute
  | .acknowledgeRentalLaunch .. => true
  | _ => false

/-! ## What each decision may write -/

/-- A fenced update moves every status it accepts by a permitted change. -/
def FencedChange (update : SessionUpdate) : Prop :=
  ∃ statuses next, update.whereStatus = some statuses ∧ update.status = some next ∧
    ∀ status ∈ statuses, PermittedChange status next

/-- An unfenced update moves the status its call read, or exhausts the budget. -/
def UnfencedChange (read : SessionRow) (update : SessionUpdate) : Prop :=
  ∀ next, update.status = some next →
    PermittedChange read.status next ∨ next = .budgetExhausted

variable {read : SessionRow} {update : SessionUpdate}

theorem fencedTransition_change (ok : fencedTransition next read = .ok update) :
    FencedChange update := by
  unfold fencedTransition at ok
  split at ok
  · rename_i valid
    cases ok
    refine ⟨_, _, rfl, rfl, fun status member => ?_⟩
    rw [List.mem_singleton.1 member]
    exact .inr (.inl valid)
  · cases ok

theorem acceptSession_change (ok : acceptSession selection now capacity read = .ok update) :
    FencedChange update := by
  obtain ⟨_, ok⟩ := require_bind_ok ok
  obtain ⟨_, _, ok⟩ := bind_ok ok
  obtain ⟨_, ok⟩ := require_bind_ok ok
  obtain ⟨_, ok⟩ := require_bind_ok ok
  obtain ⟨_, ok⟩ := require_bind_ok ok
  split at ok
  · cases ok
    refine ⟨_, _, rfl, rfl, fun status member => ?_⟩
    exact .inr (.inr (.inl ⟨List.mem_singleton.1 member, rfl⟩))
  · obtain ⟨_, ok⟩ := require_bind_ok ok
    obtain ⟨_, _, ok⟩ := bind_ok ok
    cases ok
    refine ⟨_, _, rfl, rfl, fun status member => ?_⟩
    rw [List.mem_singleton.1 member]
    split
    · exact .inl rfl
    · exact .inr (.inl rfl)

theorem acknowledgeRentalLaunch_change {ack : RentalLaunchAcknowledgement}
    (ok : acknowledgeRentalLaunch ack selection worker read = .ok update) :
    FencedChange update := by
  have written : update.whereStatus = some (rentalLaunchAcknowledgementPriorStatuses ack.state) ∧
      update.status = some (acknowledgedStatus ack.state) := by
    obtain ⟨_, _, ok⟩ := bind_ok ok
    obtain ⟨_, ok⟩ := require_bind_ok ok
    obtain ⟨_, ok⟩ := require_bind_ok ok
    obtain ⟨_, _, ok⟩ := bind_ok ok
    obtain ⟨_, ok⟩ := require_bind_ok ok
    obtain ⟨_, _, ok⟩ := bind_ok ok
    cases ok
    exact ⟨rfl, rfl⟩
  refine ⟨_, _, written.1, written.2, fun status member => ?_⟩
  cases report : ack.state with
  | active =>
    simp [report, rentalLaunchAcknowledgementPriorStatuses] at member
    subst member
    exact .inr (.inl rfl)
  | provisioning =>
    simp [report, rentalLaunchAcknowledgementPriorStatuses] at member
    rcases member with rfl | rfl
    · exact .inr (.inl rfl)
    · exact .inl rfl
  | launchFailed =>
    simp [report, rentalLaunchAcknowledgementPriorStatuses] at member
    rcases member with rfl | rfl
    · exact .inl rfl
    · exact .inr (.inr (.inr ⟨rfl, rfl⟩))

theorem recordHeartbeat_change (ok : recordHeartbeat provider read = .ok update) :
    UnfencedChange read update := by
  intro next written
  unfold recordHeartbeat at ok
  split at ok
  · cases ok
  split at ok <;> cases ok
  · rename_i status
    obtain rfl := Option.some.inj written
    exact .inl (.inr (.inl (by rw [status]; rfl)))
  · rename_i status
    obtain rfl := Option.some.inj written
    exact .inl (.inr (.inl (by rw [status]; rfl)))
  · cases written
  · cases written

theorem expireSession_change (ok : expireSession read = .ok update) :
    UnfencedChange read update := by
  intro next written
  unfold expireSession at ok
  split at ok
  · rename_i valid
    cases ok
    obtain rfl := Option.some.inj written
    exact .inl (.inr (.inl valid))
  · cases ok

theorem markSessionStale_change (ok : markSessionStale read = .ok update) :
    UnfencedChange read update := by
  intro next written
  unfold markSessionStale at ok
  split at ok
  · rename_i valid
    cases ok
    obtain rfl := Option.some.inj written
    exact .inl (.inr (.inl valid))
  · cases ok

theorem approveBudgetExtension_change
    (ok : approveBudgetExtension renter approved read = .ok update) :
    UnfencedChange read update := by
  intro next written
  obtain ⟨_, ok⟩ := require_bind_ok ok
  obtain ⟨_, ok⟩ := require_bind_ok ok
  obtain ⟨_, ok⟩ := require_bind_ok ok
  obtain ⟨_, ok⟩ := require_bind_ok ok
  obtain ⟨amount, _, ok⟩ := bind_ok ok
  cases ok
  obtain rfl := Option.some.inj written
  split
  · rename_i exhausted
    exact .inl (.inr (.inl (by rw [exhausted]; rfl)))
  · exact .inl (.inl rfl)

theorem reserveBudget_change
    (ok : reserveBudget stepCostLrt options nowMs reads read = .ok (some update)) :
    UnfencedChange read update := by
  intro next written
  obtain ⟨_, _, ok⟩ := bind_ok ok
  obtain ⟨_, ok⟩ := require_bind_ok ok
  split at ok
  · cases ok
  simp only at ok
  split at ok
  · cases ok
    cases written
  split at ok
  · cases ok
    exact .inr (Option.some.inj written).symm
  · cases ok

theorem reconcileBudget_change
    (ok : reconcileBudget actualCostLrt reservedCostLrt reads read = .ok (some update)) :
    UnfencedChange read update := by
  intro next written
  obtain ⟨_, _, ok⟩ := bind_ok ok
  obtain ⟨_, _, ok⟩ := bind_ok ok
  obtain ⟨_, ok⟩ := require_bind_ok ok
  split at ok
  · cases ok
  cases ok
  obtain rfl := Option.some.inj written
  rcases applyReconciliation_status actualCostLrt reservedCostLrt
    (toSentinelState read reads.latestMeter) with kept | exhausted
  · exact .inl (.inl kept)
  · exact .inr exhausted

theorem map_some_ok {decision : Except String SessionUpdate}
    (ok : decision.map some = .ok (some update)) : decision = .ok update := by
  cases decision with
  | error e => cases ok
  | ok value =>
    cases ok
    rfl

/-- What any operation writes, by whether it fences the status. -/
theorem decide_change (ok : operation.decide read = .ok (some update)) :
    (fencesStatus operation = true → FencedChange update) ∧
      (fencesStatus operation = false → UnfencedChange read update) := by
  cases operation with
  | acceptSession selection now capacity =>
    exact ⟨fun _ => acceptSession_change (map_some_ok ok), nofun⟩
  | declineSession | cancelSession | completeRoute | cancelRoute =>
    exact ⟨fun _ => fencedTransition_change (map_some_ok ok), nofun⟩
  | acknowledgeRentalLaunch ack selection worker =>
    exact ⟨fun _ => acknowledgeRentalLaunch_change (map_some_ok ok), nofun⟩
  | recordHeartbeat provider =>
    exact ⟨nofun, fun _ => recordHeartbeat_change (map_some_ok ok)⟩
  | expireSession =>
    exact ⟨nofun, fun _ => expireSession_change (map_some_ok ok)⟩
  | markSessionStale =>
    exact ⟨nofun, fun _ => markSessionStale_change (map_some_ok ok)⟩
  | reserveBudget stepCostLrt options nowMs reads =>
    exact ⟨nofun, fun _ => reserveBudget_change ok⟩
  | reconcileBudget actualCostLrt reservedCostLrt reads =>
    exact ⟨nofun, fun _ => reconcileBudget_change ok⟩
  | approveBudgetExtension renter approved =>
    exact ⟨nofun, fun _ => approveBudgetExtension_change (map_some_ok ok)⟩

/-! ## One write -/

/-- The call exhausts the budget of a session that was not exhausted. -/
def exhausts (operation : Operation) (read : SessionRow) : Bool :=
  match operation.decide read with
  | .ok (some update) => update.status = some .budgetExhausted && read.status ≠ .budgetExhausted
  | _ => false

/-- The write is fenced; or it finds the status its call read, and exhausts the
budget of an active session only. -/
def fencedOrFresh (current read : SessionRow) (operation : Operation) : Bool :=
  fencesStatus operation ||
    (current.status = read.status && (!exhausts operation read || read.status = .active))

theorem set_status (ok : update.set row = some next) :
    next.status = update.status.getD row.status := by
  unfold SessionUpdate.set at ok
  simp only [Option.bind_eq_bind, Option.bind_eq_some_iff, Option.some.injEq] at ok
  obtain ⟨_, _, _, _, _, _, rfl⟩ := ok
  rfl

theorem finds_status (found : update.finds row = true) (fenced : update.whereStatus = some statuses) :
    row.status ∈ statuses := by
  simp only [SessionUpdate.finds, Bool.and_eq_true, fenced] at found
  simpa using found.1.1

theorem writeRow_change (condition : fencedOrFresh current read operation = true) :
    PermittedChange current.status (writeRow current read operation).status := by
  unfold writeRow
  split
  · rename_i update decided
    split
    · rename_i found
      cases result : update.set current with
      | none => exact .inl rfl
      | some next =>
        simp only [Option.getD_some, set_status result]
        cases written : update.status with
        | none => exact .inl rfl
        | some status =>
          obtain ⟨fenced, unfenced⟩ := decide_change decided
          cases kind : fencesStatus operation with
          | true =>
            obtain ⟨statuses, next', accepted, same, permitted⟩ := fenced kind
            obtain rfl := Option.some.inj (written.symm.trans same)
            exact permitted _ (finds_status found accepted)
          | false =>
            simp only [fencedOrFresh, kind, Bool.false_or, Bool.and_eq_true,
              decide_eq_true_eq] at condition
            obtain ⟨fresh, harmless⟩ := condition
            rw [fresh]
            rcases unfenced kind status written with permitted | rfl
            · exact permitted
            · by_cases already : read.status = .budgetExhausted
              · exact .inl already.symm
              · have exhausting : exhausts operation read = true := by
                  simp [exhausts, decided, written, already]
                simp only [exhausting, Bool.not_true, Bool.false_or,
                  decide_eq_true_eq] at harmless
                rw [harmless]
                exact .inr (.inl rfl)
    · exact .inl rfl
  · exact .inl rfl

/-! ## Runs -/

def freshStep (s : SessionState) : SessionStep → Bool
  | .write call =>
    match s.phase call with
    | .read operation read => fencedOrFresh s.row read operation
    | _ => true
  | _ => true

def FencedOrFresh (s : SessionState) (step : SessionStep) : Prop := freshStep s step = true

instance (s : SessionState) (step : SessionStep) : Decidable (FencedOrFresh s step) :=
  inferInstanceAs (Decidable (_ = true))

theorem sessionStep_change (condition : FencedOrFresh s step) (ok : sessionStep s step = .ok next) :
    PermittedChange s.row.status next.row.status := by
  cases step with
  | acquireLock call operation =>
    simp only [sessionStep] at ok
    split at ok
    · split at ok
      · cases ok
        exact .inl rfl
      · cases ok
    · cases ok
  | readRow call operation =>
    simp only [sessionStep] at ok
    split at ok
    · split at ok
      · cases ok
      · cases ok
        exact .inl rfl
    · cases ok
  | readLockedRow call =>
    simp only [sessionStep] at ok
    split at ok
    · cases ok
      exact .inl rfl
    · cases ok
  | write call =>
    simp only [sessionStep] at ok
    split at ok
    · rename_i operation read position
      cases ok
      simp only [FencedOrFresh, freshStep, position] at condition
      exact writeRow_change condition
    · cases ok
  | fail call =>
    cases ok
    exact .inl rfl

/-- From any state that calls can reach, along any steps whose unfenced writes
are fresh: a terminal status stays, and every change is permitted. -/
theorem terminal_status_stays (row : SessionRow) (earlier later : List SessionStep)
    (fresh : Replay.Meets sessionStep FencedOrFresh
      (Replay.replay sessionStep (initial row) earlier) later) :
    (isTerminal (Replay.replay sessionStep (initial row) earlier).row.status = true →
      (Replay.replay sessionStep (initial row) (earlier ++ later)).row.status =
        (Replay.replay sessionStep (initial row) earlier).row.status) ∧
    ∀ step next, FencedOrFresh (Replay.replay sessionStep (initial row) earlier) step →
      sessionStep (Replay.replay sessionStep (initial row) earlier) step = .ok next →
        PermittedChange (Replay.replay sessionStep (initial row) earlier).row.status
          next.row.status := by
  refine ⟨?_, fun step next condition ok => sessionStep_change condition ok⟩
  rw [Replay.replay_append]
  refine Replay.replay_relates FencedOrFresh (fun _ => True)
    (fun s s' => isTerminal s.row.status = true → s'.row.status = s.row.status)
    (fun _ _ _ _ _ _ => True.intro) (fun _ _ => rfl) ?_ ?_ fresh True.intro
  · intro a b c ab bc terminal
    have kept := ab terminal
    rw [← kept]
    exact bc (by rw [kept]; exact terminal)
  · intro s step next _ condition ok terminal
    exact permittedChange_terminal terminal (sessionStep_change condition ok)

/-- A direct rental in a given status, its launch in a given state. -/
def sampleRow (status : SessionStatus) (launchState : Option LaunchState) : SessionRow where
  status := status
  requestExpiresAt := some 1000
  directMember := true
  roomAssigned := true
  launchAttempt := 1
  launchState := launchState
  daemonEntryId := none
  lrtLimit := some 100
  lrtReserved := 0
  lrtUsed := 0
  budgetStopThreshold := none
  meterConfidence := none
  heartbeatCount := 0

theorem cancelled_session_stays :
    (Replay.replay sessionStep (initial (sampleRow .provisioning (some .provisioning)))
      ([.readRow 0 .cancelSession, .write 0] ++
        [.readRow 1 (.recordHeartbeat true), .write 1])).row.status =
    (Replay.replay sessionStep (initial (sampleRow .provisioning (some .provisioning)))
      [.readRow 0 .cancelSession, .write 0]).row.status :=
  (terminal_status_stays _ _ _ (by decide +kernel)).1 (by decide +kernel)

/-- A heartbeat that read `provisioning` revives a session cancelled since; and two
changes outside the table are written with no interleaving at all. -/
theorem stale_heartbeat_revives_session :
    (isTerminal (Replay.replay sessionStep (initial (sampleRow .provisioning (some .provisioning)))
        [.readRow 0 (.recordHeartbeat true), .readRow 1 .cancelSession, .write 1]).row.status
        = true ∧
      (Replay.replay sessionStep (initial (sampleRow .provisioning (some .provisioning)))
        [.readRow 0 (.recordHeartbeat true), .readRow 1 .cancelSession, .write 1,
          .write 0]).row.status = .active) ∧
    ((Replay.replay sessionStep (initial (sampleRow .requested none))
        [.readRow 0 (.acceptSession (some (.ok ())) 1000 (.ok ())), .write 0]).row.status
        = .expired ∧ isValidTransition .requested .expired = false) ∧
    ((Replay.replay sessionStep (initial (sampleRow .provisioning (some .provisioning)))
        [.readRow 0 (.acknowledgeRentalLaunch ⟨1, .launchFailed, none⟩ (.ok ()) (.ok ())),
          .write 0]).row.status = .accepted ∧
      isValidTransition .provisioning .accepted = false) := by
  decide +kernel

end LetAgents.Rental.TerminalSessions

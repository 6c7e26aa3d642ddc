import LetAgents.Inbox.RowLife

/-!
# One outcome per turn

A reply whose publication was started may already be in the room. The journal of an
item keeps that start; the delivery state does not, since a failed publication goes
back through `retryable`, `blocked` and `pending`, from which a stop still settles.
-/
namespace LetAgents.Inbox.Publication

open Lib Records Retention Pruning Ingress Delivery RoomMove Store Writes
  Transaction Reachable RowLife

/-! ## Started publications -/

def startsPublication : EventKey → Bool
  | .phase .publishStarted _ => true
  | _ => false

/-- The journal records that the reply was about to be published. -/
def publicationStarted (item : SupervisedInboxItem) : Bool :=
  item.events.any fun event => startsPublication event.idempotencyKey

variable {item written row : SupervisedInboxItem} {db : Database} {op : Op}

theorem publicationStarted_iff : publicationStarted item = true ↔
    ∃ key, startsPublication key = true ∧ item.hasEvent key = true := by
  constructor
  · intro started
    obtain ⟨event, member, starts⟩ := List.any_eq_true.mp started
    exact ⟨event.idempotencyKey, starts, List.any_eq_true.mpr ⟨event, member, decide_eq_true rfl⟩⟩
  · rintro ⟨key, starts, has⟩
    obtain ⟨event, member, same⟩ := List.any_eq_true.mp has
    rw [decide_eq_true_eq] at same
    exact List.any_eq_true.mpr ⟨event, member, by rw [same]; exact starts⟩

/-- A write keeps the start of a publication in the journal. -/
theorem RowWrite.publicationStarted (write : RowWrite db item op written)
    (started : publicationStarted item = true) : publicationStarted written = true := by
  obtain ⟨key, starts, has⟩ := publicationStarted_iff.mp started
  exact publicationStarted_iff.mpr ⟨key, starts, (RowWrite.journals write key).1 has⟩

/-! ## Who publishes -/

/-- Only a transition enters `publishing`, and it records the start. -/
theorem RowWrite.publishing (write : RowWrite db item op written)
    (publishing : written.state = .publishing) :
    item.state = .publishing ∨ Publication.publicationStarted written = true := by
  cases write with
  | annotated notes =>
    rw [Annotates.state notes] at publishing
    exact .inl publishing
  | transitioned call allowed =>
    rename_i next patch now
    rw [recordTransition_state] at publishing
    have state : next = .publishing := publishing
    refine .inr (publicationStarted_iff.mpr
      ⟨.phase .publishStarted (toString item.attemptCount), rfl, ?_⟩)
    subst state
    exact (recordEvent_hasEvent _ _ _ _).mpr (.inr rfl)
  | claimed => cases publishing
  | turnStarted =>
    rw [turnStarted_state] at publishing
    exact .inl publishing
  | retried =>
    rw [retried_state, retryState] at publishing
    split_ifs at publishing
  | handedBack =>
    rw [handedBack_state] at publishing
    cases publishing
  | finished =>
    rw [finished_state] at publishing
    exact .inl publishing
  | outcomeRecorded =>
    rw [outcomeRecorded_state] at publishing
    exact .inl publishing
  | published =>
    rw [published_state] at publishing
    cases publishing
  | skipped =>
    rw [skipped_state] at publishing
    cases publishing
  | stopped =>
    rw [stopped_state] at publishing
    split_ifs at publishing
  | unused =>
    rw [unused_state] at publishing
    cases publishing
  | recovered unsettled proven decided =>
    rw [recovered_state] at publishing
    subst publishing
    rcases recoveryDecision_cases decided with ⟨_, same⟩ | ⟨_, _, same⟩ |
      ⟨_, _, same | same | same | ⟨same, _⟩⟩ <;> cases same
  | released =>
    rw [released_state] at publishing
    cases publishing
  | roomMoveCancelled =>
    rw [roomMoveCancelled_state] at publishing
    cases publishing
  | revived =>
    rw [revived_state] at publishing
    cases publishing

/-- A row in `publishing` has its start in the journal. -/
theorem publishing_started (host : Host) (log : List Op) :
    ∀ row ∈ (run host log).inbox, row.state = .publishing → publicationStarted row = true := by
  refine run_rows (fun _ _ => True)
    (fun row => row.state = .publishing → publicationStarted row = true)
    (fun db op row new publishing => ?_) (fun db op item row _ _ _ stepped before publishing => ?_)
    (Replay.meets_of_forall (fun _ _ => trivial) _ log)
  · rcases NewRow.state new with pending | ⟨blocked, _⟩
    · rw [pending] at publishing
      cases publishing
    · rw [blocked] at publishing
      cases publishing
  · obtain ⟨written, source, trims⟩ := stepped
    have unsettled : written.state.isFinal = false := by
      rw [← trims.state_eq, publishing]
      rfl
    rw [trims.eq_of_unsettled unsettled] at publishing ⊢
    rcases source with rfl | write
    · exact before publishing
    · rcases RowWrite.publishing write publishing with earlier | started
      · exact RowWrite.publicationStarted write (before earlier)
      · exact started

/-! ## Who cancels -/

/-- The calls that cancel an item, on the items they would cancel. -/
def cancels (op : Op) (item : SupervisedInboxItem) : Bool :=
  match op with
  | .cancelInterruptedTurn inboxItemId _ _ _ =>
    item.inboxItemId = inboxItemId && interruptible item.state &&
      match readDurableNativeFailure item with
      | .ok none => true
      | _ => false
  | .transition inboxItemId next _ _ =>
    item.inboxItemId = inboxItemId && next = .cancelledByUser && item.state = .blocked
  | .skipBlocked inboxItemId _ =>
    item.inboxItemId = inboxItemId && item.state = .blocked && neverStarted item
  | .commitRoomMoveQueue input _ => leavesRoom input item
  | _ => false

def cancelled : SupervisedInboxState → Bool
  | .cancelledByUser | .cancelledByRoomMove => true
  | _ => false

/-- A row becomes cancelled only by a call that cancels it. -/
theorem RowWrite.cancels (write : RowWrite db item op written)
    (ends : cancelled written.state = true) :
    written.state = item.state ∨ Publication.cancels op item = true := by
  cases write with
  | annotated notes => exact .inl (Annotates.state notes)
  | transitioned call allowed =>
    rename_i next patch now
    have listed := (assertTransition_ok allowed).choose_spec.listed
    rw [recordTransition_state] at ends ⊢
    change cancelled next = true at ends
    have target : item.state = .blocked ∧ next = .cancelledByUser := by
      revert listed ends
      cases item.state <;> cases next <;> decide
    rcases call with rfl | ⟨_, pending, _⟩
    · exact .inr (by simp [Publication.cancels, target.1, target.2])
    · rw [pending] at target
      cases target.2
  | claimed => cases ends
  | turnStarted => exact .inl (turnStarted_state _ _ _)
  | retried =>
    rw [retried_state, retryState] at ends
    split_ifs at ends <;> cases ends
  | handedBack =>
    rw [handedBack_state] at ends
    cases ends
  | finished => exact .inl (finished_state _ _)
  | outcomeRecorded => exact .inl (outcomeRecorded_state _ _)
  | published =>
    rw [published_state] at ends
    cases ends
  | skipped head blocked unstarted =>
    exact .inr (by simp [Publication.cancels, blocked, unstarted])
  | stopped head state proven =>
    rw [stopped_state] at ends
    split_ifs at ends with failed
    · cases ends
    · have unproven := Option.not_isSome_iff_eq_none.mp failed
      rw [unproven] at proven
      exact .inr (by simp [Publication.cancels, state, proven])
  | unused =>
    rw [unused_state] at ends
    cases ends
  | recovered unsettled proven decided =>
    rw [recovered_state] at ends
    rcases recoveryDecision_cases decided with ⟨_, same⟩ | ⟨_, _, same⟩ |
      ⟨_, _, same | same | same | ⟨same, _⟩⟩ <;> rw [same] at ends <;> cases ends
  | released =>
    rw [released_state] at ends
    cases ends
  | roomMoveCancelled leaves => exact .inr leaves
  | revived =>
    rw [revived_state] at ends
    cases ends

/-- No call cancels an item whose publication was started. -/
def sparesPublications (db : Database) (op : Op) : Bool :=
  db.inbox.all fun item => !(cancels op item && publicationStarted item)

/-- A reply that was about to be published: the item ends delivered, or is not yet
settled and its journal still has the start. -/
def StaysPublished (row : SupervisedInboxItem) : Prop :=
  (row.state.isFinal = false ∧ publicationStarted row = true) ∨
    (row.state.isFinal = true ∧ cancelled row.state = false)

theorem RowStep.staysPublished (sound : Sound db) (spares : sparesPublications db op = true)
    (member : item ∈ db.inbox) (stepped : RowStep db op item row) (stays : StaysPublished item) :
    StaysPublished row := by
  rcases stays with ⟨unsettled, started⟩ | ⟨final, delivered⟩
  · obtain ⟨written, source, trims⟩ := stepped
    have keeps : publicationStarted written = true := by
      rcases source with rfl | write
      · exact started
      · exact RowWrite.publicationStarted write started
    by_cases settled : written.state.isFinal = true
    · refine .inr ⟨by rw [trims.state_eq]; exact settled, ?_⟩
      rw [trims.state_eq]
      by_contra notDelivered
      have ends : cancelled written.state = true := Bool.eq_true_of_not_eq_false notDelivered
      rcases source with rfl | write
      · rw [unsettled] at settled
        cases settled
      · rcases RowWrite.cancels write ends with same | hit
        · rw [same, unsettled] at settled
          cases settled
        · have clear := List.all_eq_true.mp spares item member
          rw [hit, started] at clear
          cases clear
    · have open' : written.state.isFinal = false := Bool.eq_false_of_not_eq_true settled
      rw [trims.eq_of_unsettled open']
      exact .inl ⟨open', keeps⟩
  · refine .inr ?_
    rcases RowStep.of_final sound member stepped final with same | ⟨input, _, owned⟩
    · rw [same]
      exact ⟨final, delivered⟩
    · -- only a cancelled row is revived
      simp only [revivable, Bool.and_eq_true, decide_eq_true_eq] at owned
      rw [owned.1.2] at delivered
      cases delivered

/-! ## Publication rows -/

theorem recordEvent_publication (item : SupervisedInboxItem) (idempotencyKey : EventKey)
    (phase : InboxPhase) :
    (item.recordEvent idempotencyKey phase).publication = item.publication := by
  obtain ⟨_, same⟩ := recordEvent_eq item idempotencyKey phase
  rw [same]

/-- Only an acknowledged item gets a publication. -/
theorem RowWrite.publication (write : RowWrite db item op written) :
    written.publication = item.publication ∨ written.state = .acknowledged := by
  cases write with
  | annotated notes =>
    cases notes with
    | columns => exact .inl rfl
    | event => exact .inl (recordEvent_publication _ _ _)
  | transitioned =>
    rename_i next patch now _ _
    obtain ⟨_, same⟩ := recordTransition_eq (patch.row item next now)
    rw [same]
    exact .inl rfl
  | claimed => exact .inl rfl
  | turnStarted => exact .inl (recordEvent_publication _ _ _)
  | retried =>
    rename_i input _ _ _ _
    obtain ⟨_, same⟩ := retried_eq item input
    rw [same]
    exact .inl rfl
  | handedBack => exact .inl (recordEvent_publication _ _ _)
  | finished =>
    rename_i input _ _ _ _ _
    obtain ⟨_, same⟩ := finished_eq item input
    rw [same]
    exact .inl rfl
  | outcomeRecorded => exact .inl (recordEvent_publication _ _ _)
  | published => exact .inr (published_state _ _)
  | skipped => exact .inl (recordEvent_publication _ _ _)
  | stopped =>
    unfold stopped
    split
    · exact .inl rfl
    · exact .inl (recordEvent_publication _ _ _)
  | unused => exact .inl (recordEvent_publication _ _ _)
  | recovered =>
    unfold recovered
    dsimp only
    split
    · exact .inl (recordEvent_publication _ _ _)
    · exact .inl rfl
  | released | roomMoveCancelled | revived => exact .inl (recordEvent_publication _ _ _)

theorem NewRow.unpublished (new : NewRow db op row) : row.publication = none := by
  cases new with
  | polled | synthetic => rfl
  | continuation =>
    unfold continuationChild
    split
    · exact recordEvent_publication _ _ _
    · exact recordEvent_publication _ _ _

theorem Trims.publication_eq (trims : Trims row next) : next.publication = row.publication := by
  rcases trims with rfl | ⟨_, _, _, rfl⟩
  · rfl
  · rfl

theorem published_acknowledged (host : Host) (log : List Op) :
    ∀ row ∈ (run host log).inbox, row.publication.isSome = true → row.state = .acknowledged := by
  refine run_rows (fun _ _ => True)
    (fun row => row.publication.isSome = true → row.state = .acknowledged)
    (fun db op row new known => ?_) (fun db op item row sound member _ stepped before known => ?_)
    (Replay.meets_of_forall (fun _ _ => trivial) _ log)
  · rw [NewRow.unpublished new] at known
    cases known
  · have kept : row.publication = item.publication ∨ row.state = .acknowledged := by
      obtain ⟨written, rfl | write, trims⟩ := stepped
      · exact .inl (Trims.publication_eq trims)
      · rw [Trims.publication_eq trims, trims.state_eq]
        exact RowWrite.publication write
    rcases kept with same | acknowledged
    · rw [same] at known
      have settled := before known
      rcases RowStep.of_final sound member stepped (by rw [settled]; rfl) with same | ⟨_, _, owned⟩
      · exact same.trans settled
      · simp only [revivable, Bool.and_eq_true] at owned
        rw [settled] at owned
        cases owned.1.2
    · exact acknowledged

/-! ## The law -/

/-- An item that is publishing its saved reply is never cancelled, as long as no call
cancels an item whose publication was started; and what the user cancelled is never
published. -/
theorem publication_outcome (host : Host) (earlier later : List Op)
    {item row : SupervisedInboxItem} (member : item ∈ (run host earlier).inbox)
    (after : row ∈ (run host (earlier ++ later)).inbox)
    (same : row.inboxItemId = item.inboxItemId) :
    (item.state = .publishing → savedReply item.outcome = true →
      Replay.Meets step (fun db op => sparesPublications db op = true) (run host earlier) later →
      row.state ≠ .cancelledByUser ∧ row.state ≠ .cancelledByRoomMove) ∧
    (item.state = .cancelledByUser → row.publication = none) := by
  constructor
  · intro publishing _ spares
    have started : StaysPublished item :=
      .inl ⟨by rw [publishing]; rfl, publishing_started host earlier item member publishing⟩
    have stays := run_keeps (fun db op => sparesPublications db op = true) StaysPublished
      (fun db op item row sound member spares stepped stays =>
        RowStep.staysPublished sound spares member stepped stays) spares member started after same
    rcases stays with ⟨unsettled, _⟩ | ⟨_, delivered⟩
    · constructor
      · rintro ended
        rw [ended] at unsettled
        cases unsettled
      · rintro ended
        rw [ended] at unsettled
        cases unsettled
    · constructor
      · rintro ended
        rw [ended] at delivered
        cases delivered
      · rintro ended
        rw [ended] at delivered
        cases delivered
  · intro stopped'
    have stays := run_keeps (fun _ _ => True) (fun row => row.state = .cancelledByUser)
      (fun db op item row sound member _ stepped settled => by
        rcases RowStep.of_final sound member stepped (by rw [settled]; rfl) with
          same | ⟨_, _, owned⟩
        · exact same.trans settled
        · simp only [revivable, Bool.and_eq_true, decide_eq_true_eq] at owned
          rw [settled] at owned
          cases owned.1.2)
      (Replay.meets_of_forall (fun _ _ => trivial) _ later) member stopped' after same
    cases known : row.publication with
    | none => rfl
    | some publication =>
      have delivered := published_acknowledged host (earlier ++ later) row after
        (by rw [known]; rfl)
      rw [stays] at delivered
      cases delivered

/-! ## A stop after a failed publication -/

def now : String := "2026-01-01T00:00:00.000Z"

def incoming : SyntheticMessage :=
  { agentId := "agent", roomId := "room", sourceMessageId := "m1", sourceMessage := .object []
    activation := .object [], uuid := "item" }

def answered : NormalizedTerminal :=
  { inboxItemId := "item", agentId := "agent", executionGenerationId := "generation"
    providerTurnId := "turn", outcome := .reply, text := some "done", evidence := .stream
    failureDetail := none, taskOwnerSessionId := none, terminalEvidence := none, now }

/-- A message up to the publication of its reply. -/
def startedPublication : List Op :=
  [.insertSyntheticMessage incoming, .claimHead "agent" none now,
    .checkpointTurnStarted "item" "turn" ⟨"attempt", "generation", "conversation"⟩,
    .transition "item" .awaitingResult {} now, .checkpointNormalizedTerminal answered,
    .transition "item" .publishing {} now]

def failedPublication : Op :=
  .recordRetryFailure "item" ⟨.publication, "The room did not answer.", none⟩

/-- The message that is publishing its saved reply. -/
theorem publication_is_started : ∃ item ∈ (run Host.quiet startedPublication).inbox,
    item.inboxItemId = "item" ∧ item.state = .publishing ∧ savedReply item.outcome = true := by
  decide +kernel

theorem retried_publication_kept :
    Replay.Meets step (fun db op => sparesPublications db op = true)
        (run Host.quiet startedPublication)
        [failedPublication, .normalizeStartupRecovery "agent" false now] ∧
      ∀ row ∈ (run Host.quiet (startedPublication ++
          [failedPublication, .normalizeStartupRecovery "agent" false now])).inbox,
        row.state ≠ .cancelledByUser ∧ row.state ≠ .cancelledByRoomMove := by
  have spares : Replay.Meets step (fun db op => sparesPublications db op = true)
      (run Host.quiet startedPublication)
      [failedPublication, .normalizeStartupRecovery "agent" false now] := by
    decide +kernel
  have single : ∀ row ∈ (run Host.quiet (startedPublication ++
      [failedPublication, .normalizeStartupRecovery "agent" false now])).inbox,
      row.inboxItemId = "item" := by
    decide +kernel
  refine ⟨spares, fun row after => ?_⟩
  obtain ⟨item, member, named, publishing, saved⟩ := publication_is_started
  exact (publication_outcome Host.quiet startedPublication _ member after
    ((single row after).trans named.symm)).1 publishing saved spares

/-- The user stops the message after a failed publication: the reply that may be in
the room has a second outcome. -/
theorem retried_publication_is_cancelled :
    ¬ ∀ (host : Host) (earlier later : List Op) (item row : SupervisedInboxItem),
      item ∈ (run host earlier).inbox → row ∈ (run host (earlier ++ later)).inbox →
      row.inboxItemId = item.inboxItemId → item.state = .publishing →
      savedReply item.outcome = true →
      row.state ≠ .cancelledByUser ∧ row.state ≠ .cancelledByRoomMove := by
  intro never
  have ended : ∃ row ∈ (run Host.quiet (startedPublication ++
      [failedPublication, .cancelInterruptedTurn "item" "Stopped by the user." none now])).inbox,
      row.inboxItemId = "item" ∧ row.state = .cancelledByUser := by
    decide +kernel
  obtain ⟨item, member, named, publishing, saved⟩ := publication_is_started
  obtain ⟨row, after, rowNamed, stopped'⟩ := ended
  exact (never Host.quiet startedPublication _ item row member after
    (rowNamed.trans named.symm) publishing saved).1 stopped'

end LetAgents.Inbox.Publication

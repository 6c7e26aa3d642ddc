import LetAgents.Inbox.Reachable

/-!
# The life of a row

What every permitted write does to the columns that the laws of the store speak of:
the state, the journal of events, and who may write at all. The lemmas are stated for
`RowWrite` and lifted once to a committed transaction by `step_row`.
-/
namespace LetAgents.Inbox.RowLife

open Lib Lib.Checked Records Retention Pruning DeliveryDrain Ingress Delivery
  RoomMove Repair Store Writes Transaction Reachable

/-! ## From transactions to rows -/

variable {db : Database} {op : Op} {item row written : SupervisedInboxItem}
  {next : SupervisedInboxState}

/-- A row after a transaction continues the item with its id. -/
theorem step_row {next : Database} (sound : Sound db) (ok : step db op = .ok next)
    (member : item ∈ db.inbox) (after : row ∈ next.inbox)
    (same : row.inboxItemId = item.inboxItemId) : RowStep db op item row := by
  rcases (step_follows sound ok).rows row after with ⟨source, sourceMember, stepped⟩ | inserted
  · have ids : source.inboxItemId = item.inboxItemId :=
      (congrArg Receipt.inboxItemId (RowStep.receipt_eq stepped)).symm.trans same
    rw [sound.ids.eq sourceMember member ids] at stepped
    exact stepped
  · have known := sound.issued item member
    rw [← same] at known
    exact absurd known inserted.fresh

/-! ## Guards -/

/-- What a transition that commits has checked. -/
structure TransitionAllowed (db : Database) (item : SupervisedInboxItem)
    (next : SupervisedInboxState) (patch : TransitionPatch) (failure : Option TerminalOutcome) :
    Prop where
  listed : next ∈ transitions item.state
  proven : readDurableNativeFailure item = .ok failure
  fenced : failure.isSome = true → patch.changesOutcome item = false ∧ fencedByFailure next = false
  unforged : patch.changesOutcome item = true → failureKind (patch.outcome.getD none) = none
  headFailed : next = .acknowledgedFailed → IsHead db item
  settledFailed : next = .acknowledgedFailed → patch.onlyFailureDetail = true ∧ failure.isSome = true
  head : next.isFinal = false → IsHead db item
  pending : next = .dispatching → item.state = .pending
  admitted : next = .dispatching → deliveryDrainAllowsAdmission db item = true
  sameTurn : ∀ turnId ∈ patch.providerTurnId, turnId = item.providerTurnId

theorem assertTransition_ok (ok : assertTransition db item next patch = .ok ()) :
    ∃ failure, TransitionAllowed db item next patch failure := by
  obtain ⟨listed, ok⟩ := require_bind_ok ok
  obtain ⟨failure, proven, ok⟩ := bind_ok ok
  obtain ⟨fenced, ok⟩ := require_bind_ok ok
  obtain ⟨unforged, ok⟩ := require_bind_ok ok
  obtain ⟨headFailed, ok⟩ := require_bind_ok ok
  obtain ⟨settledFailed, ok⟩ := require_bind_ok ok
  obtain ⟨head, ok⟩ := require_bind_ok ok
  obtain ⟨pending, ok⟩ := require_bind_ok ok
  obtain ⟨admitted, ok⟩ := require_bind_ok ok
  obtain ⟨sameTurn, ok⟩ := require_bind_ok ok
  refine ⟨failure, List.contains_iff_mem.mp listed, proven, ?_, ?_, headFailed, settledFailed, head,
    pending, admitted, ?_⟩
  · intro some'
    simp only [not_and, not_or, Bool.not_eq_true] at fenced
    exact fenced some'
  · intro changes
    simp only [not_and, Bool.not_eq_true, Option.isSome_eq_false_iff, Option.isNone_iff_eq_none]
      at unforged
    exact unforged changes
  · intro turnId present'
    rw [present'] at sameTurn
    simpa using sameTurn

theorem assertTerminalAuthority_ok (ok : assertTerminalAuthority db item input = .ok binding) :
    item.agentId = input.agentId ∧ item.providerTurnId = some input.providerTurnId ∧
      inFlight item.state = true ∧ IsHead db item ∧ item.binding = some binding ∧
      binding.originExecutionGenerationId = input.executionGenerationId ∧
      binding.agentId = item.agentId ∧ binding.roomId = item.roomId ∧
      binding.providerTurnId = input.providerTurnId ∧
      (input.outcome.nativeFailure = true → exactFailureEvidence input binding = true) := by
  obtain ⟨identity, ok⟩ := require_bind_ok ok
  obtain ⟨state, ok⟩ := require_bind_ok ok
  obtain ⟨_, head, ok⟩ := bind_ok ok
  obtain ⟨bound, known, ok⟩ := found_bind_ok ok
  obtain ⟨agrees, ok⟩ := require_bind_ok ok
  obtain ⟨_, ok⟩ := require_bind_ok ok
  obtain ⟨evidence, ok⟩ := require_bind_ok ok
  cases ok
  exact ⟨identity.1, identity.2, state, assertCurrentHead_ok head, known, agrees.2.2.1, agrees.1,
    agrees.2.1, agrees.2.2.2, evidence⟩

/-- The head of a queue is unsettled and has the lowest number. -/
theorem IsHead.lowest (sound : Sound db) (member : item ∈ db.inbox) (head : IsHead db item) :
    item.state.isFinal = false ∧ ∀ other ∈ db.inbox, other.agentId = item.agentId →
      other.state.isFinal = false → item.fifoSequence ≤ other.fifoSequence := by
  unfold IsHead at head
  cases found : db.head item.agentId with
  | none =>
    rw [found] at head
    cases head
  | some first =>
    rw [found, Option.map_some, Option.some.injEq] at head
    obtain ⟨firstMember, _, unsettled⟩ := head_mem found
    have same : first = item := sound.ids.eq firstMember member head
    rw [same] at unsettled found
    refine ⟨unsettled, fun other otherMember agent running => ?_⟩
    have listed : other ∈ db.unsettled item.agentId := by
      simp only [Database.unsettled, List.mem_filter, Bool.and_eq_true, decide_eq_true_eq,
        Bool.not_eq_true']
      exact ⟨otherMember, agent, running⟩
    exact List.le_of_mem_argmin listed found

/-! ## States -/

variable (item)

@[simp] theorem recordTransition_state : (recordTransition item).state = item.state := by
  unfold recordTransition
  split
  · exact recordEvent_state _ _ _
  · rfl

@[simp] theorem turnStarted_state (providerTurnId : String) (authority : TurnAuthority) :
    (turnStarted item providerTurnId authority).state = item.state :=
  recordEvent_state _ _ _

@[simp] theorem handedBack_state : (handedBack item).state = .pending :=
  recordEvent_state _ _ _

@[simp] theorem outcomeRecorded_state (outcome : OutcomeText) :
    (outcomeRecorded item outcome).state = item.state :=
  recordEvent_state _ _ _

@[simp] theorem published_state (input : CheckpointPublication) :
    (published item input).state = .acknowledged :=
  recordEvent_state _ _ _

@[simp] theorem skipped_state (now : String) : (skipped item now).state = .cancelledByUser :=
  recordEvent_state _ _ _

@[simp] theorem unused_state (detail now : String) :
    (unused item detail now).state = .acknowledgedNoReply :=
  recordEvent_state _ _ _

@[simp] theorem released_state (repairId : String) : (released item repairId).state = .pending :=
  recordEvent_state _ _ _

@[simp] theorem roomMoveCancelled_state (operationId now : String) :
    (roomMoveCancelled operationId now item).state = .cancelledByRoomMove :=
  recordEvent_state _ _ _

@[simp] theorem revived_state (operationId : String) :
    (revived operationId item).state = .pending :=
  recordEvent_state _ _ _

@[simp] theorem retried_state (input : RetryFailure) :
    (retried item input).state = retryState item input := by
  unfold retried
  dsimp only
  split
  · rw [recordEvent_state, recordEvent_state]
    rfl
  · rw [recordEvent_state]
    rfl

@[simp] theorem finished_state (input : NormalizedTerminal) :
    (finished item input).state = item.state := by
  unfold finished
  split
  · rw [recordEvent_state, recordEvent_state]
    rfl
  · rw [recordEvent_state]
    rfl

@[simp] theorem stopped_state (failure : Option TerminalOutcome) (detail now : String) :
    (stopped item failure detail now).state =
      if failure.isSome then .acknowledgedFailed else .cancelledByUser := by
  unfold stopped
  split
  · rfl
  · rw [recordEvent_state]
    rfl

@[simp] theorem recovered_state (next : SupervisedInboxState) (error : Option String)
    (now : String) : (recovered item next error now).state = next := by
  unfold recovered
  dsimp only
  split
  · rw [recordEvent_state]
  · rfl

variable {item}

/-- What a restart decides. -/
theorem recoveryDecision_cases {failure : Option TerminalOutcome}
    (decided : recoveryDecision resetUnstarted item failure = some (next, error)) :
    (failure.isSome = true ∧ next = .acknowledgedFailed) ∨
      (failure = none ∧ item.state = .resultRecovery ∧ next = .resultRecovery) ∨
      (failure = none ∧ interrupted item.state = true ∧
        (next = .pending ∨ next = .resultRecovery ∨ next = .blocked ∨
          (next = .acknowledgedNoReply ∧ persistedTerminalOutcome item.outcome = some .noReply))) := by
  unfold recoveryDecision at decided
  split at decided
  · rename_i proven
    cases decided
    exact .inl ⟨proven, rfl⟩
  rename_i unproven
  have noFailure : failure = none := by
    cases failure with
    | none => rfl
    | some _ => exact absurd rfl unproven
  split at decided
  · rename_i recovering
    cases decided
    exact .inr (.inl ⟨noFailure, recovering, rfl⟩)
  split at decided
  case isFalse => cases decided
  rename_i inFlight
  refine .inr (.inr ⟨noFailure, inFlight, ?_⟩)
  split at decided
  · cases decided
    exact .inl rfl
  · rename_i silent
    cases decided
    exact .inr (.inr (.inr ⟨rfl, silent⟩))
  split at decided
  · cases decided
    exact .inr (.inl rfl)
  split at decided
  · cases decided
    exact .inl rfl
  split at decided
  · cases decided
    exact .inl rfl
  · cases decided
    exact .inr (.inr (.inl rfl))

theorem Annotates.state (notes : Annotates item written) : written.state = item.state := by
  cases notes with
  | columns => rfl
  | event => exact recordEvent_state _ _ _

theorem transitions_unsettled (listed : next ∈ transitions state) : state.isFinal = false := by
  cases state <;> first | rfl | cases listed

/-- Who writes a row that was settled before. -/
theorem RowWrite.of_final (sound : Sound db) (member : item ∈ db.inbox)
    (write : RowWrite db item op written) (final : item.state.isFinal = true) :
    written.state = item.state ∨
      ∃ input, op = .rollbackRoomMoveIngress input ∧ revivable input item = true := by
  have notHead : ¬ IsHead db item := by
    intro head
    have unsettled := (IsHead.lowest sound member head).1
    rw [final] at unsettled
    cases unsettled
  cases write with
  | annotated notes => exact .inl (Annotates.state notes)
  | transitioned call allowed =>
    obtain ⟨_, facts⟩ := assertTransition_ok allowed
    have unsettled := transitions_unsettled facts.listed
    rw [final] at unsettled
    cases unsettled
  | claimed head pending admitted =>
    rw [pending] at final
    cases final
  | turnStarted dispatching head | retried head | handedBack head => exact absurd head notHead
  | finished named authority =>
    obtain ⟨_, _, _, head, _⟩ := assertTerminalAuthority_ok authority
    exact absurd head notHead
  | outcomeRecorded head => exact absurd head notHead
  | published named publishing room =>
    rw [publishing] at final
    cases final
  | skipped head | stopped head | unused head => exact absurd head notHead
  | recovered unsettled =>
    rw [final] at unsettled
    cases unsettled
  | released head => exact absurd head notHead
  | roomMoveCancelled leaves =>
    simp only [leavesRoom, Bool.and_eq_true] at leaves
    rw [final] at leaves
    cases leaves.2
  | revived owned => exact .inr ⟨_, rfl, owned⟩

/-- A settled state changes only when a rollback revives its own cancellation. -/
theorem RowStep.of_final (sound : Sound db) (member : item ∈ db.inbox)
    (stepped : RowStep db op item row) (final : item.state.isFinal = true) :
    row.state = item.state ∨
      ∃ input, op = .rollbackRoomMoveIngress input ∧ revivable input item = true := by
  obtain ⟨written, rfl | write, trims⟩ := stepped
  · exact .inl trims.state_eq
  · rw [trims.state_eq]
    exact RowWrite.of_final sound member write final

/-! ## Columns -/

variable (item)

/-- Recording an event writes no column. -/
theorem recordEvent_eq (idempotencyKey : EventKey) (phase : InboxPhase) :
    ∃ events, item.recordEvent idempotencyKey phase = { item with events } := by
  unfold SupervisedInboxItem.recordEvent
  split
  · exact ⟨item.events, rfl⟩
  · exact ⟨_, rfl⟩

theorem recordTransition_eq : ∃ events, recordTransition item = { item with events } := by
  unfold recordTransition
  split
  · exact recordEvent_eq _ _ _
  · exact ⟨item.events, rfl⟩

theorem retried_eq (input : RetryFailure) :
    ∃ events, retried item input = { retriedRow item input with events } := by
  unfold retried
  dsimp only
  obtain ⟨first, firstEq⟩ := recordEvent_eq (retriedRow item input)
    (.retryFailure input.domain (retryAttempt item input.domain) false) .retryScheduled
  rw [firstEq]
  split
  · exact recordEvent_eq { retriedRow item input with events := first } _ _
  · exact ⟨first, rfl⟩

theorem finished_eq (input : NormalizedTerminal) :
    ∃ events, finished item input = { finishedRow item input with events } := by
  unfold finished
  obtain ⟨first, firstEq⟩ := recordEvent_eq (finishedRow item input)
    (.phase .turnFinished (toString item.attemptCount ++ ":" ++ input.providerTurnId)) .turnFinished
  rw [firstEq]
  split
  · exact recordEvent_eq { finishedRow item input with events := first } _ _
  · exact ⟨first, rfl⟩

variable {item}

/-! ## Events -/

theorem recordEvent_hasEvent (item : SupervisedInboxItem) (idempotencyKey other : EventKey)
    (phase : InboxPhase) :
    (item.recordEvent idempotencyKey phase).hasEvent other = true ↔
      item.hasEvent other = true ∨ idempotencyKey = other := by
  unfold SupervisedInboxItem.recordEvent SupervisedInboxItem.hasEvent
  split
  · rename_i known
    constructor
    · exact .inl
    · rintro (has | rfl)
      · exact has
      · exact known
  · simp only [List.any_append, List.any_cons, List.any_nil, Bool.or_false, Bool.or_eq_true,
      decide_eq_true_eq]

theorem Trims.hasEvent {next : SupervisedInboxItem} (trims : Trims row next)
    (has : next.hasEvent key = true) : row.hasEvent key = true := by
  rcases trims with rfl | ⟨_, events, sub, rfl⟩
  · exact has
  · unfold SupervisedInboxItem.hasEvent at has ⊢
    rw [List.any_eq_true] at has ⊢
    obtain ⟨event, member, same⟩ := has
    exact ⟨event, sub.subset member, same⟩

/-- The keys an operation writes into an item's journal. -/
inductive Journals (item : SupervisedInboxItem) : Op → EventKey → Prop where
  | note {op : Op} {key : EventKey} (notes : notesRepair key = true) : Journals item op key
  | phase {op : Op} (phase : InboxPhase) (rest : String) : Journals item op (.phase phase rest)
  | handoff {op : Op} (ordinal : Nat) : Journals item op (.handoffQueued ordinal)
  | retry {op : Op} (domain : SupervisedRetryDomain) (attempt : Nat) (blocked : Bool) :
      Journals item op (.retryFailure domain attempt blocked)
  | skip {op : Op} : Journals item op .userCancelled
  | recovery {op : Op} (phase : InboxPhase) (attemptCount : Nat) :
      Journals item op (.recovery phase attemptCount)
  | restored {op : Op} (repairId : String) : Journals item op (.conversationRestored repairId)
  | unused {op : Op} (rest : String) : Journals item op (.taskContinuation rest)
  | roomMove {input : CommitRoomMoveQueue} {now : String} (leaves : leavesRoom input item = true) :
      Journals item (.commitRoomMoveQueue input now)
        (.roomMoveCancelled input.operationId item.fifoSequence)
  | rollback {input : RollbackRoomMoveIngress} (owned : revivable input item = true) :
      Journals item (.rollbackRoomMoveIngress input)
        (.roomMoveRollback input.operationId item.fifoSequence)

/-- A write keeps the journal and adds only keys of its operation. -/
theorem RowWrite.journals (write : RowWrite db item op written) (key : EventKey) :
    (item.hasEvent key = true → written.hasEvent key = true) ∧
      (written.hasEvent key = true → item.hasEvent key = true ∨ Journals item op key) := by
  have unchanged : ∀ row : SupervisedInboxItem, row.events = item.events →
      (item.hasEvent key = true → row.hasEvent key = true) ∧
        (row.hasEvent key = true → item.hasEvent key = true ∨ Journals item op key) := by
    intro row same
    unfold SupervisedInboxItem.hasEvent
    rw [same]
    exact ⟨id, .inl⟩
  have recorded : ∀ (row : SupervisedInboxItem) (added : EventKey) (phase : InboxPhase),
      ((item.hasEvent key = true → row.hasEvent key = true) ∧
        (row.hasEvent key = true → item.hasEvent key = true ∨ Journals item op key)) →
      Journals item op added →
      (item.hasEvent key = true → (row.recordEvent added phase).hasEvent key = true) ∧
        ((row.recordEvent added phase).hasEvent key = true →
          item.hasEvent key = true ∨ Journals item op key) := by
    intro row added phase before journals
    rw [recordEvent_hasEvent]
    refine ⟨fun has => .inl (before.1 has), ?_⟩
    rintro (has | rfl)
    · exact before.2 has
    · exact .inr journals
  cases write with
  | annotated notes =>
    cases notes with
    | columns => exact unchanged _ rfl
    | event lastError phase notes => exact recorded _ _ _ (unchanged _ rfl) (.note notes)
  | transitioned =>
    unfold recordTransition
    split
    · exact recorded _ _ _ (unchanged _ rfl) (.phase _ _)
    · exact unchanged _ rfl
  | claimed => exact unchanged _ rfl
  | turnStarted => exact recorded _ _ _ (unchanged _ rfl) (.phase _ _)
  | retried =>
    unfold retried
    dsimp only
    split
    · exact recorded _ _ _ (recorded _ _ _ (unchanged _ rfl) (.retry _ _ _)) (.retry _ _ _)
    · exact recorded _ _ _ (unchanged _ rfl) (.retry _ _ _)
  | handedBack => exact recorded _ _ _ (unchanged _ rfl) (.handoff _)
  | finished =>
    unfold finished
    split
    · exact recorded _ _ _ (recorded _ _ _ (unchanged _ rfl) (.phase _ _)) (.phase _ _)
    · exact recorded _ _ _ (unchanged _ rfl) (.phase _ _)
  | outcomeRecorded | published => exact recorded _ _ _ (unchanged _ rfl) (.phase _ _)
  | skipped => exact recorded _ _ _ (unchanged _ rfl) .skip
  | stopped =>
    unfold stopped
    split
    · exact unchanged _ rfl
    · exact recorded _ _ _ (unchanged _ rfl) (.phase _ _)
  | unused => exact recorded _ _ _ (unchanged _ rfl) (.unused _)
  | recovered =>
    unfold recovered
    dsimp only
    split
    · exact recorded _ _ _ (unchanged _ rfl) (.recovery _ _)
    · exact unchanged _ rfl
  | released => exact recorded _ _ _ (unchanged _ rfl) (.restored _)
  | roomMoveCancelled leaves => exact recorded _ _ _ (unchanged _ rfl) (.roomMove leaves)
  | revived owned => exact recorded _ _ _ (unchanged _ rfl) (.rollback owned)

theorem RowStep.journals (stepped : RowStep db op item row) (has : row.hasEvent key = true) :
    item.hasEvent key = true ∨ Journals item op key := by
  obtain ⟨written, rfl | write, trims⟩ := stepped
  · exact .inl (Trims.hasEvent trims has)
  · exact (RowWrite.journals write key).2 (Trims.hasEvent trims has)

/-! ## Runs -/

/-- A row after one more attempted transaction, by where it comes from. -/
theorem run_source (host : Host) (log : List Op) (op : Op)
    (after : row ∈ (run host (log ++ [op])).inbox) :
    (∃ item ∈ (run host log).inbox, RowStep (run host log) op item row) ∨
      Inserted (run host log) op row := by
  have sound := sound_run host log
  unfold run at after sound ⊢
  rw [Replay.replay_concat] at after
  cases result : step (Replay.replay step (Database.initial host) log) op with
  | ok next =>
    rw [Replay.attempt_of_ok result] at after
    exact (step_follows sound result).rows row after
  | error e =>
    rw [Replay.attempt_of_error result] at after
    exact .inl ⟨row, after, RowStep.refl _ _ _⟩

theorem run_row (host : Host) (log : List Op) (op : Op) (member : item ∈ (run host log).inbox)
    (after : row ∈ (run host (log ++ [op])).inbox) (same : row.inboxItemId = item.inboxItemId) :
    RowStep (run host log) op item row := by
  have sound := sound_run host log
  rcases run_source host log op after with ⟨source, sourceMember, stepped⟩ | inserted
  · have ids : source.inboxItemId = item.inboxItemId :=
      (congrArg Receipt.inboxItemId (RowStep.receipt_eq stepped)).symm.trans same
    rw [sound.ids.eq sourceMember member ids] at stepped
    exact stepped
  · have known := sound.issued item member
    rw [← same] at known
    exact absurd known inserted.fresh

theorem run_issued (host : Host) (earlier later : List Op) :
    ∀ id ∈ (run host earlier).issued, id ∈ (run host (earlier ++ later)).issued := by
  have relates : ∀ id ∈ (run host earlier).issued,
      id ∈ (Replay.replay step (run host earlier) later).issued :=
    Replay.replay_relates (fun _ _ => True) Sound
      (fun s s' : Database => ∀ id ∈ s.issued, id ∈ s'.issued)
      (fun _ _ _ sound _ ok => (step_follows sound ok).sound) (fun _ _ known => known)
      (fun first second id known => second id (first id known))
      (fun _ _ _ sound _ ok => (step_follows sound ok).grows)
      (Replay.meets_of_forall (fun _ _ => trivial) (run host earlier) later)
      (sound_run host earlier)
  unfold run at relates ⊢
  rw [Replay.replay_append]
  exact relates

/-- What every transaction of a run keeps of a row, the run keeps of it. -/
theorem run_keeps (condition : Database → Op → Prop) (property : SupervisedInboxItem → Prop)
    (keeps : ∀ db op item row, Sound db → item ∈ db.inbox → condition db op → RowStep db op item row →
      property item → property row)
    (met : Replay.Meets step condition (run host earlier) later)
    (member : item ∈ (run host earlier).inbox) (holds : property item)
    (after : row ∈ (run host (earlier ++ later)).inbox) (same : row.inboxItemId = item.inboxItemId) :
    property row := by
  induction later using List.reverseRecOn generalizing row with
  | nil =>
    rw [List.append_nil] at after
    rw [(sound_run host earlier).ids.eq after member same]
    exact holds
  | append_singleton later op ih =>
    obtain ⟨metEarlier, metLast, _⟩ := Replay.meets_append.mp met
    have reached : Replay.replay step (run host earlier) later = run host (earlier ++ later) := by
      unfold run
      rw [Replay.replay_append]
    rw [reached] at metLast
    rw [← List.append_assoc] at after
    rcases run_source host (earlier ++ later) op after with ⟨source, sourceMember, stepped⟩ | inserted
    · have ids : source.inboxItemId = item.inboxItemId :=
        (congrArg Receipt.inboxItemId (RowStep.receipt_eq stepped)).symm.trans same
      exact keeps _ op source row (sound_run host _) sourceMember metLast stepped
        (ih metEarlier sourceMember ids)
    · have known := run_issued host earlier later _ ((sound_run host earlier).issued item member)
      rw [← same] at known
      exact absurd known inserted.fresh

/-- What new rows have, and every transaction keeps, every row of every run has. -/
theorem run_rows (condition : Database → Op → Prop) (property : SupervisedInboxItem → Prop)
    (new : ∀ db op row, NewRow db op row → property row)
    (keeps : ∀ db op item row, Sound db → item ∈ db.inbox → condition db op →
      RowStep db op item row → property item → property row)
    (met : Replay.Meets step condition (Database.initial host) log) :
    ∀ row ∈ (run host log).inbox, property row := by
  induction log using List.reverseRecOn with
  | nil => exact fun row member => absurd member List.not_mem_nil
  | append_singleton log op ih =>
    obtain ⟨metEarlier, metLast, _⟩ := Replay.meets_append.mp met
    intro row after
    rcases run_source host log op after with ⟨source, sourceMember, stepped⟩ | inserted
    · exact keeps _ op source row (sound_run host log) sourceMember metLast stepped
        (ih metEarlier source sourceMember)
    · exact new _ op row inserted.new

end LetAgents.Inbox.RowLife

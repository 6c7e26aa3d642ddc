import LetAgents.Inbox.TurnBinding

/-!
# Accepted completions

The completion of a turn is stored twice: as the terminal result and as the outcome
of the item. The terminal result is written once; the outcome has further writers,
which compare it with a failure only.
-/
namespace LetAgents.Inbox.Completion

open Lib Lib.Js Records Retention Pruning Ingress Delivery
  Repair Store Writes Transaction Reachable RowLife TurnBinding

/-! ## The two records -/

/-- The outcome has the kind and the text of the terminal result. -/
def records (terminal : TerminalResult) (outcome : Option OutcomeText) : Bool :=
  outcome.any fun outcome => outcome.kind = .text terminal.outcome.text &&
    outcome.text = .ofText terminal.normalizedText

/-- A reply, or the decision not to reply. -/
def answered : TerminalOutcome → Bool
  | .reply | .noReply => true
  | _ => false

/-- The records of these outcomes agree. -/
def RecordsAgree (among : TerminalOutcome → Bool) (item : SupervisedInboxItem) : Prop :=
  ∀ terminal ∈ item.terminal, among terminal.outcome = true →
    records terminal item.outcome = true

def completionColumns (item : SupervisedInboxItem) : Option TerminalResult × Option OutcomeText :=
  (item.terminal, item.outcome)

@[simp] theorem recordEvent_completion (item : SupervisedInboxItem) (idempotencyKey : EventKey)
    (phase : InboxPhase) :
    completionColumns (item.recordEvent idempotencyKey phase) = completionColumns item := by
  obtain ⟨_, same⟩ := recordEvent_eq item idempotencyKey phase
  rw [same]
  rfl

theorem Trims.completion (trims : Trims row next) :
    completionColumns next = completionColumns row := by
  rcases trims with rfl | ⟨_, _, _, rfl⟩
  · rfl
  · rfl

/-- What a write does to the two records. -/
inductive CompletionChange (db : Database) (item written : SupervisedInboxItem) : Op → Prop where
  | same {op : Op} (columns : completionColumns written = completionColumns item) :
      CompletionChange db item written op
  | patched {op : Op} {next : SupervisedInboxState} {patch : TransitionPatch} {now : String}
      {failure : Option TerminalOutcome}
      (call : op = .transition item.inboxItemId next patch now ∨ patch.outcome = none)
      (allowed : TransitionAllowed db item next patch failure)
      (columns : completionColumns written =
        (item.terminal, patch.outcome.getD item.outcome)) : CompletionChange db item written op
  | recorded {outcome : OutcomeText} (head : IsHead db item)
      (state : item.state = .dispatching ∨ item.state = .awaitingResult)
      (noFailure : readDurableNativeFailure item = .ok none)
      (kind : failureKind (some outcome) = none)
      (columns : completionColumns written = (item.terminal, some outcome)) :
      CompletionChange db item written (.checkpointTerminalOutcome item.inboxItemId outcome)
  | finished {input : NormalizedTerminal}
      (prior : ∀ terminal ∈ item.terminal, terminal.outcome = .unreadable)
      (columns : completionColumns written = (some (terminalOf input), some (outcomeOf input))) :
      CompletionChange db item written (.checkpointNormalizedTerminal input)

theorem CompletionChange.of_columns (change : CompletionChange db item written op)
    (same : completionColumns row = completionColumns written) :
    CompletionChange db item row op := by
  cases change with
  | same columns => exact .same (same.trans columns)
  | patched call allowed columns => exact .patched call allowed (same.trans columns)
  | recorded head state noFailure kind columns =>
    exact .recorded head state noFailure kind (same.trans columns)
  | finished prior columns => exact .finished prior (same.trans columns)

theorem RowWrite.completion (write : RowWrite db item op written) :
    CompletionChange db item written op := by
  cases write with
  | annotated notes =>
    cases notes with
    | columns => exact .same rfl
    | event => exact .same (recordEvent_completion _ _ _)
  | transitioned call allowed =>
    rename_i next patch now
    obtain ⟨_, facts⟩ := assertTransition_ok allowed
    obtain ⟨_, same⟩ := recordTransition_eq (patch.row item next now)
    have silent : op = .transition item.inboxItemId next patch now ∨ patch.outcome = none := by
      rcases call with transitions | ⟨_, _, rfl⟩
      · exact .inl transitions
      · exact .inr rfl
    exact .patched silent facts (by rw [same]; rfl)
  | claimed => exact .same rfl
  | turnStarted => exact .same (recordEvent_completion _ _ _)
  | retried =>
    rename_i input _ _ _ _
    obtain ⟨_, same⟩ := retried_eq item input
    exact .same (by rw [same]; rfl)
  | handedBack => exact .same (recordEvent_completion _ _ _)
  | finished named authority prior unique =>
    rename_i input binding
    obtain ⟨_, same⟩ := finished_eq item input
    exact .finished (fun terminal known => (prior terminal known).2) (by rw [same]; rfl)
  | outcomeRecorded head state noFailure kind =>
    exact .recorded head state noFailure kind (recordEvent_completion _ _ _)
  | published | skipped => exact .same (recordEvent_completion _ _ _)
  | stopped =>
    unfold stopped
    split
    · exact .same rfl
    · exact .same (recordEvent_completion _ _ _)
  | unused => exact .same (recordEvent_completion _ _ _)
  | recovered =>
    unfold recovered
    dsimp only
    split
    · exact .same (recordEvent_completion _ _ _)
    · exact .same rfl
  | released | roomMoveCancelled | revived => exact .same (recordEvent_completion _ _ _)

theorem RowStep.completion (stepped : RowStep db op item row) :
    CompletionChange db item row op := by
  obtain ⟨written, rfl | write, trims⟩ := stepped
  · exact .same (Trims.completion trims)
  · exact (RowWrite.completion write).of_columns (Trims.completion trims)

/-! ## The terminal result -/

/-- A definitive terminal result stays as it is. -/
theorem CompletionChange.terminal (change : CompletionChange db item row op)
    {terminal : TerminalResult} (known : item.terminal = some terminal)
    (definitive : terminal.outcome ≠ .unreadable) : row.terminal = some terminal := by
  rw [← known]
  cases change with
  | same columns | patched call allowed columns
  | recorded head state noFailure kind columns => exact congrArg Prod.fst columns
  | finished prior columns => exact absurd (prior terminal known) definitive

/-- An item with a failed turn is refused, or its failure is proven. -/
theorem failure_proven {failure : Option TerminalOutcome} (known : item.terminal = some terminal)
    (native : terminal.outcome.nativeFailure = true)
    (proven : readDurableNativeFailure item = .ok failure) : failure.isSome = true := by
  unfold readDurableNativeFailure at proven
  split at proven
  · split at proven
    · cases proven
      rfl
    · cases proven
  · rw [known, Option.any_some, native, Bool.or_true, if_pos rfl] at proven
    cases proven

/-! ## The outcome -/

def isHead (db : Database) (item : SupervisedInboxItem) : Bool :=
  (db.head item.agentId).map (·.inboxItemId) = some item.inboxItemId

/-- The outcome is another kind or text than the answer that was accepted. -/
def contradicts (item : SupervisedInboxItem) (outcome : Option OutcomeText) : Bool :=
  item.terminal.any fun terminal => answered terminal.outcome && !records terminal outcome

/-- The calls that write an outcome, on the items whose accepted answer they overwrite. -/
def overwrites (db : Database) (op : Op) (item : SupervisedInboxItem) : Bool :=
  match op with
  | .transition inboxItemId next patch _ =>
    item.inboxItemId = inboxItemId && (transitions item.state).contains next &&
      (next.isFinal || isHead db item) && patch.outcome.any fun outcome =>
        (failureKind outcome).isNone && contradicts item outcome
  | .checkpointTerminalOutcome inboxItemId outcome =>
    item.inboxItemId = inboxItemId &&
      (item.state = .dispatching || item.state = .awaitingResult) && isHead db item &&
      (failureKind (some outcome)).isNone && contradicts item (some outcome)
  | _ => false

/-- No call overwrites the outcome of an accepted answer. -/
def sparesCompletions (db : Database) (op : Op) : Bool :=
  db.inbox.all fun item => !overwrites db op item

theorem unchanged_outcome {patch : TransitionPatch} (unchanged : patch.changesOutcome item = false) :
    patch.outcome.getD item.outcome = item.outcome := by
  cases given : patch.outcome with
  | none => rfl
  | some outcome =>
    rw [TransitionPatch.changesOutcome, given, Option.any_some] at unchanged
    simpa using unchanged

theorem records_finished (input : NormalizedTerminal) :
    records (terminalOf input) (some (outcomeOf input)) = true := by
  simp [records, terminalOf, outcomeOf, OutcomeText.kind, OutcomeText.text]

/-- Not `unreadable`: a native failure or an answer. -/
def definitive (outcome : TerminalOutcome) : Bool := outcome.nativeFailure || answered outcome

/-- Outcomes of a kind stay in agreement where no answer among them is overwritten. -/
theorem CompletionChange.agrees
    (final : ∀ outcome, among outcome = true → definitive outcome = true)
    (change : CompletionChange db item row op)
    (spares : ∀ outcome, among outcome = true → answered outcome = true →
      overwrites db op item = false) (agree : RecordsAgree among item) :
    RecordsAgree among row := by
  intro terminal known listed
  have either : terminal.outcome.nativeFailure = true ∨ answered terminal.outcome = true :=
    Bool.or_eq_true_iff.mp (final terminal.outcome listed)
  cases change with
  | same columns =>
    have terminals : row.terminal = item.terminal := congrArg Prod.fst columns
    have outcomes : row.outcome = item.outcome := congrArg Prod.snd columns
    rw [outcomes]
    exact agree terminal (terminals ▸ known) listed
  | patched call allowed columns =>
    rename_i next patch now failure
    have terminals : row.terminal = item.terminal := congrArg Prod.fst columns
    have outcomes : row.outcome = patch.outcome.getD item.outcome := congrArg Prod.snd columns
    rw [terminals] at known
    have before : records terminal item.outcome = true := agree terminal known listed
    rw [outcomes]
    by_cases unchanged : patch.changesOutcome item = false
    · rw [unchanged_outcome unchanged]
      exact before
    have changed : patch.changesOutcome item = true := Bool.eq_true_of_not_eq_false unchanged
    rcases either with native | answer
    · have fenced := allowed.fenced (failure_proven known native allowed.proven)
      exact absurd fenced.1 unchanged
    · cases given : patch.outcome with
      | none =>
        rw [TransitionPatch.changesOutcome, given] at changed
        cases changed
      | some outcome =>
        rcases call with rfl | silent
        · have unforged := allowed.unforged changed
          rw [given, Option.getD_some] at unforged
          have head : (next.isFinal || isHead db item) = true := by
            cases final : next.isFinal with
            | true => rfl
            | false => simpa [isHead, IsHead] using allowed.head final
          by_contra wrong
          have refuted : records terminal outcome = false := eq_false_of_ne_true wrong
          have hit : overwrites db (.transition item.inboxItemId next patch now) item = true := by
            simp [overwrites, allowed.listed, head, given, unforged, contradicts,
              Option.mem_def.mp known, answer, refuted]
          rw [spares terminal.outcome listed answer] at hit
          cases hit
        · rw [silent] at given
          cases given
  | recorded head state noFailure kind columns =>
    rename_i outcome
    have terminals : row.terminal = item.terminal := congrArg Prod.fst columns
    have outcomes : row.outcome = some outcome := congrArg Prod.snd columns
    rw [terminals] at known
    rw [outcomes]
    rcases either with native | answer
    · cases failure_proven known native noFailure
    · by_contra wrong
      have isHead' : isHead db item = true := by simpa [isHead, IsHead] using head
      have refuted : records terminal (some outcome) = false := eq_false_of_ne_true wrong
      have hit : overwrites db (.checkpointTerminalOutcome item.inboxItemId outcome) item =
          true := by
        simp [overwrites, isHead', state, kind, contradicts, Option.mem_def.mp known, answer,
          refuted]
      rw [spares terminal.outcome listed answer] at hit
      cases hit
  | finished prior columns =>
    rename_i input
    have terminals : row.terminal = some (terminalOf input) := congrArg Prod.fst columns
    have outcomes : row.outcome = some (outcomeOf input) := congrArg Prod.snd columns
    rw [terminals] at known
    cases known
    rw [outcomes]
    exact records_finished input

/-! ## Failed turns -/

/-- The states a failed turn may move to. -/
def failureMay : SupervisedInboxState → Bool
  | .dispatching | .awaitingResult | .resultRecovery | .retryable | .blocked
  | .acknowledgedFailed => true
  | _ => false

def isRoomMove : Op → Bool
  | .commitRoomMoveQueue _ _ | .rollbackRoomMoveIngress _ => true
  | _ => false

/-- The item's turn is recorded as failed or interrupted. -/
def TurnFailed (item : SupervisedInboxItem) : Prop :=
  ∃ terminal, item.terminal = some terminal ∧ terminal.outcome.nativeFailure = true

theorem TurnFailed.failure (failed : TurnFailed item) {failure : Option TerminalOutcome}
    (proven : readDurableNativeFailure item = .ok failure) : failure.isSome = true := by
  obtain ⟨terminal, known, native⟩ := failed
  exact failure_proven known native proven

/-- A recorded turn has a turn id, so the item is not one that was never started. -/
theorem TurnFailed.started (columns : TurnColumns item) (failed : TurnFailed item) :
    present item.providerTurnId = true := by
  obtain ⟨terminal, known, _⟩ := failed
  obtain ⟨binding, bound, _⟩ := columns.terminal terminal known
  have turn := (columns.agrees binding bound).2.2
  rw [turn]
  exact present_of_nonblank (columns.nonblank _ turn)

theorem neverStarted_present (started : present item.providerTurnId = true) :
    neverStarted item = false := by
  simp [neverStarted, started]

/-- Where a write moves an item whose turn failed. -/
theorem RowWrite.failed_state (columns : TurnColumns item) (failed : TurnFailed item)
    (unpublished : item.state ≠ .publishing) (write : RowWrite db item op written) :
    written.state = item.state ∨ failureMay written.state = true ∨
      (isRoomMove op = true ∧ written.state ≠ .publishing) := by
  have started := failed.started columns
  have refused {condition : Prop} (unstarted : neverStarted item = true) : condition := by
    rw [neverStarted_present started] at unstarted
    cases unstarted
  cases write with
  | annotated notes => exact .inl (Annotates.state notes)
  | transitioned call allowed =>
    rename_i next patch now
    obtain ⟨failure, facts⟩ := assertTransition_ok allowed
    have fenced := (facts.fenced (failed.failure facts.proven)).2
    have listed := facts.listed
    rw [recordTransition_state]
    refine .inr (.inl ?_)
    change failureMay next = true
    revert fenced listed
    cases item.state <;> cases next <;> decide
  | claimed => exact .inr (.inl rfl)
  | turnStarted => exact .inl (turnStarted_state _ _ _)
  | retried head reset noFailure => cases failed.failure noFailure
  | handedBack head state unstarted =>
    rw [started] at unstarted
    cases unstarted
  | finished => exact .inl (finished_state _ _)
  | outcomeRecorded => exact .inl (outcomeRecorded_state _ _)
  | published named publishing => exact absurd publishing unpublished
  | skipped head blocked unstarted => exact refused unstarted
  | stopped head state proven =>
    rw [stopped_state, if_pos (failed.failure proven)]
    exact .inr (.inl rfl)
  | unused head pending unstarted =>
    rw [started] at unstarted
    cases unstarted
  | recovered unsettled proven decided =>
    have some' := failed.failure proven
    rcases recoveryDecision_cases decided with ⟨_, same⟩ | ⟨none', _⟩ | ⟨none', _⟩
    · rw [same]
      exact .inr (.inl rfl)
    · rw [none'] at some'
      cases some'
    · rw [none'] at some'
      cases some'
  | released head blocked unstarted => exact refused unstarted
  | roomMoveCancelled =>
    rw [roomMoveCancelled_state]
    exact .inr (.inr ⟨rfl, nofun⟩)
  | revived =>
    rw [revived_state]
    exact .inr (.inr ⟨rfl, nofun⟩)

theorem RowStep.failed_state (columns : TurnColumns item) (failed : TurnFailed item)
    (unpublished : item.state ≠ .publishing) (stepped : RowStep db op item row) :
    row.state = item.state ∨ failureMay row.state = true ∨
      (isRoomMove op = true ∧ row.state ≠ .publishing) := by
  obtain ⟨written, rfl | write, trims⟩ := stepped
  · exact .inl trims.state_eq
  · rw [trims.state_eq]
    exact RowWrite.failed_state columns failed unpublished write

/-- A turn is recorded as failed while it is in flight. -/
theorem newly_failed (stepped : RowStep db op item row) (before : ¬ TurnFailed item)
    (failed : TurnFailed row) : row.state ≠ .publishing := by
  obtain ⟨terminal, known, native⟩ := failed
  obtain ⟨written, source, trims⟩ := stepped
  have columns : written.terminal = some terminal := by
    rw [← known]
    exact (congrArg Prod.fst (Trims.completion trims)).symm
  have unchanged {condition : Prop} (same : written.terminal = item.terminal) : condition :=
    absurd ⟨terminal, same.symm.trans columns, native⟩ before
  rw [trims.state_eq]
  rcases source with rfl | write
  · exact unchanged rfl
  · cases RowWrite.completion write with
    | same same | patched _ _ same
    | recorded _ _ _ _ same => exact unchanged (congrArg Prod.fst same)
    | finished prior same =>
      cases write with
      | annotated notes =>
        cases notes with
        | columns => exact unchanged rfl
        | event => exact unchanged (congrArg Prod.fst (recordEvent_completion _ _ _))
      | transitioned call =>
        rcases call with transitions | ⟨transitions, _⟩
        · cases transitions
        · cases transitions
      | finished named authority =>
        obtain ⟨_, _, flight, _⟩ := assertTerminalAuthority_ok authority
        rw [finished_state]
        intro publishing
        rw [publishing] at flight
        cases flight

/-- A failed turn is never being published. -/
theorem failed_unpublished (host : Host) (log : List Op) :
    ∀ row ∈ (run host log).inbox, TurnFailed row → row.state ≠ .publishing := by
  have both : ∀ row ∈ (run host log).inbox,
      TurnColumns row ∧ (TurnFailed row → row.state ≠ .publishing) := by
    refine run_rows (fun _ _ => True)
      (fun row => TurnColumns row ∧ (TurnFailed row → row.state ≠ .publishing))
      (fun db op row new => ?_) (fun db op item row _ _ _ stepped before => ?_)
      (Replay.meets_of_forall (fun _ _ => trivial) _ log)
    · obtain ⟨turn, binding, terminal⟩ := NewRow.unstarted new
      refine ⟨.fresh turn binding terminal, ?_⟩
      rintro ⟨result, known, _⟩
      rw [terminal] at known
      cases known
    · obtain ⟨columns, unpublished⟩ := before
      refine ⟨(RowStep.turn columns stepped).keeps columns, fun failed => ?_⟩
      by_cases earlier : TurnFailed item
      · rcases RowStep.failed_state columns earlier (unpublished earlier) stepped with
          same | may | ⟨_, other⟩
        · rw [same]
          exact unpublished earlier
        · rintro publishing
          rw [publishing] at may
          cases may
        · exact other
      · exact newly_failed stepped earlier failed
  exact fun row member => (both row member).2

/-! ## The law -/

theorem run_terminal (member : item ∈ (run host earlier).inbox)
    (after : row ∈ (run host (earlier ++ later)).inbox)
    (same : row.inboxItemId = item.inboxItemId) (known : item.terminal = some terminal)
    (definitive : terminal.outcome ≠ .unreadable) : row.terminal = some terminal :=
  run_keeps (fun _ _ => True) (fun row => row.terminal = some terminal)
    (fun _ _ _ _ _ _ _ stepped known => (RowStep.completion stepped).terminal known definitive)
    (Replay.meets_of_forall (fun _ _ => trivial) _ later) member known after same

/-- What a new row has not recorded cannot disagree. -/
theorem NewRow.agrees (new : NewRow db op row) (among : TerminalOutcome → Bool) :
    RecordsAgree among row := by
  intro terminal known
  rw [(NewRow.unstarted new).2.2] at known
  cases known

/-- The records of a failed turn agree in every run. -/
theorem run_failed_agrees (host : Host) (log : List Op) :
    ∀ row ∈ (run host log).inbox, RecordsAgree TerminalOutcome.nativeFailure row := by
  refine run_rows (fun _ _ => True) (RecordsAgree TerminalOutcome.nativeFailure)
    (fun db op row new => NewRow.agrees new _)
    (fun db op item row _ member _ stepped agree => ?_)
    (Replay.meets_of_forall (fun _ _ => trivial) _ log)
  refine (RowStep.completion stepped).agrees (fun outcome native => ?_) ?_ agree
  · rw [definitive, native, Bool.true_or]
  · intro outcome native answer
    have apart : answered outcome = false := by
      revert native
      cases outcome <;> decide
    rw [apart] at answer
    cases answer

/-- The records of every definitive outcome agree while no accepted answer is overwritten. -/
theorem run_agrees (spares : Replay.Meets step (fun db op => sparesCompletions db op = true)
      (Database.initial host) log) : ∀ row ∈ (run host log).inbox, RecordsAgree definitive row := by
  refine run_rows (fun db op => sparesCompletions db op = true) (RecordsAgree definitive)
    (fun db op row new => NewRow.agrees new _)
    (fun db op item row _ member spared stepped agree => ?_) spares
  have clear := List.all_eq_true.mp spared item member
  exact (RowStep.completion stepped).agrees (fun _ => id) (fun _ _ _ => by simpa using clear) agree

/-- An item whose turn failed moves only where a failure may. -/
theorem run_failed_state (member : item ∈ (run host earlier).inbox)
    (after : row ∈ (run host (earlier ++ later)).inbox)
    (same : row.inboxItemId = item.inboxItemId) (failed : TurnFailed item)
    (stays : ∀ op ∈ later, isRoomMove op = false) :
    row.state = item.state ∨ failureMay row.state = true := by
  have unpublished := failed_unpublished host earlier item member failed
  have may : ∀ state : SupervisedInboxState, failureMay state = true → state ≠ .publishing := by
    rintro state allowed rfl
    cases allowed
  have kept := run_keeps (fun _ op => isRoomMove op = false)
    (fun row => TurnColumns row ∧ TurnFailed row ∧
      (row.state = item.state ∨ failureMay row.state = true))
    (fun db op source row _ _ noMove stepped holds => by
      obtain ⟨columns, failed, state⟩ := holds
      have open' : source.state ≠ .publishing := by
        rcases state with same | allowed
        · rw [same]
          exact unpublished
        · exact may _ allowed
      obtain ⟨terminal, known, native⟩ := failed
      have final : terminal.outcome ≠ .unreadable := by
        rintro unreadable
        rw [unreadable] at native
        cases native
      refine ⟨(RowStep.turn columns stepped).keeps columns,
        ⟨terminal, (RowStep.completion stepped).terminal known final, native⟩, ?_⟩
      rcases RowStep.failed_state columns ⟨terminal, known, native⟩ open' stepped with
        same | allowed | ⟨moves, _⟩
      · rw [same]
        exact state
      · exact .inr allowed
      · rw [noMove] at moves
        cases moves)
    (Replay.meets_of_mem stays _) member
    ⟨turn_columns host earlier item member, failed, .inl rfl⟩ after same
  exact kept.2.2

/-- Once a definitive terminal result is stored it stays, a failed turn is settled only
as failed, and the outcome of the item keeps the kind and the text of the result: for a
failure in every run, for an answer while no call overwrites its outcome. -/
theorem completion_monotone (host : Host) (earlier later : List Op)
    {item row : SupervisedInboxItem} (member : item ∈ (run host earlier).inbox)
    (after : row ∈ (run host (earlier ++ later)).inbox)
    (same : row.inboxItemId = item.inboxItemId) {terminal : TerminalResult}
    (known : item.terminal = some terminal) (final : terminal.outcome ≠ .unreadable)
    (stays : ∀ op ∈ later, isRoomMove op = false) :
    row.terminal = some terminal ∧
      (terminal.outcome.nativeFailure = true →
        (row.state = item.state ∨ failureMay row.state = true) ∧
          records terminal item.outcome = true ∧ records terminal row.outcome = true) ∧
      (Replay.Meets step (fun db op => sparesCompletions db op = true) (Database.initial host)
          (earlier ++ later) →
        records terminal item.outcome = true ∧ records terminal row.outcome = true) := by
  have kept := run_terminal member after same known final
  refine ⟨kept, fun native => ⟨?_, ?_, ?_⟩, fun spares => ⟨?_, ?_⟩⟩
  · exact run_failed_state member after same ⟨terminal, known, native⟩ stays
  · exact run_failed_agrees host earlier item member terminal known native
  · exact run_failed_agrees host (earlier ++ later) row after terminal kept native
  · have listed : definitive terminal.outcome = true := by
      revert final
      cases terminal.outcome <;> decide
    exact run_agrees (Replay.meets_append.mp spares).1 item member terminal known listed
  · have listed : definitive terminal.outcome = true := by
      revert final
      cases terminal.outcome <;> decide
    exact run_agrees spares row after terminal kept listed

/-! ## An overwritten answer -/

def now : String := "2026-01-01T00:00:00.000Z"

def question : SyntheticMessage :=
  { agentId := "agent", roomId := "room", sourceMessageId := "m1", sourceMessage := .object []
    activation := .object [], uuid := "item" }

def answer : NormalizedTerminal :=
  { inboxItemId := "item", agentId := "agent", executionGenerationId := "generation"
    providerTurnId := "turn", outcome := .reply, text := some "done", evidence := .stream
    failureDetail := none, taskOwnerSessionId := none, terminalEvidence := none, now }

/-- A message up to the terminal result of its turn. -/
def answeredTurn : List Op :=
  [.insertSyntheticMessage question, .claimHead "agent" none now,
    .checkpointTurnStarted "item" "turn" ⟨"attempt", "generation", "conversation"⟩,
    .checkpointNormalizedTerminal answer]

/-- The answer is on its way to the room. -/
def delivered : List Op :=
  [.transition "item" .awaitingResult {} now, .transition "item" .publishing {} now]

theorem turn_is_answered : ∃ item ∈ (run Host.quiet answeredTurn).inbox,
    item.inboxItemId = "item" ∧ item.terminal = some (terminalOf answer) ∧
      item.outcome = some (outcomeOf answer) := by
  decide +kernel

theorem delivered_answer_kept :
    Replay.Meets step (fun db op => sparesCompletions db op = true)
        (Database.initial Host.quiet) (answeredTurn ++ delivered) ∧
      ∃ row ∈ (run Host.quiet (answeredTurn ++ delivered)).inbox,
        row.terminal = some (terminalOf answer) ∧
          records (terminalOf answer) row.outcome = true := by
  have spares : Replay.Meets step (fun db op => sparesCompletions db op = true)
      (Database.initial Host.quiet) (answeredTurn ++ delivered) := by
    decide +kernel
  have stored : ∃ row ∈ (run Host.quiet (answeredTurn ++ delivered)).inbox,
      row.inboxItemId = "item" := by
    decide +kernel
  have stays : ∀ op ∈ delivered, isRoomMove op = false := by decide
  obtain ⟨item, member, named, known, _⟩ := turn_is_answered
  obtain ⟨row, after, rowNamed⟩ := stored
  obtain ⟨kept, _, agree⟩ := completion_monotone Host.quiet answeredTurn delivered member after
    (rowNamed.trans named.symm) known nofun stays
  exact ⟨spares, row, after, kept, (agree spares).2⟩

/-- The outcome of an accepted answer is written again with another text. -/
theorem answer_overwritten :
    ¬ ∀ (host : Host) (earlier later : List Op) (item row : SupervisedInboxItem)
      (terminal : TerminalResult), item ∈ (run host earlier).inbox →
      row ∈ (run host (earlier ++ later)).inbox → row.inboxItemId = item.inboxItemId →
      item.terminal = some terminal → terminal.outcome ≠ .unreadable →
      (∀ op ∈ later, isRoomMove op = false) →
      row.outcome.map OutcomeText.text = item.outcome.map OutcomeText.text := by
  intro never
  have overwritten : ∃ row ∈ (run Host.quiet (answeredTurn ++ [.checkpointTerminalOutcome "item"
      (.record (.text "reply") (.text "other") (.text "stream") "")])).inbox,
      row.inboxItemId = "item" ∧
        row.outcome.map OutcomeText.text = some (.text "other") := by
    decide +kernel
  obtain ⟨item, member, named, known, outcome⟩ := turn_is_answered
  obtain ⟨row, after, rowNamed, other⟩ := overwritten
  have same := never Host.quiet answeredTurn _ item row (terminalOf answer) member after
    (rowNamed.trans named.symm) known nofun (by decide)
  rw [other, outcome] at same
  revert same
  decide

end LetAgents.Inbox.Completion

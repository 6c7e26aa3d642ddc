import LetAgents.Inbox.RowLife

/-!
# Turn columns

The turn of an item is stored twice, as `provider_turn_id` and as a binding row.
`TurnChange` lists the writes that may change it; `TurnColumns` is what both columns
and the terminal result agree on.
-/
namespace LetAgents.Inbox.TurnBinding

open Lib Lib.Js Lib.Checked Records Retention Pruning Ingress Delivery
  RoomMove Repair Store Writes Transaction Reachable RowLife

/-- A binding exists exactly with a turn id, and carries the item's agent, room and
turn. -/
structure BoundTurn (item : SupervisedInboxItem) : Prop where
  paired : item.binding.isSome = item.providerTurnId.isSome
  agrees : ∀ binding ∈ item.binding, binding.agentId = item.agentId ∧
    binding.roomId = item.roomId ∧ item.providerTurnId = some binding.providerTurnId

/-- The turn columns of a stored row. -/
structure TurnColumns (item : SupervisedInboxItem) : Prop extends BoundTurn item where
  nonblank : ∀ turnId ∈ item.providerTurnId, isBlank turnId = false
  terminal : ∀ terminal ∈ item.terminal, ∃ binding ∈ item.binding, binding.turn = terminal.turn

theorem present_of_nonblank (nonblank : isBlank turnId = false) : present (some turnId) = true := by
  unfold present
  rw [Option.any_some, decide_eq_true_eq]
  rintro rfl
  cases nonblank

variable {item row : SupervisedInboxItem} {db : Database} {op : Op}

/-- A turn id is never the empty text. -/
theorem TurnColumns.unstarted (columns : TurnColumns item)
    (absent : present item.providerTurnId = false) : item.providerTurnId = none := by
  cases turn : item.providerTurnId with
  | none => rfl
  | some turnId =>
    rw [turn, present_of_nonblank (columns.nonblank turnId turn)] at absent
    cases absent

/-! ## Frames -/

/-- The columns that `TurnColumns` speaks of. -/
def turnColumns (item : SupervisedInboxItem) :
    String × String × Option String × Option ProviderTurnBinding × Option TerminalResult :=
  (item.agentId, item.roomId, item.providerTurnId, item.binding, item.terminal)

theorem TurnColumns.congr (columns : TurnColumns item) (same : turnColumns row = turnColumns item) :
    TurnColumns row := by
  simp only [turnColumns, Prod.mk.injEq] at same
  obtain ⟨agent, room, turn, binding, terminal⟩ := same
  obtain ⟨⟨paired, agrees⟩, nonblank, terminals⟩ := columns
  refine ⟨⟨?_, ?_⟩, ?_, ?_⟩
  · rw [binding, turn]
    exact paired
  · rw [binding, turn, agent, room]
    exact agrees
  · rw [turn]
    exact nonblank
  · rw [terminal, binding]
    exact terminals

@[simp] theorem recordEvent_turnColumns (item : SupervisedInboxItem) (idempotencyKey : EventKey)
    (phase : InboxPhase) :
    turnColumns (item.recordEvent idempotencyKey phase) = turnColumns item := by
  obtain ⟨_, same⟩ := recordEvent_eq item idempotencyKey phase
  rw [same]
  rfl

theorem Trims.turnColumns (trims : Trims row next) : turnColumns next = turnColumns row := by
  rcases trims with rfl | ⟨_, _, _, rfl⟩
  · rfl
  · rfl

/-! ## Changes -/

/-- What a write does to the turn columns. -/
inductive TurnChange (db : Database) (item written : SupervisedInboxItem) : Op → Prop where
  | same {op : Op} (columns : turnColumns written = turnColumns item) :
      TurnChange db item written op
  | started {providerTurnId : String} {authority : TurnAuthority}
      (dispatching : item.state = .dispatching) (before : item.providerTurnId = none)
      (nonblank : isBlank providerTurnId = false)
      (columns : turnColumns written = (item.agentId, item.roomId, some providerTurnId,
        some (turnBinding item providerTurnId authority), item.terminal)) :
      TurnChange db item written
        (.checkpointTurnStarted item.inboxItemId providerTurnId authority)
  | reset {input : RetryFailure} {turnId : String} (asked : input.resetUndispatchedTurnId = some turnId)
      (before : item.providerTurnId = some turnId) (noEffect : hasTurnEffect db item = false)
      (noTerminal : item.terminal = none) (noOutcome : hasOutcome item.outcome = false)
      (columns : turnColumns written = (item.agentId, item.roomId, none, none, none)) :
      TurnChange db item written (.recordRetryFailure item.inboxItemId input)
  | finished {input : NormalizedTerminal} {binding : ProviderTurnBinding}
      (bound : item.binding = some binding) (turn : binding.turn = (terminalOf input).turn)
      (columns : turnColumns written = (item.agentId, item.roomId, item.providerTurnId, item.binding,
        some (terminalOf input))) :
      TurnChange db item written (.checkpointNormalizedTerminal input)

theorem TurnChange.of_columns (change : TurnChange db item written op)
    (same : turnColumns row = turnColumns written) : TurnChange db item row op := by
  cases change with
  | same columns => exact .same (same.trans columns)
  | started dispatching before nonblank columns =>
    exact .started dispatching before nonblank (same.trans columns)
  | reset asked before noEffect noTerminal noOutcome columns =>
    exact .reset asked before noEffect noTerminal noOutcome (same.trans columns)
  | finished bound turn columns => exact .finished bound turn (same.trans columns)

/-- A turn that is started again keeps its id and its binding. -/
theorem turnStarted_change (columns : TurnColumns item) (dispatching : item.state = .dispatching)
    (nonblank : isBlank providerTurnId = false)
    (sameTurn : present item.providerTurnId → item.providerTurnId = some providerTurnId)
    (sameBinding : present item.providerTurnId → item.binding = some (turnBinding item providerTurnId authority)) :
    TurnChange db item (turnStarted item providerTurnId authority)
      (.checkpointTurnStarted item.inboxItemId providerTurnId authority) := by
  have written : turnColumns (turnStarted item providerTurnId authority) =
      (item.agentId, item.roomId, some providerTurnId,
        some (turnBinding item providerTurnId authority), item.terminal) := by
    unfold turnStarted
    rw [recordEvent_turnColumns]
    rfl
  cases started : present item.providerTurnId with
  | false => exact .started dispatching (columns.unstarted started) nonblank written
  | true =>
    refine .same ?_
    rw [written, ← sameBinding started, ← sameTurn started]
    rfl

theorem retried_columns (item : SupervisedInboxItem) (input : RetryFailure) :
    turnColumns (retried item input) = turnColumns (retriedRow item input) := by
  obtain ⟨_, same⟩ := retried_eq item input
  rw [same]
  rfl

/-- A retry changes the turn only where its evidence allows the reset. -/
theorem retried_change
    (domain : input.resetUndispatchedTurnId.all fun turnId => input.domain = .preDispatch && isBlank turnId = false)
    (evidence : assertRetryEvidence db item input = .ok ()) :
    TurnChange db item (retried item input) (.recordRetryFailure item.inboxItemId input) := by
  by_cases reset : resetsTurn item input = true
  · obtain ⟨asked, _⟩ := Bool.and_eq_true_iff.mp reset
    obtain ⟨turnId, known⟩ := Option.isSome_iff_exists.mp asked
    rw [known, Option.all_some, Bool.and_eq_true, decide_eq_true_eq] at domain
    unfold assertRetryEvidence at evidence
    rw [domain.1, known] at evidence
    obtain ⟨inFlight, evidence⟩ := require_bind_ok evidence
    obtain ⟨_, evidence⟩ := require_bind_ok evidence
    obtain ⟨noTerminal, noEffect, noOutcome⟩ := require_ok evidence
    refine .reset known inFlight.2 noEffect noTerminal noOutcome ?_
    rw [retried_columns]
    simp only [turnColumns, retriedRow, reset, if_true, noTerminal]
  · refine .same ?_
    rw [retried_columns]
    simp only [turnColumns, retriedRow, reset, if_false, Bool.false_eq_true]

theorem RowWrite.turn (columns : TurnColumns item) (write : RowWrite db item op written) :
    TurnChange db item written op := by
  cases write with
  | annotated notes =>
    cases notes with
    | columns => exact .same rfl
    | event => exact .same (recordEvent_turnColumns _ _ _)
  | transitioned call allowed =>
    rename_i next patch now
    obtain ⟨_, facts⟩ := assertTransition_ok allowed
    obtain ⟨_, same⟩ := recordTransition_eq (patch.row item next now)
    have turn : patch.providerTurnId.getD item.providerTurnId = item.providerTurnId := by
      cases given : patch.providerTurnId with
      | none => rfl
      | some turnId => exact facts.sameTurn turnId given
    refine .same ?_
    rw [same]
    simp only [turnColumns, TransitionPatch.row, turn]
  | claimed => exact .same rfl
  | turnStarted dispatching head nonblank sameTurn sameBinding unbound unique =>
    exact turnStarted_change columns dispatching nonblank sameTurn sameBinding
  | retried head reset noFailure evidence => exact retried_change reset evidence
  | handedBack => exact .same (recordEvent_turnColumns _ _ _)
  | finished named authority prior unique =>
    rename_i input binding
    obtain ⟨agent, turn, _, _, bound, generation, bindingAgent, _, bindingTurn, _⟩ :=
      assertTerminalAuthority_ok authority
    refine .finished bound ?_ ?_
    · simp only [ProviderTurnBinding.turn, TerminalResult.turn, terminalOf, bindingAgent, agent,
        generation, bindingTurn]
    · obtain ⟨_, same⟩ := finished_eq item input
      rw [same]
      rfl
  | outcomeRecorded | published | skipped => exact .same (recordEvent_turnColumns _ _ _)
  | stopped =>
    refine .same ?_
    unfold stopped
    split
    · rfl
    · exact recordEvent_turnColumns _ _ _
  | unused => exact .same (recordEvent_turnColumns _ _ _)
  | recovered =>
    refine .same ?_
    unfold recovered
    dsimp only
    split
    · exact recordEvent_turnColumns _ _ _
    · rfl
  | released | roomMoveCancelled | revived => exact .same (recordEvent_turnColumns _ _ _)

theorem RowStep.turn (columns : TurnColumns item) (stepped : RowStep db op item row) :
    TurnChange db item row op := by
  obtain ⟨written, rfl | write, trims⟩ := stepped
  · exact .same (Trims.turnColumns trims)
  · exact (RowWrite.turn columns write).of_columns (Trims.turnColumns trims)

/-! ## The columns of every row -/

theorem TurnChange.keeps (columns : TurnColumns item) (change : TurnChange db item row op) :
    TurnColumns row := by
  cases change with
  | same same => exact columns.congr same
  | started dispatching before nonblank written =>
    simp only [turnColumns, Prod.mk.injEq] at written
    obtain ⟨agent, room, turn, binding, terminal⟩ := written
    have unbound : item.binding = none := by
      have paired := columns.paired
      rw [before] at paired
      exact Option.isNone_iff_eq_none.mp (by simpa using paired)
    refine ⟨⟨by rw [turn, binding]; rfl, ?_⟩, ?_, ?_⟩
    · rw [binding, turn, agent, room]
      rintro _ ⟨rfl⟩
      exact ⟨rfl, rfl, rfl⟩
    · rw [turn]
      rintro _ ⟨rfl⟩
      exact nonblank
    · -- a terminal result would need a binding
      rw [terminal]
      intro result known
      obtain ⟨_, bound, _⟩ := columns.terminal result known
      rw [unbound] at bound
      cases bound
  | reset asked before noEffect noTerminal noOutcome written =>
    simp only [turnColumns, Prod.mk.injEq] at written
    obtain ⟨_, _, turn, binding, terminal⟩ := written
    refine ⟨⟨by rw [turn, binding]; rfl, ?_⟩, ?_, ?_⟩
    · rw [binding]
      exact nofun
    · rw [turn]
      exact fun _ known => absurd known nofun
    · rw [terminal]
      exact fun _ known => absurd known nofun
  | finished bound same written =>
    simp only [turnColumns, Prod.mk.injEq] at written
    obtain ⟨agent, room, turn, binding, terminal⟩ := written
    refine ⟨⟨?_, ?_⟩, ?_, ?_⟩
    · rw [binding, turn]
      exact columns.paired
    · rw [binding, turn, agent, room]
      exact columns.agrees
    · rw [turn]
      exact columns.nonblank
    · rw [terminal, binding, bound]
      rintro _ ⟨rfl⟩
      exact ⟨_, rfl, same⟩

theorem TurnColumns.fresh (turn : row.providerTurnId = none) (binding : row.binding = none)
    (terminal : row.terminal = none) : TurnColumns row := by
  refine ⟨⟨by rw [turn, binding]; rfl, ?_⟩, ?_, ?_⟩
  · rw [binding]
    exact fun _ known => absurd known nofun
  · rw [turn]
    exact nofun
  · rw [terminal]
    exact fun _ known => absurd known nofun

/-- A new row has no turn. -/
theorem NewRow.unstarted (new : NewRow db op row) :
    row.providerTurnId = none ∧ row.binding = none ∧ row.terminal = none := by
  cases new with
  | polled | synthetic => exact ⟨rfl, rfl, rfl⟩
  | continuation =>
    unfold continuationChild
    split
    · obtain ⟨_, same⟩ := recordEvent_eq _ (.taskContinuation "0") .blocked
      rw [same]
      exact ⟨rfl, rfl, rfl⟩
    · obtain ⟨_, same⟩ := recordEvent_eq _ (.taskContinuation "0") .retryScheduled
      rw [same]
      exact ⟨rfl, rfl, rfl⟩

/-- Every row of every run keeps its turn columns in order. -/
theorem turn_columns (host : Host) (log : List Op) :
    ∀ row ∈ (run host log).inbox, TurnColumns row := by
  refine run_rows (fun _ _ => True) TurnColumns (fun db op row new => ?_)
    (fun db op item row _ _ _ stepped columns => (RowStep.turn columns stepped).keeps columns)
    (Replay.meets_of_forall (fun _ _ => trivial) _ log)
  obtain ⟨turn, binding, terminal⟩ := NewRow.unstarted new
  exact .fresh turn binding terminal

end LetAgents.Inbox.TurnBinding

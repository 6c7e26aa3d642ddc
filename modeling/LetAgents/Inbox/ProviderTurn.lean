import LetAgents.Inbox.EffectLife

/-!
# One provider turn per message

An item gets its turn from `checkpointTurnStarted` and loses it only when
`recordRetryFailure` resets a turn of which nothing is recorded. The reset counts an
empty outcome text as no outcome, and a transition may clear an outcome.
-/
namespace LetAgents.Inbox.ProviderTurn

open Lib Records Pruning Ingress Delivery Store Writes Reachable RowLife TurnBinding
  EffectLife

/-- An effect or a tombstone of the item's turn, in the item's room. -/
def TurnEffect (db : Database) (item : SupervisedInboxItem) : Prop :=
  ∃ binding ∈ item.binding,
    (∃ effect ∈ db.effects, effect.turn = binding.turn ∧ effect.roomId = binding.roomId) ∨
      ∃ tombstone ∈ db.tombstones, tombstone.turn = binding.turn ∧
        tombstone.roomId = binding.roomId

/-- Something that only a dispatched turn leaves behind. -/
def TurnEvidence (db : Database) (item : SupervisedInboxItem) : Prop :=
  TurnEffect db item ∨ item.terminal.isSome = true ∨ hasOutcome item.outcome = true

/-- The turn id of an item across one transaction. -/
inductive TurnIdChange (db : Database) (item row : SupervisedInboxItem) : Op → Prop where
  | same {op : Op} (kept : row.providerTurnId = item.providerTurnId) : TurnIdChange db item row op
  | started {turnId : String} {authority : TurnAuthority} (null : item.providerTurnId = none)
      (bound : row.providerTurnId = some turnId) :
      TurnIdChange db item row (.checkpointTurnStarted item.inboxItemId turnId authority)
  | reset {input : RetryFailure} {turnId : String}
      (asked : input.resetUndispatchedTurnId = some turnId)
      (bound : item.providerTurnId = some turnId) (null : row.providerTurnId = none)
      (nothing : ¬ TurnEvidence db item) :
      TurnIdChange db item row (.recordRetryFailure item.inboxItemId input)

variable {db : Database} {item row : SupervisedInboxItem} {op : Op}

theorem TurnEffect.recorded (effects : TurnEffect db item) :
    ∃ claimed, Recorded db claimed false ∧ ∃ binding ∈ item.binding,
      binding.turn = claimed.identity.turn ∧ binding.roomId = claimed.roomId := by
  obtain ⟨binding, known, ⟨effect, member, turn, room⟩ | ⟨tombstone, member, turn, room⟩⟩ := effects
  · exact ⟨claim effect, .full member rfl nofun, binding, known, turn.symm, room.symm⟩
  · refine ⟨⟨tombstone.effectId, tombstone.identity, tombstone.roomId, tombstone.toolName,
      tombstone.mutation, ⟨"", tombstone.requestSha256⟩⟩, .compacted member ?_, binding, known,
      turn.symm, room.symm⟩
    exact ⟨rfl, rfl, rfl, rfl, rfl, rfl⟩

theorem RowStep.turnId (columns : TurnColumns item) (stepped : RowStep db op item row) :
    TurnIdChange db item row op := by
  cases RowStep.turn columns stepped with
  | same kept =>
    simp only [turnColumns, Prod.mk.injEq] at kept
    exact .same kept.2.2.1
  | started dispatching before nonblank written =>
    simp only [turnColumns, Prod.mk.injEq] at written
    exact .started before written.2.2.1
  | reset asked before noEffect noTerminal noOutcome written =>
    simp only [turnColumns, Prod.mk.injEq] at written
    refine .reset asked before written.2.2.1 ?_
    rintro (effects | terminal | outcome)
    · obtain ⟨claimed, recorded, bound⟩ := effects.recorded
      rw [recorded.hasTurnEffect columns.toBoundTurn bound] at noEffect
      cases noEffect
    · rw [noTerminal] at terminal
      cases terminal
    · rw [noOutcome] at outcome
      cases outcome
  | finished bound turn written =>
    simp only [turnColumns, Prod.mk.injEq] at written
    exact .same written.2.2.1

/-- Evidence keeps the turn. -/
theorem TurnIdChange.kept (change : TurnIdChange db item row op) (evidence : TurnEvidence db item) :
    row.providerTurnId = item.providerTurnId ∨ item.providerTurnId = none := by
  cases change with
  | same kept => exact .inl kept
  | started null bound => exact .inr null
  | reset asked bound null nothing => exact absurd evidence nothing

/-- A turn with a terminal result. -/
def Finished (turnId : String) (item : SupervisedInboxItem) : Prop :=
  TurnColumns item ∧ item.terminal.isSome = true ∧ item.providerTurnId = some turnId

theorem Finished.step (finished : Finished turnId item) (stepped : RowStep db op item row) :
    Finished turnId row := by
  obtain ⟨columns, terminal, bound⟩ := finished
  have change := RowStep.turn columns stepped
  refine ⟨change.keeps columns, ?_⟩
  cases change with
  | same kept =>
    simp only [turnColumns, Prod.mk.injEq] at kept
    rw [kept.2.2.2.2, kept.2.2.1]
    exact ⟨terminal, bound⟩
  | started dispatching before nonblank written =>
    rw [before] at bound
    cases bound
  | reset asked before noEffect noTerminal noOutcome written =>
    rw [noTerminal] at terminal
    cases terminal
  | finished _ turn written =>
    simp only [turnColumns, Prod.mk.injEq] at written
    rw [written.2.2.2.2, written.2.2.1]
    exact ⟨rfl, bound⟩

/-- The turns of a run. -/
structure TurnLaw (host : Host) (log : List Op) : Prop where
  /-- A binding exists exactly with a turn id, and carries agent, room and turn. -/
  bound : ∀ item ∈ (run host log).inbox, BoundTurn item
  changes : ∀ earlier op later, log = earlier ++ op :: later →
    ∀ item ∈ (run host earlier).inbox, ∀ row ∈ (run host (earlier ++ [op])).inbox,
      row.inboxItemId = item.inboxItemId → TurnIdChange (run host earlier) item row op
  /-- An item that was not there before has no turn. -/
  unstarted : ∀ earlier op later, log = earlier ++ op :: later →
    ∀ row ∈ (run host (earlier ++ [op])).inbox,
      (∀ item ∈ (run host earlier).inbox, item.inboxItemId ≠ row.inboxItemId) →
        row.providerTurnId = none
  /-- Evidence keeps the turn of its item. -/
  evidence : ∀ earlier op later, log = earlier ++ op :: later →
    ∀ item ∈ (run host earlier).inbox, TurnEvidence (run host earlier) item →
      ∀ row ∈ (run host (earlier ++ [op])).inbox, row.inboxItemId = item.inboxItemId →
        row.providerTurnId = item.providerTurnId ∨ item.providerTurnId = none
  /-- A terminal result keeps the turn of its item in every later state. -/
  finished : ∀ earlier later, log = earlier ++ later →
    ∀ item ∈ (run host earlier).inbox, item.terminal.isSome = true →
      ∀ row ∈ (run host log).inbox, row.inboxItemId = item.inboxItemId →
        row.providerTurnId = item.providerTurnId
  /-- So does an effect or a tombstone where no turn is started twice. -/
  effects : FreshTurns host log → ∀ earlier later, log = earlier ++ later →
    ∀ item ∈ (run host earlier).inbox, TurnEffect (run host earlier) item →
      ∀ row ∈ (run host log).inbox, row.inboxItemId = item.inboxItemId →
        row.providerTurnId = item.providerTurnId

theorem turn_law (host : Host) (log : List Op) : TurnLaw host log := by
  have changes : ∀ earlier op, ∀ item ∈ (run host earlier).inbox,
      ∀ row ∈ (run host (earlier ++ [op])).inbox, row.inboxItemId = item.inboxItemId →
        TurnIdChange (run host earlier) item row op := by
    intro earlier op item member row after same
    exact RowStep.turnId (turn_columns host earlier item member)
      (run_row host earlier op member after same)
  refine ⟨fun item member => (turn_columns host log item member).toBoundTurn,
    fun earlier op _ _ => changes earlier op, ?_, ?_, ?_, ?_⟩
  · intro earlier op later _ row after absent
    rcases run_source host earlier op after with ⟨item, member, stepped⟩ | inserted
    · exact absurd (congrArg Receipt.inboxItemId (RowStep.receipt_eq stepped)).symm
        (absent item member)
    · exact (NewRow.unstarted inserted.new).1
  · intro earlier op later _ item member evidence row after same
    exact (changes earlier op item member row after same).kept evidence
  · rintro earlier later rfl item member terminal row after same
    have columns := turn_columns host earlier item member
    obtain ⟨result, known⟩ := Option.isSome_iff_exists.mp terminal
    obtain ⟨binding, bound, _⟩ := columns.terminal result known
    have turn := (columns.agrees binding bound).2.2
    have kept := run_keeps (fun _ _ => True) (Finished binding.providerTurnId)
      (fun db op item row _ _ _ stepped finished => finished.step stepped)
      (Replay.meets_of_forall (fun _ _ => trivial) _ later) member ⟨columns, terminal, turn⟩ after
      same
    rw [kept.2.2, turn]
  · rintro fresh earlier later rfl item member effects row after same
    obtain ⟨claimed, recorded, bound⟩ := effects.recorded
    have uncrossed : false = true → Claim.irreversible claimed = true := nofun
    rcases recorded_run fresh uncrossed member bound recorded with
      ⟨_, held, heldMember, heldSame, _, turn⟩ | gone
    · rw [(sound_run host _).ids.eq after heldMember (same.trans heldSame.symm), turn]
    · exact absurd same (gone row after).2

/-! ## Two replaced turns -/

def oneMessage : SyntheticMessage :=
  { agentId := "agent", roomId := "room", sourceMessageId := "m1", sourceMessage := .object []
    activation := .object [], uuid := "item" }

def startTurn (turnId : String) : Op :=
  .checkpointTurnStarted "item" turnId ⟨"attempt", "generation", "conversation"⟩

def takeHead : Op := .claimHead "agent" none "2026-01-01T00:00:00.000Z"

def resetTurn (turnId : String) : Op :=
  .recordRetryFailure "item" ⟨.preDispatch, "not dispatched", some turnId⟩

/-- The outcome of the turn is recorded as the empty text. -/
def emptyOutcome : List Op :=
  [.insertSyntheticMessage oneMessage, takeHead, startTurn "turn",
    .checkpointTerminalOutcome "item" (.plain "")]

def savedOutcome : OutcomeText := .record (.text "reply") (.text "done") (.text "stream") ""

/-- The outcome of the turn is recorded. -/
def recordedOutcome : List Op :=
  [.insertSyntheticMessage oneMessage, takeHead, startTurn "turn",
    .checkpointTerminalOutcome "item" savedOutcome]

/-- The outcome is cleared on the way back to the queue. -/
def clearedOutcome : List Op :=
  [.transition "item" .retryable { outcome := some none } "2026-01-01T00:00:00.000Z",
    .transition "item" .pending {} "2026-01-01T00:00:00.000Z", takeHead]

def replaced : List Op := [resetTurn "turn", takeHead, startTurn "other turn"]

/-- The turn and the outcome of the stored message. -/
def turnAndOutcome (log : List Op) : Option (Option String × Option OutcomeText) :=
  ((run Host.quiet log).item "item").map fun item => (item.providerTurnId, item.outcome)

/-- Items with an outcome whose turn is replaced later. -/
theorem replaced_turns :
    (turnAndOutcome emptyOutcome = some (some "turn", some (.plain "")) ∧
      turnAndOutcome (emptyOutcome ++ replaced) = some (some "other turn", some (.plain ""))) ∧
    (turnAndOutcome recordedOutcome = some (some "turn", some savedOutcome) ∧
      turnAndOutcome (recordedOutcome ++ (clearedOutcome ++ replaced)) =
        some (some "other turn", none)) := by
  decide +kernel

end LetAgents.Inbox.ProviderTurn

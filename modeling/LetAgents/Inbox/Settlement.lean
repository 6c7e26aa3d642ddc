import LetAgents.Inbox.RoomMoveCompensation
import LetAgents.Inbox.TurnBarrier

/-!
# Work of a settled turn

Source: src/apps/desktop/daemon/supervised-agent-history-retention.ts:205-231,
supervised-agent-inbox-store.ts:2297-2370.

Every path that settles an item also ends the work of its turn, in the same
transaction. What is still prepared, and every read that still executes, therefore
belongs to an item that is not settled.
-/
namespace LetAgents.Inbox.Settlement

open Lib Lib.Js Lib.Checked Records Retention Pruning Ingress Delivery RoomMove Store Writes
  Transaction Reachable RowLife RoomMoveCompensation TurnBinding EffectLife EffectSteps
  EffectOwners TurnBarrier

/-! ## Ended turns -/

/-- No effect of the item's turn is unfinished. -/
def Ended (item : SupervisedInboxItem) (effects : List EffectRow) : Prop :=
  ∀ effect ∈ effects, BoundTo effect.turn item →
    unfinished effect.toSupervisedEffectRecord = false

theorem settledEffect_ended (now : String) (effect : EffectRow) :
    unfinished (settledEffect now effect).toSupervisedEffectRecord = false := by
  unfold settledEffect
  split
  · simp [unfinished]
  · rename_i idle
    simp only [unfinished, Bool.and_comm (decide (effect.toolName ≠ "join_room"))]
    exact Bool.eq_false_of_not_eq_true idle

variable {item written : SupervisedInboxItem} {d db next : Database} {now inboxItemId : String}
  {op : Op}

theorem Ended.sublist (ended : Ended item effects) (sub : fewer.Sublist effects) :
    Ended item fewer :=
  fun effect member => ended effect (sub.subset member)

/-- Settling any item ends no turn again. -/
theorem Ended.settle (ended : Ended item d.effects) (now : String) :
    Ended item (settleSupervisedTerminalItem d other now).effects := by
  obtain ⟨f, settles, equal⟩ := settle_eq d other now
  rw [equal]
  intro effect member bound
  obtain ⟨before, beforeMember, rfl⟩ := List.mem_map.mp member
  rcases settles before with same | changed
  · rw [same] at bound ⊢
    exact ended before beforeMember bound
  · rw [changed]
    exact settledEffect_ended now before

theorem settle_ended (columns : TurnColumns item) (d : Database) (now : String) :
    Ended item (settleSupervisedTerminalItem d item now).effects := by
  rintro effect member ⟨binding, known, turn⟩
  obtain ⟨agent, _, turnId⟩ := columns.agrees binding known
  have bound : item.binding = some binding := known
  have started : present item.providerTurnId = true := by
    rw [turnId]
    exact present_of_nonblank (columns.nonblank _ turnId)
  unfold settleSupervisedTerminalItem at member
  simp only [bound, started] at member
  obtain ⟨before, _, rfl⟩ := List.mem_map.mp member
  split
  · exact settledEffect_ended now before
  · rename_i other
    rw [if_neg other] at turn
    simp only [SupervisedEffectRecord.turn, ProviderTurnBinding.turn, ProviderTurn.mk.injEq] at turn
    refine absurd ⟨?_, turn.2.1.symm, ?_⟩ other
    · rw [← turn.1, agent]
    · rw [turnId, turn.2.2]

/-! ## Rows that become final -/

/-- The turn of every item that became final has ended. -/
def FinalSettled (db d : Database) : Prop :=
  ∀ item ∈ db.inbox, item.state.isFinal = false → ∀ row ∈ d.inbox,
    row.inboxItemId = item.inboxItemId → row.state.isFinal = true → Ended item d.effects

theorem FinalSettled.start (ids : Table.Keyed (·.inboxItemId) db.inbox)
    (inbox : d.inbox = db.inbox) : FinalSettled db d := by
  intro item itemMember unsettled row member same final
  rw [inbox] at member
  rw [ids.eq member itemMember same, unsettled] at final
  cases final

theorem FinalSettled.prune (settled : FinalSettled db d)
    (pruned : pruneSupervisedAgentHistory d agentId keep = .ok next) : FinalSettled db next := by
  intro item itemMember unsettled row member same final
  obtain ⟨source, sourceMember, trims⟩ := prune_source pruned member
  have named : source.inboxItemId = item.inboxItemId :=
    (congrArg Receipt.inboxItemId trims.receipt_eq).symm.trans same
  rw [trims.state_eq] at final
  exact (settled item itemMember unsettled source sourceMember named final).sublist
    (prune_effects pruned)

/-- A write that leaves its item unsettled. -/
theorem FinalSettled.put (settled : FinalSettled db d) (running : written.state.isFinal = false) :
    FinalSettled db (d.putItem written) := by
  intro item itemMember unsettled row member same final
  rcases Table.mem_put member with ⟨rfl, _⟩ | ⟨before, _⟩
  · rw [running] at final
    cases final
  · exact settled item itemMember unsettled row before same final

theorem FinalSettled.store (ids : Table.Keyed (·.inboxItemId) db.inbox)
    (itemMember : item ∈ db.inbox) (columns : TurnColumns item)
    (same : written.inboxItemId = item.inboxItemId) (settled : FinalSettled db d)
    (ok : storeSettled d item written now = .ok next) : FinalSettled db next := by
  refine FinalSettled.prune ?_ ok
  intro other otherMember unsettled row member named final
  rw [settle_inbox] at member
  rcases Table.mem_put member with ⟨rfl, _⟩ | ⟨before, _⟩
  · rw [ids.eq otherMember itemMember (named.symm.trans same)]
    exact settle_ended columns _ now
  · have ended := settled other otherMember unsettled row before named final
    exact Ended.settle (d := d.putItem written) ended now

/-! ## The operations that settle items -/

theorem retireIngress_inbox (db : Database) (agentId roomId : String) :
    (retireIngress db agentId roomId).inbox = db.inbox := rfl

/-- The operations that may write a final state. -/
def finalizes : Op → Bool
  | .transition _ _ _ _ | .checkpointPublication _ | .skipBlocked _ _
  | .cancelInterruptedTurn _ _ _ _ | .finishUnusedTaskContinuation _ _ _
  | .normalizeStartupRecovery _ _ _ | .commitRoomMoveQueue _ _ => true
  | _ => false

theorem retryState_unsettled (item : SupervisedInboxItem) (input : RetryFailure) :
    (retryState item input).isFinal = false := by
  unfold retryState
  split
  · rfl
  split
  · rfl
  split
  · rfl
  · rfl

theorem RowWrite.finalizes (write : RowWrite db item op written)
    (unsettled : item.state.isFinal = false) (final : written.state.isFinal = true) :
    finalizes op = true := by
  cases write with
  | annotated notes =>
    rw [Annotates.state notes, unsettled] at final
    cases final
  | transitioned call =>
    rcases call with rfl | ⟨rfl, rfl, rfl⟩
    · rfl
    · rw [recordTransition_state] at final
      cases final
  | claimed => cases final
  | turnStarted =>
    rw [turnStarted_state, unsettled] at final
    cases final
  | retried =>
    rw [retried_state, retryState_unsettled] at final
    cases final
  | handedBack =>
    rw [handedBack_state] at final
    cases final
  | finished =>
    rw [finished_state, unsettled] at final
    cases final
  | outcomeRecorded =>
    rw [outcomeRecorded_state, unsettled] at final
    cases final
  | released =>
    rw [released_state] at final
    cases final
  | revived =>
    rw [revived_state] at final
    cases final
  | published | skipped | stopped | unused | recovered | roomMoveCancelled => rfl

theorem settles_quiet (sound : Sound db) (ok : step db op = .ok next)
    (quiet : finalizes op = false) : FinalSettled db next := by
  intro item itemMember unsettled row member same final
  obtain ⟨written, rfl | write, trims⟩ := step_row sound ok itemMember member same
  · rw [trims.state_eq, unsettled] at final
    cases final
  · rw [trims.state_eq] at final
    rw [RowWrite.finalizes write unsettled final] at quiet
    cases quiet

section Operations

variable {db next : Database} (sound : Sound db) (columns : ∀ row ∈ db.inbox, TurnColumns row)
include sound columns

theorem transition_settles (ok : transition db inboxItemId state patch now = .ok next) :
    FinalSettled db next := by
  obtain ⟨item, known, ok⟩ := found_bind_ok ok
  obtain ⟨_, _, written⟩ := bind_ok ok
  obtain ⟨member, _⟩ := item_ok known
  have start : FinalSettled db db := .start sound.ids rfl
  have same : (recordTransition (patch.row item state now)).inboxItemId = item.inboxItemId :=
    congrArg Receipt.inboxItemId (recordTransition_receipt _)
  split at written
  · exact start.store sound.ids member (columns item member) same written
  · rename_i running
    cases written
    refine start.put ?_
    rw [recordTransition_state]
    exact Bool.eq_false_of_not_eq_true running

theorem checkpointPublication_settles (ok : checkpointPublication db input = .ok next) :
    FinalSettled db next := by
  obtain ⟨_, _, ok⟩ := bind_ok ok
  obtain ⟨_, _, ok⟩ := bind_ok ok
  obtain ⟨_, _, ok⟩ := bind_ok ok
  obtain ⟨item, known, ok⟩ := found_bind_ok ok
  obtain ⟨room, ok⟩ := require_bind_ok ok
  obtain ⟨_, ok⟩ := require_bind_ok ok
  obtain ⟨_, ok⟩ := require_bind_ok ok
  obtain ⟨member, named⟩ := item_ok known
  have start : FinalSettled db db := .start sound.ids rfl
  split at ok
  · rename_i publishing
    obtain ⟨_, ok⟩ := require_bind_ok ok
    have write : RowWrite db item (.checkpointPublication input) (published item input) :=
      .published named publishing room
    exact start.store sound.ids member (columns item member)
      (congrArg Receipt.inboxItemId (RowWrite.receipt_eq write)) ok
  · exact start.prune ok

theorem skipBlocked_settles (ok : skipBlocked db inboxItemId now = .ok next) :
    FinalSettled db next := by
  obtain ⟨item, known, ok⟩ := found_bind_ok ok
  obtain ⟨⟨blocked, unstarted⟩, ok⟩ := require_bind_ok ok
  obtain ⟨_, head, stored⟩ := bind_ok ok
  obtain ⟨member, rfl⟩ := item_ok known
  have write : RowWrite db item (.skipBlocked item.inboxItemId now) (skipped item now) :=
    .skipped (assertCurrentHead_ok head) blocked unstarted
  have start : FinalSettled db db := .start sound.ids rfl
  exact start.store sound.ids member (columns item member)
    (congrArg Receipt.inboxItemId (RowWrite.receipt_eq write)) stored

theorem finishUnusedTaskContinuation_settles
    (ok : finishUnusedTaskContinuation db inboxItemId detail now = .ok next) :
    FinalSettled db next := by
  obtain ⟨item, known, ok⟩ := found_bind_ok ok
  obtain ⟨_, _, ok⟩ := bind_ok ok
  obtain ⟨⟨_, pending, unstarted, silent⟩, ok⟩ := require_bind_ok ok
  obtain ⟨_, head, stored⟩ := bind_ok ok
  obtain ⟨member, rfl⟩ := item_ok known
  have write : RowWrite db item (.finishUnusedTaskContinuation item.inboxItemId detail now)
      (unused item detail now) :=
    .unused (assertCurrentHead_ok head) pending unstarted silent
  have start : FinalSettled db db := .start sound.ids rfl
  exact start.store sound.ids member (columns item member)
    (congrArg Receipt.inboxItemId (RowWrite.receipt_eq write)) stored

theorem cancelInterruptedTurn_settles
    (ok : cancelInterruptedTurn db inboxItemId detail expected now = .ok next) :
    FinalSettled db next := by
  have start : FinalSettled db db := .start sound.ids rfl
  obtain rfl | ⟨item, member, failure, write, stored⟩ := cancelInterruptedTurn_cases ok
  · exact start
  · exact start.store sound.ids member (columns item member)
      (congrArg Receipt.inboxItemId (RowWrite.receipt_eq write)) stored

theorem normalizeStartupRecovery_settles
    (ok : normalizeStartupRecovery db agentId resetUnstarted now = .ok next) :
    FinalSettled db next := by
  obtain ⟨settled, recovers, ok⟩ := bind_ok ok
  refine FinalSettled.prune ?_ ok
  refine foldlM_preserves (motive := FinalSettled db) (fun d item d' listed rest recovery => ?_)
    recovers (.start sound.ids rfl)
  have unsettled := (List.mem_insertionSort _).mp listed
  simp only [Database.unsettled, List.mem_filter, Bool.and_eq_true, decide_eq_true_eq,
    Bool.not_eq_true'] at unsettled
  obtain ⟨member, rfl, running⟩ := unsettled
  obtain ⟨failure, proven, recovery⟩ := bind_ok recovery
  split at recovery
  · cases recovery
    exact rest
  · rename_i state error decided
    have write : RowWrite db item (.normalizeStartupRecovery item.agentId resetUnstarted now)
        (recovered item state error now) :=
      .recovered running proven decided
    split at recovery
    · exact rest.store sound.ids member (columns item member)
        (congrArg Receipt.inboxItemId (RowWrite.receipt_eq write)) recovery
    · rename_i open'
      cases recovery
      refine rest.put ?_
      rw [recovered_state]
      exact Bool.eq_false_of_not_eq_true open'

omit sound in
/-- Settling a list of items ends the turn of each. -/
theorem settles_list {rows : List SupervisedInboxItem} (members : ∀ row ∈ rows, row ∈ db.inbox)
    (now : String) (d : Database) : ∀ item ∈ rows,
      Ended item (rows.foldl (fun d item => settleSupervisedTerminalItem d item now) d).effects := by
  have keeps : ∀ (rest : List SupervisedInboxItem) (d : Database) (item : SupervisedInboxItem),
      Ended item d.effects →
      Ended item (rest.foldl (fun d item => settleSupervisedTerminalItem d item now) d).effects := by
    intro rest
    induction rest with
    | nil => exact fun _ _ ended => ended
    | cons row rest ih => exact fun d item ended => ih _ item (ended.settle now)
  induction rows generalizing d with
  | nil => exact fun _ member => absurd member List.not_mem_nil
  | cons row rest ih =>
    intro item member
    rw [List.foldl_cons]
    rcases List.mem_cons.mp member with rfl | inRest
    · exact keeps rest _ item (settle_ended (columns item (members item List.mem_cons_self)) d now)
    · exact ih (fun other listed => members other (.tail _ listed)) _ item inRest

theorem commitRoomMoveQueue_settles (ok : commitRoomMoveQueue db input now = .ok next) :
    FinalSettled db next := by
  refine FinalSettled.prune ?_ ok
  intro item itemMember unsettled row member same final
  have listed : item ∈ db.inbox.filter (leavesRoom input) := by
    rw [retireIngress_inbox, (settleAll_frame _ _ _).1] at member
    obtain ⟨source, sourceMember, rfl⟩ := List.mem_map.mp member
    have named : source.inboxItemId = item.inboxItemId := by
      have receipts : receipt (roomMoveCancelled input.operationId now source) = receipt source :=
        recordEvent_receipt _ _ _
      split at same
      · exact (congrArg Receipt.inboxItemId receipts).symm.trans same
      · exact same
    cases sound.ids.eq sourceMember itemMember named
    split at final
    · rename_i leaves
      exact List.mem_filter.mpr ⟨itemMember, leaves⟩
    · rw [unsettled] at final
      cases final
  exact settles_list columns (fun row member => List.mem_of_mem_filter member) now _ item listed

theorem step_settles (ok : step db op = .ok next) : FinalSettled db next := by
  cases quiet : finalizes op with
  | false => exact settles_quiet sound ok quiet
  | true =>
    cases op with
    | transition => exact transition_settles sound columns ok
    | checkpointPublication => exact checkpointPublication_settles sound columns ok
    | skipBlocked => exact skipBlocked_settles sound columns ok
    | cancelInterruptedTurn => exact cancelInterruptedTurn_settles sound columns ok
    | finishUnusedTaskContinuation =>
      exact finishUnusedTaskContinuation_settles sound columns ok
    | normalizeStartupRecovery => exact normalizeStartupRecovery_settles sound columns ok
    | commitRoomMoveQueue => exact commitRoomMoveQueue_settles sound columns ok
    | _ => cases quiet

end Operations

/-! ## Runs -/

/-- Unfinished work belongs to an item that is not settled. -/
def Mortal (db : Database) : Prop :=
  ∀ effect ∈ db.effects, unfinished effect.toSupervisedEffectRecord = true →
    ∃ item ∈ db.inbox, Owns item effect ∧ item.state.isFinal = false

/-- The unsettled owner before a transaction, of unfinished work after it. -/
theorem step_running (sound : Sound db) (done : Done db) (mortal : Mortal db)
    (ok : step db op = .ok next) (member : effect ∈ next.effects)
    (open' : unfinished effect.toSupervisedEffectRecord = true) :
    ∃ item ∈ db.inbox, Owns item effect ∧ item.state.isFinal = false := by
  cases step_effects sound ok effect member with
  | kept oldMember kept =>
    rcases kept.unfinished open' with before | ⟨completion, executing⟩
    · obtain ⟨item, itemMember, owns, unsettled⟩ := mortal _ oldMember before
      exact ⟨item, itemMember, owns.of_claim kept.same, unsettled⟩
    · -- a proposal never executes
      have completed := done.effects _ oldMember completion
      rw [executing] at completed
      cases completed
  | started oldMember prepared uncommitted =>
    rename_i input old
    have before : unfinished old.toSupervisedEffectRecord = true := by
      simp only [unfinished, Bool.and_eq_true] at open' ⊢
      exact ⟨open'.1, by simp [prepared]⟩
    obtain ⟨item, itemMember, owns, unsettled⟩ := mortal old oldMember before
    exact ⟨item, itemMember, owns.of_claim rfl, unsettled⟩
  | admitted _ _ admission kept =>
    obtain ⟨item, itemMember, active, binding, known, turn, room⟩ := admission.bound
    have owns : Owns item _ := ⟨binding, known, turn, room⟩
    refine ⟨item, itemMember, owns.of_claim kept.same, ?_⟩
    rcases active with dispatching | awaiting
    · rw [dispatching]
      rfl
    · rw [awaiting]
      rfl

theorem step_mortal (sound : Sound db) (columns : ∀ row ∈ db.inbox, TurnColumns row)
    (done : Done db) (owned : Owned db) (mortal : Mortal db) (ok : step db op = .ok next) :
    Mortal next := by
  intro effect member open'
  obtain ⟨item, itemMember, owns, unsettled⟩ := step_running sound done mortal ok member open'
  have source := (step_source sound owned ok member).1
  obtain ⟨row, rowMember, same, binding⟩ :=
    executes_owner sound columns (step_executes sound ok) effect member source item itemMember
      owns
  refine ⟨row, rowMember, owns.of_binding binding, ?_⟩
  -- had the row settled, its work would have ended
  refine Bool.eq_false_of_not_eq_true fun final => ?_
  have ended := step_settles sound columns ok item itemMember unsettled row rowMember same final
  rw [ended effect member owns.boundTo] at open'
  cases open'

theorem mortal_run (host : Host) (log : List Op) : Mortal (run host log) := by
  induction log using List.reverseRecOn with
  | nil => exact nofun
  | append_singleton log op ih =>
    rw [run_concat]
    cases result : step (run host log) op with
    | ok next =>
      rw [Replay.attempt_of_ok result]
      exact step_mortal (sound_run host log) (turn_columns host log)
        (completions_run host log).1 (owned_run host log) ih result
    | error e =>
      rw [Replay.attempt_of_error result]
      exact ih

end LetAgents.Inbox.Settlement

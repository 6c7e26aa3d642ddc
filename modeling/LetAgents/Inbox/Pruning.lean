import LetAgents.Inbox.Retention

/-!
# What retention changes

Spec lemmas of `settleSupervisedTerminalItem` and `pruneSupervisedAgentHistory`.
Settlement writes effects only. Pruning deletes settled receipts, drops old events
of those it keeps, and touches no journal, cursor or authority row.
-/
namespace LetAgents.Inbox.Pruning

open Lib.Checked Records Retention

/-! ## Rows -/

/-- The columns of a row that are written once, at its insertion. -/
structure Receipt where
  inboxItemId : String
  agentId : String
  roomId : String
  sourceMessageId : String
  fifoSequence : Nat
  actionId : String
  replyClientMessageId : String

def receipt (item : SupervisedInboxItem) : Receipt :=
  { inboxItemId := item.inboxItemId, agentId := item.agentId, roomId := item.roomId
    sourceMessageId := item.sourceMessageId, fifoSequence := item.fifoSequence
    actionId := item.actionId, replyClientMessageId := item.replyClientMessageId }

/-- A row after retention: a settled receipt may have lost events. -/
def Trims (row next : SupervisedInboxItem) : Prop :=
  next = row ∨
    (row.state.isFinal = true ∧ ∃ events, events.Sublist row.events ∧ next = { row with events })

theorem Trims.refl (row : SupervisedInboxItem) : Trims row row := .inl rfl

variable {row item : SupervisedInboxItem} {next db : Database} {agentId : String}
  {keep : Option String}

theorem Trims.trans {middle next : SupervisedInboxItem} (first : Trims row middle)
    (second : Trims middle next) : Trims row next := by
  rcases first with rfl | ⟨final, events, sub, rfl⟩
  · exact second
  · rcases second with rfl | ⟨_, fewer, fewerSub, rfl⟩
    · exact .inr ⟨final, events, sub, rfl⟩
    · exact .inr ⟨final, fewer, fewerSub.trans sub, rfl⟩

theorem Trims.receipt_eq {next : SupervisedInboxItem} (trims : Trims row next) :
    receipt next = receipt row := by
  rcases trims with rfl | ⟨_, _, _, rfl⟩
  · rfl
  · rfl

theorem Trims.state_eq {next : SupervisedInboxItem} (trims : Trims row next) :
    next.state = row.state := by
  rcases trims with rfl | ⟨_, _, _, rfl⟩
  · rfl
  · rfl

theorem Trims.eq_of_unsettled {next : SupervisedInboxItem} (trims : Trims row next)
    (unsettled : row.state.isFinal = false) : next = row := by
  rcases trims with rfl | ⟨final, _⟩
  · rfl
  · rw [unsettled] at final
    cases final

theorem trimEvents_sublist (retained : Option EventKey) (events : List InboxEvent) :
    (trimEvents retained events).Sublist events := by
  have firstTwo : (events.take (events.length - retainedTerminalTimelineEvents)).take 2 =
      events.take (min 2 (events.length - retainedTerminalTimelineEvents)) := List.take_take
  have middle : ((events.take (min 2 (events.length - retainedTerminalTimelineEvents))) ++
      ((events.take (events.length - retainedTerminalTimelineEvents)).drop 2).filter
        fun event => some event.idempotencyKey = retained).Sublist
      (events.take (events.length - retainedTerminalTimelineEvents)) := by
    rw [← firstTwo]
    have filtered := List.Sublist.append_left
      (List.filter_sublist
        (p := fun event : InboxEvent => decide (some event.idempotencyKey = retained))
        (l := (events.take (events.length - retainedTerminalTimelineEvents)).drop 2))
      ((events.take (events.length - retainedTerminalTimelineEvents)).take 2)
    rw [List.take_append_drop] at filtered
    exact filtered
  have whole := List.Sublist.append_right middle
    (events.drop (events.length - retainedTerminalTimelineEvents))
  rw [List.take_append_drop] at whole
  exact whole

theorem compactable_final (holds : compactable db agentId item = true) :
    item.state.isFinal = true := by
  simp only [compactable, Bool.and_eq_true, Bool.or_eq_true, decide_eq_true_eq] at holds
  rcases holds.1.1.1.1.1.2 with ⟨final, _⟩ | ⟨cancelled, _⟩
  · exact final
  · rw [cancelled]
    rfl

theorem trimmed_trims (db : Database) (agentId : String) (item : SupervisedInboxItem) :
    Trims item (trimmed db agentId item) := by
  unfold trimmed
  split
  · rename_i holds
    exact .inr ⟨compactable_final holds, _, trimEvents_sublist _ _, rfl⟩
  · exact .inl rfl

/-! ## Settlement -/

/-- Settlement maps the effects and changes nothing else. -/
theorem settle_eq (db : Database) (item : SupervisedInboxItem) (now : String) :
    ∃ f : EffectRow → EffectRow, (∀ effect, f effect = effect ∨ f effect = settledEffect now effect) ∧
      settleSupervisedTerminalItem db item now = { db with effects := db.effects.map f } := by
  have same : db = { db with effects := db.effects.map id } := by rw [List.map_id]
  unfold settleSupervisedTerminalItem
  split
  · split
    · refine ⟨_, fun effect => ?_, rfl⟩
      split
      · exact .inr rfl
      · exact .inl rfl
    · exact ⟨id, fun _ => .inl rfl, same⟩
  · exact ⟨id, fun _ => .inl rfl, same⟩

@[simp] theorem settle_inbox (db : Database) (item : SupervisedInboxItem) (now : String) :
    (settleSupervisedTerminalItem db item now).inbox = db.inbox := by
  obtain ⟨_, _, equal⟩ := settle_eq db item now
  rw [equal]

/-! ## Pruning -/

theorem deleteReceipt_ok (ok : deleteReceipt db item = .ok next) :
    next = { db with
      effects := next.effects, tombstones := next.tombstones, repairs := next.repairs
      inbox := db.inbox.filter fun other => other.inboxItemId ≠ item.inboxItemId } := by
  obtain ⟨_, written⟩ := require_bind_ok ok
  cases written
  rfl

theorem compactEffect_ok (ok : compactEffect db effect = .ok next) : next = { db with
      tombstones := db.tombstones ++ [tombstoneOf effect]
      effects := db.effects.filter fun row =>
        !(row.effectId = effect.effectId && row.state = .uncertain) } ∧
      (∀ tombstone ∈ db.tombstones, tombstone.effectId ≠ effect.effectId) ∧
      (∀ tombstone ∈ db.tombstones, tombstone.identity ≠ effect.identity) := by
  obtain ⟨freshId, rest⟩ := require_bind_ok ok
  obtain ⟨freshIdentity, written⟩ := require_bind_ok rest
  cases written
  exact ⟨rfl, freshId, freshIdentity⟩

/-- The receipts that survive the deletion of the stale ones. -/
def survivors (stale rows : List SupervisedInboxItem) : List SupervisedInboxItem :=
  rows.filter fun row => stale.all fun gone => row.inboxItemId ≠ gone.inboxItemId

theorem deleteReceipts_ok (ok : stale.foldlM deleteReceipt db = .ok next) : next = { db with
      effects := next.effects, tombstones := next.tombstones, repairs := next.repairs
      inbox := survivors stale db.inbox } := by
  induction stale generalizing db with
  | nil =>
    cases ok
    have all : survivors [] next.inbox = next.inbox := by simp [survivors]
    rw [all]
  | cons gone rest ih =>
    obtain ⟨middle, deleted, continued⟩ := bind_ok ok
    have first := deleteReceipt_ok deleted
    have last := ih continued
    rw [first] at last
    rw [last]
    have same : survivors rest (db.inbox.filter fun other => other.inboxItemId ≠ gone.inboxItemId) =
        survivors (gone :: rest) db.inbox := by
      simp only [survivors, List.filter_filter, List.all_cons, Bool.and_comm]
    simp only [same]

theorem compactEffects_frame {effects : List EffectRow}
    (ok : effects.foldlM compactEffect db = .ok next) :
    next = { db with effects := next.effects, tombstones := next.tombstones } := by
  refine foldlM_preserves (motive := fun d => d = { db with
    effects := d.effects, tombstones := d.tombstones }) ?_ ok rfl
  intro a effect c _ frame compacted
  rw [(compactEffect_ok compacted).1, frame]

section

variable (ok : pruneSupervisedAgentHistory db agentId keep = .ok next)
include ok

/-- The three stages of a pruning. -/
theorem prune_stages :
    ∃ compacted kept,
      (compactableUncertain db agentId keep).foldlM compactEffect db = .ok compacted ∧
      (staleReceipts (dropUnboundTombstones compacted agentId) agentId).foldlM deleteReceipt
        (dropUnboundTombstones compacted agentId) = .ok kept ∧
      next = trimObserved (compactSupervisedTerminalHistory kept agentId) agentId := by
  obtain ⟨compacted, compaction, rest⟩ := bind_ok ok
  obtain ⟨kept, deletion, written⟩ := bind_ok rest
  cases written
  exact ⟨compacted, kept, compaction, deletion, rfl⟩

/-- Pruning leaves every table of another owner, the cursors and the ids alone. -/
theorem prune_frame :
    next = { db with
      inbox := next.inbox, effects := next.effects, tombstones := next.tombstones
      repairs := next.repairs, observed := next.observed } := by
  obtain ⟨compacted, kept, compaction, deletion, rfl⟩ := prune_stages ok
  have first := compactEffects_frame compaction
  have second := deleteReceipts_ok deletion
  rw [first] at second
  rw [second]
  rfl

/-- The rows after a pruning, with the database whose journals pinned them. -/
theorem prune_inbox :
    ∃ bound kept : Database,
      bound = { db with effects := bound.effects, tombstones := bound.tombstones } ∧
      kept = { db with
        effects := kept.effects, tombstones := kept.tombstones, repairs := kept.repairs
        inbox := survivors (staleReceipts bound agentId) db.inbox } ∧
      next.inbox = kept.inbox.map (trimmed kept agentId) := by
  obtain ⟨compacted, kept, compaction, deletion, rfl⟩ := prune_stages ok
  have first := compactEffects_frame compaction
  have second := deleteReceipts_ok deletion
  refine ⟨dropUnboundTombstones compacted agentId, kept, ?_, ?_, rfl⟩
  · rw [first]
    rfl
  · rw [second]
    rw [first]
    rfl

end

theorem deleteReceipt_effects (ok : deleteReceipt db item = .ok next) :
    next.effects.Sublist db.effects := by
  obtain ⟨_, written⟩ := require_bind_ok ok
  cases written
  exact List.filter_sublist

section

variable (ok : pruneSupervisedAgentHistory db agentId keep = .ok next)
include ok

/-- Pruning only deletes full effects. -/
theorem prune_effects : next.effects.Sublist db.effects := by
  obtain ⟨compacted, kept, compaction, deletion, rfl⟩ := prune_stages ok
  have first : compacted.effects.Sublist db.effects := by
    refine foldlM_preserves (motive := fun d => d.effects.Sublist db.effects) ?_ compaction
      (List.Sublist.refl _)
    intro d effect d' _ sub compacts
    rw [(compactEffect_ok compacts).1]
    exact List.filter_sublist.trans sub
  refine foldlM_preserves (motive := fun d => d.effects.Sublist db.effects) ?_ deletion first
  intro d item d' _ sub deletes
  exact (deleteReceipt_effects deletes).trans sub

/-- Every row after a pruning is a row before it, perhaps with fewer events. -/
theorem prune_source (member : row ∈ next.inbox) : ∃ source ∈ db.inbox, Trims source row := by
  obtain ⟨_, kept, _, keptEq, rows⟩ := prune_inbox ok
  rw [rows] at member
  obtain ⟨source, sourceMember, rfl⟩ := List.mem_map.mp member
  rw [keptEq] at sourceMember
  exact ⟨source, List.mem_of_mem_filter sourceMember, trimmed_trims _ _ _⟩

/-- Pruning inserts no receipt and changes none. -/
theorem prune_receipts : (next.inbox.map receipt).Sublist (db.inbox.map receipt) := by
  obtain ⟨_, kept, _, keptEq, rows⟩ := prune_inbox ok
  have same : next.inbox.map receipt = kept.inbox.map receipt := by
    rw [rows, List.map_map]
    exact List.map_congr_left fun row _ => (trimmed_trims kept agentId row).receipt_eq
  have fewer : kept.inbox.Sublist db.inbox := by
    rw [keptEq]
    exact List.filter_sublist
  rw [same]
  exact fewer.map receipt

end

end LetAgents.Inbox.Pruning

import LetAgents.Inbox.FifoLane
import LetAgents.Inbox.Settlement

/-!
# What retention may delete

Source: src/apps/desktop/daemon/supervised-agent-history-retention.ts:233-402.

A pruning anywhere in a transaction deletes only settled items that nothing pins, the
oldest of each agent first, with the closed effects and the tombstones of their turns.
-/
namespace LetAgents.Inbox.SafeRetention

open Lib Lib.Checked Records Retention Pruning Store Writes Transaction Reachable
  TurnBinding EffectLife EffectSteps EffectOwners Settlement

/-! ## Open effects -/

/-- The item's turn has an open effect. -/
def HasOpenEffect (d : Database) (item : SupervisedInboxItem) : Prop :=
  ∃ effect ∈ d.effects, BoundTo effect.turn item ∧ Open effect

theorem pinnedByEffect_iff (bound : BoundTurn item) :
    pinnedByEffect d item = true ↔ HasOpenEffect d item := by
  simp only [pinnedByEffect, List.any_eq_true, Bool.and_eq_true, Bool.or_eq_true,
    decide_eq_true_eq]
  constructor
  · rintro ⟨effect, member, ⟨⟨agent, turnId⟩, generation⟩, open'⟩
    have started : item.binding.isSome = true := by
      rw [bound.paired, ← turnId]
      rfl
    obtain ⟨binding, known⟩ := Option.isSome_iff_exists.mp started
    obtain ⟨sameAgent, _, sameTurn⟩ := bound.agrees binding known
    rw [known, Option.all_some, decide_eq_true_eq] at generation
    refine ⟨effect, member, ⟨binding, known, ?_⟩, open'⟩
    have ids : binding.providerTurnId = effect.providerTurnId :=
      Option.some.inj (sameTurn.symm.trans turnId.symm)
    simp only [SupervisedEffectRecord.turn, ProviderTurnBinding.turn, ProviderTurn.mk.injEq]
    exact ⟨sameAgent.trans agent.symm, generation.symm, ids⟩
  · rintro ⟨effect, member, ⟨binding, known, turn⟩, open'⟩
    obtain ⟨agent, _, turnId⟩ := bound.agrees binding known
    simp only [SupervisedEffectRecord.turn, ProviderTurnBinding.turn, ProviderTurn.mk.injEq] at turn
    refine ⟨effect, member, ⟨⟨?_, ?_⟩, ?_⟩, open'⟩
    · rw [← turn.1, agent]
    · rw [turnId, turn.2.2]
    · rw [Option.mem_def.mp known, Option.all_some, decide_eq_true_eq]
      exact turn.2.1.symm

theorem HasOpenEffect.mono (has : HasOpenEffect d item)
    (kept : ∀ effect ∈ d.effects, Open effect → effect ∈ next.effects)
    (same : row.binding = item.binding) : HasOpenEffect next row := by
  obtain ⟨effect, member, ⟨binding, known, turn⟩, open'⟩ := has
  exact ⟨effect, kept effect member open', ⟨binding, same ▸ known, turn⟩, open'⟩

theorem compactEffects_open {agentId : String} {keep : Option String} {d next : Database}
    (ok : (compactableUncertain d agentId keep).foldlM compactEffect d = .ok next)
    {effect : EffectRow} (member : effect ∈ d.effects) (open' : Open effect) :
    effect ∈ next.effects := by
  refine foldlM_preserves (motive := fun d => effect ∈ d.effects) ?_ ok member
  intro d row d' _ before compacts
  rw [(compactEffect_ok compacts).1]
  refine List.mem_filter.mpr ⟨before, ?_⟩
  rcases open' with prepared | executing
  · simp [prepared]
  · simp [executing]

theorem deleteReceipts_open {stale : List SupervisedInboxItem}
    (ok : stale.foldlM deleteReceipt d = .ok next) (member : effect ∈ d.effects)
    (open' : Open effect) : effect ∈ next.effects := by
  refine foldlM_preserves (motive := fun d => effect ∈ d.effects) ?_ ok member
  intro d gone d' _ before deletes
  obtain ⟨_, written⟩ := require_bind_ok deletes
  cases written
  refine List.mem_filter.mpr ⟨before, ?_⟩
  rcases open' with prepared | executing
  · simp [prepared]
  · simp [executing]

/-! ## One pruning -/

/-- The item is still there, perhaps with fewer events. -/
def Stays (next : Database) (item : SupervisedInboxItem) : Prop :=
  ∃ row ∈ next.inbox, Trims item row

/-- Unsettled items, and the four kinds of pins. -/
def Protected (d : Database) (item : SupervisedInboxItem) : Prop :=
  item.state.isFinal = false ∨ pinnedByControl d item = true ∨ pinnedByDrain d item = true ∨
    pinnedByMove d item = true ∨ HasOpenEffect d item

theorem disposable_iff (bound : BoundTurn item) :
    disposable d agentId item = true ↔ item.agentId = agentId ∧ ¬ Protected d item := by
  unfold Protected
  rw [← pinnedByEffect_iff bound]
  simp only [disposable, Bool.and_eq_true, Bool.not_eq_true', decide_eq_true_eq, not_or,
    Bool.not_eq_false, Bool.not_eq_true]
  constructor
  · rintro ⟨⟨⟨⟨⟨agent, final⟩, control⟩, drain⟩, effect⟩, move⟩
    exact ⟨agent, final, control, drain, move, effect⟩
  · rintro ⟨agent, final, control, drain, move, effect⟩
    exact ⟨⟨⟨⟨⟨agent, final⟩, control⟩, drain⟩, effect⟩, move⟩

/-- The database of a pruning after its uncertain effects were compacted, and after the
stale receipts were deleted. -/
structure Stages (d next : Database) (agentId : String) (bound kept : Database) : Prop where
  tables : bound = { d with effects := bound.effects, tombstones := bound.tombstones }
  deletion : (staleReceipts bound agentId).foldlM deleteReceipt bound = .ok kept
  rows : next.inbox = kept.inbox.map (trimmed kept agentId)
  effects : next.effects = kept.effects
  tombstones : next.tombstones = kept.tombstones
  bindings : ∀ tombstone ∈ d.tombstones,
    hasBinding d tombstone.roomId tombstone.turn = true → tombstone ∈ bound.tombstones
  open' : ∀ effect ∈ d.effects, Open effect → effect ∈ bound.effects
  fewer : bound.effects.Sublist d.effects

theorem prune_pass (ok : pruneSupervisedAgentHistory d agentId keep = .ok next) :
    ∃ bound kept, Stages d next agentId bound kept := by
  obtain ⟨compacted, kept, compaction, deletion, rfl⟩ := prune_stages ok
  refine ⟨dropUnboundTombstones compacted agentId, kept, ?_, deletion, rfl, rfl, rfl, ?_, ?_, ?_⟩
  · rw [compactEffects_frame compaction]
    rfl
  · intro tombstone member known
    have appended : tombstone ∈ compacted.tombstones := by
      refine foldlM_preserves (motive := fun d => tombstone ∈ d.tombstones) ?_ compaction member
      intro d effect d' _ before compacts
      rw [(compactEffect_ok compacts).1]
      exact List.mem_append_left _ before
    refine List.mem_filter.mpr ⟨appended, ?_⟩
    unfold hasBinding at known ⊢
    rw [compactEffects_frame compaction, known]
    simp
  · exact fun effect member => compactEffects_open compaction member
  · change compacted.effects.Sublist d.effects
    refine foldlM_preserves (motive := fun c => c.effects.Sublist d.effects) ?_ compaction
      (List.Sublist.refl _)
    intro d' effect next' _ sub compacts
    rw [(compactEffect_ok compacts).1]
    exact List.filter_sublist.trans sub

theorem Stages.inbox (stages : Stages d next agentId bound kept) : bound.inbox = d.inbox := by
  rw [stages.tables]

theorem Stages.survivors (stages : Stages d next agentId bound kept) :
    kept.inbox = survivors (staleReceipts bound agentId) d.inbox := by
  rw [deleteReceipts_ok stages.deletion, stages.inbox]

/-- Compaction leaves the pins as they are. -/
theorem Stages.protected (stages : Stages d next agentId bound kept) (item : SupervisedInboxItem) :
    Protected bound item ↔ Protected d item := by
  have effects : HasOpenEffect bound item ↔ HasOpenEffect d item := by
    constructor
    · exact fun has => has.mono (fun effect member _ => stages.fewer.subset member) rfl
    · exact fun has => has.mono stages.open' rfl
  unfold Protected
  rw [effects]
  have control : pinnedByControl bound item = pinnedByControl d item := by
    rw [stages.tables]
    rfl
  have drain : pinnedByDrain bound item = pinnedByDrain d item := by
    rw [stages.tables]
    rfl
  have move : pinnedByMove bound item = pinnedByMove d item := by
    rw [stages.tables]
    rfl
  rw [control, drain, move]

theorem Stages.stays (stages : Stages d next agentId bound kept) (member : item ∈ d.inbox) :
    Stays next item ↔
      ∀ gone ∈ staleReceipts bound agentId, item.inboxItemId ≠ gone.inboxItemId := by
  constructor
  · rintro ⟨row, rowMember, trims⟩
    rw [stages.rows] at rowMember
    obtain ⟨source, sourceMember, rfl⟩ := List.mem_map.mp rowMember
    rw [stages.survivors] at sourceMember
    have same : source.inboxItemId = item.inboxItemId :=
      (congrArg Receipt.inboxItemId (trimmed_trims kept agentId source).receipt_eq).symm.trans
        (congrArg Receipt.inboxItemId trims.receipt_eq)
    rw [← same]
    exact (mem_survivors.mp sourceMember).2
  · intro spared
    have survives : item ∈ kept.inbox := by
      rw [stages.survivors]
      exact mem_survivors.mpr ⟨member, spared⟩
    refine ⟨trimmed kept agentId item, ?_, trimmed_trims kept agentId item⟩
    rw [stages.rows]
    exact List.mem_map_of_mem survives

/-- What pins a row that stays still pins it. -/
theorem Stages.stillProtected (stages : Stages d next agentId bound kept) (frame : next = { d with
      inbox := next.inbox, effects := next.effects, tombstones := next.tombstones
      repairs := next.repairs, observed := next.observed }) (pinned : Protected d row) :
    Protected next (trimmed kept agentId row) := by
  have trims := trimmed_trims kept agentId row
  rcases pinned with unsettled | control | drain | move | has
  · rw [← trims.state_eq] at unsettled
    exact .inl unsettled
  · have same : pinnedByControl next (trimmed kept agentId row) = pinnedByControl d row := by
      rw [frame]
      rcases trims with equal | ⟨_, _, _, equal⟩
      · rw [equal]
        rfl
      · rw [equal]
        rfl
    exact .inr (.inl (same.trans control))
  · have same : pinnedByDrain next (trimmed kept agentId row) = pinnedByDrain d row := by
      rw [frame]
      rcases trims with equal | ⟨_, _, _, equal⟩
      · rw [equal]
        rfl
      · rw [equal]
        rfl
    exact .inr (.inr (.inl (same.trans drain)))
  · -- a row that a move pins is not trimmed
    have moves : pinnedByMove kept row = pinnedByMove d row := by
      rw [deleteReceipts_ok stages.deletion, stages.tables]
      rfl
    have whole : trimmed kept agentId row = row := by
      refine if_neg fun compacts => ?_
      simp only [compactable, moves, move, Bool.not_true, Bool.and_false] at compacts
      cases compacts
    have same : pinnedByMove next row = pinnedByMove d row := by
      rw [frame]
      rfl
    rw [whole]
    exact .inr (.inr (.inr (.inl (same.trans move))))
  · have binding : (trimmed kept agentId row).binding = row.binding := by
      have same := Trims.turnColumns trims
      simp only [turnColumns, Prod.mk.injEq] at same
      exact same.2.2.2.1
    refine .inr (.inr (.inr (.inr (has.mono (fun effect member open' => ?_) binding))))
    rw [stages.effects]
    exact deleteReceipts_open stages.deletion (stages.open' effect member open') open'

theorem Stages.disposable (stages : Stages d next agentId bound kept) (frame : next = { d with
      inbox := next.inbox, effects := next.effects, tombstones := next.tombstones
      repairs := next.repairs, observed := next.observed }) (columns : BoundTurn row)
    (holds : disposable next agentId (trimmed kept agentId row) = true) :
    Retention.disposable bound agentId row = true := by
  have trims := trimmed_trims kept agentId row
  have trimmedColumns : BoundTurn (trimmed kept agentId row) := by
    rcases trims with same | ⟨_, _, _, same⟩
    · rw [same]
      exact columns
    · rw [same]
      exact ⟨columns.paired, columns.agrees⟩
  obtain ⟨agent, free⟩ := (disposable_iff trimmedColumns).mp holds
  refine (disposable_iff columns).mpr ⟨?_, fun pinned => free ?_⟩
  · exact (congrArg Receipt.agentId trims.receipt_eq).symm.trans agent
  · exact stages.stillProtected frame ((stages.protected row).mp pinned)

/-! ## The budget -/

/-- The disposable receipts, the newest first. -/
def newestFirst (d : Database) (agentId : String) : List SupervisedInboxItem :=
  (d.inbox.filter (Retention.disposable d agentId)).insertionSort fun a b =>
    b.fifoSequence ≤ a.fifoSequence

def budgetOf (d : Database) (agentId : String) : Nat :=
  retainedTerminalReceiptsPerAgent - pinnedTerminalCount d agentId

theorem staleReceipts_eq (d : Database) (agentId : String) :
    staleReceipts d agentId = (newestFirst d agentId).drop (budgetOf d agentId) := rfl

theorem mem_newestFirst : item ∈ newestFirst d agentId ↔
      item ∈ d.inbox ∧ Retention.disposable d agentId item = true := by
  unfold newestFirst
  rw [List.mem_insertionSort, List.mem_filter]

theorem newestFirst_ordered (d : Database) (agentId : String) :
    (newestFirst d agentId).Pairwise fun a b => b.fifoSequence ≤ a.fifoSequence := by
  exact List.pairwise_insertionSort _ _

/-- A receipt past the budget is not newer than one within it. -/
theorem stale_older (within : item ∈ newestFirst d agentId)
    (spared : item ∉ staleReceipts d agentId) (stale : gone ∈ staleReceipts d agentId) :
    gone.fifoSequence ≤ item.fifoSequence := by
  have ordered := newestFirst_ordered d agentId
  rw [← List.take_append_drop (budgetOf d agentId) (newestFirst d agentId)] at within ordered
  have first : item ∈ (newestFirst d agentId).take (budgetOf d agentId) :=
    (List.mem_append.mp within).resolve_right spared
  exact (List.pairwise_append.mp ordered).2.2 item first gone stale

/-- What a pruning of the agent may do to the receipts. -/
structure Pruned (d next : Database) (agentId : String) : Prop where
  kept : ∀ item ∈ d.inbox, Protected d item → Stays next item
  budget : (next.inbox.filter (disposable next agentId)).length ≤ 200
  newest : ∀ item ∈ d.inbox, ∀ newer ∈ d.inbox, disposable d agentId item = true →
    disposable d agentId newer = true → item.fifoSequence ≤ newer.fifoSequence →
      Stays next item → Stays next newer

section Prune

variable {d next : Database} {agentId : String} {keep : Option String} (sound : Sound d)
  (columns : ∀ row ∈ d.inbox, TurnColumns row)
  (ok : pruneSupervisedAgentHistory d agentId keep = .ok next)
include sound columns ok

theorem prune_budget : (next.inbox.filter (disposable next agentId)).length ≤ 200 := by
  obtain ⟨bound, kept, stages⟩ := prune_pass ok
  have survives : ∀ row ∈ kept.inbox, row ∈ d.inbox ∧
      ∀ gone ∈ staleReceipts bound agentId, row.inboxItemId ≠ gone.inboxItemId := by
    intro row member
    rw [stages.survivors] at member
    exact mem_survivors.mp member
  have fewer : (next.inbox.filter (disposable next agentId)).length ≤
      (kept.inbox.filter (disposable bound agentId)).length := by
    rw [stages.rows, List.filter_map, List.length_map, ← List.countP_eq_length_filter,
      ← List.countP_eq_length_filter]
    refine List.countP_mono_left fun row member holds => ?_
    exact stages.disposable (prune_frame ok)
      (columns row (survives row member).1).toBoundTurn holds
  have within : kept.inbox.filter (disposable bound agentId) ⊆
      (newestFirst bound agentId).take (budgetOf bound agentId) := by
    intro row listed
    obtain ⟨member, holds⟩ := List.mem_filter.mp listed
    obtain ⟨before, spared⟩ := survives row member
    have sorted : row ∈ newestFirst bound agentId :=
      mem_newestFirst.mpr ⟨stages.inbox ▸ before, holds⟩
    rw [← List.take_append_drop (budgetOf bound agentId) (newestFirst bound agentId)] at sorted
    refine (List.mem_append.mp sorted).resolve_right fun stale => ?_
    exact spared row stale rfl
  have distinct : (kept.inbox.filter (disposable bound agentId)).Nodup := by
    have keyed : Table.Keyed (·.inboxItemId) kept.inbox := by
      rw [stages.survivors]
      exact sound.ids.sublist List.filter_sublist
    exact (List.Nodup.of_map _ keyed).filter _
  calc (next.inbox.filter (disposable next agentId)).length
      ≤ (kept.inbox.filter (disposable bound agentId)).length := fewer
    _ ≤ ((newestFirst bound agentId).take (budgetOf bound agentId)).length :=
        (List.subperm_of_subset distinct within).length_le
    _ ≤ budgetOf bound agentId := List.length_take_le _ _
    _ ≤ 200 := Nat.sub_le _ _

theorem prune_pruned : Pruned d next agentId := by
  obtain ⟨bound, kept, stages⟩ := prune_pass ok
  have stale : ∀ gone ∈ staleReceipts bound agentId,
      gone ∈ d.inbox ∧ Retention.disposable bound agentId gone = true := by
    intro gone listed
    obtain ⟨member, holds⟩ := mem_staleReceipts listed
    exact ⟨stages.inbox ▸ member, holds⟩
  constructor
  case kept =>
    intro item member pinned
    refine (stages.stays member).mpr fun gone listed same => ?_
    obtain ⟨goneMember, holds⟩ := stale gone listed
    rw [← sound.ids.eq member goneMember same] at holds
    obtain ⟨_, free⟩ := (disposable_iff (columns item member).toBoundTurn).mp holds
    exact free ((stages.protected item).mpr pinned)
  case budget => exact prune_budget sound columns ok
  case newest =>
    intro item member newer newerMember holds newerHolds above stays
    refine (stages.stays newerMember).mpr fun gone listed same => ?_
    have gone_eq := sound.ids.eq newerMember (stale gone listed).1 same
    rw [← gone_eq] at listed
    obtain ⟨agent, free⟩ := (disposable_iff (columns item member).toBoundTurn).mp holds
    have within : item ∈ newestFirst bound agentId := by
      refine mem_newestFirst.mpr ⟨stages.inbox ▸ member, ?_⟩
      exact (disposable_iff (columns item member).toBoundTurn).mpr
        ⟨agent, fun pinned => free ((stages.protected item).mp pinned)⟩
    have spared := (stages.stays member).mp stays
    have below := stale_older within (fun gone => spared item gone rfl) listed
    -- the numbers of one agent are distinct
    obtain ⟨newerAgent, _⟩ :=
      (disposable_iff (columns newer newerMember).toBoundTurn).mp newerHolds
    have lanes : (item.agentId, item.fifoSequence) = (newer.agentId, newer.fifoSequence) := by
      rw [agent, newerAgent, le_antisymm above below]
    rw [← sound.lanes.eq member newerMember lanes] at listed
    exact spared item listed rfl

end Prune

/-! ## Tombstones -/

theorem deleteReceipts_tombstone {stale : List SupervisedInboxItem}
    (bound : ∀ gone ∈ stale, BoundTurn gone) (ok : stale.foldlM deleteReceipt d = .ok next)
    (member : tombstone ∈ d.tombstones) :
    tombstone ∈ next.tombstones ∨ ∃ gone ∈ stale, BoundTo tombstone.turn gone := by
  induction stale generalizing d with
  | nil =>
    cases ok
    exact .inl member
  | cons first rest ih =>
    obtain ⟨middle, deleted, continued⟩ := bind_ok ok
    obtain ⟨_, written⟩ := require_bind_ok deleted
    cases written
    by_cases ofTurn : BoundTo tombstone.turn first
    · exact .inr ⟨first, .head _, ofTurn⟩
    have spared : ∀ binding ∈ first.binding, ¬ (tombstone.agentId = first.agentId ∧
        tombstone.executionGenerationId = binding.originExecutionGenerationId ∧
        some tombstone.providerTurnId = first.providerTurnId) := by
      rintro binding known ⟨agent, generation, turnId⟩
      obtain ⟨sameAgent, _, sameTurn⟩ := (bound first List.mem_cons_self).agrees binding known
      refine ofTurn ⟨binding, known, ?_⟩
      simp only [SupervisedEffectRecord.turn, ProviderTurnBinding.turn, ProviderTurn.mk.injEq]
      exact ⟨sameAgent.trans agent.symm, generation.symm,
        Option.some.inj (sameTurn.symm.trans turnId.symm)⟩
    refine (ih (fun gone listed => bound gone (.tail _ listed)) continued
      (List.mem_filter.mpr ⟨member, ?_⟩)).imp_right ?_
    · rw [Bool.not_eq_true', Option.any_eq_false]
      refine fun binding known => Bool.eq_false_of_not_eq_true fun ofFirst => ?_
      simp only [Bool.and_eq_true, decide_eq_true_eq, and_assoc] at ofFirst
      exact spared binding known ofFirst
    · rintro ⟨gone, listed, ofGone⟩
      exact ⟨gone, .tail _ listed, ofGone⟩

/-- The tombstone of an effect whose turn binding is still there is kept. -/
def TombstonesKept (d next : Database) : Prop :=
  ∀ tombstone ∈ d.tombstones, hasBinding next tombstone.roomId tombstone.turn = true →
    tombstone ∈ next.tombstones

/-- The same, unless the receipt of an item with the same turn is deleted. -/
def TombstonesOutlived (d next : Database) : Prop :=
  ∀ tombstone ∈ d.tombstones, hasBinding next tombstone.roomId tombstone.turn = true →
    tombstone ∈ next.tombstones ∨
      ∃ item ∈ d.inbox, BoundTo tombstone.turn item ∧ ¬ Stays next item

theorem hasBinding_source (ok : pruneSupervisedAgentHistory d agentId keep = .ok next)
    (has : hasBinding next roomId turn = true) : hasBinding d roomId turn = true := by
  obtain ⟨row, member, bound⟩ := List.any_eq_true.mp has
  obtain ⟨source, sourceMember, trims⟩ := prune_source ok member
  have same := Trims.turnColumns trims
  simp only [turnColumns, Prod.mk.injEq] at same
  rw [same.2.2.2.1] at bound
  exact List.any_eq_true.mpr ⟨source, sourceMember, bound⟩

theorem prune_tombstones (columns : ∀ row ∈ d.inbox, TurnColumns row)
    (ok : pruneSupervisedAgentHistory d agentId keep = .ok next) : TombstonesOutlived d next := by
  intro tombstone member has
  have known := hasBinding_source ok has
  obtain ⟨bound, kept, stages⟩ := prune_pass ok
  have stale : ∀ gone ∈ staleReceipts bound agentId, gone ∈ d.inbox :=
    fun gone listed => stages.inbox ▸ (mem_staleReceipts listed).1
  rw [stages.tombstones]
  refine (deleteReceipts_tombstone (fun gone listed => (columns gone (stale gone listed)).toBoundTurn)
    stages.deletion (stages.bindings tombstone member known)).imp_right ?_
  rintro ⟨gone, listed, ofTurn⟩
  exact ⟨gone, stale gone listed, ofTurn,
    fun stays => (stages.stays (stale gone listed)).mp stays gone listed rfl⟩

/-! ## Runs -/

/-- Retention in every state of a run, and in every pruning of its transactions. -/
structure Retains (tombstones : Database → Database → Prop) (host : Host) (log : List Op) :
    Prop where
  mortal : ∀ earlier later, log = earlier ++ later → Mortal (run host earlier)
  pruned : ∀ earlier op later, log = earlier ++ op :: later →
    ∀ d, Executes (run host earlier) op d →
      ∀ agentId keep next, pruneSupervisedAgentHistory d agentId keep = .ok next →
        Pruned d next agentId ∧ tombstones d next

theorem safe_retention (host : Host) (log : List Op) :
    Retains TombstonesOutlived host log := by
  constructor
  case mortal => exact fun earlier _ _ => mortal_run host earlier
  case pruned =>
    intro earlier op later _ d executes agentId keep next ok
    have sound := sound_run host earlier
    have columns := executes_columns sound (turn_columns host earlier) executes
    exact ⟨prune_pruned (executes_follows sound executes).sound columns ok,
      prune_tombstones columns ok⟩

end LetAgents.Inbox.SafeRetention

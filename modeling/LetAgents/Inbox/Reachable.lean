import LetAgents.Inbox.Transaction

/-!
# Rows of a reachable store

`step_executes` is the one case analysis over the operations; what follows is by
induction on the statements that a transaction executed. `Follows` relates the
database before a transaction to the databases inside it: the keys stay sound, every
row continues an old one by one permitted write or is new, and the newest row of an
agent is never lost.
-/
namespace LetAgents.Inbox.Reachable

open Lib Lib.Js Lib.Checked Records Retention Pruning DeliveryDrain Ingress Effects Delivery
  RoomMove Repair Store Writes Transaction

theorem step_executes (sound : Sound db) (ok : step db op = .ok next) : Executes db op next := by
  cases op with
  | bootstrapCursor input => exact bootstrapCursor_executes ok
  | commitRoomMoveCursor input => exact commitRoomMoveCursor_executes ok
  | setIngressHealth input =>
    cases ok
    exact .ingress .start rfl
  | commitPollIngestion input => exact commitPollIngestion_executes ok
  | insertSyntheticMessage input => exact insertSyntheticMessage_executes ok
  | enqueueTaskContinuation input => exact enqueueTaskContinuation_executes sound ok
  | refreshTaskContinuationSnapshot inboxItemId tasks tasksJson =>
    exact refreshTaskContinuationSnapshot_executes ok
  | finishUnusedTaskContinuation inboxItemId detail now =>
    exact finishUnusedTaskContinuation_executes ok
  | transition inboxItemId state patch now => exact transition_executes (.inl rfl) ok
  | retryBlocked inboxItemId now => exact transition_executes (.inr ⟨rfl, rfl, rfl⟩) ok
  | claimHead agentId expected now => exact claimHead_executes ok
  | checkpointDispatchIntent inboxItemId session => exact checkpointDispatchIntent_executes ok
  | checkpointTurnStarted inboxItemId providerTurnId authority =>
    exact checkpointTurnStarted_executes ok
  | recordRetryFailure inboxItemId input => exact recordRetryFailure_executes ok
  | resetPreNativeHandoff inboxItemId => exact resetPreNativeHandoff_executes ok
  | checkpointNormalizedTerminal input => exact checkpointNormalizedTerminal_executes ok
  | checkpointTerminalOutcome inboxItemId outcome => exact checkpointTerminalOutcome_executes ok
  | checkpointPublication input => exact checkpointPublication_executes ok
  | skipBlocked inboxItemId now => exact skipBlocked_executes ok
  | cancelInterruptedTurn inboxItemId detail expected now =>
    exact cancelInterruptedTurn_executes ok
  | normalizeStartupRecovery agentId resetUnstarted now =>
    exact normalizeStartupRecovery_executes ok
  | normalizeInterruptedEffects agentId now => exact normalizeInterruptedEffects_executes ok
  | prepareEffect input => exact prepareEffect_executes sound ok
  | markEffectExecuting input => exact markEffectExecuting_executes sound ok
  | stagePreparedEffectResult effectId result now =>
    exact stagePreparedEffectResult_executes sound ok
  | prepareRoomMoveEffect input => exact prepareRoomMoveEffect_executes sound ok
  | completeEffect input => exact completeEffect_executes sound ok
  | beginContinuationRepair input => exact beginContinuationRepair_executes ok
  | checkpointContinuationReplacement repairId replacement =>
    exact checkpointContinuationReplacement_executes ok
  | commitContinuationRepair repairId continuation => exact commitContinuationRepair_executes ok
  | failContinuationRepair repairId error => exact failContinuationRepair_executes ok
  | exhaustCommittedContinuationRepair inboxItemId repairId error =>
    exact exhaustCommittedContinuationRepair_executes ok
  | commitRoomMoveQueue input now => exact commitRoomMoveQueue_executes ok
  | rollbackRoomMoveIngress input => exact rollbackRoomMoveIngress_executes ok
  | pruneHistory agentId => exact .prune .start ok
  | removeAgent agentId => exact .remove rfl ok
  | prepareDeliveryDrain input current | prepareCustodialForward input reverseOperationId current
  | cancelDeliveryDrain operationId agentId | markDeliveryDrainDispatch input current
  | markDeliveryDrainUncertain operationId agentId
  | commitDeliveryDrain operationId agentId current => exact drain_executes rfl ok
  | external host roomMoves =>
    cases ok
    exact .external rfl

/-! ## Receipts -/

section

variable (item : SupervisedInboxItem)
include item

theorem recordTransition_receipt : receipt (recordTransition item) = receipt item := by
  unfold recordTransition
  split
  · exact recordEvent_receipt _ _ _
  · rfl

theorem retried_receipt (input : RetryFailure) : receipt (retried item input) = receipt item := by
  unfold retried
  dsimp only
  split
  · rw [recordEvent_receipt, recordEvent_receipt]
    rfl
  · rw [recordEvent_receipt]
    rfl

theorem finished_receipt (input : NormalizedTerminal) :
    receipt (finished item input) = receipt item := by
  unfold finished
  split
  · rw [recordEvent_receipt, recordEvent_receipt]
    rfl
  · rw [recordEvent_receipt]
    rfl

theorem stopped_receipt (failure : Option TerminalOutcome) (detail now : String) :
    receipt (stopped item failure detail now) = receipt item := by
  unfold stopped
  split
  · rfl
  · rw [recordEvent_receipt]
    rfl

theorem recovered_receipt (next : SupervisedInboxState) (error : Option String) (now : String) :
    receipt (recovered item next error now) = receipt item := by
  unfold recovered
  dsimp only
  split
  · rw [recordEvent_receipt]
    rfl
  · rfl

end

/-- No write changes the columns of the insertion. -/
theorem RowWrite.receipt_eq (write : RowWrite db item op written) :
    receipt written = receipt item := by
  cases write with
  | annotated notes =>
    cases notes with
    | columns => rfl
    | event => exact recordEvent_receipt _ _ _
  | transitioned => exact recordTransition_receipt _
  | claimed => rfl
  | turnStarted => exact recordEvent_receipt _ _ _
  | retried => exact retried_receipt _ _
  | handedBack => exact recordEvent_receipt _ _ _
  | finished => exact finished_receipt _ _
  | outcomeRecorded | published | skipped => exact recordEvent_receipt _ _ _
  | stopped => exact stopped_receipt _ _ _ _
  | unused => exact recordEvent_receipt _ _ _
  | recovered => exact recovered_receipt _ _ _ _
  | released | roomMoveCancelled | revived => exact recordEvent_receipt _ _ _

theorem RowStep.receipt_eq (stepped : RowStep db op item next) : receipt next = receipt item := by
  obtain ⟨written, rfl | write, trims⟩ := stepped
  · exact trims.receipt_eq
  · exact trims.receipt_eq.trans (RowWrite.receipt_eq write)

theorem RowStep.refl (db : Database) (op : Op) (item : SupervisedInboxItem) :
    RowStep db op item item :=
  ⟨item, .inl rfl, .refl item⟩

theorem RowStep.trims (stepped : RowStep db op item row) (trims : Trims row next) :
    RowStep db op item next := by
  obtain ⟨written, write, first⟩ := stepped
  exact ⟨written, write, first.trans trims⟩

/-! ## Keys -/

theorem Numbered.of_receipts (numbered : Numbered db)
    (fewer : (next.inbox.map receipt).Sublist (db.inbox.map receipt))
    (grows : ∀ id ∈ db.issued, id ∈ next.issued) : Numbered next := by
  have source : ∀ row ∈ next.inbox, ∃ old ∈ db.inbox, receipt old = receipt row := by
    intro row member
    have stored := fewer.subset (List.mem_map_of_mem (f := receipt) member)
    exact List.mem_map.mp stored
  have keyed : ∀ {κ : Type} (key : Receipt → κ),
      Table.Keyed (fun row => key (receipt row)) db.inbox →
        Table.Keyed (fun row => key (receipt row)) next.inbox := by
    intro κ key holds
    have fewerKeys := fewer.map key
    rw [List.map_map, List.map_map] at fewerKeys
    exact List.Nodup.sublist fewerKeys holds
  refine ⟨keyed Receipt.inboxItemId numbered.ids, ?_,
    keyed (fun r => (r.agentId, r.fifoSequence)) numbered.lanes, ?_⟩
  · intro row member
    obtain ⟨old, oldMember, same⟩ := source row member
    have ids : old.inboxItemId = row.inboxItemId := congrArg Receipt.inboxItemId same
    rw [← ids]
    exact grows _ (numbered.issued old oldMember)
  · intro row member parent parentMember agents named
    obtain ⟨old, oldMember, same⟩ := source row member
    obtain ⟨oldParent, oldParentMember, sameParent⟩ := source parent parentMember
    have later := numbered.continuations old oldMember oldParent oldParentMember
    simp only [receipt, Receipt.mk.injEq] at same sameParent
    rw [same.2.1, sameParent.2.1, same.2.2.2.1, sameParent.1, same.2.2.2.2.1,
      sameParent.2.2.2.2.1] at later
    exact later agents named

theorem le_foldl_max (values : List Nat) (start : Nat) :
    start ≤ values.foldl max start ∧ ∀ value ∈ values, value ≤ values.foldl max start := by
  induction values generalizing start with
  | nil => exact ⟨le_rfl, nofun⟩
  | cons value rest ih =>
    obtain ⟨low, all⟩ := ih (max start value)
    refine ⟨le_trans (le_max_left _ _) low, fun other member => ?_⟩
    rcases List.mem_cons.mp member with rfl | inRest
    · exact le_trans (le_max_right _ _) low
    · exact all other inRest

theorem le_maxFifo {db : Database} (member : item ∈ db.inbox) :
    item.fifoSequence ≤ db.maxFifo item.agentId := by
  refine (le_foldl_max _ 0).2 _ (List.mem_map.mpr ⟨item, ?_, rfl⟩)
  exact List.mem_filter.mpr ⟨member, decide_eq_true rfl⟩

theorem Numbered.insert (numbered : Numbered d)
    (fresh : d.issueFor item.inboxItemId item.sourceMessageId = .ok issued)
    (fifo : item.fifoSequence = d.maxFifo item.agentId + 1) :
    Numbered { issued with inbox := d.inbox ++ [item] } := by
  obtain ⟨rfl, unknown, unnamed, other⟩ := issueFor_ok fresh
  have later : ∀ row ∈ d.inbox, row.agentId = item.agentId →
      row.fifoSequence < item.fifoSequence := by
    intro row member same
    have bound := le_maxFifo member
    rw [same] at bound
    omega
  refine ⟨?_, ?_, ?_, ?_⟩
  · refine Table.Keyed.append numbered.ids (List.nodup_singleton _) fun row member added inAdded same => ?_
    rw [List.mem_singleton] at inAdded
    have stored := numbered.issued row member
    rw [same, inAdded] at stored
    exact unknown stored
  · intro row member
    rcases List.mem_append.mp member with old | new
    · exact .tail _ (numbered.issued row old)
    · rw [List.mem_singleton.mp new]
      exact .head _
  · refine Table.Keyed.append numbered.lanes (List.nodup_singleton _) fun row member added inAdded same => ?_
    rw [List.mem_singleton.mp inAdded, Prod.mk.injEq] at same
    have before := later row member same.1
    omega
  · intro row member parent parentMember agents named
    rcases List.mem_append.mp member with old | new
    · rcases List.mem_append.mp parentMember with oldParent | newParent
      · exact numbered.continuations row old parent oldParent agents named
      · rw [List.mem_singleton.mp newParent] at named
        exact absurd named (unnamed row old)
    · rw [List.mem_singleton] at new
      rcases List.mem_append.mp parentMember with oldParent | newParent
      · rw [new] at agents ⊢
        exact later parent oldParent agents.symm
      · rw [new, List.mem_singleton.mp newParent] at named
        exact absurd named other

/-! ## Effects -/

/-- The columns of an effect that are written once, at its admission. -/
structure Claim where
  effectId : String
  identity : EffectIdentity
  roomId : String
  toolName : String
  mutation : Bool
  request : RequestText

def claim (effect : EffectRow) : Claim :=
  { effectId := effect.effectId, identity := effect.identity, roomId := effect.roomId
    toolName := effect.toolName, mutation := effect.mutation, request := effect.request }

theorem settledEffect_claim (now : String) (effect : EffectRow) :
    claim (settledEffect now effect) = claim effect := by
  unfold settledEffect
  split <;> rfl

theorem interruptedEffect_claim (now : String) (effect : EffectRow) :
    claim (interruptedEffect now effect) = claim effect := by
  unfold interruptedEffect
  split
  · rfl
  · split
    · rfl
    · split <;> rfl

theorem EffectWrite.claim_eq (write : EffectWrite db op effect written) :
    claim written = claim effect := by
  cases write with
  | proposed resultJson tool =>
    unfold completed
    split <;> rfl
  | doubted | returned | rejected | started | staged | settled => rfl
  | interrupted now => exact interruptedEffect_claim now effect

/-- A map over the effects that keeps every claim keeps the claims. -/
theorem map_claims {effects : List EffectRow}
    (keeps : ∀ effect ∈ effects, claim (f effect) = claim effect) :
    (effects.map f).map claim = effects.map claim := by
  rw [List.map_map]
  exact List.map_congr_left keeps

/-! ## Drains -/

theorem setDrainPhase_mem (member : row ∈ (setDrainPhase db operationId phase).cutovers) :
    (row ∈ db.cutovers ∧ row.operationId ≠ operationId) ∨
      ∃ old ∈ db.cutovers, old.operationId = operationId ∧ row = { old with phase } := by
  obtain ⟨old, oldMember, rfl⟩ := List.mem_map.mp member
  split
  · rename_i same
    exact .inr ⟨old, oldMember, same, rfl⟩
  · rename_i other
    exact .inl ⟨oldMember, other⟩

/-- The keys of the drain journal. -/
def SoundDrains (cutovers : List DeliveryDrainRecord) : Prop :=
  Table.Keyed (·.operationId) cutovers ∧
    ∀ left ∈ cutovers, ∀ right ∈ cutovers, left.agentId = right.agentId →
      left.phase.resolved = false → right.phase.resolved = false →
        left.operationId = right.operationId

theorem DrainWrite.sound (sound : Sound db) (write : DrainWrite db cutovers) :
    SoundDrains cutovers := by
  cases write with
  | same => exact ⟨sound.cutovers, sound.drains⟩
  | opened cutover free fresh =>
    have resolved : ∀ other ∈ db.cutovers, other.agentId = cutover.agentId →
        other.phase.resolved = true := by
      intro other member same
      have absent := List.find?_eq_none.mp free other member
      simpa [same] using absent
    refine ⟨?_, fun left leftMember right rightMember agents leftOpen rightOpen => ?_⟩
    · refine Table.Keyed.append sound.cutovers (List.nodup_singleton _) fun row member added new => ?_
      rw [List.mem_singleton.mp new]
      exact fresh row member
    · rcases List.mem_append.mp leftMember with left' | left'
      · rcases List.mem_append.mp rightMember with right' | right'
        · exact sound.drains left left' right right' agents leftOpen rightOpen
        · rw [List.mem_singleton.mp right'] at agents
          have settled := resolved left left' agents
          rw [leftOpen] at settled
          cases settled
      · rcases List.mem_append.mp rightMember with right' | right'
        · rw [List.mem_singleton.mp left'] at agents
          have settled := resolved right right' agents.symm
          rw [rightOpen] at settled
          cases settled
        · rw [List.mem_singleton.mp left', List.mem_singleton.mp right']
  | moved cutover phase known open' =>
    refine ⟨sound.cutovers.map fun row _ => ?_, ?_⟩
    · split <;> rfl
    · -- an unresolved row after the write continues an unresolved row before it
      have source : ∀ row ∈ (setDrainPhase db cutover.operationId phase).cutovers,
          row.phase.resolved = false → ∃ old ∈ db.cutovers, old.agentId = row.agentId ∧
            old.operationId = row.operationId ∧ old.phase.resolved = false := by
        intro row member unresolved
        rcases setDrainPhase_mem member with ⟨old, _⟩ | ⟨old, oldMember, same, rfl⟩
        · exact ⟨row, old, rfl, rfl, unresolved⟩
        · rw [sound.cutovers.eq oldMember known same]
          rcases open' with still | settled
          · exact ⟨cutover, known, rfl, rfl, still⟩
          · rw [settled] at unresolved
            cases unresolved
      intro left leftMember right rightMember agents leftOpen rightOpen
      obtain ⟨oldLeft, leftKnown, leftAgent, leftId, leftWas⟩ := source left leftMember leftOpen
      obtain ⟨oldRight, rightKnown, rightAgent, rightId, rightWas⟩ :=
        source right rightMember rightOpen
      have agreed : oldLeft.agentId = oldRight.agentId := by rw [leftAgent, rightAgent, agents]
      have ids := sound.drains oldLeft leftKnown oldRight rightKnown agreed leftWas rightWas
      rw [← leftId, ← rightId, ids]

/-! ## The newest row -/

theorem Sound.soundDrains (sound : Sound db) : SoundDrains db.cutovers :=
  ⟨sound.cutovers, sound.drains⟩

theorem pinnedByDrain_admitted (sound : SoundDrains db.cutovers)
    (pinned : pinnedByDrain db item = true) :
    (unresolvedDeliveryDrain db item.agentId).bind (·.admittedInboxItemId) =
      some item.inboxItemId := by
  simp only [pinnedByDrain, List.any_eq_true, Bool.and_eq_true, decide_eq_true_eq,
    Bool.not_eq_true'] at pinned
  obtain ⟨cutover, member, ⟨agent, admitted⟩, unresolved⟩ := pinned
  cases found : unresolvedDeliveryDrain db item.agentId with
  | none =>
    have absent := List.find?_eq_none.mp found cutover member
    simp [agent, unresolved] at absent
  | some drain =>
    have holds := List.find?_some found
    simp only [Bool.and_eq_true, decide_eq_true_eq, Bool.not_eq_true'] at holds
    have drainMember := List.mem_of_find?_eq_some found
    have ids := sound.2 drain drainMember cutover member (holds.1.trans agent.symm) holds.2
      unresolved
    rw [sound.1.eq drainMember member ids]
    exact admitted

/-- At most the row of the control and the admitted row of the drain are pinned. -/
theorem pinnedTerminalCount_le (ids : Table.Keyed (·.inboxItemId) db.inbox)
    (drains : SoundDrains db.cutovers) (agentId : String) : pinnedTerminalCount db agentId ≤ 2 := by
  let control := (((db.host.controls agentId).bind (·.inboxItemId)).toList)
  let drain := ((unresolvedDeliveryDrain db agentId).bind (·.admittedInboxItemId)).toList
  let pinned := db.inbox.filter fun item => item.agentId = agentId && item.state.isFinal &&
    (pinnedByControl db item || pinnedByDrain db item)
  have distinct : (pinned.map (·.inboxItemId)).Nodup :=
    ids.sublist List.filter_sublist
  have covered : pinned.map (·.inboxItemId) ⊆ control ++ drain := by
    intro id member
    obtain ⟨item, itemMember, rfl⟩ := List.mem_map.mp member
    have holds := (List.mem_filter.mp itemMember).2
    simp only [Bool.and_eq_true, Bool.or_eq_true, decide_eq_true_eq] at holds
    obtain ⟨⟨rfl, _⟩, byControl | byDrain⟩ := holds
    · refine List.mem_append_left _ (Option.mem_toList.mpr ?_)
      simp only [pinnedByControl, Option.any_eq_true, decide_eq_true_eq] at byControl
      obtain ⟨row, present, names⟩ := byControl
      rw [present, Option.bind_some, names]
    · exact List.mem_append_right _ (Option.mem_toList.mpr (pinnedByDrain_admitted drains byDrain))
  have bound := (List.subperm_of_subset distinct covered).length_le
  have controlBound : control.length ≤ 1 := Option.length_toList_le
  have drainBound : drain.length ≤ 1 := Option.length_toList_le
  rw [List.length_map, List.length_append] at bound
  change pinned.length ≤ 2
  omega

theorem mem_survivors : row ∈ survivors stale rows ↔
      row ∈ rows ∧ ∀ gone ∈ stale, row.inboxItemId ≠ gone.inboxItemId := by
  simp only [survivors, List.mem_filter, List.all_eq_true, decide_eq_true_eq]

/-- Retention keeps, for every row, a row of the agent that is at least as new. -/
theorem survivors_newest (ids : Table.Keyed (·.inboxItemId) bound.inbox)
    (drains : SoundDrains bound.cutovers) (agentId : String) (item : SupervisedInboxItem)
    (member : item ∈ bound.inbox) : ∃ row ∈ survivors (staleReceipts bound agentId) bound.inbox,
      row.agentId = item.agentId ∧ item.fifoSequence ≤ row.fifoSequence := by
  by_cases survives : ∀ gone ∈ staleReceipts bound agentId, item.inboxItemId ≠ gone.inboxItemId
  · exact ⟨item, mem_survivors.mpr ⟨member, survives⟩, rfl, le_rfl⟩
  simp only [not_forall, not_not] at survives
  obtain ⟨gone, goneStale, same⟩ := survives
  let sorted := (bound.inbox.filter (disposable bound agentId)).insertionSort
    fun a b => b.fifoSequence ≤ a.fifoSequence
  have stale : staleReceipts bound agentId =
      sorted.drop (retainedTerminalReceiptsPerAgent - pinnedTerminalCount bound agentId) := rfl
  have sortedMember : ∀ row ∈ sorted, row ∈ bound.inbox ∧ disposable bound agentId row = true :=
    fun row inSorted => List.mem_filter.mp ((List.mem_insertionSort _).mp inSorted)
  have ordered : sorted.Pairwise fun a b => b.fifoSequence ≤ a.fifoSequence := by
    exact List.pairwise_insertionSort _ _
  have distinct : (sorted.map (·.inboxItemId)).Nodup :=
    ((List.perm_insertionSort _ _).map _).nodup_iff.mpr (ids.sublist List.filter_sublist)
  -- the newest disposable receipt is retained, for at most two rows are pinned
  have pinned := pinnedTerminalCount_le ids drains agentId
  obtain ⟨kept, budget⟩ : ∃ kept,
      retainedTerminalReceiptsPerAgent - pinnedTerminalCount bound agentId = kept + 1 :=
    ⟨199 - pinnedTerminalCount bound agentId, by unfold retainedTerminalReceiptsPerAgent; omega⟩
  rw [budget] at stale
  have goneSorted : gone ∈ sorted := List.mem_of_mem_drop (stale ▸ goneStale)
  have itemGone : item = gone := ids.eq member (sortedMember gone goneSorted).1 same
  cases shape : sorted with
  | nil =>
    rw [shape] at goneSorted
    cases goneSorted
  | cons newest rest =>
    rw [shape] at stale ordered distinct goneSorted
    rw [List.drop_succ_cons] at stale
    have newestMember := sortedMember newest (by rw [shape]; exact .head _)
    have agent : ∀ row ∈ sorted, row.agentId = agentId := by
      intro row inSorted
      have holds := (sortedMember row inSorted).2
      simp only [disposable, Bool.and_eq_true, decide_eq_true_eq] at holds
      exact holds.1.1.1.1.1
    have goneAgent := agent gone (by rw [shape]; exact goneSorted)
    have newestAgent := agent newest (by rw [shape]; exact .head _)
    refine ⟨newest, mem_survivors.mpr ⟨newestMember.1, fun other otherStale clash => ?_⟩, ?_, ?_⟩
    · rw [stale] at otherStale
      have inRest := List.mem_map_of_mem (f := fun row : SupervisedInboxItem => row.inboxItemId)
        (List.mem_of_mem_drop otherStale)
      rw [List.map_cons, List.nodup_cons] at distinct
      exact distinct.1 (clash ▸ inRest)
    · rw [newestAgent, itemGone, goneAgent]
    · rw [itemGone]
      rcases List.mem_cons.mp goneSorted with rfl | inRest
      · exact le_rfl
      · exact (List.pairwise_cons.mp ordered).1 gone inRest

theorem prune_newest (sound : Sound db)
    (ok : pruneSupervisedAgentHistory db agentId keep = .ok next) (item : SupervisedInboxItem)
    (member : item ∈ db.inbox) :
    ∃ row ∈ next.inbox, row.agentId = item.agentId ∧ item.fifoSequence ≤ row.fifoSequence := by
  obtain ⟨bound, kept, boundEq, keptEq, rows⟩ := prune_inbox ok
  have boundInbox : bound.inbox = db.inbox := by rw [boundEq]
  have boundDrains : bound.cutovers = db.cutovers := by rw [boundEq]
  obtain ⟨row, survives, agent, newer⟩ := survivors_newest (boundInbox ▸ sound.ids)
    (boundDrains ▸ Sound.soundDrains sound) agentId item (boundInbox ▸ member)
  have keptRow : row ∈ kept.inbox := by
    rw [keptEq]
    rw [boundInbox] at survives
    exact survives
  have same := (trimmed_trims kept agentId row).receipt_eq
  refine ⟨trimmed kept agentId row, ?_, ?_, ?_⟩
  · rw [rows]
    exact List.mem_map_of_mem keptRow
  · exact (congrArg Receipt.agentId same).trans agent
  · rw [show (trimmed kept agentId row).fifoSequence = row.fifoSequence from
      congrArg Receipt.fifoSequence same]
    exact newer

/-! ## Inside a transaction -/

/-- An inserted row: its id is new, and it comes after every row of the agent. -/
structure Inserted (db : Database) (op : Op) (row : SupervisedInboxItem) : Prop where
  fresh : row.inboxItemId ∉ db.issued
  later : ∀ item ∈ db.inbox, item.agentId = row.agentId → item.fifoSequence < row.fifoSequence
  new : NewRow db op row

/-- Is the operation the purge of an agent? -/
def isPurge : Op → Bool
  | .removeAgent _ => true
  | _ => false

structure Follows (db : Database) (op : Op) (d : Database) : Prop where
  sound : Sound d
  grows : ∀ id ∈ db.issued, id ∈ d.issued
  rows : ∀ row ∈ d.inbox, (∃ item ∈ db.inbox, RowStep db op item row) ∨ Inserted db op row
  newest : isPurge op = false → ∀ item ∈ db.inbox, ∃ row ∈ d.inbox,
    row.agentId = item.agentId ∧ item.fifoSequence ≤ row.fifoSequence

/-- A database with the same rows and drains, and no more effects. -/
theorem Follows.frame (follows : Follows db op d) (inbox : next.inbox = d.inbox)
    (grows : ∀ id ∈ d.issued, id ∈ next.issued) (cutovers : next.cutovers = d.cutovers)
    (effects : (next.effects.map claim).Sublist (d.effects.map claim)) : Follows db op next := by
  obtain ⟨sound, grew, rows, newest⟩ := follows
  have numbered : Numbered next :=
    Numbered.of_receipts sound.toNumbered (by rw [inbox]) grows
  refine ⟨⟨numbered, ?_, ?_, ?_, ?_⟩, fun id known => grows id (grew id known), ?_, ?_⟩
  · have ids := effects.map Claim.effectId
    rw [List.map_map, List.map_map] at ids
    exact List.Nodup.sublist ids sound.effects
  · intro effect member
    obtain ⟨old, oldMember, same⟩ :=
      List.mem_map.mp (effects.subset (List.mem_map_of_mem (f := claim) member))
    have named : old.effectId = effect.effectId := congrArg Claim.effectId same
    rw [← named]
    exact grows _ (sound.effectsIssued old oldMember)
  · rw [cutovers]
    exact sound.cutovers
  · rw [cutovers]
    exact sound.drains
  · rw [inbox]
    exact rows
  · rw [inbox]
    exact newest

/-- A row of a database inside the transaction has the receipt of the item that a
write names by its id. -/
theorem Follows.receipt_of_id (sound : Sound db) (follows : Follows db op d)
    (member : item ∈ db.inbox) (rowMember : row ∈ d.inbox)
    (same : row.inboxItemId = item.inboxItemId) : receipt row = receipt item := by
  rcases follows.rows row rowMember with ⟨source, sourceMember, stepped⟩ | inserted
  · have receipts := RowStep.receipt_eq stepped
    have ids : source.inboxItemId = item.inboxItemId :=
      (congrArg Receipt.inboxItemId receipts).symm.trans same
    rw [receipts, sound.ids.eq sourceMember member ids]
  · have known := sound.issued item member
    rw [← same] at known
    exact absurd known inserted.fresh

theorem Follows.row (sound : Sound db) (follows : Follows db op d) (member : item ∈ db.inbox)
    (write : RowWrite db item op written) : Follows db op (d.putItem written) := by
  have named : written.inboxItemId = item.inboxItemId :=
    congrArg Receipt.inboxItemId (RowWrite.receipt_eq write)
  have receipts : (d.putItem written).inbox.map receipt = d.inbox.map receipt := by
    rw [Database.putItem, Table.put, List.map_map]
    refine List.map_congr_left fun row rowMember => ?_
    rw [Function.comp_apply]
    split
    · rename_i same
      rw [RowWrite.receipt_eq write]
      exact (follows.receipt_of_id sound member rowMember (same.trans named)).symm
    · rfl
  have numbered : Numbered (d.putItem written) :=
    Numbered.of_receipts follows.sound.toNumbered (by rw [receipts]) fun _ known => known
  refine ⟨⟨numbered, follows.sound.effects, follows.sound.effectsIssued, follows.sound.cutovers,
    follows.sound.drains⟩, follows.grows, fun row after => ?_, fun keeps old oldMember => ?_⟩
  · rcases Table.mem_put after with ⟨rfl, _⟩ | ⟨before, _⟩
    · exact .inl ⟨item, member, row, .inr write, .refl row⟩
    · exact follows.rows row before
  · obtain ⟨row, rowMember, agent, newer⟩ := follows.newest keeps old oldMember
    obtain ⟨after, afterMember, same⟩ :=
      List.mem_map.mp (receipts ▸ List.mem_map_of_mem (f := receipt) rowMember)
    refine ⟨after, afterMember, (congrArg Receipt.agentId same).trans agent, ?_⟩
    rw [show after.fifoSequence = row.fifoSequence from congrArg Receipt.fifoSequence same]
    exact newer

theorem Follows.start (sound : Sound db) (op : Op) : Follows db op db :=
  ⟨sound, fun _ known => known, fun row member => .inl ⟨row, member, RowStep.refl db op row⟩,
    fun _ item member => ⟨item, member, rfl, le_rfl⟩⟩

theorem Follows.rowsMapped (sound : Sound db)
    (writes : ∀ item ∈ db.inbox, f item = item ∨ RowWrite db item op (f item)) :
    Follows db op { db with inbox := db.inbox.map f } := by
  have same : ∀ item ∈ db.inbox, receipt (f item) = receipt item := by
    intro item member
    rcases writes item member with kept | write
    · rw [kept]
    · exact RowWrite.receipt_eq write
  have receipts : (db.inbox.map f).map receipt = db.inbox.map receipt := by
    rw [List.map_map]
    exact List.map_congr_left same
  have numbered : Numbered { db with inbox := db.inbox.map f } :=
    Numbered.of_receipts sound.toNumbered (by rw [receipts]) fun _ known => known
  refine ⟨⟨numbered, sound.effects, sound.effectsIssued, sound.cutovers, sound.drains⟩,
    fun _ known => known, fun row after => ?_, fun _ item member => ?_⟩
  · obtain ⟨item, member, rfl⟩ := List.mem_map.mp after
    exact .inl ⟨item, member, f item, writes item member, .refl _⟩
  · refine ⟨f item, List.mem_map_of_mem member, congrArg Receipt.agentId (same item member), ?_⟩
    rw [show (f item).fifoSequence = item.fifoSequence from
      congrArg Receipt.fifoSequence (same item member)]

theorem NewRow.not_purge (new : NewRow db op row) : isPurge op = false := by
  cases new <;> rfl

theorem recordEvent_state (item : SupervisedInboxItem) (idempotencyKey : EventKey)
    (phase : InboxPhase) : (item.recordEvent idempotencyKey phase).state = item.state := by
  unfold SupervisedInboxItem.recordEvent
  split <;> rfl

theorem continuationChild_state (input : EnqueueTaskContinuation) (child : SupervisedInboxItem) :
    (continuationChild input child).state = .pending ∨
      ((continuationChild input child).state = .blocked ∧ present input.blockReason = true) := by
  unfold continuationChild
  split
  · rename_i reason given
    obtain ⟨known, filled⟩ := Option.filter_eq_some_iff.mp given
    refine .inr ⟨by rw [recordEvent_state], ?_⟩
    rw [known]
    exact filled
  · exact .inl (by rw [recordEvent_state])

/-- A new row waits in the queue, or is a continuation that is blocked for a reason. -/
theorem NewRow.state (new : NewRow db op row) :
    row.state = .pending ∨ (row.state = .blocked ∧ ∃ input, op = .enqueueTaskContinuation input ∧
      input.agentId = row.agentId ∧ present input.blockReason = true) := by
  cases new with
  | polled | synthetic => exact .inl rfl
  | continuation =>
    rename_i input source message activation fifo _
    have receipts := continuationChild_receipt input
      (newItem input.uuid input.agentId input.roomId source message activation fifo)
    rcases continuationChild_state input _ with pending | ⟨blocked, reason⟩
    · exact .inl pending
    · exact .inr ⟨blocked, input, rfl, (congrArg Receipt.agentId receipts).symm, reason⟩

theorem NewRow.unsettled (new : NewRow db op row) : row.state.isFinal = false := by
  rcases NewRow.state new with pending | ⟨blocked, _⟩
  · rw [pending]
    rfl
  · rw [blocked]
    rfl

theorem Follows.insert (follows : Follows db op d)
    (fresh : d.issueFor item.inboxItemId item.sourceMessageId = .ok issued)
    (fifo : item.fifoSequence = d.maxFifo item.agentId + 1) (new : NewRow db op item) :
    Follows db op { issued with inbox := d.inbox ++ [item] } := by
  have numbered := Numbered.insert follows.sound.toNumbered fresh fifo
  obtain ⟨rfl, unknown, _⟩ := issueFor_ok fresh
  have keeps := NewRow.not_purge new
  refine ⟨⟨numbered, follows.sound.effects, fun effect member => ?_, follows.sound.cutovers,
    follows.sound.drains⟩, fun id known => .tail _ (follows.grows id known),
    fun row after => ?_, fun _ old oldMember => ?_⟩
  · exact .tail _ (follows.sound.effectsIssued effect member)
  · rcases List.mem_append.mp after with before | added
    · exact follows.rows row before
    · rw [List.mem_singleton.mp added]
      refine .inr ⟨fun known => unknown (follows.grows _ known), fun old oldMember agent => ?_, new⟩
      obtain ⟨newer, newerMember, sameAgent, bound⟩ := follows.newest keeps old oldMember
      have highest := le_maxFifo newerMember
      rw [sameAgent, agent] at highest
      omega
  · obtain ⟨row, rowMember, agent, newer⟩ := follows.newest keeps old oldMember
    exact ⟨row, List.mem_append_left _ rowMember, agent, newer⟩

theorem Follows.prune (follows : Follows db op d)
    (pruned : pruneSupervisedAgentHistory d agentId keep = .ok next) : Follows db op next := by
  have frame := prune_frame pruned
  have issued : next.issued = d.issued := by rw [frame]
  have cutovers : next.cutovers = d.cutovers := by rw [frame]
  have numbered : Numbered next := by
    refine Numbered.of_receipts follows.sound.toNumbered (prune_receipts pruned) ?_
    rw [issued]
    exact fun _ known => known
  have fewer := prune_effects pruned
  refine ⟨⟨numbered, follows.sound.effects.sublist fewer, ?_, ?_, ?_⟩, ?_, fun row after => ?_,
    fun keeps item member => ?_⟩
  · intro effect member
    rw [issued]
    exact follows.sound.effectsIssued effect (fewer.subset member)
  · rw [cutovers]
    exact follows.sound.cutovers
  · rw [cutovers]
    exact follows.sound.drains
  · rw [issued]
    exact follows.grows
  · obtain ⟨source, sourceMember, trims⟩ := prune_source pruned after
    rcases follows.rows source sourceMember with ⟨item, member, stepped⟩ | inserted
    · exact .inl ⟨item, member, RowStep.trims stepped trims⟩
    · rw [trims.eq_of_unsettled (NewRow.unsettled inserted.new)]
      exact .inr inserted
  · obtain ⟨row, rowMember, agent, newer⟩ := follows.newest keeps item member
    obtain ⟨last, lastMember, lastAgent, newest⟩ := prune_newest follows.sound pruned row rowMember
    exact ⟨last, lastMember, lastAgent.trans agent, le_trans newer newest⟩

theorem removeAgent_ok (ok : removeAgent db agentId = .ok next) :
    next.inbox = db.inbox.filter (fun item => item.agentId ≠ agentId) ∧
      next.effects = db.effects.filter (fun effect => effect.agentId ≠ agentId) ∧
      next.tombstones = db.tombstones.filter (fun tombstone => tombstone.agentId ≠ agentId) ∧
      next.issued = db.issued ∧ next.cutovers = db.cutovers ∧ next.roomMoves = db.roomMoves ∧
      next.host = db.host := by
  obtain ⟨_, written⟩ := require_bind_ok ok
  cases written
  exact ⟨rfl, rfl, rfl, rfl, rfl, rfl, rfl⟩

theorem Follows.purge (sound : Sound db) (removed : removeAgent db agentId = .ok next) :
    Follows db (.removeAgent agentId) next := by
  obtain ⟨inbox, effects, _, issued, cutovers, _⟩ := removeAgent_ok removed
  have numbered : Numbered next := by
    refine Numbered.of_receipts sound.toNumbered ?_ ?_
    · rw [inbox]
      exact List.filter_sublist.map receipt
    · rw [issued]
      exact fun _ known => known
  refine ⟨⟨numbered, ?_, ?_, ?_, ?_⟩, ?_, fun row after => ?_, fun keeps => ?_⟩
  · rw [effects]
    exact sound.effects.sublist List.filter_sublist
  · rw [effects, issued]
    exact fun effect member => sound.effectsIssued effect (List.mem_of_mem_filter member)
  · rw [cutovers]
    exact sound.cutovers
  · rw [cutovers]
    exact sound.drains
  · rw [issued]
    exact fun _ known => known
  · rw [inbox] at after
    exact .inl ⟨row, List.mem_of_mem_filter after, RowStep.refl _ _ row⟩
  · cases keeps

theorem Follows.admitted (sound : Sound db) (fresh : db.issue effect.effectId = .ok issued) :
    Follows db op { issued with effects := db.effects ++ [effect] } := by
  obtain ⟨rfl, unknown, _⟩ := issue_ok fresh
  have numbered : Numbered { db with
      issued := effect.effectId :: db.issued, effects := db.effects ++ [effect] } :=
    Numbered.of_receipts sound.toNumbered (List.Sublist.refl _)
      fun _ known => .tail _ known
  refine ⟨⟨numbered, ?_, fun row member => ?_, sound.cutovers, sound.drains⟩,
    fun _ known => .tail _ known, (Follows.start sound op).rows,
    (Follows.start sound op).newest⟩
  · refine Table.Keyed.append sound.effects (List.nodup_singleton _) fun row member added new same => ?_
    have stored := sound.effectsIssued row member
    rw [same, List.mem_singleton.mp new] at stored
    exact unknown stored
  · rcases List.mem_append.mp member with old | new
    · exact .tail _ (sound.effectsIssued row old)
    · rw [List.mem_singleton.mp new]
      exact .head _

theorem executes_follows (sound : Sound db) (executes : Executes db op d) : Follows db op d := by
  induction executes with
  | start => exact .start sound op
  | row _ member write ih => exact ih.row sound member write
  | rows writes => exact .rowsMapped sound writes
  | insert _ fresh fifo new ih => exact ih.insert fresh fifo new
  | settle _ _ ih =>
    rename_i d item now _ _
    obtain ⟨f, settles, equal⟩ := settle_eq d item now
    rw [equal]
    refine ih.frame rfl (fun _ known => known) rfl ?_
    rw [map_claims]
    intro effect _
    rcases settles effect with same | settled
    · rw [same]
    · rw [settled]
      exact settledEffect_claim now effect
  | prune _ pruned ih => exact ih.prune pruned
  | remove call removed =>
    rw [call]
    exact .purge sound removed
  | ingress _ _ ih | observe _ ih
  | repair _ ih => exact ih.frame rfl (fun _ known => known) rfl (List.Sublist.refl _)
  | issue _ fresh ih =>
    obtain ⟨rfl, _⟩ := issue_ok fresh
    exact ih.frame rfl (fun _ known => .tail _ known) rfl (List.Sublist.refl _)
  | effects _ writes ih =>
    refine ih.frame rfl (fun _ known => known) rfl ?_
    rw [map_claims]
    intro effect member
    rcases writes effect member with same | write
    · rw [same]
    · exact EffectWrite.claim_eq write
  | tombstones _ _ ih => exact ih.frame rfl (fun _ known => known) rfl (List.Sublist.refl _)
  | admitted fresh _ => exact .admitted sound fresh
  | moves _ _ ih => exact ih.frame rfl (fun _ known => known) rfl (List.Sublist.refl _)
  | drain writes ok =>
    rename_i cutovers cursors host
    have write := (drain_ok writes ok).2
    obtain ⟨keyed, single⟩ := DrainWrite.sound sound write
    have numbered : Numbered { db with cutovers, cursors, host } :=
      Numbered.of_receipts sound.toNumbered (List.Sublist.refl _) fun _ known => known
    exact ⟨⟨numbered, sound.effects, sound.effectsIssued, keyed, single⟩, fun _ known => known,
      (Follows.start sound op).rows, (Follows.start sound op).newest⟩
  | external _ =>
    exact (Follows.start sound op).frame rfl (fun _ known => known) rfl (List.Sublist.refl _)

/-- The spec of one committed transaction. -/
theorem step_follows (sound : Sound db) (ok : step db op = .ok next) : Follows db op next :=
  executes_follows sound (step_executes sound ok)

theorem sound_initial (host : Host) : Sound (Database.initial host) := by
  have empty : (Database.initial host).inbox = [] := rfl
  have numbered : Numbered (Database.initial host) := by
    refine ⟨List.nodup_nil, ?_, List.nodup_nil, ?_⟩
    · rw [empty]
      exact fun _ member => absurd member List.not_mem_nil
    · rw [empty]
      exact fun _ member => absurd member List.not_mem_nil
  exact ⟨numbered, List.nodup_nil, nofun, List.nodup_nil,
    fun _ member => absurd member List.not_mem_nil⟩

/-- The keys hold in every state of every run. -/
theorem sound_run (host : Host) (log : List Op) : Sound (run host log) :=
  Replay.replay_preserves (fun _ _ => True) Sound
    (fun _ _ _ sound _ ok => (step_follows sound ok).sound)
    (Replay.meets_of_forall (fun _ _ => trivial) _ log) (sound_initial host)

end LetAgents.Inbox.Reachable

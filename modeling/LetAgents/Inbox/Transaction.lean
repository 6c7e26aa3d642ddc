import LetAgents.Inbox.Writes

/-!
# Every transaction executes permitted writes

One inversion lemma for each operation of the store: a transaction that commits ran a
chain of the statements that `Executes` lists. The invariant `Sound` of the keys is
what makes an update by id an update of one row.
-/
namespace LetAgents.Inbox.Transaction

open Lib Lib.Checked Records Retention Pruning DeliveryDrain Ingress Effects Delivery
  RoomMove Repair Store Writes

/-- How the rows are named and numbered. -/
structure Numbered (db : Database) : Prop where
  ids : Table.Keyed (·.inboxItemId) db.inbox
  issued : ∀ row ∈ db.inbox, row.inboxItemId ∈ db.issued
  lanes : Table.Keyed (fun row => (row.agentId, row.fifoSequence)) db.inbox
  /-- A message that continues an item's task was inserted after it. -/
  continuations : ∀ row ∈ db.inbox, ∀ parent ∈ db.inbox, row.agentId = parent.agentId →
    row.sourceMessageId = continuationSource parent.inboxItemId →
      parent.fifoSequence < row.fifoSequence

/-- The keys of the tables hold. -/
structure Sound (db : Database) : Prop extends Numbered db where
  effects : Table.Keyed (fun effect => effect.effectId) db.effects
  effectsIssued : ∀ effect ∈ db.effects, effect.effectId ∈ db.issued
  cutovers : Table.Keyed (·.operationId) db.cutovers
  /-- An agent has one unresolved drain. -/
  drains : ∀ left ∈ db.cutovers, ∀ right ∈ db.cutovers, left.agentId = right.agentId →
    left.phase.resolved = false → right.phase.resolved = false →
      left.operationId = right.operationId

variable {db issued d next : Database}
  {inboxItemId sourceMessageId agentId effectId now repairId operationId : String}
  {item : SupervisedInboxItem} {input : PrepareEffect} {effect : EffectRow} {op : Op}
  {cutover : DeliveryDrainRecord} {current : Option DaemonManifestEntry}

theorem item_ok (ok : db.item inboxItemId = some item) :
    item ∈ db.inbox ∧ item.inboxItemId = inboxItemId :=
  Table.mem_of_find ok

theorem issue_ok (ok : db.issue uuid = .ok issued) :
    issued = { db with issued := uuid :: db.issued } ∧ uuid ∉ db.issued ∧
      ∀ item ∈ db.inbox, item.sourceMessageId ≠ continuationSource uuid := by
  obtain ⟨fresh, written⟩ := require_bind_ok ok
  cases written
  exact ⟨rfl, fresh.1, fresh.2⟩

theorem issueFor_ok (ok : db.issueFor uuid sourceMessageId = .ok issued) :
    issued = { db with issued := uuid :: db.issued } ∧ uuid ∉ db.issued ∧
      (∀ item ∈ db.inbox, item.sourceMessageId ≠ continuationSource uuid) ∧
      sourceMessageId ≠ continuationSource uuid := by
  obtain ⟨other, rest⟩ := require_bind_ok ok
  obtain ⟨written, unknown, unnamed⟩ := issue_ok rest
  exact ⟨written, unknown, unnamed, other⟩

theorem assertCurrentHead_ok (ok : assertCurrentHead db item = .ok result) : IsHead db item := by
  have current := require_ok ok
  exact current

theorem head_mem (head : db.head agentId = some item) :
    item ∈ db.inbox ∧ item.agentId = agentId ∧ item.state.isFinal = false := by
  have member := List.argmin_mem head
  simp only [Database.unsettled, List.mem_filter, Bool.and_eq_true, decide_eq_true_eq,
    Bool.not_eq_true'] at member
  exact ⟨member.1, member.2.1, member.2.2⟩

/-! ## Ingress -/

section Ingress

variable {db next : Database}

theorem bootstrapCursor_executes {input : BootstrapCursor}
    (ok : bootstrapCursor db input = .ok next) : Executes db (.bootstrapCursor input) next := by
  obtain ⟨_, _, ok⟩ := bind_ok ok
  obtain ⟨_, _, ok⟩ := bind_ok ok
  obtain ⟨_, _, ok⟩ := bind_ok ok
  obtain ⟨_, _, ok⟩ := bind_ok ok
  split at ok
  · obtain ⟨_, same⟩ := require_bind_ok ok
    cases same
    exact .start
  · cases ok
    exact .ingress .start rfl

theorem commitRoomMoveCursor_executes {input : CommitRoomMoveCursor}
    (ok : commitRoomMoveCursor db input = .ok next) :
    Executes db (.commitRoomMoveCursor input) next := by
  obtain ⟨_, _, ok⟩ := bind_ok ok
  obtain ⟨_, _, ok⟩ := bind_ok ok
  obtain ⟨_, _, ok⟩ := bind_ok ok
  obtain ⟨_, ok⟩ := require_bind_ok ok
  obtain ⟨_, _, ok⟩ := bind_ok ok
  obtain ⟨_, ok⟩ := require_bind_ok ok
  split at ok
  · cases ok
    exact .start
  · cases ok
    exact .ingress .start rfl

theorem ingestMessage_executes {input : PollIngestion}
    (allowed : assertDeliveryDrainIngressAllowed db input.agentId = .ok ())
    (rest : Executes db (.commitPollIngestion input) d)
    (ok : ingestMessage input.agentId input.roomId d message = .ok next) :
    Executes db (.commitPollIngestion input) next := by
  obtain ⟨_, _, ok⟩ := bind_ok ok
  split at ok
  · cases ok
    exact rest
  · obtain ⟨issued, fresh, written⟩ := bind_ok ok
    cases written
    exact .insert rest fresh rfl (.polled message _ allowed)

theorem observeMessage_executes (rest : Executes db op d)
    (ok : observeMessage agentId roomId d sourceMessageId = .ok next) : Executes db op next := by
  obtain ⟨_, _, ok⟩ := bind_ok ok
  dsimp only at ok
  split at ok
  · cases ok
    exact rest
  · cases ok
    exact .observe rest

theorem commitPollIngestion_executes {input : PollIngestion}
    (ok : commitPollIngestion db input = .ok next) :
    Executes db (.commitPollIngestion input) next := by
  obtain ⟨_, _, ok⟩ := bind_ok ok
  obtain ⟨_, _, ok⟩ := bind_ok ok
  obtain ⟨_, _, ok⟩ := bind_ok ok
  obtain ⟨_, allowed, ok⟩ := bind_ok ok
  obtain ⟨_, ok⟩ := require_bind_ok ok
  obtain ⟨_, ok⟩ := require_bind_ok ok
  obtain ⟨cursor, _, ok⟩ := bind_ok ok
  split at ok
  · cases ok
    exact .start
  · obtain ⟨seen, observed, ok⟩ := bind_ok ok
    obtain ⟨received, ingested, ok⟩ := bind_ok ok
    have seenRest : Executes db (.commitPollIngestion input) seen :=
      foldlM_preserves (fun _ _ _ _ rest observes => observeMessage_executes rest observes) observed
        .start
    have receivedRest : Executes db (.commitPollIngestion input) received :=
      foldlM_preserves (fun _ _ _ _ rest ingests => ingestMessage_executes allowed rest ingests)
        ingested seenRest
    have recorded : Executes db (.commitPollIngestion input) (recordPoll received input cursor) :=
      .ingress receivedRest rfl
    split at ok
    · exact .prune recorded ok
    · cases ok
      exact recorded

theorem insertSyntheticMessage_ok {input : SyntheticMessage}
    (ok : insertSyntheticMessage db input = .ok (item, next)) :
    assertDeliveryDrainIngressAllowed db input.agentId = .ok () ∧
      ((bySource db input.agentId input.roomId input.sourceMessageId = some item ∧ next = db) ∨
        ∃ issued, db.issueFor input.uuid input.sourceMessageId = .ok issued ∧
          item = newItem input.uuid input.agentId input.roomId input.sourceMessageId
            input.sourceMessage input.activation (db.maxFifo input.agentId + 1) ∧
          next = { issued with inbox := db.inbox ++ [item] }) := by
  obtain ⟨_, allowed, ok⟩ := bind_ok ok
  refine ⟨allowed, ?_⟩
  split at ok
  · rename_i known
    cases ok
    exact .inl ⟨known, rfl⟩
  · obtain ⟨issued, fresh, written⟩ := bind_ok ok
    cases written
    exact .inr ⟨issued, fresh, rfl, rfl⟩

theorem insertSyntheticMessage_executes {input : SyntheticMessage}
    (ok : enqueueSyntheticMessage db input = .ok next) :
    Executes db (.insertSyntheticMessage input) next := by
  obtain ⟨_, _, ok⟩ := bind_ok ok
  obtain ⟨_, _, ok⟩ := bind_ok ok
  obtain ⟨_, _, ok⟩ := bind_ok ok
  obtain ⟨⟨item, inserted⟩, inserts, written⟩ := bind_ok ok
  cases written
  obtain ⟨allowed, ⟨_, rfl⟩ | ⟨issued, fresh, rfl, rfl⟩⟩ := insertSyntheticMessage_ok inserts
  · exact .start
  · exact .insert .start fresh rfl (.synthetic _ allowed)

end Ingress

/-! ## Task continuations -/

theorem recordEvent_receipt (item : SupervisedInboxItem) (idempotencyKey : EventKey)
    (phase : InboxPhase) : receipt (item.recordEvent idempotencyKey phase) = receipt item := by
  unfold SupervisedInboxItem.recordEvent
  split <;> rfl

theorem continuationChild_receipt (input : EnqueueTaskContinuation) (child : SupervisedInboxItem) :
    receipt (continuationChild input child) = receipt child := by
  unfold continuationChild
  split
  · exact recordEvent_receipt _ _ _
  · exact recordEvent_receipt _ _ _

theorem mem_putItem_receipt (written : SupervisedInboxItem) (member : item ∈ db.inbox)
    (same : receipt written = receipt item) (after : row ∈ (db.putItem written).inbox) :
    ∃ source ∈ db.inbox, receipt source = receipt row := by
  rcases Table.mem_put after with ⟨rfl, _⟩ | ⟨old, _⟩
  · exact ⟨item, member, same.symm⟩
  · exact ⟨row, old, rfl⟩

/-- The newest row of an agent has no continuation yet. -/
theorem newest_unnamed (sound : Sound db) (newest : newestItem db agentId = some parent)
    (row : SupervisedInboxItem) (member : row ∈ db.inbox) (same : row.agentId = agentId) :
    row.sourceMessageId ≠ continuationSource parent.inboxItemId := by
  intro named
  have parentMember := List.argmax_mem newest
  simp only [List.mem_filter, decide_eq_true_eq] at parentMember
  have rowMember : row ∈ db.inbox.filter fun item => item.agentId = agentId := by
    simp only [List.mem_filter, decide_eq_true_eq]
    exact ⟨member, same⟩
  have bound : row.fifoSequence ≤ parent.fifoSequence := List.le_of_mem_argmax rowMember newest
  have later := sound.continuations row member parent parentMember.1
    (same.trans parentMember.2.symm) named
  omega

/-- Inserting the continuation and updating it at once inserts the updated row. -/
theorem continuation_executes {input : EnqueueTaskContinuation}
    (rest : Executes db (.enqueueTaskContinuation input) d)
    (known : ∀ row ∈ d.inbox, row.inboxItemId ∈ d.issued)
    (allowed : assertDeliveryDrainIngressAllowed db input.agentId = .ok ())
    (fresh : d.issueFor input.uuid sourceMessageId = .ok issued)
    (inserted : child = newItem input.uuid input.agentId input.roomId sourceMessageId sourceMessage activation (d.maxFifo input.agentId + 1)) :
    Executes db (.enqueueTaskContinuation input)
      (({ issued with inbox := d.inbox ++ [child] } : Database).putItem
        (continuationChild input child)) := by
  have receipts := continuationChild_receipt input child
  have named : (continuationChild input child).inboxItemId = child.inboxItemId :=
    congrArg Receipt.inboxItemId receipts
  have uuid : child.inboxItemId = input.uuid := by rw [inserted, newItem]
  obtain ⟨_, unknown, _⟩ := issueFor_ok fresh
  have absent : ∀ row ∈ d.inbox, row.inboxItemId ≠ (continuationChild input child).inboxItemId := by
    intro row member same
    have stored := known row member
    rw [same, named, uuid] at stored
    exact unknown stored
  have updated : ({ issued with inbox := d.inbox ++ [child] } : Database).putItem
      (continuationChild input child) =
        { issued with inbox := d.inbox ++ [continuationChild input child] } := by
    unfold Database.putItem
    rw [Table.put_append absent named.symm]
  rw [updated]
  refine .insert rest ?_ ?_ ?_
  · rw [named, uuid, show (continuationChild input child).sourceMessageId = child.sourceMessageId from
      congrArg Receipt.sourceMessageId receipts, inserted]
    exact fresh
  · rw [show (continuationChild input child).fifoSequence = child.fifoSequence from
      congrArg Receipt.fifoSequence receipts,
      show (continuationChild input child).agentId = child.agentId from
        congrArg Receipt.agentId receipts, inserted]
    rfl
  · rw [inserted]
    exact .continuation _ _ _ _ allowed

theorem enqueueTaskContinuation_executes (sound : Sound db) {input : EnqueueTaskContinuation}
    (ok : enqueueTaskContinuation db input = .ok next) :
    Executes db (.enqueueTaskContinuation input) next := by
  unfold enqueueTaskContinuation at ok
  split at ok
  · cases ok
    exact .start
  rename_i parent newest
  split at ok
  case isFalse =>
    cases ok
    exact .start
  obtain ⟨failure, _, ok⟩ := bind_ok ok
  split at ok
  case isFalse =>
    cases ok
    exact .start
  obtain ⟨prior, _, ok⟩ := bind_ok ok
  obtain ⟨_, ok⟩ := require_bind_ok ok
  have parentMember := List.argmax_mem newest
  simp only [List.mem_filter] at parentMember
  have note : Annotates parent (considered parent) := .columns _ _ _
  split at ok
  · cases ok
    exact .row .start parentMember.1 (.annotated (.columns _ _ _))
  split at ok
  · cases ok
    exact .row .start parentMember.1 (.annotated note)
  obtain ⟨⟨child, inserted⟩, inserts, written⟩ := bind_ok ok
  cases written
  have marked : Executes db (.enqueueTaskContinuation input) (db.putItem (considered parent)) :=
    .row .start parentMember.1 (.annotated note)
  obtain ⟨allowed, ⟨known, _⟩ | ⟨issued, fresh, rfl, rfl⟩⟩ := insertSyntheticMessage_ok inserts
  · have found := List.find?_some known
    simp only [Bool.and_eq_true, decide_eq_true_eq] at found
    obtain ⟨source, member, same⟩ := mem_putItem_receipt (considered parent)
      parentMember.1 rfl (List.mem_of_find?_eq_some known)
    have agent : source.agentId = input.agentId := (congrArg Receipt.agentId same).trans found.1.1
    have named : source.sourceMessageId = continuationSource parent.inboxItemId :=
      (congrArg Receipt.sourceMessageId same).trans found.2
    exact absurd named (newest_unnamed sound newest source member agent)
  · have known : ∀ row ∈ (db.putItem (considered parent)).inbox, row.inboxItemId ∈ db.issued := by
      intro row member
      obtain ⟨source, sourceMember, same⟩ := mem_putItem_receipt (considered parent)
        parentMember.1 rfl member
      have ids : source.inboxItemId = row.inboxItemId := congrArg Receipt.inboxItemId same
      rw [← ids]
      exact sound.issued source sourceMember
    exact continuation_executes marked known allowed fresh rfl

theorem refreshTaskContinuationSnapshot_executes
    (ok : refreshTaskContinuationSnapshot db inboxItemId tasks tasksJson = .ok next) :
    Executes db (.refreshTaskContinuationSnapshot inboxItemId tasks tasksJson) next := by
  obtain ⟨item, known, ok⟩ := found_bind_ok ok
  obtain ⟨_, _, ok⟩ := bind_ok ok
  obtain ⟨_, _, ok⟩ := found_bind_ok ok
  obtain ⟨_, ok⟩ := require_bind_ok ok
  obtain ⟨_, _, ok⟩ := bind_ok ok
  obtain ⟨_, ok⟩ := require_bind_ok ok
  cases ok
  exact .row .start (item_ok known).1 (.annotated (.columns _ _ _))

theorem finishUnusedTaskContinuation_executes
    (ok : finishUnusedTaskContinuation db inboxItemId detail now = .ok next) :
    Executes db (.finishUnusedTaskContinuation inboxItemId detail now) next := by
  obtain ⟨item, known, ok⟩ := found_bind_ok ok
  obtain ⟨_, _, ok⟩ := bind_ok ok
  obtain ⟨⟨_, pending, unstarted, silent⟩, ok⟩ := require_bind_ok ok
  obtain ⟨_, head, pruned⟩ := bind_ok ok
  obtain ⟨member, rfl⟩ := item_ok known
  have write : RowWrite db item (.finishUnusedTaskContinuation item.inboxItemId detail now)
      (unused item detail now) :=
    .unused (assertCurrentHead_ok head) pending unstarted silent
  exact .prune (.settle (.row .start member write) member) pruned

/-! ## Delivery -/

section Delivery

variable {db next : Database}

theorem transition_executes
    (call : op = .transition inboxItemId state patch now ∨
      (op = .retryBlocked inboxItemId now ∧ state = .pending ∧ patch = retryPatch))
    (ok : transition db inboxItemId state patch now = .ok next) : Executes db op next := by
  obtain ⟨item, known, ok⟩ := found_bind_ok ok
  obtain ⟨_, allowed, written⟩ := bind_ok ok
  obtain ⟨member, rfl⟩ := item_ok known
  have write : RowWrite db item op (recordTransition (patch.row item state now)) :=
    .transitioned call allowed
  split at written
  · exact .prune (.settle (.row .start member write) member) written
  · cases written
    exact .row .start member write

theorem claimHead_executes (ok : (claimHead db agentId expected now).map Prod.snd = .ok next) :
    Executes db (.claimHead agentId expected now) next := by
  obtain ⟨result, claim, rfl⟩ := map_ok ok
  unfold claimHead at claim
  split at claim
  · cases claim
    exact .start
  split at claim
  · cases claim
    exact .start
  rename_i item head
  split at claim
  case isFalse =>
    cases claim
    exact .start
  rename_i gates
  simp only [Bool.and_eq_true] at gates
  split at claim
  · cases claim
    exact .start
  split at claim
  case isFalse =>
    cases claim
    exact .start
  rename_i pending
  obtain ⟨_, _, claim⟩ := bind_ok claim
  dsimp only at claim
  split at claim
  · cases claim
    exact .start
  · obtain ⟨_, _, claim⟩ := bind_ok claim
    cases claim
    obtain ⟨member, rfl, _⟩ := head_mem head
    exact .row .start member (.claimed head pending gates.2)

theorem checkpointDispatchIntent_executes
    (ok : checkpointDispatchIntent db inboxItemId session = .ok next) :
    Executes db (.checkpointDispatchIntent inboxItemId session) next := by
  obtain ⟨item, known, ok⟩ := found_bind_ok ok
  obtain ⟨_, ok⟩ := require_bind_ok ok
  obtain ⟨_, _, ok⟩ := bind_ok ok
  obtain ⟨_, ok⟩ := require_bind_ok ok
  cases ok
  exact .row .start (item_ok known).1 (.annotated (.columns _ _ _))

theorem checkpointTurnStarted_executes
    (ok : checkpointTurnStarted db inboxItemId providerTurnId authority = .ok next) :
    Executes db (.checkpointTurnStarted inboxItemId providerTurnId authority) next := by
  obtain ⟨nonblank, ok⟩ := require_bind_ok ok
  obtain ⟨_, _, ok⟩ := bind_ok ok
  obtain ⟨_, _, ok⟩ := bind_ok ok
  obtain ⟨_, _, ok⟩ := bind_ok ok
  obtain ⟨item, known, ok⟩ := found_bind_ok ok
  obtain ⟨dispatching, ok⟩ := require_bind_ok ok
  obtain ⟨_, head, ok⟩ := bind_ok ok
  obtain ⟨sameTurn, ok⟩ := require_bind_ok ok
  obtain ⟨sameBinding, ok⟩ := require_bind_ok ok
  obtain ⟨unbound, ok⟩ := require_bind_ok ok
  obtain ⟨unique, ok⟩ := require_bind_ok ok
  cases ok
  obtain ⟨member, rfl⟩ := item_ok known
  exact .row .start member
    (.turnStarted dispatching (assertCurrentHead_ok head) nonblank sameTurn sameBinding unbound unique)

theorem recordRetryFailure_executes {input : RetryFailure}
    (ok : recordRetryFailure db inboxItemId input = .ok next) :
    Executes db (.recordRetryFailure inboxItemId input) next := by
  obtain ⟨reset, ok⟩ := require_bind_ok ok
  obtain ⟨item, known, ok⟩ := found_bind_ok ok
  obtain ⟨_, head, ok⟩ := bind_ok ok
  obtain ⟨failure, noFailure, ok⟩ := bind_ok ok
  obtain ⟨noneEq, ok⟩ := require_bind_ok ok
  obtain ⟨_, evidence, ok⟩ := bind_ok ok
  cases ok
  rw [noneEq] at noFailure
  obtain ⟨member, rfl⟩ := item_ok known
  exact .row .start member (.retried (assertCurrentHead_ok head) reset noFailure evidence)

theorem resetPreNativeHandoff_executes (ok : resetPreNativeHandoff db inboxItemId = .ok next) :
    Executes db (.resetPreNativeHandoff inboxItemId) next := by
  obtain ⟨item, known, ok⟩ := found_bind_ok ok
  obtain ⟨⟨state, unstarted, silent⟩, ok⟩ := require_bind_ok ok
  obtain ⟨_, head, ok⟩ := bind_ok ok
  obtain ⟨noTerminal, ok⟩ := require_bind_ok ok
  cases ok
  obtain ⟨member, rfl⟩ := item_ok known
  exact .row .start member (.handedBack (assertCurrentHead_ok head) state unstarted silent noTerminal)

theorem writeTerminal_executes {input : NormalizedTerminal} (member : item ∈ db.inbox)
    (named : item.inboxItemId = input.inboxItemId)
    (authority : assertTerminalAuthority db item input = .ok binding)
    (prior : ∀ terminal ∈ item.terminal, terminal.turn = (terminalOf input).turn ∧ terminal.outcome = .unreadable)
    (ok : writeTerminal db item input = .ok next) :
    Executes db (.checkpointNormalizedTerminal input) next := by
  obtain ⟨unique, ok⟩ := require_bind_ok ok
  cases ok
  exact .row .start member (.finished named authority prior unique)

theorem checkpointNormalizedTerminal_executes {input : NormalizedTerminal}
    (ok : checkpointNormalizedTerminal db input = .ok next) :
    Executes db (.checkpointNormalizedTerminal input) next := by
  obtain ⟨item, known, ok⟩ := found_bind_ok ok
  obtain ⟨binding, authority, ok⟩ := bind_ok ok
  obtain ⟨member, named⟩ := item_ok known
  split at ok
  · rename_i absent
    refine writeTerminal_executes member named authority (fun terminal present => ?_) ok
    rw [absent] at present
    cases present
  · rename_i prior recorded
    obtain ⟨same, ok⟩ := require_bind_ok ok
    split at ok
    · rename_i unreadable
      refine writeTerminal_executes member named authority (fun terminal present => ?_) ok
      rw [recorded] at present
      cases present
      exact ⟨same, unreadable⟩
    · obtain ⟨_, ok⟩ := require_bind_ok ok
      cases ok
      exact .start

theorem checkpointTerminalOutcome_executes
    (ok : checkpointTerminalOutcome db inboxItemId outcome = .ok next) :
    Executes db (.checkpointTerminalOutcome inboxItemId outcome) next := by
  obtain ⟨item, known, ok⟩ := found_bind_ok ok
  obtain ⟨state, ok⟩ := require_bind_ok ok
  obtain ⟨_, head, ok⟩ := bind_ok ok
  obtain ⟨failure, proven, written⟩ := bind_ok ok
  obtain ⟨member, rfl⟩ := item_ok known
  split at written
  · obtain ⟨_, same⟩ := require_bind_ok written
    cases same
    exact .start
  · rename_i noFailure
    obtain ⟨kind, same⟩ := require_bind_ok written
    cases same
    have none' : failure = none := by
      cases failure with
      | none => rfl
      | some _ => exact absurd rfl noFailure
    rw [none'] at proven
    exact .row .start member (.outcomeRecorded (assertCurrentHead_ok head) state proven kind)

theorem checkpointPublication_executes {input : CheckpointPublication}
    (ok : checkpointPublication db input = .ok next) :
    Executes db (.checkpointPublication input) next := by
  obtain ⟨_, _, ok⟩ := bind_ok ok
  obtain ⟨_, _, ok⟩ := bind_ok ok
  obtain ⟨_, _, ok⟩ := bind_ok ok
  obtain ⟨item, known, ok⟩ := found_bind_ok ok
  obtain ⟨room, ok⟩ := require_bind_ok ok
  obtain ⟨_, ok⟩ := require_bind_ok ok
  obtain ⟨_, ok⟩ := require_bind_ok ok
  obtain ⟨member, named⟩ := item_ok known
  split at ok
  · rename_i publishing
    obtain ⟨_, ok⟩ := require_bind_ok ok
    exact .prune (.settle (.row .start member (.published named publishing room)) member) ok
  · exact .prune .start ok

theorem skipBlocked_executes (ok : skipBlocked db inboxItemId now = .ok next) :
    Executes db (.skipBlocked inboxItemId now) next := by
  obtain ⟨item, known, ok⟩ := found_bind_ok ok
  obtain ⟨⟨blocked, unstarted⟩, ok⟩ := require_bind_ok ok
  obtain ⟨_, head, pruned⟩ := bind_ok ok
  obtain ⟨member, rfl⟩ := item_ok known
  have write : RowWrite db item (.skipBlocked item.inboxItemId now) (skipped item now) :=
    .skipped (assertCurrentHead_ok head) blocked unstarted
  exact .prune (.settle (.row .start member write) member) pruned

theorem cancelInterruptedTurn_cases
    (ok : cancelInterruptedTurn db inboxItemId detail expected now = .ok next) :
    next = db ∨ ∃ item ∈ db.inbox, ∃ failure,
      RowWrite db item (.cancelInterruptedTurn inboxItemId detail expected now) (stopped item failure detail now) ∧
      pruneSupervisedAgentHistory (settleSupervisedTerminalItem (db.putItem (stopped item failure detail now)) item now)
        item.agentId none = .ok next := by
  unfold cancelInterruptedTurn cancelInterruptedSupervisedTurn at ok
  split at ok
  · cases ok
    exact .inl rfl
  rename_i item known
  obtain ⟨_, ok⟩ := require_bind_ok ok
  split at ok
  case isFalse =>
    cases ok
    exact .inl rfl
  rename_i state
  obtain ⟨_, head, ok⟩ := bind_ok ok
  obtain ⟨failure, proven, pruned⟩ := bind_ok ok
  obtain ⟨member, rfl⟩ := item_ok known
  exact .inr ⟨item, member, failure, .stopped (assertCurrentHead_ok head) state proven, pruned⟩

theorem cancelInterruptedTurn_executes
    (ok : cancelInterruptedTurn db inboxItemId detail expected now = .ok next) :
    Executes db (.cancelInterruptedTurn inboxItemId detail expected now) next := by
  obtain rfl | ⟨item, member, failure, write, pruned⟩ := cancelInterruptedTurn_cases ok
  · exact .start
  · exact .prune (.settle (.row .start member write) member) pruned

theorem recoverItem_executes (member : item ∈ db.inbox) (unsettled : item.state.isFinal = false)
    (rest : Executes db (.normalizeStartupRecovery item.agentId resetUnstarted now) d)
    (ok : recoverItem resetUnstarted now d item = .ok next) :
    Executes db (.normalizeStartupRecovery item.agentId resetUnstarted now) next := by
  obtain ⟨failure, proven, ok⟩ := bind_ok ok
  split at ok
  · cases ok
    exact rest
  · rename_i state error decided
    have write : RowWrite db item (.normalizeStartupRecovery item.agentId resetUnstarted now)
        (recovered item state error now) :=
      .recovered unsettled proven decided
    split at ok
    · exact .prune (.settle (.row rest member write) member) ok
    · cases ok
      exact .row rest member write

theorem normalizeStartupRecovery_executes
    (ok : normalizeStartupRecovery db agentId resetUnstarted now = .ok next) :
    Executes db (.normalizeStartupRecovery agentId resetUnstarted now) next := by
  obtain ⟨settled, recovers, ok⟩ := bind_ok ok
  refine .prune (foldlM_preserves (fun d item d' listed rest recovery => ?_) recovers ?_) ok
  · have unsettled := (List.mem_insertionSort _).mp listed
    simp only [Database.unsettled, List.mem_filter, Bool.and_eq_true, decide_eq_true_eq,
      Bool.not_eq_true'] at unsettled
    obtain ⟨member, rfl, running⟩ := unsettled
    exact recoverItem_executes member running rest recovery
  · refine .effects .start fun effect _ => ?_
    split
    · exact .inr (.interrupted now)
    · exact .inl rfl

theorem normalizeInterruptedEffects_executes {agentId : Option String}
    (ok : normalizeInterruptedEffects db agentId now = .ok next) :
    Executes db (.normalizeInterruptedEffects agentId now) next := by
  refine foldlM_preserves (fun d _ d' _ rest pruned => .prune rest pruned) ok ?_
  refine .effects .start fun effect _ => ?_
  split
  · exact .inr (.interrupted now)
  · exact .inl rfl

end Delivery

/-! ## Effects -/

section Effects

variable {db next : Database}

/-- An update by id changes the one effect with that id. -/
theorem updateEffect_executes (rest : Executes db op d)
    (keyed : Table.Keyed (fun effect => effect.effectId) d.effects) (member : effect ∈ d.effects)
    (write : change effect = effect ∨ EffectWrite db op effect (change effect)) :
    Executes db op (updateEffect d effect.effectId change) := by
  refine .effects rest fun other otherMember => ?_
  split
  · rename_i same
    rw [keyed.eq otherMember member same]
    exact write
  · exact .inl rfl

theorem findEffect_ok (known : findEffect db identity = some effect) :
    effect ∈ db.effects ∧ effect.identity = identity := by
  have holds := List.find?_some known
  simp only [decide_eq_true_eq] at holds
  exact ⟨List.mem_of_find?_eq_some known, holds⟩

theorem effectById_ok (known : effectById db effectId = some effect) :
    effect ∈ db.effects ∧ effect.effectId = effectId := by
  have holds := List.find?_some known
  simp only [decide_eq_true_eq] at holds
  exact ⟨List.mem_of_find?_eq_some known, holds⟩

theorem replayEffect_executes (sound : Sound db) (member : effect ∈ db.effects)
    (ok : replayEffect db input request effect = .ok next) :
    Executes db (.prepareEffect input) next := by
  obtain ⟨_, ok⟩ := require_bind_ok ok
  split at ok
  · cases ok
    exact .start
  obtain ⟨_, _, ok⟩ := bind_ok ok
  split at ok
  · rename_i tool
    obtain ⟨completion, _, ok⟩ := found_bind_ok ok
    obtain ⟨_, ok⟩ := require_bind_ok ok
    cases ok
    exact updateEffect_executes .start sound.effects member (.inr (.proposed _ tool))
  split at ok
  · rename_i executing
    split at ok
    · rename_i mutation
      exact .prune (updateEffect_executes .start sound.effects member
        (.inr (.doubted _ executing mutation))) ok
    · rename_i readOnly
      cases ok
      exact updateEffect_executes .start sound.effects member
        (.inr (.returned _ executing (Bool.eq_false_of_not_eq_true readOnly)))
  · cases ok
    exact .start

theorem completionSingleton_ok (known : completionSingleton db turn = some effect) :
    effect ∈ db.effects ∧ effect.turn = turn ∧ effect.toolName = "complete_room_turn" := by
  have member := (List.mem_insertionSort _).mp (List.mem_of_head? known)
  simp only [effectsOfTurn, List.mem_filter, decide_eq_true_eq] at member
  exact ⟨member.1.1, member.1.2, member.2⟩

theorem insertEffect_executes (new : NewEffect db op effect)
    (ok : insertEffect db effect = .ok next) : Executes db op next := by
  obtain ⟨issued, fresh, written⟩ := bind_ok ok
  cases written
  exact .admitted fresh new

theorem admitEffect_executes (serialized : input.request.text = some request)
    (noEffect : findEffect db input.identity = none)
    (noTombstone : findTombstone db input.identity = none)
    (ok : admitEffect db input request = .ok next) : Executes db (.prepareEffect input) next := by
  obtain ⟨item, authority, ok⟩ := bind_ok ok
  split at ok
  · obtain ⟨_, ok⟩ := require_bind_ok ok
    obtain ⟨_, _, ok⟩ := bind_ok ok
    exact insertEffect_executes
      (.prepared true _ _ serialized noEffect noTombstone authority (.inr rfl)) ok
  split at ok
  · obtain ⟨_, _, ok⟩ := found_bind_ok ok
    exact insertEffect_executes
      (.prepared _ _ _ serialized noEffect noTombstone authority (.inr rfl)) ok
  · rename_i otherTool
    obtain ⟨_, _, ok⟩ := bind_ok ok
    exact insertEffect_executes
      (.prepared _ _ _ serialized noEffect noTombstone authority (.inl ⟨rfl, otherTool, rfl⟩)) ok

theorem prepareEffect_executes (sound : Sound db) (ok : prepareEffect db input = .ok next) :
    Executes db (.prepareEffect input) next := by
  obtain ⟨request, serialized, ok⟩ := bind_ok ok
  obtain ⟨_, ok⟩ := require_bind_ok ok
  obtain ⟨_, ok⟩ := require_bind_ok ok
  have serialized := found_ok serialized
  split at ok
  · rename_i effect known
    exact replayEffect_executes sound (findEffect_ok known).1 ok
  rename_i noEffect
  split at ok
  · obtain ⟨_, ok⟩ := require_bind_ok ok
    cases ok
    exact .start
  rename_i noTombstone
  obtain ⟨_, ok⟩ := require_bind_ok ok
  split at ok
  · obtain ⟨completion, _, ok⟩ := found_bind_ok ok
    split at ok
    · rename_i effect known
      obtain ⟨member, _, tool⟩ := completionSingleton_ok known
      obtain ⟨_, ok⟩ := require_bind_ok ok
      obtain ⟨_, ok⟩ := require_bind_ok ok
      obtain ⟨_, _, ok⟩ := bind_ok ok
      cases ok
      exact updateEffect_executes .start sound.effects member (.inr (.proposed _ tool))
    · obtain ⟨_, ok⟩ := require_bind_ok ok
      exact admitEffect_executes serialized noEffect noTombstone ok
  · exact admitEffect_executes serialized noEffect noTombstone ok

theorem rejectPrepared_executes (sound : Sound db) {input : MarkEffectExecuting}
    (member : effect ∈ db.effects) (named : effect.effectId = input.effectId)
    (prepared : effect.state = .prepared) : Executes db (.markEffectExecuting input)
      (rejectPrepared db input.effectId rejection input.now).1 := by
  rw [← named]
  refine updateEffect_executes .start sound.effects member (.inr ?_)
  rw [if_pos prepared]
  exact .rejected _ prepared

/-- A prepared effect is rejected or it starts. -/
theorem markEffectExecuting_cases {input : MarkEffectExecuting}
    (ok : (markEffectExecuting db input).map Prod.fst = .ok next) :
    next = db ∨ ∃ effect ∈ db.effects, effect.effectId = input.effectId ∧ effect.state = .prepared ∧
      exactTurn effect.toSupervisedEffectRecord input.authority ∧
      ((∃ rejection, next = (rejectPrepared db input.effectId rejection input.now).1) ∨
        ∃ item, assertActiveEffectAuthority db input.authority = .ok item ∧
          ¬(effect.toolName ≠ "complete_room_turn" ∧ turnComplete db effect.turn) ∧
          next = updateEffect db input.effectId fun row =>
            { row with state := .executing, updatedAt := input.now }) := by
  obtain ⟨result, marks, rfl⟩ := map_ok ok
  unfold markEffectExecuting at marks
  split at marks
  · obtain ⟨_, _, marks⟩ := found_bind_ok marks
    obtain ⟨_, marks⟩ := require_bind_ok marks
    cases marks
  rename_i effect known
  obtain ⟨member, named⟩ := effectById_ok known
  obtain ⟨turn, marks⟩ := require_bind_ok marks
  split at marks
  · cases marks
  · cases marks
    exact .inl rfl
  · cases marks
  · cases marks
  rename_i prepared
  refine .inr ⟨effect, member, named, prepared, turn, ?_⟩
  split at marks
  · cases marks
    exact .inl ⟨_, rfl⟩
  rename_i barrier
  split at marks
  · cases marks
    exact .inl ⟨_, rfl⟩
  · rename_i item authority
    cases marks
    exact .inr ⟨item, authority, barrier, rfl⟩

theorem markEffectExecuting_executes (sound : Sound db) {input : MarkEffectExecuting}
    (ok : (markEffectExecuting db input).map Prod.fst = .ok next) :
    Executes db (.markEffectExecuting input) next := by
  obtain rfl | ⟨effect, member, named, prepared, turn, ⟨rejection, rfl⟩ | ⟨item, authority, -, rfl⟩⟩ :=
    markEffectExecuting_cases ok
  · exact .start
  · exact rejectPrepared_executes sound member named prepared
  · rw [← named]
    exact updateEffect_executes .start sound.effects member (.inr (.started prepared turn authority))

theorem stagePreparedEffectResult_executes (sound : Sound db)
    (ok : stagePreparedEffectResult db effectId result now = .ok next) :
    Executes db (.stagePreparedEffectResult effectId result now) next := by
  obtain ⟨resultJson, _, ok⟩ := found_bind_ok ok
  obtain ⟨effect, known, ok⟩ := found_bind_ok ok
  obtain ⟨member, rfl⟩ := effectById_ok known
  split at ok
  · rename_i prepared
    obtain ⟨_, _, ok⟩ := bind_ok ok
    cases ok
    exact updateEffect_executes .start sound.effects member (.inr (.staged _ _ prepared))
  · cases ok
    exact .start

/-- A prepared effect has the result of its move. -/
def stagedMove (input : PrepareRoomMoveEffect) (row : EffectRow) (effectId : String) : EffectRow :=
  if row.state = .prepared then
    { row with
      resultJson := some (roomMoveResult input.destinationRoomId effectId)
      updatedAt := input.now }
  else row

theorem journalRoomMove_ok {input : PrepareRoomMoveEffect} (ok : journalRoomMove d input effectId = .ok next) :
    ∃ effect ∈ d.effects, ∃ roomMoves, next = { updateEffect d effect.effectId fun row =>
      stagedMove input row effect.effectId with roomMoves } := by
  obtain ⟨effect, known, ok⟩ := found_bind_ok ok
  obtain ⟨_, _, ok⟩ := bind_ok ok
  obtain ⟨member, rfl⟩ := effectById_ok known
  dsimp only at ok
  split at ok
  · obtain ⟨_, ok⟩ := require_bind_ok ok
    cases ok
    exact ⟨effect, member, d.roomMoves, rfl⟩
  · obtain ⟨_, ok⟩ := require_bind_ok ok
    obtain ⟨_, _, ok⟩ := bind_ok ok
    obtain ⟨_, _, ok⟩ := bind_ok ok
    obtain ⟨_, ok⟩ := require_bind_ok ok
    obtain ⟨_, ok⟩ := require_bind_ok ok
    obtain ⟨_, ok⟩ := require_bind_ok ok
    cases ok
    exact ⟨effect, member, _, rfl⟩

theorem journalRoomMove_executes {input : PrepareRoomMoveEffect}
    (rest : Executes db (.prepareRoomMoveEffect input) d)
    (keyed : Table.Keyed (fun effect => effect.effectId) d.effects)
    (ok : journalRoomMove d input effectId = .ok next) :
    Executes db (.prepareRoomMoveEffect input) next := by
  obtain ⟨effect, member, roomMoves, rfl⟩ := journalRoomMove_ok ok
  refine .moves (updateEffect_executes rest keyed member ?_) rfl
  unfold stagedMove
  split
  · rename_i prepared
    exact .inr (.staged _ _ prepared)
  · exact .inl rfl

theorem insertEffect_keyed (sound : Sound db) (ok : insertEffect db effect = .ok next) :
    Table.Keyed (fun effect => effect.effectId) next.effects := by
  obtain ⟨issued, fresh, written⟩ := bind_ok ok
  cases written
  obtain ⟨_, unknown, _⟩ := issue_ok fresh
  refine Table.Keyed.append sound.effects (List.nodup_singleton _) fun row member other added same => ?_
  rw [List.mem_singleton] at added
  have stored := sound.effectsIssued row member
  rw [same, added] at stored
  exact unknown stored

theorem prepareRoomMoveEffect_executes (sound : Sound db) {input : PrepareRoomMoveEffect}
    (ok : prepareRoomMoveEffect db input = .ok next) :
    Executes db (.prepareRoomMoveEffect input) next := by
  obtain ⟨request, serialized, ok⟩ := bind_ok ok
  have serialized := found_ok serialized
  split at ok
  · obtain ⟨_, ok⟩ := require_bind_ok ok
    split at ok
    · cases ok
      exact .start
    · obtain ⟨_, _, ok⟩ := bind_ok ok
      obtain ⟨_, ok⟩ := require_bind_ok ok
      exact journalRoomMove_executes .start sound.effects ok
  · rename_i noEffect
    obtain ⟨_, ok⟩ := require_bind_ok ok
    obtain ⟨item, authority, ok⟩ := bind_ok ok
    obtain ⟨_, ok⟩ := require_bind_ok ok
    obtain ⟨_, _, ok⟩ := bind_ok ok
    obtain ⟨admitted, inserts, ok⟩ := bind_ok ok
    have rest : Executes db (.prepareRoomMoveEffect input) admitted :=
      insertEffect_executes (.roomMove serialized noEffect authority) inserts
    exact journalRoomMove_executes rest (insertEffect_keyed sound inserts) ok

theorem completable_ok {input : CompleteEffect} {effect : SupervisedEffectRecord}
    (ok : completable db input effect = .ok true) :
    effect.state = .executing ∨ effect.state = .uncertain ∨
      (effect.state = .prepared ∧ effect.toolName = "join_room") := by
  obtain ⟨_, _, ok⟩ := bind_ok ok
  split at ok
  · cases ok
  · rename_i unsettled
    obtain ⟨allowed, _⟩ := require_bind_ok ok
    cases state : effect.state <;> simp_all

theorem completeEffect_executes (sound : Sound db) {input : CompleteEffect}
    (ok : completeEffect db input = .ok next) : Executes db (.completeEffect input) next := by
  unfold completeEffect at ok
  split at ok
  · rename_i effect known
    obtain ⟨member, named⟩ := effectById_ok known
    obtain ⟨write, allowed, ok⟩ := bind_ok ok
    refine .prune ?_ ok
    cases write with
    | false => exact .start
    | true =>
      rw [if_pos rfl, ← named]
      exact updateEffect_executes .start sound.effects member
        (.inr (.settled db (completable_ok allowed)))
  · obtain ⟨tombstone, known, ok⟩ := found_bind_ok ok
    obtain ⟨write, allowed, ok⟩ := bind_ok ok
    refine .prune ?_ ok
    cases write with
    | false => exact .start
    | true =>
      refine .tombstones .start fun row _ => ?_
      split
      · exact .inr (.settled db)
      · exact .inl rfl

end Effects

/-! ## Repairs and room moves -/

section Repairs

variable {db next : Database}

theorem beginContinuationRepair_executes {input : BeginContinuationRepair}
    (ok : beginContinuationRepair db input = .ok next) :
    Executes db (.beginContinuationRepair input) next := by
  obtain ⟨_, _, ok⟩ := bind_ok ok
  obtain ⟨_, _, ok⟩ := bind_ok ok
  obtain ⟨item, known, ok⟩ := found_bind_ok ok
  obtain ⟨_, ok⟩ := require_bind_ok ok
  obtain ⟨_, _, ok⟩ := bind_ok ok
  have member := (item_ok known).1
  split at ok
  · obtain ⟨_, ok⟩ := require_bind_ok ok
    cases ok
    exact .repair .start
  split at ok
  · obtain ⟨_, ok⟩ := require_bind_ok ok
    cases ok
    exact .row (.repair .start) member (.annotated (.event _ _ rfl))
  · obtain ⟨issued, fresh, ok⟩ := bind_ok ok
    cases ok
    exact .row (.repair (.issue .start fresh)) member (.annotated (.event _ _ rfl))

theorem checkpointContinuationReplacement_executes
    (ok : checkpointContinuationReplacement db repairId replacement = .ok next) :
    Executes db (.checkpointContinuationReplacement repairId replacement) next := by
  obtain ⟨_, ok⟩ := require_bind_ok ok
  obtain ⟨repair, _, ok⟩ := found_bind_ok ok
  split at ok
  · obtain ⟨_, ok⟩ := require_bind_ok ok
    cases ok
    exact .start
  · obtain ⟨_, ok⟩ := require_bind_ok ok
    obtain ⟨_, ok⟩ := require_bind_ok ok
    cases ok
    exact .repair .start

theorem commitContinuationRepair_executes
    (ok : commitContinuationRepair db repairId continuation = .ok next) :
    Executes db (.commitContinuationRepair repairId continuation) next := by
  obtain ⟨repair, _, ok⟩ := found_bind_ok ok
  obtain ⟨_, ok⟩ := require_bind_ok ok
  obtain ⟨_, ok⟩ := require_bind_ok ok
  obtain ⟨_, ok⟩ := require_bind_ok ok
  obtain ⟨item, known, ok⟩ := found_bind_ok ok
  obtain ⟨⟨blocked, unstarted⟩, ok⟩ := require_bind_ok ok
  obtain ⟨_, head, ok⟩ := bind_ok ok
  cases ok
  exact .row (.repair .start) (item_ok known).1
    (.released (assertCurrentHead_ok head) blocked unstarted)

theorem failContinuationRepair_executes (ok : failContinuationRepair db repairId error = .ok next) :
    Executes db (.failContinuationRepair repairId error) next := by
  obtain ⟨repair, _, ok⟩ := found_bind_ok ok
  split at ok
  · cases ok
    exact .start
  split at ok
  · rename_i item known
    split at ok
    · cases ok
      exact .row (.repair .start) (item_ok known).1 (.annotated (.columns _ _ _))
    · cases ok
      exact .repair .start
  · cases ok
    exact .repair .start

theorem exhaustCommittedContinuationRepair_executes
    (ok : exhaustCommittedContinuationRepair db inboxItemId repairId error = .ok next) :
    Executes db (.exhaustCommittedContinuationRepair inboxItemId repairId error) next := by
  obtain ⟨repair, _, ok⟩ := found_bind_ok ok
  obtain ⟨item, known, ok⟩ := found_bind_ok ok
  obtain ⟨_, ok⟩ := require_bind_ok ok
  obtain ⟨_, _, ok⟩ := bind_ok ok
  cases ok
  exact .row .start (item_ok known).1 (.annotated (.event _ _ rfl))

/-- The queue of a committed move before it is pruned. -/
theorem cancelledQueue_executes (input : CommitRoomMoveQueue) (now : String) :
    Executes db (.commitRoomMoveQueue input now)
      (retireIngress ((db.inbox.filter (leavesRoom input)).foldl
        (fun db item => settleSupervisedTerminalItem db item now) { db with
          inbox := db.inbox.map fun item => if leavesRoom input item then
            roomMoveCancelled input.operationId now item else item })
        input.agentId input.oldRoomId) := by
  have settles : ∀ (rows : List SupervisedInboxItem) (d : Database), (∀ row ∈ rows, row ∈ db.inbox) →
      Executes db (.commitRoomMoveQueue input now) d →
      Executes db (.commitRoomMoveQueue input now)
        (rows.foldl (fun db item => settleSupervisedTerminalItem db item now) d) := by
    intro rows
    induction rows with
    | nil => exact fun _ _ rest => rest
    | cons row rows ih =>
      intro d members rest
      exact ih _ (fun other member => members other (.tail _ member))
        (.settle rest (members row List.mem_cons_self))
  refine .ingress (d := List.foldl _ _ _)
    (settles _ _ (fun row member => List.mem_of_mem_filter member) (.rows fun item _ => ?_)) rfl
  split
  · rename_i leaves
    exact .inr (.roomMoveCancelled leaves)
  · exact .inl rfl

theorem commitRoomMoveQueue_executes {input : CommitRoomMoveQueue}
    (ok : commitRoomMoveQueue db input now = .ok next) :
    Executes db (.commitRoomMoveQueue input now) next :=
  .prune (cancelledQueue_executes input now) ok

theorem rollbackRoomMoveIngress_executes {input : RollbackRoomMoveIngress}
    (ok : rollbackRoomMoveIngress db input = .ok next) :
    Executes db (.rollbackRoomMoveIngress input) next := by
  obtain ⟨_, _, ok⟩ := bind_ok ok
  obtain ⟨_, _, ok⟩ := bind_ok ok
  obtain ⟨_, _, ok⟩ := bind_ok ok
  obtain ⟨_, _, ok⟩ := bind_ok ok
  obtain ⟨_, ok⟩ := require_bind_ok ok
  obtain ⟨_, _, ok⟩ := bind_ok ok
  obtain ⟨_, ok⟩ := require_bind_ok ok
  cases ok
  refine .ingress (.ingress (.rows fun item _ => ?_) rfl) rfl
  split
  · rename_i owned
    exact .inr (.revived owned)
  · exact .inl rfl

end Repairs

/-! ## Drains -/

/-- What an operation does to the drain journal: nothing, a new drain when the agent
has none, or a phase of one drain that may still move, or is cancelled again. -/
inductive DrainWrite (db : Database) : List DeliveryDrainRecord → Prop where
  | same : DrainWrite db db.cutovers
  | opened (cutover : DeliveryDrainRecord) (free : unresolvedDeliveryDrain db cutover.agentId = none)
      (fresh : ∀ other ∈ db.cutovers, other.operationId ≠ cutover.operationId) :
      DrainWrite db (db.cutovers ++ [cutover])
  | moved (cutover : DeliveryDrainRecord) (phase : DrainPhase) (known : cutover ∈ db.cutovers)
      (open' : cutover.phase.resolved = false ∨ phase.resolved = true) :
      DrainWrite db (setDrainPhase db cutover.operationId phase).cutovers

section Drains

variable {db next : Database}

theorem readDeliveryDrain_ok (known : readDeliveryDrain db operationId = some cutover) :
    cutover ∈ db.cutovers ∧ cutover.operationId = operationId := by
  have holds := List.find?_some known
  simp only [decide_eq_true_eq] at holds
  exact ⟨List.mem_of_find?_eq_some known, holds⟩

theorem ownedDrain_ok {agentId : Option String}
    (ok : ownedDrain db operationId agentId = .ok cutover) :
    readDeliveryDrain db operationId = some cutover := by
  obtain ⟨found, known, ok⟩ := found_bind_ok ok
  obtain ⟨_, ok⟩ := require_bind_ok ok
  cases ok
  exact known

/-- A drain is prepared again, or opened. -/
theorem prepareOwnedDrain_cases {input : PrepareDeliveryDrain}
    (ok : prepareOwnedDrain db input current reverseOperationId = .ok next) :
    next = db ∨ ∃ opened : DeliveryDrainRecord, next = { db with cutovers := db.cutovers ++ [opened] } ∧
      opened.phase = .draining ∧ unresolvedDeliveryDrain db opened.agentId = none ∧
      ∀ other ∈ db.cutovers, other.operationId ≠ opened.operationId := by
  obtain ⟨_, ok⟩ := require_bind_ok ok
  obtain ⟨connection, _, ok⟩ := found_bind_ok ok
  obtain ⟨_, ok⟩ := require_bind_ok ok
  split at ok
  · obtain ⟨_, ok⟩ := require_bind_ok ok
    cases ok
    exact .inl rfl
  rename_i fresh
  obtain ⟨_, ok⟩ := require_bind_ok ok
  obtain ⟨_, _, ok⟩ := found_bind_ok ok
  obtain ⟨_, ok⟩ := require_bind_ok ok
  obtain ⟨_, free, ok⟩ := bind_ok ok
  obtain ⟨_, _, ok⟩ := bind_ok ok
  obtain ⟨_, ok⟩ := require_bind_ok ok
  obtain ⟨⟨admitted, nativeTurn⟩, _, ok⟩ := bind_ok ok
  obtain ⟨_, ok⟩ := require_bind_ok ok
  have unknown : ∀ other ∈ db.cutovers, other.operationId ≠ input.operationId := by
    intro other member same
    have absent := List.find?_eq_none.mp fresh other member
    simp [same] at absent
  split at ok
  · obtain ⟨_, _, ok⟩ := bind_ok ok
    obtain ⟨_, ok⟩ := require_bind_ok ok
    obtain ⟨_, _, ok⟩ := bind_ok ok
    cases ok
    exact .inr ⟨_, rfl, rfl, require_ok free, unknown⟩
  · cases ok
    exact .inr ⟨_, rfl, rfl, require_ok free, unknown⟩

theorem prepareOwnedDrain_ok {input : PrepareDeliveryDrain}
    (ok : prepareOwnedDrain db input current reverseOperationId = .ok next) :
    next = { db with cutovers := next.cutovers } ∧ DrainWrite db next.cutovers := by
  obtain rfl | ⟨opened, rfl, -, free, fresh⟩ := prepareOwnedDrain_cases ok
  · exact ⟨rfl, .same⟩
  · exact ⟨rfl, .opened opened free fresh⟩

theorem cancelDeliveryDrain_ok (ok : cancelDeliveryDrain db operationId agentId = .ok next) :
    next = { db with cutovers := next.cutovers } ∧ DrainWrite db next.cutovers := by
  obtain ⟨cutover, known, ok⟩ := found_bind_ok ok
  obtain ⟨_, ok⟩ := require_bind_ok ok
  cases ok
  obtain ⟨member, rfl⟩ := readDeliveryDrain_ok known
  exact ⟨rfl, .moved cutover .cancelled member (.inr rfl)⟩

theorem markDeliveryDrainDispatch_ok {input : DispatchDeliveryDrain}
    (ok : markDeliveryDrainDispatch db input current = .ok next) :
    next = { db with cutovers := next.cutovers } ∧ DrainWrite db next.cutovers := by
  obtain ⟨cutover, owned, ok⟩ := bind_ok ok
  obtain ⟨phase, ok⟩ := require_bind_ok ok
  obtain ⟨_, _, ok⟩ := bind_ok ok
  obtain ⟨_, _, ok⟩ := found_bind_ok ok
  obtain ⟨_, ok⟩ := require_bind_ok ok
  obtain ⟨_, _, ok⟩ := bind_ok ok
  obtain ⟨member, named⟩ := readDeliveryDrain_ok (ownedDrain_ok owned)
  split at ok
  · cases ok
    exact ⟨rfl, .same⟩
  · cases ok
    rw [← named]
    refine ⟨rfl, .moved cutover .dispatching member (.inl ?_)⟩
    rcases phase with h | h | h | h <;> rw [h] <;> rfl

theorem blocksRuntime_open (blocks : deliveryDrainBlocksRuntime cutover = true) :
    cutover.phase.resolved = false := by
  simp only [deliveryDrainBlocksRuntime, Bool.or_eq_true, decide_eq_true_eq] at blocks
  rcases blocks with h | h
  · rw [h]
    rfl
  · rw [h]
    rfl

theorem markDeliveryDrainUncertain_ok
    (ok : markDeliveryDrainUncertain db operationId agentId = .ok next) :
    next = { db with cutovers := next.cutovers } ∧ DrainWrite db next.cutovers := by
  obtain ⟨cutover, owned, ok⟩ := bind_ok ok
  obtain ⟨blocks, ok⟩ := require_bind_ok ok
  cases ok
  obtain ⟨member, rfl⟩ := readDeliveryDrain_ok (ownedDrain_ok owned)
  exact ⟨rfl, .moved cutover .uncertain member (.inl (blocksRuntime_open blocks))⟩

theorem setIngressCursor_frame (db : Database) (agentId : String) (roomId : Option String)
    (cursor : String) :
    setIngressCursor db agentId roomId cursor =
      { db with cursors := (setIngressCursor db agentId roomId cursor).cursors } := by
  unfold setIngressCursor
  split
  · split <;> rfl
  · rfl

theorem commitDeliveryDrain_ok
    (ok : commitDeliveryDrain db operationId agentId current = .ok next) :
    next = { db with cutovers := next.cutovers, cursors := next.cursors, host := next.host } ∧
      DrainWrite db next.cutovers := by
  obtain ⟨cutover, owned, ok⟩ := bind_ok ok
  obtain ⟨blocks, ok⟩ := require_bind_ok ok
  obtain ⟨_, _, ok⟩ := bind_ok ok
  obtain ⟨cursor, _, ok⟩ := bind_ok ok
  obtain ⟨_, ok⟩ := require_bind_ok ok
  obtain ⟨member, rfl⟩ := readDeliveryDrain_ok (ownedDrain_ok owned)
  have frame := setIngressCursor_frame db cutover.agentId cutover.roomId cursor
  cases ok
  split
  · rw [frame]
    exact ⟨rfl, .moved cutover .complete member (.inr rfl)⟩
  · exact ⟨rfl, .moved cutover .complete member (.inr rfl)⟩

/-- The drain operations write the journal, and at the commit the cursor and the rows
of the authority. -/
theorem drain_ok (writes : isDrain op = true) (ok : step db op = .ok next) :
    next = { db with cutovers := next.cutovers, cursors := next.cursors, host := next.host } ∧
      DrainWrite db next.cutovers := by
  cases op <;> simp only [isDrain, Bool.false_eq_true] at writes
  case prepareDeliveryDrain input current =>
    obtain ⟨frame, write⟩ := prepareOwnedDrain_ok ok
    refine ⟨?_, write⟩
    rw [frame]
  case prepareCustodialForward input reverseOperationId current =>
    obtain ⟨_, ok⟩ := require_bind_ok ok
    obtain ⟨frame, write⟩ := prepareOwnedDrain_ok ok
    refine ⟨?_, write⟩
    rw [frame]
  case cancelDeliveryDrain operationId agentId =>
    obtain ⟨frame, write⟩ := cancelDeliveryDrain_ok ok
    refine ⟨?_, write⟩
    rw [frame]
  case markDeliveryDrainDispatch input current =>
    obtain ⟨frame, write⟩ := markDeliveryDrainDispatch_ok ok
    refine ⟨?_, write⟩
    rw [frame]
  case markDeliveryDrainUncertain operationId agentId =>
    obtain ⟨frame, write⟩ := markDeliveryDrainUncertain_ok ok
    refine ⟨?_, write⟩
    rw [frame]
  case commitDeliveryDrain operationId agentId current => exact commitDeliveryDrain_ok ok

theorem drain_executes (writes : isDrain op = true) (ok : step db op = .ok next) :
    Executes db op next := by
  obtain ⟨frame, _⟩ := drain_ok writes ok
  rw [frame] at ok ⊢
  exact .drain writes ok

end Drains

end LetAgents.Inbox.Transaction

import LetAgents.Inbox.RowLife

/-!
# The FIFO lane

At most one message of an agent is being delivered, and it is the unsettled one with
the lowest number. A rollback revives rows below a message that is being delivered
unless every unsettled message is still pending, and a continuation that starts
blocked needs an empty queue: `keepsLane` says when these two calls keep the lane. No
other operation needs a condition, and none may purge the agent.
-/
namespace LetAgents.Inbox.FifoLane

open Lib Lib.Js Records Pruning Ingress Delivery RoomMove Store Writes Transaction
  Reachable RowLife

/-- Neither pending nor settled. -/
def inDelivery (item : SupervisedInboxItem) : Bool :=
  item.state ≠ .pending && !item.state.isFinal

/-- The calls under which the lane holds. -/
def keepsLane (db : Database) : Op → Bool
  | .rollbackRoomMoveIngress input =>
    (db.unsettled input.agentId).all fun item => item.state = .pending
  | .enqueueTaskContinuation input =>
    !present input.blockReason || (db.unsettled input.agentId).isEmpty
  | .removeAgent _ => false
  | _ => true

/-- A message in delivery has the lowest number of its agent's unsettled ones. -/
def HeadOnly (db : Database) : Prop :=
  ∀ item ∈ db.inbox, inDelivery item = true → ∀ other ∈ db.inbox, other.agentId = item.agentId →
    other.state.isFinal = false → item.fifoSequence ≤ other.fifoSequence

variable {item row : SupervisedInboxItem} {db : Database} {op : Op}

theorem inDelivery_iff :
    inDelivery item = true ↔ item.state ≠ .pending ∧ item.state.isFinal = false := by
  simp only [inDelivery, ne_eq, decide_not, Bool.and_eq_true, Bool.not_eq_true',
    decide_eq_false_iff_not]

theorem inDelivery_congr (same : row.state = item.state) : inDelivery row = inDelivery item := by
  unfold inDelivery
  rw [same]

/-- Delivered before, or the head of the queue under an operation that revives nothing. -/
def MayDeliver (db : Database) (op : Op) (item : SupervisedInboxItem) : Prop :=
  inDelivery item = true ∨ (IsHead db item ∧ ∀ input, op ≠ .rollbackRoomMoveIngress input)

theorem RowWrite.delivers (write : RowWrite db item op written)
    (delivers : inDelivery written = true) : MayDeliver db op item := by
  cases write with
  | annotated notes =>
    rw [inDelivery_congr (Annotates.state notes)] at delivers
    exact .inl delivers
  | transitioned call allowed =>
    obtain ⟨_, facts⟩ := assertTransition_ok allowed
    have unsettled := (inDelivery_iff.mp delivers).2
    rw [recordTransition_state] at unsettled
    refine .inr ⟨facts.head unsettled, fun input same => ?_⟩
    rw [same] at call
    rcases call with call | ⟨call, _⟩ <;> cases call
  | claimed head =>
    refine .inr ⟨?_, nofun⟩
    rw [IsHead, head]
    rfl
  | turnStarted _ head | retried head | handedBack head => exact .inr ⟨head, nofun⟩
  | finished _ authority =>
    obtain ⟨_, _, _, head, _⟩ := assertTerminalAuthority_ok authority
    exact .inr ⟨head, nofun⟩
  | outcomeRecorded head => exact .inr ⟨head, nofun⟩
  | published => simp [inDelivery, SupervisedInboxState.isFinal] at delivers
  | skipped head | stopped head | unused head => exact .inr ⟨head, nofun⟩
  | recovered unsettled proven decided =>
    refine .inl (inDelivery_iff.mpr ⟨fun pending => ?_, unsettled⟩)
    -- a pending item is settled with its proven failure, or left alone
    rcases recoveryDecision_cases decided with ⟨_, rfl⟩ | ⟨_, recovering, _⟩ | ⟨_, inFlight, _⟩
    · simp [inDelivery, SupervisedInboxState.isFinal] at delivers
    · rw [pending] at recovering
      cases recovering
    · rw [pending] at inFlight
      cases inFlight
  | released head => exact .inr ⟨head, nofun⟩
  | roomMoveCancelled => simp [inDelivery, SupervisedInboxState.isFinal] at delivers
  | revived => simp [inDelivery] at delivers

theorem mem_unsettled : item ∈ db.unsettled agentId ↔
      item ∈ db.inbox ∧ item.agentId = agentId ∧ item.state.isFinal = false := by
  simp only [Database.unsettled, List.mem_filter, Bool.and_eq_true, decide_eq_true_eq,
    Bool.not_eq_true']

/-- A settled row is not revived beside an item that is, or comes, in delivery. -/
theorem source_unsettled (sound : Sound db) (call : keepsLane db op = true)
    (member : item ∈ db.inbox) (running : MayDeliver db op item) (sourceMember : source ∈ db.inbox)
    (agent : source.agentId = item.agentId) (stepped : RowStep db op source row)
    (unsettled : row.state.isFinal = false) : source.state.isFinal = false := by
  by_contra settled
  rw [Bool.not_eq_false] at settled
  rcases RowStep.of_final sound sourceMember stepped settled with same | ⟨input, rfl, owned⟩
  · rw [same, settled] at unsettled
    cases unsettled
  · rcases running with delivering | ⟨_, others⟩
    · obtain ⟨notPending, itemUnsettled⟩ := inDelivery_iff.mp delivering
      simp only [revivable, Bool.and_eq_true, decide_eq_true_eq] at owned
      have listed := mem_unsettled.mpr ⟨member, agent.symm.trans owned.1.1.1.1, itemUnsettled⟩
      exact notPending (of_decide_eq_true (List.all_eq_true.mp call item listed))
    · exact others input rfl

/-- Two rows that one call inserts as a continuation are one row. -/
theorem NewRow.continuation_id (new : NewRow db (.enqueueTaskContinuation input) row) :
    row.inboxItemId = input.uuid := by
  cases new with
  | continuation source message activation fifo _ =>
    exact congrArg Receipt.inboxItemId (continuationChild_receipt input
      (newItem input.uuid input.agentId input.roomId source message activation fifo))

/-- Every accepted call that keeps the lane keeps it. -/
theorem step_headOnly (sound : Sound db) (lane : HeadOnly db) (call : keepsLane db op = true)
    (ok : step db op = .ok next) : HeadOnly next := by
  intro row after delivering other otherAfter agent unsettled
  have follows := step_follows sound ok
  rcases follows.rows row after with ⟨item, member, stepped⟩ | inserted
  · have receipts := RowStep.receipt_eq stepped
    have rowAgent : row.agentId = item.agentId := congrArg Receipt.agentId receipts
    rw [show row.fifoSequence = item.fifoSequence from congrArg Receipt.fifoSequence receipts]
    have running : MayDeliver db op item := by
      obtain ⟨written, rfl | write, trims⟩ := stepped
      · exact .inl ((inDelivery_congr trims.state_eq).symm.trans delivering)
      · exact RowWrite.delivers write ((inDelivery_congr trims.state_eq).symm.trans delivering)
    have lowest : ∀ source ∈ db.inbox, source.agentId = item.agentId →
        source.state.isFinal = false → item.fifoSequence ≤ source.fifoSequence := by
      rcases running with before | ⟨head, _⟩
      · exact lane item member before
      · exact (IsHead.lowest sound member head).2
    rcases follows.rows other otherAfter with ⟨source, sourceMember, otherStepped⟩ | inserted
    · have otherReceipts := RowStep.receipt_eq otherStepped
      have sourceAgent : source.agentId = item.agentId :=
        (congrArg Receipt.agentId otherReceipts).symm.trans (agent.trans rowAgent)
      rw [show other.fifoSequence = source.fifoSequence from
        congrArg Receipt.fifoSequence otherReceipts]
      exact lowest source sourceMember sourceAgent
        (source_unsettled sound call member running sourceMember sourceAgent otherStepped unsettled)
    · exact Nat.le_of_lt (inserted.later item member (rowAgent.symm.trans agent.symm))
  · rcases NewRow.state inserted.new with pending | ⟨_, input, rfl, inputAgent, reason⟩
    · exact absurd pending (inDelivery_iff.mp delivering).1
    · -- a blocked continuation enters an empty queue
      have empty : db.unsettled input.agentId = [] := by
        simpa [keepsLane, reason] using call
      rcases follows.rows other otherAfter with ⟨source, sourceMember, otherStepped⟩ | otherInserted
      · have sourceAgent : source.agentId = input.agentId :=
          (congrArg Receipt.agentId (RowStep.receipt_eq otherStepped)).symm.trans
            (agent.trans inputAgent.symm)
        have sourceUnsettled : source.state.isFinal = false := by
          by_contra settled
          rw [Bool.not_eq_false] at settled
          rcases RowStep.of_final sound sourceMember otherStepped settled with same | ⟨_, other, _⟩
          · rw [same, settled] at unsettled
            cases unsettled
          · cases other
        have listed := mem_unsettled.mpr ⟨sourceMember, sourceAgent, sourceUnsettled⟩
        rw [empty] at listed
        cases listed
      · have ids : other.inboxItemId = row.inboxItemId :=
          (NewRow.continuation_id otherInserted.new).trans
            (NewRow.continuation_id inserted.new).symm
        rw [follows.sound.ids.eq otherAfter after ids]

/-- The message in delivery is the head of its queue. -/
theorem HeadOnly.head (lane : HeadOnly db) (sound : Sound db) (member : item ∈ db.inbox)
    (delivering : inDelivery item = true) : db.head item.agentId = some item := by
  have listed := mem_unsettled.mpr ⟨member, rfl, (inDelivery_iff.mp delivering).2⟩
  cases found : db.head item.agentId with
  | none =>
    have empty := List.argmin_eq_none.mp found
    rw [empty] at listed
    cases listed
  | some first =>
    obtain ⟨firstMember, firstAgent, firstUnsettled⟩ := head_mem found
    have below : first.fifoSequence ≤ item.fifoSequence := List.le_of_mem_argmin listed found
    have above := lane item member delivering first firstMember firstAgent firstUnsettled
    have lanes : (first.agentId, first.fifoSequence) = (item.agentId, item.fifoSequence) := by
      rw [firstAgent, Nat.le_antisymm below above]
    rw [sound.lanes.eq firstMember member lanes]

/-! ## Numbers -/

/-- Between two states: the newest row is never lost, and a row is an old one or is
numbered after every old one. -/
structure Numbers (s s' : Database) : Prop where
  newest : ∀ item ∈ s.inbox, ∃ row ∈ s'.inbox, row.agentId = item.agentId ∧
    item.fifoSequence ≤ row.fifoSequence
  rows : ∀ row ∈ s'.inbox, (∃ item ∈ s.inbox, receipt row = receipt item) ∨
    ∀ item ∈ s.inbox, item.agentId = row.agentId → item.fifoSequence < row.fifoSequence

theorem Numbers.refl (s : Database) : Numbers s s :=
  ⟨fun item member => ⟨item, member, rfl, le_rfl⟩, fun row member => .inl ⟨row, member, rfl⟩⟩

theorem Numbers.trans (first : Numbers a b) (second : Numbers b c) : Numbers a c := by
  refine ⟨fun item member => ?_, fun row member => ?_⟩
  · obtain ⟨middle, middleMember, middleAgent, middleBound⟩ := first.newest item member
    obtain ⟨row, rowMember, agent, bound⟩ := second.newest middle middleMember
    exact ⟨row, rowMember, agent.trans middleAgent, le_trans middleBound bound⟩
  · rcases second.rows row member with ⟨middle, middleMember, same⟩ | above
    · rcases first.rows middle middleMember with ⟨item, itemMember, old⟩ | above
      · exact .inl ⟨item, itemMember, same.trans old⟩
      · refine .inr fun item itemMember agent => ?_
        have fifo : row.fifoSequence = middle.fifoSequence := congrArg Receipt.fifoSequence same
        have agents : row.agentId = middle.agentId := congrArg Receipt.agentId same
        rw [fifo]
        exact above item itemMember (agent.trans agents)
    · refine .inr fun item itemMember agent => ?_
      obtain ⟨middle, middleMember, middleAgent, bound⟩ := first.newest item itemMember
      exact Nat.lt_of_le_of_lt bound (above middle middleMember (middleAgent.trans agent))

theorem step_numbers (sound : Sound db) (call : keepsLane db op = true) (ok : step db op = .ok next) :
    Numbers db next := by
  have follows := step_follows sound ok
  have kept : isPurge op = false := by
    cases op <;> first | rfl | cases call
  refine ⟨follows.newest kept, fun row member => ?_⟩
  rcases follows.rows row member with ⟨item, itemMember, stepped⟩ | inserted
  · exact .inl ⟨item, itemMember, RowStep.receipt_eq stepped⟩
  · exact .inr inserted.later

/-! ## Cancellations -/

theorem first_hasEvent
    (events : row.events = [⟨.phase .received "0", .received⟩, ⟨.phase .queued "0", .queued⟩])
    (has : row.hasEvent key = true) : ∃ phase, key = .phase phase "0" := by
  unfold SupervisedInboxItem.hasEvent at has
  rw [events] at has
  simp only [List.any_cons, List.any_nil, Bool.or_false, Bool.or_eq_true, decide_eq_true_eq] at has
  rcases has with same | same
  · exact ⟨_, same.symm⟩
  · exact ⟨_, same.symm⟩

theorem NewRow.hasEvent (new : NewRow db op row) (has : row.hasEvent key = true) :
    (∃ phase, key = .phase phase "0") ∨ key = .taskContinuation "0" := by
  cases new with
  | polled | synthetic => exact .inl (first_hasEvent rfl has)
  | continuation =>
    unfold continuationChild at has
    split at has
    · rcases (recordEvent_hasEvent _ _ _ _).mp has with old | same
      · exact .inl (first_hasEvent rfl old)
      · exact .inr same.symm
    · rcases (recordEvent_hasEvent _ _ _ _).mp has with old | same
      · exact .inl (first_hasEvent rfl old)
      · exact .inr same.symm

/-- The commit of a room move that cancelled a row. -/
def CancelledBy (log : List Op) (operationId : String) (row : SupervisedInboxItem) : Prop :=
  ∃ commit now, Op.commitRoomMoveQueue commit now ∈ log ∧ commit.operationId = operationId ∧
    commit.agentId = row.agentId ∧ commit.oldRoomId = row.roomId

/-- A cancellation in a row's journal was written by a commit of that operation. -/
theorem cancellation_committed (host : Host) (log : List Op) :
    ∀ row ∈ (run host log).inbox, ∀ operationId fifoSequence,
      row.hasEvent (.roomMoveCancelled operationId fifoSequence) = true →
        CancelledBy log operationId row := by
  refine Replay.replay_history (fun _ _ => True)
    (fun log db => ∀ row ∈ db.inbox, ∀ operationId fifoSequence,
      row.hasEvent (.roomMoveCancelled operationId fifoSequence) = true →
        CancelledBy log operationId row) ?_ ?_ ?_
    (Replay.meets_of_forall (fun _ _ => trivial) (Database.initial host) log)
  · exact fun row member => absurd member List.not_mem_nil
  · intro log op next before _ ok row member operationId fifoSequence has
    rcases (step_follows (sound_run host log) ok).rows row member with
      ⟨item, itemMember, stepped⟩ | inserted
    · have receipts := RowStep.receipt_eq stepped
      have agent : row.agentId = item.agentId := congrArg Receipt.agentId receipts
      have room : row.roomId = item.roomId := congrArg Receipt.roomId receipts
      rcases RowStep.journals stepped has with old | journals
      · obtain ⟨commit, now, logged, named, commitAgent, commitRoom⟩ :=
          before item itemMember operationId fifoSequence old
        exact ⟨commit, now, List.mem_append_left _ logged, named, commitAgent.trans agent.symm,
          commitRoom.trans room.symm⟩
      · cases journals with
        | note notes => cases notes
        | roomMove leaves =>
          simp only [leavesRoom, Bool.and_eq_true, decide_eq_true_eq] at leaves
          exact ⟨_, _, List.mem_append_right _ (List.mem_singleton.mpr rfl), rfl,
            leaves.1.1.1.symm.trans agent.symm, leaves.1.1.2.symm.trans room.symm⟩
    · rcases NewRow.hasEvent inserted.new has with ⟨phase, same⟩ | same
      · cases same
      · cases same
  · intro log op before row member operationId fifoSequence has
    obtain ⟨commit, now, logged, rest⟩ := before row member operationId fifoSequence has
    exact ⟨commit, now, List.mem_append_left _ logged, rest⟩

/-! ## The law -/

/-- The calls of a log keep the lane where they are made. -/
def KeepsLane (host : Host) (log : List Op) : Prop :=
  Replay.Meets step (fun db op => keepsLane db op = true) (Database.initial host) log

instance (host : Host) (log : List Op) : Decidable (KeepsLane host log) :=
  inferInstanceAs (Decidable (Replay.Meets step (fun db op => keepsLane db op = true)
    (Database.initial host) log))

/-- The lane of every agent over a run. -/
structure Lane (host : Host) (log : List Op) : Prop where
  /-- What is in delivery is the unsettled message with the lowest number. -/
  head : ∀ item ∈ (run host log).inbox, inDelivery item = true →
    (run host log).head item.agentId = some item
  /-- At most one message of an agent is in delivery. -/
  single : ∀ item ∈ (run host log).inbox, ∀ other ∈ (run host log).inbox,
    item.agentId = other.agentId → inDelivery item = true → inDelivery other = true → item = other
  unique : ∀ item ∈ (run host log).inbox, ∀ other ∈ (run host log).inbox,
    item.agentId = other.agentId → item.fifoSequence = other.fifoSequence → item = other
  /-- A number of an earlier state is never given to a second message. -/
  once : ∀ earlier later, log = earlier ++ later → ∀ item ∈ (run host earlier).inbox,
    ∀ row ∈ (run host log).inbox, row.agentId = item.agentId →
      row.fifoSequence = item.fifoSequence → row.inboxItemId = item.inboxItemId
  /-- A settled state changes only when the rollback of a room move revives what the
  commit of the same operation cancelled. -/
  settled : ∀ earlier op later, log = earlier ++ op :: later →
    ∀ item ∈ (run host earlier).inbox, item.state.isFinal = true →
      ∀ row ∈ (run host (earlier ++ [op])).inbox, row.inboxItemId = item.inboxItemId →
        row.state = item.state ∨
          ∃ input, op = .rollbackRoomMoveIngress input ∧ item.state = .cancelledByRoomMove ∧
            CancelledBy earlier input.operationId item

def message (inboxItemId roomId sourceMessageId : String) : SyntheticMessage :=
  { agentId := "agent", roomId, sourceMessageId, sourceMessage := .object [], activation := .object []
    uuid := inboxItemId }

def moveAway (operationId roomId : String) : CommitRoomMoveQueue :=
  { operationId, agentId := "agent", oldRoomId := roomId, afterFifoSequence := 0 }

def moveBack (operationId roomId : String) : RollbackRoomMoveIngress :=
  { operationId, agentId := "agent", sourceRoomId := roomId, destinationRoomId := "elsewhere"
    sourceCursorPresent := false, sourceCursor := none, afterFifoSequence := 0 }

def now : String := "2026-01-01T00:00:00.000Z"

/-- A move that is rolled back before the agent does anything else. -/
def returnedMove : List Op :=
  [.insertSyntheticMessage (message "first" "room" "m1"),
    .commitRoomMoveQueue (moveAway "move" "room") now,
    .rollbackRoomMoveIngress (moveBack "move" "room"),
    .claimHead "agent" none now]

/-- No message of another room of the agent is in delivery when a move is rolled back. -/
def otherRoomsRest (db : Database) : Op → Bool
  | .rollbackRoomMoveIngress input => db.inbox.all fun item =>
    item.agentId ≠ input.agentId || item.roomId = input.sourceRoomId || !inDelivery item
  | _ => true

/-- A message of the same room is claimed before the move is rolled back. -/
def claimedMeanwhile : List Op :=
  [.insertSyntheticMessage (message "first" "room" "m1"),
    .commitRoomMoveQueue (moveAway "move" "room") now,
    .insertSyntheticMessage (message "second" "room" "m2"),
    .claimHead "agent" none now,
    .rollbackRoomMoveIngress (moveBack "move" "room")]

/-- The message in delivery is not the lowest of its agent. -/
def overtakes (db : Database) : Prop :=
  ∃ item ∈ db.inbox, inDelivery item = true ∧ ∃ other ∈ db.inbox, other.agentId = item.agentId ∧
    other.state.isFinal = false ∧ other.fifoSequence < item.fifoSequence

instance (db : Database) : Decidable (overtakes db) :=
  inferInstanceAs (Decidable (∃ item ∈ db.inbox, inDelivery item = true ∧
    ∃ other ∈ db.inbox, other.agentId = item.agentId ∧ other.state.isFinal = false ∧
      other.fifoSequence < item.fifoSequence))

/-- Every unsettled message of the agent is pending when a move is rolled back. -/
def allPending (db : Database) : Op → Bool
  | .rollbackRoomMoveIngress input =>
    (db.unsettled input.agentId).all fun item => item.state = .pending
  | _ => true

def failedTurn : NormalizedTerminal :=
  { inboxItemId := "second", agentId := "agent", executionGenerationId := "generation"
    providerTurnId := "turn", outcome := .failed, text := none, evidence := .stream
    failureDetail := none, taskOwnerSessionId := some "session"
    terminalEvidence := some
      { outcome := .text "failed", turnId := .text "turn", text := .null, evidence := .text "stream"
        providerContinuationId := .text "conversation", error := .absent }
    now }

def continueTask : EnqueueTaskContinuation :=
  { parentId := "second", agentId := "agent", roomId := "other room", workAttemptId := "attempt"
    providerContinuationId := "conversation", agentSessionId := "session"
    tasks := some [⟨"task", "title", "lease", 1⟩], tasksJson := "[]", blockReason := some "stopped"
    detail := "", delayMs := 0, uuid := "third", now }

/-- A failed turn is moved away and back, and settles above a revived message. -/
def failedAbove : List Op :=
  [.insertSyntheticMessage (message "first" "room" "m1"),
    .commitRoomMoveQueue (moveAway "move" "room") now,
    .insertSyntheticMessage (message "second" "other room" "m2"),
    .claimHead "agent" none now,
    .checkpointDispatchIntent "second" (some "session"),
    .checkpointTurnStarted "second" "turn" ⟨"attempt", "generation", "conversation"⟩,
    .checkpointNormalizedTerminal failedTurn,
    .commitRoomMoveQueue (moveAway "other move" "other room") now,
    .rollbackRoomMoveIngress (moveBack "other move" "other room"),
    .rollbackRoomMoveIngress (moveBack "move" "room"),
    .normalizeStartupRecovery "agent" false now,
    .enqueueTaskContinuation continueTask]

end LetAgents.Inbox.FifoLane

import LetAgents.Inbox.RowLife

/-!
# Compensation of a room move

Source: src/apps/desktop/daemon/room-move-coordinator.ts:625-647, 819-856.

The coordinator commits the queue side of a move and, when a later step fails, rolls
it back, both with what the record of the move says. Retention keeps every row the
move cancelled while the move is not settled.
-/
namespace LetAgents.Inbox.RoomMoveCompensation

open Lib Lib.Checked Records Retention Pruning Ingress Delivery RoomMove Store
  Transaction Reachable RowLife

/-! ## The two calls of the coordinator -/

/-- `activating?.fifo_sequence ?? 0`. -/
def activatingFifo (db : Database) (move : AgentRoomMove) : Nat :=
  ((move.activatingInboxItemId.bind db.item).map (·.fifoSequence)).getD 0

def queueCommit (db : Database) (move : AgentRoomMove) : CommitRoomMoveQueue :=
  { operationId := move.operationId
    agentId := move.agentId
    oldRoomId := move.sourceRoomId
    afterFifoSequence := activatingFifo db move }

def compensation (db : Database) (move : AgentRoomMove) (destinationRoomId : String) :
    RollbackRoomMoveIngress :=
  { operationId := move.operationId
    agentId := move.agentId
    sourceRoomId := move.sourceRoomId
    destinationRoomId
    sourceCursorPresent := move.sourceCursorPresent
    sourceCursor := move.sourceCursor
    afterFifoSequence := activatingFifo db move }

/-- The journal still has the move, and it is not settled. -/
def Recoverable (db : Database) (move : AgentRoomMove) : Prop :=
  ∃ stored ∈ db.roomMoves, stored.operationId = move.operationId ∧ stored.agentId = move.agentId ∧
    stored.sourceRoomId = move.sourceRoomId ∧ stored.phase.settled = false

/-- What may happen between the two calls: prunings, and advances of the move. -/
inductive Between (move : AgentRoomMove) (first : Database) : Database → Prop where
  | start : Between move first first
  | prune {middle next : Database} {agentId : String} {keep : Option String}
      (rest : Between move first middle)
      (pruned : pruneSupervisedAgentHistory middle agentId keep = .ok next) : Between move first next
  | advance {middle : Database} {roomMoves : List AgentRoomMove} (rest : Between move first middle)
      (recoverable : Recoverable { middle with roomMoves } move) :
      Between move first { middle with roomMoves }

/-! ## Retention -/

/-- The row carries the cancellation key of the move. -/
def OwnedBy (move : AgentRoomMove) (row : SupervisedInboxItem) : Prop :=
  row.agentId = move.agentId ∧ row.roomId = move.sourceRoomId ∧
    row.hasEvent (.roomMoveCancelled move.operationId row.fifoSequence) = true

variable {db next : Database} {move : AgentRoomMove} {input : RollbackRoomMoveIngress}
  {item : SupervisedInboxItem}

theorem pinned_of_owned (recoverable : Recoverable db move) (owned : OwnedBy move row) :
    pinnedByMove db row = true := by
  obtain ⟨stored, member, operation, agent, room, unsettled⟩ := recoverable
  obtain ⟨rowAgent, rowRoom, has⟩ := owned
  refine List.any_eq_true.mpr ⟨stored, List.mem_filter.mpr ⟨member, ?_⟩, ?_⟩
  · simp [agent, rowAgent, room, rowRoom, operation, has]
  · simp [unsettled]

/-- Pruning keeps what is not settled and what a move pins. -/
theorem prune_keeps (keyed : Table.Keyed (·.inboxItemId) db.inbox)
    (ok : pruneSupervisedAgentHistory db agentId keep = .ok next) (member : row ∈ db.inbox)
    (kept : row.state.isFinal = false ∨ pinnedByMove db row = true) : row ∈ next.inbox := by
  obtain ⟨bound, pruned, boundEq, prunedEq, rows⟩ := prune_inbox ok
  have boundPin : pinnedByMove bound row = pinnedByMove db row := by
    rw [boundEq]
    rfl
  have prunedPin : pinnedByMove pruned row = pinnedByMove db row := by
    rw [prunedEq]
    rfl
  have survives : row ∈ pruned.inbox := by
    rw [prunedEq]
    refine mem_survivors.mpr ⟨member, fun gone stale same => ?_⟩
    obtain ⟨goneMember, disposed⟩ :=
      List.mem_filter.mp ((List.mem_insertionSort _).mp (List.mem_of_mem_drop stale))
    rw [boundEq] at goneMember
    rw [← keyed.eq member goneMember same] at disposed
    simp only [disposable, Bool.and_eq_true, Bool.not_eq_true'] at disposed
    rcases kept with unsettled | pinned
    · rw [unsettled] at disposed
      cases disposed.1.1.1.1.2
    · rw [← boundPin, disposed.2] at pinned
      cases pinned
  have untrimmed : trimmed pruned agentId row = row := by
    unfold trimmed
    split
    · rename_i compacts
      rcases kept with unsettled | pinned
      · rw [compactable_final compacts] at unsettled
        cases unsettled
      · simp only [compactable, Bool.and_eq_true, Bool.not_eq_true'] at compacts
        rw [← prunedPin, compacts.1.1.1.1.2] at pinned
        cases pinned
    · rfl
  rw [rows]
  exact List.mem_map.mpr ⟨row, survives, untrimmed⟩

/-- What pruning leaves of a database for the move. -/
structure Carried (move : AgentRoomMove) (db next : Database) : Prop where
  keyed : Table.Keyed (·.inboxItemId) next.inbox
  recoverable : Recoverable next move
  source : ∀ row ∈ next.inbox, ∃ source ∈ db.inbox, Trims source row
  kept : ∀ row ∈ db.inbox, row.state.isFinal = false ∨ OwnedBy move row → row ∈ next.inbox

theorem Carried.prune (carried : Carried move db middle)
    (ok : pruneSupervisedAgentHistory middle agentId keep = .ok next) : Carried move db next := by
  have moves : next.roomMoves = middle.roomMoves := by
    rw [prune_frame ok]
  refine ⟨?_, ?_, fun row member => ?_, fun row member holds => ?_⟩
  · have fewer := (prune_receipts ok).map Receipt.inboxItemId
    rw [List.map_map, List.map_map] at fewer
    exact List.Nodup.sublist fewer carried.keyed
  · unfold Recoverable
    rw [moves]
    exact carried.recoverable
  · obtain ⟨source, sourceMember, trims⟩ := prune_source ok member
    obtain ⟨first, firstMember, earlier⟩ := carried.source source sourceMember
    exact ⟨first, firstMember, earlier.trans trims⟩
  · refine prune_keeps carried.keyed ok (carried.kept row member holds) ?_
    rcases holds with unsettled | owned
    · exact .inl unsettled
    · exact .inr (pinned_of_owned carried.recoverable owned)

theorem Between.carried (between : Between move first last) (carried : Carried move db first) :
    Carried move db last := by
  induction between with
  | start => exact carried
  | prune _ pruned ih => exact ih.prune pruned
  | advance _ recoverable ih => exact ⟨ih.keyed, recoverable, ih.source, ih.kept⟩

/-! ## The commit -/

/-- A row of the queue once its transaction has cancelled what leaves the room. -/
def committedRow (input : CommitRoomMoveQueue) (now : String) (item : SupervisedInboxItem) :
    SupervisedInboxItem :=
  if leavesRoom input item then roomMoveCancelled input.operationId now item else item

theorem roomMoveCancelled_receipt (operationId now : String) (item : SupervisedInboxItem) :
    receipt (roomMoveCancelled operationId now item) = receipt item :=
  recordEvent_receipt _ _ _

theorem committedRow_receipt (input : CommitRoomMoveQueue) (now : String)
    (item : SupervisedInboxItem) : receipt (committedRow input now item) = receipt item := by
  unfold committedRow
  split
  · exact roomMoveCancelled_receipt _ _ _
  · rfl

theorem committedRow_of_stays {input : CommitRoomMoveQueue}
    (stays : leavesRoom input item = false) : committedRow input now item = item := by
  unfold committedRow
  rw [stays]
  rfl

theorem settleAll_frame (rows : List SupervisedInboxItem) (now : String) (db : Database) :
    (rows.foldl (fun db item => settleSupervisedTerminalItem db item now) db).inbox = db.inbox ∧
      (rows.foldl (fun db item => settleSupervisedTerminalItem db item now) db).roomMoves =
        db.roomMoves := by
  induction rows generalizing db with
  | nil => exact ⟨rfl, rfl⟩
  | cons row rest ih =>
    obtain ⟨_, _, settled⟩ := settle_eq db row now
    obtain ⟨inbox, moves⟩ := ih (settleSupervisedTerminalItem db row now)
    rw [settled] at inbox moves
    rw [List.foldl_cons, settled]
    exact ⟨inbox, moves⟩

theorem recoverable_of_roomMoves (same : next.roomMoves = db.roomMoves)
    (recoverable : Recoverable db move) : Recoverable next move := by
  unfold Recoverable
  rw [same]
  exact recoverable

/-- What the commit leaves of the queue. -/
theorem commit_carried {input : CommitRoomMoveQueue}
    (keyed : Table.Keyed (·.inboxItemId) db.inbox) (recoverable : Recoverable db move)
    (ok : commitRoomMoveQueue db input now = .ok committed) :
    Carried move { db with inbox := db.inbox.map (committedRow input now) } committed := by
  have retired : ∀ settled : Database, settled.inbox = db.inbox.map (committedRow input now) →
      settled.roomMoves = db.roomMoves →
      Carried move { db with inbox := db.inbox.map (committedRow input now) }
        (retireIngress settled input.agentId input.oldRoomId) := by
    intro settled inbox moves
    have same : (retireIngress settled input.agentId input.oldRoomId).inbox =
        db.inbox.map (committedRow input now) := inbox
    refine ⟨?_, recoverable_of_roomMoves moves recoverable, fun row member => ?_,
      fun row member _ => ?_⟩
    · rw [same]
      exact keyed.map fun row _ => congrArg Receipt.inboxItemId (committedRow_receipt input now row)
    · rw [same] at member
      exact ⟨row, member, .refl row⟩
    · rw [same]
      exact member
  obtain ⟨inbox, moves⟩ := settleAll_frame (db.inbox.filter (leavesRoom input)) now
    { db with inbox := db.inbox.map (committedRow input now) }
  exact (retired _ inbox moves).prune ok

/-! ## The rollback -/

/-- A row of the queue once its transaction has revived what the operation owns. -/
def restoredRow (input : RollbackRoomMoveIngress) (item : SupervisedInboxItem) :
    SupervisedInboxItem :=
  if revivable input item then revived input.operationId item else item

/-- The cursor that the move captured. -/
def capturedCursor (sourceRoomId : String) (present : Bool) (cursor : Option String) :
    Option IngressCursor :=
  if present then some { roomId := sourceRoomId, lastObservedMessageId := cursor } else none

def rolledBack (db : Database) (input : RollbackRoomMoveIngress) : Database :=
  putHealth (putCursor { db with inbox := db.inbox.map (restoredRow input) } input.agentId
    (capturedCursor input.sourceRoomId input.sourceCursorPresent input.sourceCursor))
    input.agentId none

/-- The checks of a rollback are on its input only. -/
theorem rollback_ok (ok : rollbackRoomMoveIngress db input = .ok next) (other : Database) :
    next = rolledBack db input ∧
      rollbackRoomMoveIngress other input = .ok (rolledBack other input) := by
  obtain ⟨_, operation, ok⟩ := bind_ok ok
  obtain ⟨_, agent, ok⟩ := bind_ok ok
  obtain ⟨_, source, ok⟩ := bind_ok ok
  obtain ⟨_, destination, ok⟩ := bind_ok ok
  obtain ⟨distinct, ok⟩ := require_bind_ok ok
  obtain ⟨_, numeric, ok⟩ := bind_ok ok
  obtain ⟨carries, ok⟩ := require_bind_ok ok
  cases ok
  refine ⟨rfl, ?_⟩
  unfold rollbackRoomMoveIngress
  rw [operation, agent, source, destination, numeric]
  simp only [Checked.require, if_pos distinct, if_pos carries]
  rfl

theorem restoredRow_receipt (input : RollbackRoomMoveIngress) (item : SupervisedInboxItem) :
    receipt (restoredRow input item) = receipt item := by
  unfold restoredRow
  split
  · exact recordEvent_receipt _ _ _
  · rfl

theorem restoredRow_of_stays (stays : revivable input item = false) :
    restoredRow input item = item := by
  unfold restoredRow
  rw [stays]
  rfl

theorem revivable_cancelled (owned : revivable input item = true) :
    item.state = .cancelledByRoomMove := by
  simp only [revivable, Bool.and_eq_true, decide_eq_true_eq] at owned
  exact owned.1.2

/-- A row that was restored is not restored again. -/
theorem restoredRow_idem (input : RollbackRoomMoveIngress) (item : SupervisedInboxItem) :
    restoredRow input (restoredRow input item) = restoredRow input item := by
  refine restoredRow_of_stays (Bool.eq_false_iff.mpr fun owned => ?_)
  have cancelled := revivable_cancelled owned
  by_cases first : revivable input item = true
  · rw [restoredRow, if_pos first, revived_state] at cancelled
    cases cancelled
  · rw [Bool.not_eq_true] at first
    rw [restoredRow_of_stays first] at owned
    exact Bool.eq_false_iff.mp first owned

/-- A rollback after its own rollback writes what is there. -/
theorem rolledBack_idem (db : Database) (input : RollbackRoomMoveIngress) :
    rolledBack (rolledBack db input) input = rolledBack db input := by
  have rows : (db.inbox.map (restoredRow input)).map (restoredRow input) =
      db.inbox.map (restoredRow input) := by
    rw [List.map_map]
    exact List.map_congr_left fun row _ => restoredRow_idem input row
  simp only [rolledBack, putHealth, putCursor, rows, Function.update_idem]

/-! ## The boundary of the cancellation -/

theorem activatingFifo_rolledBack (db : Database) (input : RollbackRoomMoveIngress)
    (move : AgentRoomMove) : activatingFifo (rolledBack db input) move = activatingFifo db move := by
  have ids : ∀ row, (restoredRow input row).inboxItemId = row.inboxItemId :=
    fun row => congrArg Receipt.inboxItemId (restoredRow_receipt input row)
  have found : ∀ id, (rolledBack db input).item id = (db.item id).map (restoredRow input) :=
    fun id => Table.find_map ids id db.inbox
  have sequence : ∀ row, (restoredRow input row).fifoSequence = row.fifoSequence :=
    fun row => congrArg Receipt.fifoSequence (restoredRow_receipt input row)
  unfold activatingFifo
  cases move.activatingInboxItemId with
  | none => rfl
  | some id =>
    simp only [Option.bind_some, found, Option.map_map, Function.comp_def, sequence]

/-- The boundary never rises while rows are only deleted. -/
theorem activatingFifo_le (keyed : Table.Keyed (·.inboxItemId) db.inbox)
    (source : ∀ row ∈ next.inbox, ∃ item ∈ db.inbox, receipt row = receipt item) :
    activatingFifo next move ≤ activatingFifo db move := by
  unfold activatingFifo
  cases move.activatingInboxItemId with
  | none => exact le_rfl
  | some id =>
    rw [Option.bind_some, Option.bind_some]
    cases known : next.item id with
    | none => exact Nat.zero_le _
    | some row =>
      obtain ⟨member, named⟩ := item_ok known
      obtain ⟨item, itemMember, same⟩ := source row member
      have ids : item.inboxItemId = id := by
        rw [← named]
        exact (congrArg Receipt.inboxItemId same).symm
      have there : db.item id = some item := by
        rw [← ids]
        exact keyed.find itemMember
      have sequence : row.fifoSequence = item.fifoSequence :=
        congrArg Receipt.fifoSequence same
      rw [there]
      exact le_of_eq sequence

/-! ## What compensation restores -/

/-- The delivery columns of a row. -/
structure SameDelivery (item row : SupervisedInboxItem) : Prop where
  state : row.state = item.state
  providerTurnId : row.providerTurnId = item.providerTurnId
  outcome : row.outcome = item.outcome
  failureCode : row.failureCode = item.failureCode
  attemptCount : row.attemptCount = item.attemptCount

/-- The compensation of a move undid its commit exactly. -/
structure Compensated (before : Database) (move : AgentRoomMove) (destinationRoomId : String)
    (final : Database) : Prop where
  restored : ∀ item ∈ before.inbox, leavesRoom (queueCommit before move) item = true →
    (∃ row ∈ final.inbox, row.inboxItemId = item.inboxItemId) ∧
      ∀ row ∈ final.inbox, row.inboxItemId = item.inboxItemId → SameDelivery item row
  unchanged : ∀ item ∈ before.inbox, leavesRoom (queueCommit before move) item = false →
    ¬ OwnedBy move item →
    (item.state.isFinal = false → item ∈ final.inbox) ∧
      ∀ row ∈ final.inbox, row.inboxItemId = item.inboxItemId → Trims item row
  cursor : final.cursors move.agentId =
    capturedCursor move.sourceRoomId move.sourceCursorPresent move.sourceCursor
  twice : rollbackRoomMoveIngress final (compensation final move destinationRoomId) = .ok final
  unclaimable : ∀ item ∈ before.inbox, leavesRoom (queueCommit before move) item = true →
    item.state = .blocked → ∀ agentId expected now claimed next,
      claimHead final agentId expected now = .ok (some claimed, next) →
        claimed.inboxItemId ≠ item.inboxItemId

section Compensation

variable {db committed pruned final : Database} {move : AgentRoomMove}
  (destinationRoomId now : String)

theorem leavesRoom_queueCommit (leaves : leavesRoom (queueCommit db move) item = true) :
    item.agentId = move.agentId ∧ item.roomId = move.sourceRoomId ∧
      activatingFifo db move < item.fifoSequence ∧ item.state.isFinal = false := by
  simp only [leavesRoom, Bool.and_eq_true, decide_eq_true_eq, Bool.not_eq_true'] at leaves
  exact ⟨leaves.1.1.1, leaves.1.1.2, leaves.1.2, leaves.2⟩

theorem cancelled_owned (leaves : leavesRoom (queueCommit db move) item = true) :
    OwnedBy move (roomMoveCancelled move.operationId now item) := by
  have receipts := roomMoveCancelled_receipt move.operationId now item
  have sequence : (roomMoveCancelled move.operationId now item).fifoSequence = item.fifoSequence :=
    congrArg Receipt.fifoSequence receipts
  obtain ⟨agent, room, _⟩ := leavesRoom_queueCommit leaves
  refine ⟨(congrArg Receipt.agentId receipts).trans agent,
    (congrArg Receipt.roomId receipts).trans room, ?_⟩
  rw [sequence]
  exact (recordEvent_hasEvent _ _ _ _).mpr (.inr rfl)

/-- A row that the commit cancelled is there for the rollback, which revives it. -/
theorem revivable_of_leaves (keyed : Table.Keyed (·.inboxItemId) db.inbox)
    (carried : Carried move { db with inbox := db.inbox.map (committedRow (queueCommit db move) now) } pruned)
    (member : item ∈ db.inbox) (leaves : leavesRoom (queueCommit db move) item = true) :
    roomMoveCancelled move.operationId now item ∈ pruned.inbox ∧
      revivable (compensation pruned move destinationRoomId)
        (roomMoveCancelled move.operationId now item) = true := by
  have cancelled : committedRow (queueCommit db move) now item =
      roomMoveCancelled move.operationId now item := by
    unfold committedRow
    rw [leaves]
    rfl
  have owned := cancelled_owned now leaves
  have there : roomMoveCancelled move.operationId now item ∈ pruned.inbox := by
    refine carried.kept _ ?_ (.inr owned)
    rw [← cancelled]
    exact List.mem_map_of_mem member
  have source : ∀ row ∈ pruned.inbox, ∃ old ∈ db.inbox, receipt row = receipt old := by
    intro row rowMember
    obtain ⟨middle, middleMember, trims⟩ := carried.source row rowMember
    obtain ⟨old, oldMember, rfl⟩ := List.mem_map.mp middleMember
    exact ⟨old, oldMember, trims.receipt_eq.trans (committedRow_receipt _ _ _)⟩
  have boundary : activatingFifo pruned move ≤ activatingFifo db move :=
    activatingFifo_le keyed source
  have sequence : (roomMoveCancelled move.operationId now item).fifoSequence = item.fifoSequence :=
    congrArg Receipt.fifoSequence (roomMoveCancelled_receipt _ _ _)
  have above : activatingFifo pruned move <
      (roomMoveCancelled move.operationId now item).fifoSequence := by
    rw [sequence]
    exact lt_of_le_of_lt boundary (leavesRoom_queueCommit leaves).2.2.1
  obtain ⟨agent, room, has⟩ := owned
  refine ⟨there, ?_⟩
  simp only [revivable, Bool.and_eq_true, decide_eq_true_eq]
  exact ⟨⟨⟨⟨agent, room⟩, above⟩, roomMoveCancelled_state _ _ _⟩, has⟩

/-- What the rollback makes of a row that the commit cancelled. -/
theorem restored_row (keyed : Table.Keyed (·.inboxItemId) db.inbox)
    (carried : Carried move { db with inbox := db.inbox.map (committedRow (queueCommit db move) now) } pruned)
    (member : item ∈ db.inbox) (leaves : leavesRoom (queueCommit db move) item = true) :
    let input := compensation pruned move destinationRoomId
    let row := revived move.operationId (roomMoveCancelled move.operationId now item)
    row ∈ (rolledBack pruned input).inbox ∧
      ∀ other ∈ (rolledBack pruned input).inbox, other.inboxItemId = item.inboxItemId →
        other = row := by
  intro input row
  obtain ⟨there, owned⟩ := revivable_of_leaves destinationRoomId now keyed carried member leaves
  have becomes : restoredRow input (roomMoveCancelled move.operationId now item) = row := by
    rw [restoredRow, if_pos owned]
    rfl
  have rows : (rolledBack pruned input).inbox = pruned.inbox.map (restoredRow input) := rfl
  have final : row ∈ (rolledBack pruned input).inbox := by
    rw [rows, ← becomes]
    exact List.mem_map_of_mem there
  have finalKeyed : Table.Keyed (·.inboxItemId) (rolledBack pruned input).inbox := by
    exact carried.keyed.map fun other _ =>
      congrArg Receipt.inboxItemId (restoredRow_receipt input other)
  have named : row.inboxItemId = item.inboxItemId := by
    rw [← becomes]
    exact congrArg Receipt.inboxItemId
      ((restoredRow_receipt input _).trans (roomMoveCancelled_receipt _ _ _))
  exact ⟨final, fun other otherMember same =>
    finalKeyed.eq otherMember final (same.trans named.symm)⟩

/-- Cancelling and reviving a row changes its state and what is said about it. -/
theorem revived_cancelled (operationId now : String) (item : SupervisedInboxItem) :
    ∃ lastError events, revived operationId (roomMoveCancelled operationId now item) =
      { item with state := .pending, lastError, acknowledgedAt := none, events } := by
  unfold revived roomMoveCancelled
  obtain ⟨first, firstEq⟩ := recordEvent_eq { item with
    state := .cancelledByRoomMove
    lastError := some "Cancelled because the agent moved to another room."
    acknowledgedAt := some now } (.roomMoveCancelled operationId item.fifoSequence) .roomMoveCancelled
  rw [firstEq]
  obtain ⟨last, lastEq⟩ := recordEvent_eq { item with
    state := .pending
    lastError := some "Room move rolled back; source-room delivery was restored without starting a duplicate provider turn."
    acknowledgedAt := none, events := first } (.roomMoveRollback operationId item.fifoSequence)
    .retryScheduled
  exact ⟨_, last, lastEq⟩

/-- A row that the operation never cancelled is left as retention leaves it. -/
theorem unchanged_row (keyed : Table.Keyed (·.inboxItemId) db.inbox)
    (carried : Carried move { db with inbox := db.inbox.map (committedRow (queueCommit db move) now) } pruned)
    (member : item ∈ db.inbox) (stays : leavesRoom (queueCommit db move) item = false)
    (foreign : ¬ OwnedBy move item) :
    let input := compensation pruned move destinationRoomId
    (item.state.isFinal = false → item ∈ (rolledBack pruned input).inbox) ∧
      ∀ row ∈ (rolledBack pruned input).inbox, row.inboxItemId = item.inboxItemId →
        Trims item row := by
  intro input
  have rows : (rolledBack pruned input).inbox = pruned.inbox.map (restoredRow input) := rfl
  have kept : item ∈ db.inbox.map (committedRow (queueCommit db move) now) :=
    List.mem_map.mpr ⟨item, member, committedRow_of_stays stays⟩
  -- the operation's key is not on the row, and trimming adds none
  have notRevived : ∀ row, Trims item row → restoredRow input row = row := by
    intro row trims
    refine restoredRow_of_stays (Bool.eq_false_iff.mpr fun owned => foreign ?_)
    simp only [revivable, Bool.and_eq_true, decide_eq_true_eq] at owned
    obtain ⟨⟨⟨⟨agent, room⟩, _⟩, _⟩, has⟩ := owned
    rcases trims with rfl | ⟨_, events, fewer, rfl⟩
    · exact ⟨agent, room, has⟩
    · obtain ⟨event, recorded, named⟩ := List.any_eq_true.mp has
      exact ⟨agent, room, List.any_eq_true.mpr ⟨event, fewer.subset recorded, named⟩⟩
  refine ⟨fun unsettled => ?_, fun row rowMember same => ?_⟩
  · rw [rows]
    exact List.mem_map.mpr ⟨item, carried.kept item kept (.inl unsettled), notRevived item (.refl item)⟩
  · rw [rows] at rowMember
    obtain ⟨old, oldMember, rfl⟩ := List.mem_map.mp rowMember
    obtain ⟨middle, middleMember, trims⟩ := carried.source old oldMember
    obtain ⟨source, sourceMember, rfl⟩ := List.mem_map.mp middleMember
    have receipts : receipt (restoredRow input old) = receipt source :=
      (restoredRow_receipt input old).trans
        (trims.receipt_eq.trans (committedRow_receipt _ _ _))
    have ids : source.inboxItemId = item.inboxItemId :=
      (congrArg Receipt.inboxItemId receipts).symm.trans same
    rw [keyed.eq sourceMember member ids, committedRow_of_stays stays] at trims
    rw [notRevived old trims]
    exact trims

variable {destinationRoomId now}

/-- Compensation is exact if and only if what the commit cancelled was waiting: the
rollback makes every row it revives `pending`, whatever it was. -/
theorem compensated_iff (keyed : Table.Keyed (·.inboxItemId) db.inbox)
    (recoverable : Recoverable db move)
    (committed_ok : commitRoomMoveQueue db (queueCommit db move) now = .ok committed)
    (between : Between move committed pruned)
    (rolled : rollbackRoomMoveIngress pruned (compensation pruned move destinationRoomId) =
      .ok final) :
    Compensated db move destinationRoomId final ↔
      ∀ item ∈ db.inbox, leavesRoom (queueCommit db move) item = true → item.state = .pending := by
  have carried := between.carried (commit_carried keyed recoverable committed_ok)
  obtain ⟨rfl, repeats⟩ := rollback_ok rolled (rolledBack pruned
    (compensation pruned move destinationRoomId))
  refine ⟨fun compensated item member leaves => ?_, fun waiting => ?_⟩
  · obtain ⟨there, _⟩ := restored_row destinationRoomId now keyed carried member leaves
    have named : (revived move.operationId
        (roomMoveCancelled move.operationId now item)).inboxItemId = item.inboxItemId := by
      obtain ⟨_, _, equal⟩ := revived_cancelled move.operationId now item
      rw [equal]
    have same := ((compensated.restored item member leaves).2 _ there named).state
    rw [revived_state] at same
    exact same.symm
  · refine ⟨fun item member leaves => ?_, fun item member stays foreign =>
      unchanged_row destinationRoomId now keyed carried member stays foreign, ?_, ?_,
      fun item member leaves blocked => ?_⟩
    · obtain ⟨there, only⟩ := restored_row destinationRoomId now keyed carried member leaves
      obtain ⟨_, _, equal⟩ := revived_cancelled move.operationId now item
      refine ⟨⟨_, there, by rw [equal]⟩, fun row rowMember same => ?_⟩
      rw [only row rowMember same, equal]
      exact ⟨(waiting item member leaves).symm, rfl, rfl, rfl, rfl⟩
    · exact Function.update_self _ _ _
    · have boundary : compensation (rolledBack pruned (compensation pruned move destinationRoomId))
          move destinationRoomId = compensation pruned move destinationRoomId := by
        unfold compensation
        rw [activatingFifo_rolledBack]
      rw [boundary, repeats, rolledBack_idem]
    · rw [waiting item member leaves] at blocked
      cases blocked

end Compensation

/-- In every reachable store, compensation of a recoverable move is exact if and only if
every row that its commit cancels was `pending`. -/
theorem room_move_compensation (host : Host) (log : List Op)
    {committed pruned final : Database} {move : AgentRoomMove} {destinationRoomId now : String}
    (recoverable : Recoverable (run host log) move)
    (commits : commitRoomMoveQueue (run host log) (queueCommit (run host log) move) now =
      .ok committed)
    (between : Between move committed pruned)
    (rolled : rollbackRoomMoveIngress pruned (compensation pruned move destinationRoomId) =
      .ok final) :
    Compensated (run host log) move destinationRoomId final ↔
      ∀ item ∈ (run host log).inbox, leavesRoom (queueCommit (run host log) move) item = true →
        item.state = .pending :=
  compensated_iff (sound_run host log).ids recoverable commits between rolled

/-! ## A blocked turn in the old room -/

def now : String := "2026-01-01T00:00:00.000Z"

def roomMessage : SyntheticMessage :=
  { agentId := "agent", roomId := "room", sourceMessageId := "m1", sourceMessage := .object []
    activation := .object [], uuid := "item" }

/-- A move that no message of the room asked for. -/
def inspectorMove : AgentRoomMove :=
  { operationId := "move", requestId := "request", agentId := "agent", sourceRoomId := "room"
    destinationRoomId := "destination", daemonGeneration := 1, workAttemptId := none
    executionGenerationId := none, agentSessionId := none, activatingInboxItemId := none
    providerTurnId := none, effectId := none, phase := .membershipCommitted
    sourceCursorPresent := true, sourceCursor := some "msg_1" }

def moveBegins : Op := .external Host.quiet [inspectorMove]

/-- The move's commit and its rollback. -/
def compensated (log : List Op) : Except String Database := do
  let committed ← commitRoomMoveQueue (run Host.quiet log) (queueCommit (run Host.quiet log)
    inspectorMove) now
  rollbackRoomMoveIngress committed (compensation committed inspectorMove "destination")

def waitingMessage : List Op := [.insertSyntheticMessage roomMessage, moveBegins]

/-- The turn of the message may have run when it is blocked. -/
def blockedTurn : List Op :=
  [.insertSyntheticMessage roomMessage, .claimHead "agent" none now,
    .checkpointTurnStarted "item" "turn" ⟨"attempt", "generation", "conversation"⟩,
    .transition "item" .blocked {} now, moveBegins]

/-- The provider turn of the row that the agent claims next. -/
def claimedTurn (db : Database) : Option (Option String) :=
  ((claimHead db "agent" none now).toOption.bind Prod.fst).map (·.providerTurnId)

theorem waiting_message_restored : ∃ final, compensated waitingMessage = .ok final ∧
    Compensated (run Host.quiet waitingMessage) inspectorMove "destination" final := by
  have waits : ∀ item ∈ (run Host.quiet waitingMessage).inbox,
      leavesRoom (queueCommit (run Host.quiet waitingMessage) inspectorMove) item = true →
      item.state = .pending := by
    decide +kernel
  have restores : (compensated waitingMessage).isOk = true := by decide +kernel
  cases ok : compensated waitingMessage with
  | error reason =>
    rw [ok] at restores
    cases restores
  | ok final =>
    obtain ⟨committed, commits, rolled⟩ := bind_ok ok
    exact ⟨final, rfl, (room_move_compensation Host.quiet waitingMessage
      ⟨inspectorMove, List.mem_singleton_self _, rfl, rfl, rfl, rfl⟩ commits .start rolled).mpr waits⟩

/-- The blocked message is pending after the compensation, and is claimed again with the
turn that may have run. -/
theorem blocked_turn_is_claimed_again :
    ∃ final, compensated blockedTurn = .ok final ∧
      ¬ Compensated (run Host.quiet blockedTurn) inspectorMove "destination" final ∧
      claimedTurn final = some (some "turn") := by
  have blocked : ∃ item ∈ (run Host.quiet blockedTurn).inbox,
      leavesRoom (queueCommit (run Host.quiet blockedTurn) inspectorMove) item = true ∧
        item.state = .blocked := by
    decide +kernel
  have claims : (compensated blockedTurn).toOption.bind claimedTurn = some (some "turn") := by
    decide +kernel
  cases ok : compensated blockedTurn with
  | error reason =>
    rw [ok] at claims
    cases claims
  | ok final =>
    rw [ok] at claims
    refine ⟨final, rfl, fun exact' => ?_, claims⟩
    obtain ⟨committed, commits, rolled⟩ := bind_ok ok
    obtain ⟨item, member, leaves, state⟩ := blocked
    have waits := (compensated_iff (sound_run Host.quiet blockedTurn).ids
      ⟨inspectorMove, List.mem_singleton_self _, rfl, rfl, rfl, rfl⟩ commits .start rolled).mp
      exact' item member leaves
    rw [state] at waits
    cases waits

end LetAgents.Inbox.RoomMoveCompensation

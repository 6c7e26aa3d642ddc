import LetAgents.Inbox.Delivery

/-!
# Room moves

Source: src/apps/desktop/daemon/supervised-agent-inbox-store.ts:1564-1632.

The queue side of a room move: the commit cancels the later work of the old room,
and the rollback of the same operation revives what it cancelled. The event key of
the cancellation is the proof of ownership.
-/
namespace LetAgents.Inbox.RoomMove

open Lib.Checked Records Retention Ingress

structure CommitRoomMoveQueue where
  operationId : String
  agentId : String
  oldRoomId : String
  afterFifoSequence : Nat

/-- The rows that the commit cancels. -/
def leavesRoom (input : CommitRoomMoveQueue) (item : SupervisedInboxItem) : Bool :=
  item.agentId = input.agentId && item.roomId = input.oldRoomId &&
    input.afterFifoSequence < item.fifoSequence && !item.state.isFinal

def roomMoveCancelled (operationId now : String) (item : SupervisedInboxItem) :
    SupervisedInboxItem :=
  { item with
    state := .cancelledByRoomMove
    lastError := some "Cancelled because the agent moved to another room."
    acknowledgedAt := some now }.recordEvent
    (.roomMoveCancelled operationId item.fifoSequence) .roomMoveCancelled

/-- `DELETE … WHERE agent_id=? AND room_id=?` of the cursor and the health. -/
def retireIngress (db : Database) (agentId roomId : String) : Database :=
  putHealth (putCursor db agentId ((db.cursors agentId).filter fun row => row.roomId ≠ roomId))
    agentId ((db.health agentId).filter fun row => row.roomId ≠ roomId)

def commitRoomMoveQueue (db : Database) (input : CommitRoomMoveQueue) (now : String) :
    Except String Database :=
  let rows := db.inbox.filter (leavesRoom input)
  let cancelled := { db with
    inbox := db.inbox.map fun item =>
      if leavesRoom input item then roomMoveCancelled input.operationId now item else item }
  let settled := rows.foldl (fun db item => settleSupervisedTerminalItem db item now) cancelled
  pruneSupervisedAgentHistory (retireIngress settled input.agentId input.oldRoomId) input.agentId
    none

structure RollbackRoomMoveIngress where
  operationId : String
  agentId : String
  sourceRoomId : String
  destinationRoomId : String
  sourceCursorPresent : Bool
  sourceCursor : Option String
  afterFifoSequence : Nat

/-- The cancelled rows that carry the operation's own event. -/
def revivable (input : RollbackRoomMoveIngress) (item : SupervisedInboxItem) : Bool :=
  item.agentId = input.agentId && item.roomId = input.sourceRoomId &&
    input.afterFifoSequence < item.fifoSequence && item.state = .cancelledByRoomMove &&
    item.hasEvent (.roomMoveCancelled input.operationId item.fifoSequence)

def revived (operationId : String) (item : SupervisedInboxItem) : SupervisedInboxItem :=
  { item with
    state := .pending
    lastError := some "Room move rolled back; source-room delivery was restored without starting a duplicate provider turn."
    acknowledgedAt := none }.recordEvent
    (.roomMoveRollback operationId item.fifoSequence) .retryScheduled

def rollbackRoomMoveIngress (db : Database) (input : RollbackRoomMoveIngress) :
    Except String Database := do
  requireField input.operationId "operation_id"
  requireField input.agentId "agent_id"
  requireField input.sourceRoomId "source_room_id"
  requireField input.destinationRoomId "destination_room_id"
  require (input.sourceRoomId ≠ input.destinationRoomId)
    "Room-move rollback requires distinct rooms."
  requireOptionalCursor input.sourceCursor
  require (input.sourceCursorPresent ∨ input.sourceCursor = none)
    "Absent source cursor authority cannot carry a cursor value."
  let restored := { db with
    inbox := db.inbox.map fun item =>
      if revivable input item then revived input.operationId item else item }
  let cursor := if input.sourceCursorPresent then
      some { roomId := input.sourceRoomId, lastObservedMessageId := input.sourceCursor }
    else none
  return putHealth (putCursor restored input.agentId cursor) input.agentId none

end LetAgents.Inbox.RoomMove

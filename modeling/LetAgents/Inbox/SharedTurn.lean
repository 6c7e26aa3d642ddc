import LetAgents.Inbox.SafeRetention

/-!
# Two items of one turn

The key of a turn binding has the continuation, the key of an effect has not. When two
items are bound to one turn of a generation, retention deletes the tombstones of the
turn with the first item, although the binding of the second is still there.
-/
namespace LetAgents.Inbox.SharedTurn

open Lib Lib.Js Lib.Checked Records Retention Ingress DeliveryDrain RoomMove Store Writes
  Transaction Reachable RoomMoveCompensation TurnBinding EffectLife EffectOwners FifoLane
  TurnBarrier SafeRetention

/-! ## A queue of new messages -/

/-- The id of a message, longer than every id so far. -/
def mark (n : Nat) : String := String.ofList (List.replicate n 'x')

theorem mark_toList (n : Nat) : (mark n).toList = List.replicate n 'x' := String.toList_ofList

theorem mark_length (n : Nat) : (mark n).toList.length = n := by
  rw [mark_toList, List.length_replicate]

theorem mark_nonblank (positive : 0 < n) : isBlank (mark n) = false := by
  obtain ⟨k, rfl⟩ := Nat.exists_eq_succ_of_ne_zero (Nat.ne_of_gt positive)
  unfold isBlank
  rw [mark_toList, List.replicate_succ, List.all_cons]
  rfl

theorem continuationSource_length (n : Nat) :
    n < (continuationSource (mark n)).toList.length := by
  have named : "task-continuation:".toList.length = 18 := by decide
  unfold continuationSource
  rw [String.toList_append, List.length_append, mark_length, named]
  omega

/-- Every id and every source id is shorter than the bound. -/
structure Short (db : Database) (bound : Nat) : Prop where
  issued : ∀ id ∈ db.issued, id.toList.length < bound
  sources : ∀ item ∈ db.inbox, item.sourceMessageId.toList.length < bound
  allowed : assertDeliveryDrainIngressAllowed db "agent" = .ok ()
  positive : 0 < bound

/-- The row of the next message of the queue. -/
def queued (n fifoSequence : Nat) : SupervisedInboxItem :=
  newItem (mark n) "agent" "room" (mark n) (.object []) (.object []) fifoSequence

theorem enqueue_new (agent : isBlank input.agentId = false) (room : isBlank input.roomId = false)
    (source : isBlank input.sourceMessageId = false)
    (allowed : assertDeliveryDrainIngressAllowed db input.agentId = .ok ())
    (absent : bySource db input.agentId input.roomId input.sourceMessageId = none)
    (issues : db.issueFor input.uuid input.sourceMessageId = .ok issued) :
    enqueueSyntheticMessage db input = .ok { issued with
      inbox := db.inbox ++ [newItem input.uuid input.agentId input.roomId input.sourceMessageId
        input.sourceMessage input.activation (db.maxFifo input.agentId + 1)] } := by
  have inserts : insertSyntheticMessage db input =
      .ok (newItem input.uuid input.agentId input.roomId input.sourceMessageId
        input.sourceMessage input.activation (db.maxFifo input.agentId + 1), { issued with
          inbox := db.inbox ++ [newItem input.uuid input.agentId input.roomId input.sourceMessageId
            input.sourceMessage input.activation (db.maxFifo input.agentId + 1)] }) := by
    unfold insertSyntheticMessage
    rw [allowed, ok_bind, absent]
    rw [issues, ok_bind]
    rfl
  unfold enqueueSyntheticMessage requireField
  rw [require_of agent, ok_bind, require_of room, ok_bind, require_of source, ok_bind, inserts,
    ok_bind]
  rfl

/-- The next message of the queue. -/
def nextMessage (n : Nat) : SyntheticMessage := message (mark n) "room" (mark n)

theorem insert_queued (short : Short db bound) :
    step db (.insertSyntheticMessage (nextMessage bound)) = .ok { db with
      inbox := db.inbox ++ [queued bound (db.maxFifo "agent" + 1)]
      issued := mark bound :: db.issued } := by
  have unnamed : ∀ item ∈ db.inbox, item.sourceMessageId ≠ mark bound := by
    intro item member same
    have below := short.sources item member
    rw [same, mark_length] at below
    exact lt_irrefl _ below
  have other : ∀ text : String, text.toList.length ≤ bound →
      text ≠ continuationSource (mark bound) := by
    rintro text below rfl
    exact absurd below (Nat.not_le.mpr (continuationSource_length bound))
  have absent : bySource db "agent" "room" (mark bound) = none := by
    refine List.find?_eq_none.mpr fun item member => ?_
    simp [unnamed item member]
  have fresh : mark bound ∉ db.issued := by
    intro known
    have below := short.issued _ known
    rw [mark_length] at below
    exact lt_irrefl _ below
  have issues : db.issueFor (mark bound) (mark bound) =
      .ok { db with issued := mark bound :: db.issued } := by
    unfold Database.issueFor Database.issue
    rw [require_of (other _ (le_of_eq (mark_length bound))), ok_bind, require_of, ok_bind]
    · rfl
    · exact ⟨fresh, fun item member => other _ (le_of_lt (short.sources item member))⟩
  have agent : isBlank "agent" = false := by decide
  have room : isBlank "room" = false := by decide
  have enqueued := @enqueue_new db _ (nextMessage bound) agent room (mark_nonblank short.positive)
    short.allowed absent issues
  exact enqueued

theorem maxFifo_queued {db d : Database} (maximum : db.maxFifo "agent" = top)
    (inbox : d.inbox = db.inbox ++ [queued n (top + 1)]) : d.maxFifo "agent" = top + 1 := by
  unfold Database.maxFifo at maximum ⊢
  rw [inbox, List.filter_append, List.map_append, List.foldl_append, maximum]
  have kept : [queued n (top + 1)].filter (fun item => item.agentId = "agent") =
      [queued n (top + 1)] := by
    refine List.filter_eq_self.mpr fun item member => ?_
    rw [List.mem_singleton.mp member]
    exact decide_eq_true rfl
  change max top (top + 1) = top + 1
  omega

def nextMessages (bound n : Nat) : List Op :=
  (List.range n).map fun k => .insertSyntheticMessage (nextMessage (bound + k))

def queue (bound top n : Nat) : List SupervisedInboxItem :=
  (List.range n).map fun k => queued (bound + k) (top + k + 1)

/-- The database after `n` new messages. -/
structure Queued (db d : Database) (bound top n : Nat) : Prop where
  inbox : d.inbox = db.inbox ++ queue bound top n
  frame : d = { db with inbox := d.inbox, issued := d.issued }
  short : Short d (bound + n)
  top : d.maxFifo "agent" = top + n

theorem queued_run (short : Short (run host log) bound)
    (maximum : (run host log).maxFifo "agent" = top) (n : Nat) :
    Queued (run host log) (run host (log ++ nextMessages bound n)) bound top n := by
  induction n with
  | zero =>
    simp only [nextMessages, List.range_zero, List.map_nil, List.append_nil]
    exact ⟨(List.append_nil _).symm, rfl, short, maximum⟩
  | succ n ih =>
    have split : log ++ nextMessages bound (n + 1) =
        log ++ nextMessages bound n ++ [.insertSyntheticMessage (nextMessage (bound + n))] := by
      rw [nextMessages, List.range_succ, List.map_append, ← List.append_assoc]
      rfl
    rw [split, run_concat, Replay.attempt_of_ok (insert_queued ih.short)]
    constructor
    case inbox =>
      rw [queue, List.range_succ, List.map_append, ← List.append_assoc]
      rw [ih.inbox, ih.top]
      rfl
    case frame =>
      rw [ih.frame]
    case short =>
      constructor
      case issued =>
        intro id listed
        rcases List.mem_cons.mp listed with rfl | before
        · rw [mark_length]
          omega
        · have below := ih.short.issued id before
          omega
      case sources =>
        intro item member
        rcases List.mem_append.mp member with before | added
        · have below := ih.short.sources item before
          omega
        · rw [List.mem_singleton.mp added]
          change (mark (bound + n)).toList.length < _
          rw [mark_length]
          omega
      case allowed => exact ih.short.allowed
      case positive => exact Nat.succ_pos _
    case top =>
      rw [maxFifo_queued ih.top (by rw [ih.top])]
      rfl

/-! ## Deleting the older item -/

theorem deleteReceipts_total (stale : List SupervisedInboxItem)
    (free : ∀ row ∈ d.inbox, row.blockedByInboxItemId = none) :
    ∃ kept, stale.foldlM deleteReceipt d = .ok kept := by
  induction stale generalizing d with
  | nil => exact ⟨d, rfl⟩
  | cons first rest ih =>
    have unreferenced : ∀ other ∈ d.inbox, other.inboxItemId ≠ first.inboxItemId →
        other.blockedByInboxItemId ≠ some first.inboxItemId := by
      intro other member _
      rw [free other member]
      rintro ⟨⟩
    rw [List.foldlM_cons]
    unfold deleteReceipt
    rw [require_of unreferenced, ok_bind]
    exact ih fun row member => free row (List.mem_of_mem_filter member)

/-- The tombstones of a deleted item's turn are gone. -/
theorem deleteReceipts_forgets {stale : List SupervisedInboxItem} {d next : Database}
    (ok : stale.foldlM deleteReceipt d = .ok next) {gone : SupervisedInboxItem}
    (listed : gone ∈ stale) (bound : BoundTurn gone) {tombstone : EffectTombstone}
    (ofTurn : BoundTo tombstone.turn gone) : tombstone ∉ next.tombstones := by
  induction stale generalizing d with
  | nil => cases listed
  | cons first rest ih =>
    obtain ⟨middle, deleted, continued⟩ := bind_ok ok
    rcases List.mem_cons.mp listed with rfl | inRest
    · obtain ⟨_, written⟩ := require_bind_ok deleted
      cases written
      intro member
      have kept := foldlM_preserves (motive := fun c : Database => tombstone ∉ c.tombstones)
        (fun c row c' _ absent deletes => ?_) continued ?_
      · exact kept member
      · obtain ⟨_, written⟩ := require_bind_ok deletes
        cases written
        exact fun again => absent (List.mem_of_mem_filter again)
      · intro before
        have spared := (List.mem_filter.mp before).2
        obtain ⟨binding, known, turn⟩ := ofTurn
        obtain ⟨agent, _, turnId⟩ := bound.agrees binding known
        simp only [SupervisedEffectRecord.turn, ProviderTurnBinding.turn,
          ProviderTurn.mk.injEq] at turn
        rw [Bool.not_eq_true', Option.any_eq_false] at spared
        have other := spared binding known
        simp [← turn.1, agent, turn.2.1, turnId, turn.2.2] at other
    · exact ih continued inRest

/-- The oldest of more disposable receipts than the budget is deleted with its turn's
tombstones. -/
theorem prune_forgets (member : oldest ∈ d.inbox) (disposes : disposable d agentId oldest = true)
    (bound : BoundTurn oldest)
    (older : ∀ other ∈ d.inbox, disposable d agentId other = true → other ≠ oldest →
      oldest.fifoSequence < other.fifoSequence)
    (many : 200 < (d.inbox.filter (disposable d agentId)).length) (few : d.effects.length ≤ 32)
    (free : ∀ row ∈ d.inbox, row.blockedByInboxItemId = none) :
    ∃ next, pruneSupervisedAgentHistory d agentId none = .ok next ∧
      ∀ tombstone : EffectTombstone, BoundTo tombstone.turn oldest →
        tombstone ∉ next.tombstones := by
  have whole : compactableUncertain d agentId none = [] := by
    refine List.drop_eq_nil_of_le ?_
    rw [List.length_insertionSort]
    exact (List.length_filter_le _ _).trans few
  obtain ⟨kept, deletion⟩ := deleteReceipts_total
    (staleReceipts (dropUnboundTombstones d agentId) agentId)
    (d := dropUnboundTombstones d agentId) free
  have prunes : pruneSupervisedAgentHistory d agentId none =
      .ok (trimObserved (compactSupervisedTerminalHistory kept agentId) agentId) := by
    unfold pruneSupervisedAgentHistory
    rw [whole, List.foldlM_nil]
    change (do
      let kept ← (staleReceipts (dropUnboundTombstones d agentId) agentId).foldlM deleteReceipt
        (dropUnboundTombstones d agentId)
      return trimObserved (compactSupervisedTerminalHistory kept agentId) agentId) = _
    rw [deletion]
    rfl
  have listed : ∀ row, row ∈ newestFirst (dropUnboundTombstones d agentId) agentId ↔
      row ∈ d.inbox ∧ disposable d agentId row = true := fun row => mem_newestFirst
  have stale : oldest ∈ staleReceipts (dropUnboundTombstones d agentId) agentId := by
    by_contra spared
    obtain ⟨gone, past⟩ : ∃ gone, gone ∈ staleReceipts (dropUnboundTombstones d agentId) agentId := by
      refine List.exists_mem_of_length_pos ?_
      rw [staleReceipts_eq, List.length_drop]
      have within : budgetOf (dropUnboundTombstones d agentId) agentId ≤ 200 := Nat.sub_le _ _
      have all : (newestFirst (dropUnboundTombstones d agentId) agentId).length =
          (d.inbox.filter (disposable d agentId)).length := List.length_insertionSort _ _
      omega
    obtain ⟨goneMember, goneDisposes⟩ := (listed gone).mp (List.mem_of_mem_drop past)
    have below := stale_older ((listed oldest).mpr ⟨member, disposes⟩) spared past
    have same : gone = oldest := by
      by_contra other
      exact absurd (older gone goneMember goneDisposes other) (Nat.not_lt.mpr below)
    exact spared (same ▸ past)
  exact ⟨_, prunes, fun tombstone ofTurn => deleteReceipts_forgets deletion stale bound ofTurn⟩

/-- Nothing pins a settled item of the agent. -/
structure Unpinned (d : Database) : Prop where
  controls : d.host.controls "agent" = none
  cutovers : d.cutovers = []
  roomMoves : d.roomMoves = []
  effects : ∀ effect ∈ d.effects, effect.state = .uncertain

theorem Unpinned.disposable (unpinned : Unpinned d) (agent : item.agentId = "agent")
    (final : item.state.isFinal = true) : Retention.disposable d "agent" item = true := by
  have control : pinnedByControl d item = false := by
    unfold pinnedByControl
    rw [agent, unpinned.controls]
    rfl
  have drain : pinnedByDrain d item = false := by
    unfold pinnedByDrain
    rw [unpinned.cutovers]
    rfl
  have move : pinnedByMove d item = false := by
    unfold pinnedByMove owningMoves
    rw [unpinned.roomMoves]
    rfl
  have effect : pinnedByEffect d item = false := by
    unfold pinnedByEffect
    rw [List.any_eq_false]
    intro effect member
    simp [unpinned.effects effect member]
  unfold Retention.disposable
  rw [agent, final, control, drain, move, effect]
  rfl

/-! ## The run -/

/-- One more uncertain mutation than retention keeps in full. -/
def uncertainMutations : List Op :=
  (List.range 33).flatMap fun n =>
    [.prepareEffect (request "send_message" (toString n) (toString n)),
      .markEffectExecuting ⟨toString n, oneTurn, "t"⟩]

/-- The first item is stopped, and the second gets its turn in another conversation. -/
def sharedTurn : List Op :=
  [.insertSyntheticMessage (message "first" "room" "m1"),
    .claimHead "agent" none "t",
    .checkpointTurnStarted "first" "turn" ⟨"attempt", "generation", "conversation"⟩] ++
  uncertainMutations ++
  [.normalizeInterruptedEffects (some "agent") "t",
    .cancelInterruptedTurn "first" "stopped" none "t",
    .insertSyntheticMessage (message "second" "room" "m2"),
    .claimHead "agent" none "t",
    .checkpointTurnStarted "second" "turn" ⟨"attempt", "generation", "other conversation"⟩]

/-- What the run has to leave for the deletion. -/
def sharedFacts (d : Database) : Bool :=
  d.inbox.map (fun item => (item.inboxItemId, item.agentId, item.fifoSequence, item.state)) =
      [("first", "agent", 1, .cancelledByUser), ("second", "agent", 2, .dispatching)] &&
    d.inbox.all (fun item => item.blockedByInboxItemId = none &&
      item.sourceMessageId.toList.length < 20 && item.binding.any fun binding =>
        binding.roomId = "room" && binding.turn = oneTurn.turn) &&
    d.issued.all (fun id => id.toList.length < 20) && d.maxFifo "agent" = 2 &&
    (assertDeliveryDrainIngressAllowed d "agent").toBool && (d.host.controls "agent").isNone &&
    d.cutovers.isEmpty && d.roomMoves.isEmpty && d.effects.length ≤ 32 &&
    d.effects.all (fun effect => effect.state = .uncertain) &&
    d.tombstones.any fun tombstone => tombstone.roomId = "room" && tombstone.turn = oneTurn.turn

theorem sharedTurn_facts : sharedFacts (run running sharedTurn) = true := by decide +kernel

/-- The move that cancels what came after the second item. -/
def moveRest : CommitRoomMoveQueue := { moveAway "move" "room" with afterFifoSequence := 2 }

theorem settleAll_unbound {rows : List SupervisedInboxItem} (unbound : ∀ row ∈ rows, row.binding = none)
    (now : String) (d : Database) :
    rows.foldl (fun d item => settleSupervisedTerminalItem d item now) d = d := by
  induction rows generalizing d with
  | nil => rfl
  | cons row rest ih =>
    have same : settleSupervisedTerminalItem d row now = d := by
      unfold settleSupervisedTerminalItem
      rw [unbound row List.mem_cons_self]
    rw [List.foldl_cons, same]
    exact ih (fun other listed => unbound other (.tail _ listed)) d

/-- The database of the move before it is pruned: only the queue is cancelled. -/
theorem moveRest_executes (inbox : db.inbox = kept ++ queue 20 2 n)
    (early : ∀ row ∈ kept, row.fifoSequence ≤ 2) :
    ∃ d, Executes db (.commitRoomMoveQueue moveRest "t") d ∧
      d = { db with inbox := d.inbox, cursors := d.cursors, health := d.health } ∧
      d.inbox = kept ++ (queue 20 2 n).map (roomMoveCancelled "move" "t") := by
  have stay : ∀ row ∈ kept, leavesRoom moveRest row = false := by
    intro row member
    have below := early row member
    simp [leavesRoom, moveRest, Nat.not_lt.mpr below]
  have go : ∀ row ∈ queue 20 2 n, leavesRoom moveRest row = true ∧ row.binding = none := by
    intro row member
    obtain ⟨k, _, rfl⟩ := List.mem_map.mp member
    have above : 2 < 2 + k + 1 := by omega
    simp [leavesRoom, moveRest, moveAway, queued, newItem, above, SupervisedInboxState.isFinal]
  have unbound : ∀ row ∈ db.inbox.filter (leavesRoom moveRest), row.binding = none := by
    intro row listed
    obtain ⟨member, leaves⟩ := List.mem_filter.mp listed
    rw [inbox] at member
    rcases List.mem_append.mp member with inKept | inQueue
    · rw [stay row inKept] at leaves
      cases leaves
    · exact (go row inQueue).2
  have executes := @cancelledQueue_executes db moveRest "t"
  rw [settleAll_unbound unbound] at executes
  refine ⟨_, executes, rfl, ?_⟩
  change db.inbox.map _ = _
  rw [inbox, List.map_append]
  congr 1
  · refine (List.map_congr_left fun row member => ?_).trans (List.map_id _)
    rw [if_neg (by rw [stay row member]; rintro ⟨⟩)]
    rfl
  · refine List.map_congr_left fun row member => ?_
    rw [if_pos (go row member).1]
    rfl

theorem retention_forgets_shared_turn :
    ¬ ∀ host log, Retains TombstonesKept host log := by
  intro retains
  have facts := sharedTurn_facts
  simp only [sharedFacts, Bool.and_eq_true, decide_eq_true_eq, List.all_eq_true,
    List.any_eq_true, Option.isNone_iff_eq_none, List.isEmpty_iff] at facts
  obtain ⟨⟨⟨⟨⟨⟨⟨⟨⟨⟨rows, each⟩, issued⟩, top⟩, allowed⟩, controls⟩, cutovers⟩, moves⟩, few⟩,
    uncertain⟩, tombstone, listed, inRoom, ofTurn⟩ := facts
  have short : Short (run running sharedTurn) 20 := by
    refine ⟨issued, fun item member => (each item member).1.2, ?_, by decide⟩
    cases result : assertDeliveryDrainIngressAllowed (run running sharedTurn) "agent" with
    | ok => rfl
    | error e =>
      rw [result] at allowed
      cases allowed
  have queued := queued_run short top 200
  have columns := turn_columns running sharedTurn
  obtain ⟨first, second, pair⟩ := List.length_eq_two.mp
    ((List.length_map _).symm.trans (congrArg List.length rows))
  rw [pair] at rows each columns
  simp only [List.map_cons, List.map_nil, List.cons.injEq, Prod.mk.injEq, and_true] at rows
  obtain ⟨⟨firstId, firstAgent, firstFifo, firstState⟩, secondId, secondAgent, secondFifo,
    secondState⟩ := rows
  have sound := sound_run running (sharedTurn ++ nextMessages 20 200)
  have after200 := (retains running (sharedTurn ++ nextMessages 20 200 ++
    [.commitRoomMoveQueue moveRest "t"])).pruned _ _ [] rfl
  generalize run running (sharedTurn ++ nextMessages 20 200) = db at queued sound after200
  generalize run running sharedTurn = base at *
  have inbox := queued.inbox
  rw [pair] at inbox
  obtain ⟨d, executes, frame, after⟩ := moveRest_executes inbox (by
    intro row member
    rcases List.mem_cons.mp member with rfl | rest
    · omega
    · rw [List.mem_singleton.mp rest]
      omega)
  have unpinned : Unpinned d := by
    constructor
    case controls =>
      rw [frame, queued.frame]
      exact controls
    case cutovers =>
      rw [frame, queued.frame]
      exact cutovers
    case roomMoves =>
      rw [frame, queued.frame]
      exact moves
    case effects =>
      rw [frame, queued.frame]
      exact uncertain
  have shape : ∀ row ∈ d.inbox, row = first ∨ row = second ∨ ∃ k,
      row = roomMoveCancelled "move" "t" (SharedTurn.queued (20 + k) (2 + k + 1)) := by
    intro row member
    rw [after] at member
    rcases List.mem_append.mp member with inPair | cancelled
    · rcases List.mem_cons.mp inPair with same | rest
      · exact .inl same
      · exact .inr (.inl (List.mem_singleton.mp rest))
    · obtain ⟨_, inQueue, rfl⟩ := List.mem_map.mp cancelled
      obtain ⟨k, _, rfl⟩ := List.mem_map.mp inQueue
      exact .inr (.inr ⟨k, rfl⟩)
  have firstMember : first ∈ d.inbox := by
    rw [after]
    exact List.mem_append_left _ List.mem_cons_self
  have firstDisposes : disposable d "agent" first = true :=
    unpinned.disposable firstAgent (by rw [firstState]; rfl)
  have older : ∀ other ∈ d.inbox, disposable d "agent" other = true → other ≠ first →
      first.fifoSequence < other.fifoSequence := by
    intro other member disposes different
    rcases shape other member with rfl | rfl | ⟨k, rfl⟩
    · exact absurd rfl different
    · rw [disposable, secondState] at disposes
      simp [SupervisedInboxState.isFinal] at disposes
    · rw [firstFifo]
      change 1 < 2 + k + 1
      omega
  have many : 200 < (d.inbox.filter (disposable d "agent")).length := by
    have all : ((queue 20 2 200).map (roomMoveCancelled "move" "t")).filter (disposable d "agent") =
        (queue 20 2 200).map (roomMoveCancelled "move" "t") := by
      refine List.filter_eq_self.mpr fun row member => ?_
      obtain ⟨_, inQueue, rfl⟩ := List.mem_map.mp member
      obtain ⟨k, _, rfl⟩ := List.mem_map.mp inQueue
      exact unpinned.disposable rfl rfl
    have one : first ∈ [first, second].filter (disposable d "agent") :=
      List.mem_filter.mpr ⟨List.mem_cons_self, firstDisposes⟩
    rw [after, List.filter_append, List.length_append, all, List.length_map, queue, List.length_map,
      List.length_range]
    have some := List.length_pos_of_mem one
    omega
  have few : d.effects.length ≤ 32 := by
    rw [frame, queued.frame]
    exact few
  have free : ∀ row ∈ d.inbox, row.blockedByInboxItemId = none := by
    intro row member
    rcases shape row member with rfl | rfl | ⟨k, rfl⟩
    · exact (each row List.mem_cons_self).1.1
    · exact (each row (List.mem_cons_of_mem _ List.mem_cons_self)).1.1
    · rfl
  obtain ⟨next, prunes, forgotten⟩ := prune_forgets firstMember firstDisposes
    (columns first List.mem_cons_self).toBoundTurn older many few free
  have turns : ∀ row ∈ [first, second], ∃ binding ∈ row.binding, binding.roomId = tombstone.roomId ∧
      binding.turn = tombstone.turn := by
    intro row member
    obtain ⟨binding, known, holds⟩ := (Option.any_eq_true _ _).mp (each row member).2
    simp only [Bool.and_eq_true, decide_eq_true_eq] at holds
    exact ⟨binding, known, holds.1.trans inRoom.symm, holds.2.trans ofTurn.symm⟩
  obtain ⟨binding, known, _, turn⟩ := turns first List.mem_cons_self
  have secondMember : second ∈ next.inbox := by
    refine prune_keeps (executes_follows sound executes).sound.ids prunes ?_ (.inl (by rw [secondState]; rfl))
    rw [after]
    exact List.mem_append_left _ (List.mem_cons_of_mem _ List.mem_cons_self)
  have bound : hasBinding next tombstone.roomId tombstone.turn = true := by
    obtain ⟨binding, known, room, turn⟩ := turns second (List.mem_cons_of_mem _ List.mem_cons_self)
    refine List.any_eq_true.mpr ⟨second, secondMember, (Option.any_eq_true _ _).mpr ⟨binding, known, ?_⟩⟩
    simp [room, turn]
  refine forgotten tombstone ⟨binding, known, turn⟩ ?_
  refine (after200 d executes "agent" none next prunes).2 tombstone ?_ bound
  rw [frame, queued.frame]
  exact listed

end LetAgents.Inbox.SharedTurn

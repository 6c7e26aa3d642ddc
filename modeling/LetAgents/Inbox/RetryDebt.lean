import LetAgents.Inbox.FifoLane
import LetAgents.Inbox.RoomMoveCompensation
import LetAgents.Inbox.EffectOwners

/-!
# Retry debt

Source: src/apps/desktop/daemon/supervised-agent-inbox-store.ts:924-1019, 2371-2380,
supervised-agent-history-retention.ts:404-458.

`recordRetryFailure` counts the failures of a domain in the item's journal. The
journal only grows while the item can still come back: an unsettled item is never
compacted, and a cancelled one not as long as a move that cancelled it is unsettled.
-/
namespace LetAgents.Inbox.RetryDebt

open Lib Lib.Checked Records Retention Pruning Delivery RoomMove Effects
  Store Writes Transaction Reachable RowLife RoomMoveCompensation FifoLane EffectOwners

/-! ## Journals that grow -/

/-- The failures of the domain that the journal shows. -/
def retryCount (item : SupervisedInboxItem) (domain : SupervisedRetryDomain) : Nat :=
  (item.events.filter fun event => event.phase = .retryScheduled &&
    countsFor domain event.idempotencyKey).length

theorem retryAttempt_eq (item : SupervisedInboxItem) (domain : SupervisedRetryDomain) :
    retryAttempt item domain = retryCount item domain + 1 := rfl

variable {item row : SupervisedInboxItem} {db d next : Database} {op : Op} {input : RetryFailure}
  {inboxItemId : String} {host : Host} {log : List Op}

theorem retryCount_mono (grows : item.events <+: row.events) (domain : SupervisedRetryDomain) :
    retryCount item domain ≤ retryCount row domain :=
  (grows.sublist.filter _).length_le

theorem recordEvent_grows (item : SupervisedInboxItem) (idempotencyKey : EventKey)
    (phase : InboxPhase) : item.events <+: (item.recordEvent idempotencyKey phase).events := by
  unfold SupervisedInboxItem.recordEvent
  split
  · exact List.prefix_refl _
  · exact List.prefix_append _ _

theorem recordEvent_fresh (fresh : item.hasEvent idempotencyKey = false) (phase : InboxPhase) :
    (item.recordEvent idempotencyKey phase).events = item.events ++ [⟨idempotencyKey, phase⟩] := by
  unfold SupervisedInboxItem.hasEvent at fresh
  unfold SupervisedInboxItem.recordEvent
  rw [fresh]
  rfl

/-- Every write keeps the journal as the beginning of the new one. -/
theorem RowWrite.grows (write : RowWrite db item op written) : item.events <+: written.events := by
  have recorded : ∀ (row : SupervisedInboxItem) (key : EventKey) (phase : InboxPhase),
      item.events <+: row.events → item.events <+: (row.recordEvent key phase).events :=
    fun row key phase before => before.trans (recordEvent_grows row key phase)
  have same : item.events <+: item.events := List.prefix_refl _
  cases write with
  | annotated notes =>
    cases notes with
    | columns => exact same
    | event => exact recorded _ _ _ same
  | transitioned =>
    unfold recordTransition
    split
    · exact recorded _ _ _ same
    · exact same
  | claimed => exact same
  | turnStarted => exact recorded _ _ _ same
  | retried =>
    unfold retried
    dsimp only
    split
    · exact recorded _ _ _ (recorded _ _ _ same)
    · exact recorded _ _ _ same
  | handedBack => exact recorded _ _ _ same
  | finished =>
    unfold finished
    split
    · exact recorded _ _ _ (recorded _ _ _ same)
    · exact recorded _ _ _ same
  | outcomeRecorded | published | skipped => exact recorded _ _ _ same
  | stopped =>
    unfold stopped
    split
    · exact same
    · exact recorded _ _ _ same
  | unused => exact recorded _ _ _ same
  | recovered =>
    unfold recovered
    dsimp only
    split
    · exact recorded _ _ _ same
    · exact same
  | released | roomMoveCancelled | revived => exact recorded _ _ _ same

/-- Only a failure writes the keys of failures. -/
theorem RowWrite.retryKey (write : RowWrite db item op written)
    (has : written.hasEvent (.retryFailure domain attempt blocked) = true) :
    item.hasEvent (.retryFailure domain attempt blocked) = true ∨
      ∃ input, op = .recordRetryFailure item.inboxItemId input := by
  have recorded : ∀ {row : SupervisedInboxItem} {key : EventKey} {phase : InboxPhase},
      (row.recordEvent key phase).hasEvent (.retryFailure domain attempt blocked) = true →
      (row.hasEvent (.retryFailure domain attempt blocked) = true →
        item.hasEvent (.retryFailure domain attempt blocked) = true) →
      key ≠ .retryFailure domain attempt blocked →
      item.hasEvent (.retryFailure domain attempt blocked) = true := by
    intro row key phase has before other
    rcases (recordEvent_hasEvent _ _ _ _).mp has with old | same
    · exact before old
    · exact absurd same other
  cases write with
  | annotated notes =>
    cases notes with
    | columns => exact .inl has
    | event _ _ notes =>
      refine .inl (recorded has id ?_)
      rintro rfl
      cases notes
  | transitioned =>
    unfold recordTransition at has
    split at has
    · exact .inl (recorded has id nofun)
    · exact .inl has
  | claimed => exact .inl has
  | turnStarted => exact .inl (recorded has id nofun)
  | retried => exact .inr ⟨_, rfl⟩
  | handedBack => exact .inl (recorded has id nofun)
  | finished =>
    unfold finished at has
    split at has
    · exact .inl (recorded has (fun old => recorded old id nofun) nofun)
    · exact .inl (recorded has id nofun)
  | outcomeRecorded | published | skipped => exact .inl (recorded has id nofun)
  | stopped =>
    unfold stopped at has
    split at has
    · exact .inl has
    · exact .inl (recorded has id nofun)
  | unused => exact .inl (recorded has id nofun)
  | recovered =>
    unfold recovered at has
    dsimp only at has
    split at has
    · exact .inl (recorded has id nofun)
    · exact .inl has
  | released | roomMoveCancelled | revived => exact .inl (recorded has id nofun)

/-! ## Rows that retention leaves alone -/

/-- The item can still come back to delivery: it is unsettled, or an unsettled move
cancelled it. -/
def Live (db : Database) (row : SupervisedInboxItem) : Prop :=
  row.state.isFinal = false ∨ pinnedByMove db row = true

/-- The row continues an item by one write, or is new. -/
def Untrimmed (db : Database) (op : Op) (row : SupervisedInboxItem) : Prop :=
  (∃ item ∈ db.inbox, row = item ∨ RowWrite db item op row) ∨ Inserted db op row

theorem pinnedByMove_moves (moves : d.roomMoves = db.roomMoves) (row : SupervisedInboxItem) :
    pinnedByMove d row = pinnedByMove db row := by
  unfold pinnedByMove owningMoves
  rw [moves]

theorem Trims.pinned {next : SupervisedInboxItem} (trims : Trims row next)
    (pinned : pinnedByMove db next = true) : pinnedByMove db row = true := by
  simp only [pinnedByMove, owningMoves, List.any_eq_true, List.mem_filter, Bool.and_eq_true,
    decide_eq_true_eq] at pinned ⊢
  obtain ⟨move, ⟨member, ⟨agent, room⟩, has⟩, unsettled⟩ := pinned
  have receipts := trims.receipt_eq
  have agents : next.agentId = row.agentId := congrArg Receipt.agentId receipts
  have rooms : next.roomId = row.roomId := congrArg Receipt.roomId receipts
  have fifo : next.fifoSequence = row.fifoSequence := congrArg Receipt.fifoSequence receipts
  rw [fifo] at has
  exact ⟨move, ⟨member, ⟨agent.trans agents, room.trans rooms⟩, Trims.hasEvent trims has⟩, unsettled⟩

theorem Live.untrimmed (ids : Table.Keyed (·.inboxItemId) d.inbox)
    (after : Table.Keyed (·.inboxItemId) next.inbox)
    (ok : pruneSupervisedAgentHistory d agentId keep = .ok next) (member : row ∈ next.inbox)
    (live : Live next row) : row ∈ d.inbox ∧ Live d row := by
  have moves : next.roomMoves = d.roomMoves := by rw [prune_frame ok]
  obtain ⟨source, sourceMember, trims⟩ := prune_source ok member
  have sourceLive : Live d source := by
    rcases live with unsettled | pinned
    · rw [trims.state_eq] at unsettled
      exact .inl unsettled
    · rw [pinnedByMove_moves moves] at pinned
      exact .inr (Trims.pinned trims pinned)
  have kept := prune_keeps ids ok sourceMember sourceLive
  rw [after.eq member kept (congrArg Receipt.inboxItemId trims.receipt_eq)]
  exact ⟨sourceMember, sourceLive⟩

theorem executes_untrimmed (sound : Sound db) (quiet : writesMoves op = false)
    (executes : Executes db op d) :
    d.roomMoves = db.roomMoves ∧ ∀ row ∈ d.inbox, Live d row → Untrimmed db op row := by
  induction executes with
  | start => exact ⟨rfl, fun row member _ => .inl ⟨row, member, .inl rfl⟩⟩
  | row rest itemMember write ih =>
    refine ⟨ih.1, fun row member live => ?_⟩
    rcases Table.mem_put member with ⟨rfl, _⟩ | ⟨before, _⟩
    · exact .inl ⟨_, itemMember, .inr write⟩
    · exact ih.2 row before live
  | rows writes =>
    refine ⟨rfl, fun row member _ => ?_⟩
    obtain ⟨item, itemMember, rfl⟩ := List.mem_map.mp member
    exact .inl ⟨item, itemMember, writes item itemMember⟩
  | insert rest fresh fifo new ih =>
    have follows := executes_follows sound rest
    have kept := (follows.insert fresh fifo new).rows
    obtain ⟨rfl, unknown, _⟩ := issueFor_ok fresh
    refine ⟨ih.1, fun row member live => ?_⟩
    rcases List.mem_append.mp member with before | added
    · exact ih.2 row before live
    · rcases kept row member with ⟨item, itemMember, stepped⟩ | inserted
      · -- the id of the new row was never issued
        have same : row.inboxItemId = item.inboxItemId :=
          congrArg Receipt.inboxItemId (RowStep.receipt_eq stepped)
        have known := follows.grows _ (sound.issued item itemMember)
        rw [← same, List.mem_singleton.mp added] at known
        exact absurd known unknown
      · exact .inr inserted
  | settle rest settled ih =>
    rename_i d item now
    obtain ⟨f, _, equal⟩ := settle_eq d item now
    rw [equal]
    exact ih
  | prune rest pruned ih =>
    have moves := prune_frame pruned
    have after := ((executes_follows sound rest).prune pruned).sound.ids
    refine ⟨by rw [moves]; exact ih.1, fun row member live => ?_⟩
    obtain ⟨before, beforeLive⟩ := live.untrimmed (executes_follows sound rest).sound.ids after pruned
      member
    exact ih.2 row before beforeLive
  | remove call removed =>
    obtain ⟨inbox, _, _, _, _, moves, _⟩ := removeAgent_ok removed
    refine ⟨moves, fun row member _ => ?_⟩
    rw [inbox] at member
    exact .inl ⟨row, List.mem_of_mem_filter member, .inl rfl⟩
  | ingress _ _ ih | observe _ ih | repair _ ih => exact ih
  | issue _ fresh ih =>
    obtain ⟨rfl, _⟩ := issue_ok fresh
    exact ih
  | effects _ _ ih | tombstones _ _ ih => exact ih
  | admitted fresh _ =>
    obtain ⟨rfl, _⟩ := issue_ok fresh
    exact ⟨rfl, fun row member _ => .inl ⟨row, member, .inl rfl⟩⟩
  | moves _ writes _ =>
    rw [quiet] at writes
    cases writes
  | drain _ _ => exact ⟨rfl, fun row member _ => .inl ⟨row, member, .inl rfl⟩⟩
  | external call =>
    rw [call] at quiet
    cases quiet

theorem prepareRoomMoveEffect_inbox {input : PrepareRoomMoveEffect}
    (ok : prepareRoomMoveEffect db input = .ok next) : next.inbox = db.inbox := by
  have journals : ∀ {d : Database} {effectId : String},
      journalRoomMove d input effectId = .ok next → next.inbox = d.inbox := by
    intro d effectId ok
    obtain ⟨effect, _, ok⟩ := found_bind_ok ok
    obtain ⟨_, _, ok⟩ := bind_ok ok
    dsimp only at ok
    split at ok
    · obtain ⟨_, ok⟩ := require_bind_ok ok
      cases ok
      rfl
    · obtain ⟨_, ok⟩ := require_bind_ok ok
      obtain ⟨_, _, ok⟩ := bind_ok ok
      obtain ⟨_, _, ok⟩ := bind_ok ok
      obtain ⟨_, ok⟩ := require_bind_ok ok
      obtain ⟨_, ok⟩ := require_bind_ok ok
      obtain ⟨_, ok⟩ := require_bind_ok ok
      cases ok
      rfl
  obtain ⟨request, _, ok⟩ := bind_ok ok
  split at ok
  · obtain ⟨_, ok⟩ := require_bind_ok ok
    split at ok
    · cases ok
      rfl
    · obtain ⟨_, _, ok⟩ := bind_ok ok
      obtain ⟨_, ok⟩ := require_bind_ok ok
      exact journals ok
  · obtain ⟨_, ok⟩ := require_bind_ok ok
    obtain ⟨_, _, ok⟩ := bind_ok ok
    obtain ⟨_, ok⟩ := require_bind_ok ok
    obtain ⟨_, _, ok⟩ := bind_ok ok
    obtain ⟨admitted, inserts, ok⟩ := bind_ok ok
    obtain ⟨rfl, _⟩ := EffectSteps.insertEffect_ok inserts
    have inbox := journals ok
    exact inbox

/-- A live row after a transaction was not compacted by it. -/
theorem step_untrimmed (sound : Sound db) (ok : step db op = .ok next)
    (member : row ∈ next.inbox) (live : Live next row) : Untrimmed db op row := by
  cases writes : writesMoves op with
  | false => exact (executes_untrimmed sound writes (step_executes sound ok)).2 row member live
  | true =>
    have inbox : next.inbox = db.inbox := by
      cases op with
      | prepareRoomMoveEffect input => exact prepareRoomMoveEffect_inbox ok
      | external host roomMoves =>
        cases ok
        rfl
      | _ => cases writes
    exact .inl ⟨row, inbox ▸ member, .inl rfl⟩

/-- What a step may do to the items that room moves have cancelled: a rollback revives
only an item that an unsettled move cancelled, and no other item gets such a move. -/
def sparesDebt (db : Database) (op : Op) : Bool :=
  db.inbox.all fun item =>
    (match op with
      | .rollbackRoomMoveIngress input => !revivable input item || pinnedByMove db item
      | _ => true) &&
    (!item.state.isFinal || pinnedByMove db item || !pinnedByMove (Replay.attempt step db op) item)

/-- Only unsettled items are cancelled. -/
theorem journals_cancelled
    (journals : Journals item op (.roomMoveCancelled operationId fifoSequence)) :
    item.state.isFinal = false := by
  cases journals with
  | note notes => cases notes
  | roomMove leaves =>
    simp only [leavesRoom, Bool.and_eq_true, Bool.not_eq_true'] at leaves
    exact leaves.2

theorem live_source (sound : Sound db) (ok : step db op = .ok next)
    (spares : sparesDebt db op = true) (member : item ∈ db.inbox)
    (written : row = item ∨ RowWrite db item op row) (live : Live next row) : Live db item := by
  have here := List.all_eq_true.mp spares item member
  rw [Replay.attempt_of_ok ok, Bool.and_eq_true] at here
  obtain ⟨rollback, reopened⟩ := here
  by_cases final : item.state.isFinal = true
  case neg => exact .inl (Bool.eq_false_of_not_eq_true final)
  have stays : pinnedByMove next item = true → Live db item := by
    intro pinned
    rw [final, pinned] at reopened
    exact .inr (by simpa using reopened)
  rcases written with rfl | write
  · rcases live with unsettled | pinned
    · rw [final] at unsettled
      cases unsettled
    · exact stays pinned
  · rcases RowWrite.of_final sound member write final with same | ⟨input, rfl, owned⟩
    · rcases live with unsettled | pinned
      · rw [same, final] at unsettled
        cases unsettled
      · -- the write adds no cancellation
        refine stays ?_
        simp only [pinnedByMove, owningMoves, List.any_eq_true, List.mem_filter, Bool.and_eq_true,
          decide_eq_true_eq] at pinned ⊢
        obtain ⟨move, ⟨moveMember, ⟨agent, room⟩, has⟩, unsettled⟩ := pinned
        have receipts := RowWrite.receipt_eq write
        have agents : row.agentId = item.agentId := congrArg Receipt.agentId receipts
        have rooms : row.roomId = item.roomId := congrArg Receipt.roomId receipts
        have fifo : row.fifoSequence = item.fifoSequence := congrArg Receipt.fifoSequence receipts
        rw [fifo] at has
        refine ⟨move, ⟨moveMember, ⟨agent.trans agents, room.trans rooms⟩, ?_⟩, unsettled⟩
        rcases (RowWrite.journals write _).2 has with old | journals
        · exact old
        · rw [journals_cancelled journals] at final
          cases final
    · dsimp only at rollback
      rw [owned] at rollback
      exact .inr (by simpa using rollback)

/-! ## Calls -/

/-- How many calls of the log the condition holds for, in the states they are made in. -/
def countCalls (host : Host) (log : List Op) (holds : Database → Op → Bool) : Nat :=
  (List.range log.length).countP fun n => log[n]?.any (holds (run host (log.take n)))

theorem countCalls_concat (host : Host) (log : List Op) (op : Op) (holds : Database → Op → Bool) :
    countCalls host (log ++ [op]) holds =
      countCalls host log holds + if holds (run host log) op then 1 else 0 := by
  have earlier : (List.range log.length).countP (fun n =>
      (log ++ [op])[n]?.any (holds (run host ((log ++ [op]).take n)))) =
      countCalls host log holds := by
    refine List.countP_congr fun n listed => ?_
    have short := List.mem_range.mp listed
    rw [List.getElem?_append_left short, List.take_append_of_le_length (Nat.le_of_lt short)]
  have last : (log ++ [op])[log.length]?.any (holds (run host ((log ++ [op]).take log.length))) =
      holds (run host log) op := by
    rw [List.getElem?_concat_length, List.take_left, Option.any_some]
  unfold countCalls
  rw [List.length_append, List.length_singleton, List.range_succ, List.countP_append,
    List.countP_singleton, earlier, last]
  rfl

def isRetryOf (inboxItemId : String) (domain : SupervisedRetryDomain) : Op → Bool
  | .recordRetryFailure id input => id = inboxItemId && input.domain = domain
  | _ => false

/-- The call commits, and the item's row after it satisfies the condition. -/
def leaves (inboxItemId : String) (condition : SupervisedInboxState → Bool) (db : Database)
    (op : Op) : Bool :=
  match step db op with
  | .ok next => next.inbox.any fun row => row.inboxItemId = inboxItemId && condition row.state
  | .error _ => false

/-- The item is claimed again without an operator. -/
def automatic : SupervisedInboxState → Bool
  | .retryable | .pending | .resultRecovery => true
  | _ => false

/-- The committed calls of a domain on an item. -/
def retries (host : Host) (log : List Op) (inboxItemId : String) (domain : SupervisedRetryDomain) :
    Nat :=
  countCalls host log fun db op =>
    isRetryOf inboxItemId domain op && leaves inboxItemId (fun _ => true) db op

/-- Those that leave the item automatically retryable. -/
def automaticRetries (host : Host) (log : List Op) (inboxItemId : String)
    (domain : SupervisedRetryDomain) : Nat :=
  countCalls host log fun db op =>
    isRetryOf inboxItemId domain op && leaves inboxItemId automatic db op

/-! ## One failure -/

theorem recordRetryFailure_ok (ok : recordRetryFailure db inboxItemId input = .ok next) :
    ∃ item ∈ db.inbox, item.inboxItemId = inboxItemId ∧ next = db.putItem (retried item input) ∧
      item.state.isFinal = false := by
  obtain ⟨_, ok⟩ := require_bind_ok ok
  obtain ⟨item, known, ok⟩ := found_bind_ok ok
  obtain ⟨_, _, ok⟩ := bind_ok ok
  obtain ⟨_, _, ok⟩ := bind_ok ok
  obtain ⟨_, ok⟩ := require_bind_ok ok
  obtain ⟨_, evidence, ok⟩ := bind_ok ok
  cases ok
  obtain ⟨member, named⟩ := item_ok known
  refine ⟨item, member, named, rfl, ?_⟩
  have flying : ∀ {state : SupervisedInboxState}, inFlight state = true → state.isFinal = false := by
    intro state flies
    cases state <;> first | rfl | cases flies
  unfold assertRetryEvidence at evidence
  split at evidence
  · obtain ⟨publishing, _⟩ := require_ok evidence
    rw [publishing]
    rfl
  · obtain ⟨flies, _⟩ := require_bind_ok evidence
    exact flying flies
  · split at evidence
    · obtain ⟨⟨flies, _⟩, _⟩ := require_bind_ok evidence
      exact flying flies
    · obtain ⟨flies, _⟩ := require_bind_ok evidence
      exact flying flies

/-- The keys of the journal's failures are those of its count. -/
def KeysCounted (item : SupervisedInboxItem) : Prop :=
  ∀ domain attempt blocked, item.hasEvent (.retryFailure domain attempt blocked) = true →
    attempt ≤ retryCount item domain

theorem KeysCounted.fresh (counted : KeysCounted item) (domain : SupervisedRetryDomain)
    (blocked : Bool) :
    item.hasEvent (.retryFailure domain (retryAttempt item domain) blocked) = false := by
  refine Bool.eq_false_of_not_eq_true fun has => ?_
  have bound := counted domain _ blocked has
  rw [retryAttempt_eq] at bound
  omega

/-- The events that one failure appends. -/
def failureEvents (item : SupervisedInboxItem) (domain : SupervisedRetryDomain) : List InboxEvent :=
  ⟨.retryFailure domain (retryAttempt item domain) false, .retryScheduled⟩ ::
    if 3 ≤ retryAttempt item domain then
      [⟨.retryFailure domain (retryAttempt item domain) true, .blocked⟩]
    else []

theorem retried_events (counted : KeysCounted item) (input : RetryFailure) :
    (retried item input).events = item.events ++ failureEvents item input.domain := by
  have unused : ∀ blocked, (retriedRow item input).hasEvent
      (.retryFailure input.domain (retryAttempt item input.domain) blocked) = false :=
    counted.fresh input.domain
  have first : ((retriedRow item input).recordEvent
      (.retryFailure input.domain (retryAttempt item input.domain) false) .retryScheduled).events =
        item.events ++
          [⟨.retryFailure input.domain (retryAttempt item input.domain) false, .retryScheduled⟩] :=
    recordEvent_fresh (unused false) _
  unfold retried failureEvents
  dsimp only
  split
  · rw [recordEvent_fresh, first, List.append_assoc]
    · rfl
    · refine Bool.eq_false_of_not_eq_true fun has => ?_
      rcases (recordEvent_hasEvent _ _ _ _).mp has with old | same
      · rw [unused true] at old
        cases old
      · cases same
  · exact first

theorem retryCount_failure (item : SupervisedInboxItem) (domain : SupervisedRetryDomain) :
    ((failureEvents item domain).filter fun event => event.phase = .retryScheduled) =
      [⟨.retryFailure domain (retryAttempt item domain) false, .retryScheduled⟩] := by
  unfold failureEvents
  split <;> rfl

theorem retryCount_retried (counted : KeysCounted item) (input : RetryFailure) :
    retryCount (retried item input) input.domain = retryCount item input.domain + 1 := by
  have added : ((failureEvents item input.domain).filter fun event =>
      event.phase = .retryScheduled && countsFor input.domain event.idempotencyKey).length = 1 := by
    unfold failureEvents
    split <;> simp [countsFor]
  unfold retryCount
  rw [retried_events counted, List.filter_append, List.length_append, added]

@[simp] theorem retried_state (item : SupervisedInboxItem) (input : RetryFailure) :
    (retried item input).state = retryState item input := by
  obtain ⟨_, same⟩ := retried_eq item input
  rw [same]
  rfl

/-- The third failure of a domain blocks, the first two do not. -/
theorem retryState_cases (item : SupervisedInboxItem) (input : RetryFailure) :
    (retryState item input = .blocked ∧ 2 ≤ retryCount item input.domain) ∨
      (automatic (retryState item input) = true ∧ retryCount item input.domain < 2) := by
  unfold retryState
  rw [retryAttempt_eq]
  split
  · exact .inl ⟨rfl, by omega⟩
  · refine .inr ⟨?_, by omega⟩
    split
    · rfl
    · split <;> rfl

/-- The row of the item after a failure that commits. -/
theorem retried_row (sound : Sound db) (member : item ∈ db.inbox)
    (ok : step db (.recordRetryFailure item.inboxItemId input) = .ok next)
    (rowMember : row ∈ next.inbox) (same : row.inboxItemId = item.inboxItemId) :
    row = retried item input := by
  obtain ⟨found, foundMember, named, rfl, _⟩ := recordRetryFailure_ok ok
  rw [sound.ids.eq foundMember member named] at rowMember
  rcases Table.mem_put rowMember with ⟨rfl, _⟩ | ⟨_, other⟩
  · rfl
  · refine absurd (same.trans ?_) other
    exact (congrArg Receipt.inboxItemId (retried_receipt item input)).symm

/-! ## The ledger -/

/-- What the journal of a live row still shows of the run. -/
structure Ledger (host : Host) (log : List Op) (row : SupervisedInboxItem) : Prop where
  keys : KeysCounted row
  paid : ∀ domain, retries host log row.inboxItemId domain ≤ retryCount row domain
  kept : ∀ earlier later, log = earlier ++ later → ∀ old ∈ (run host earlier).inbox,
    old.inboxItemId = row.inboxItemId → old.events <+: row.events

/-- A failure is recorded for an item that was inserted before. -/
theorem retries_unissued (unissued : inboxItemId ∉ (run host log).issued)
    (domain : SupervisedRetryDomain) : retries host log inboxItemId domain = 0 := by
  induction log using List.reverseRecOn with
  | nil => rfl
  | append_singleton log op ih =>
    have before := ih fun known => unissued (run_issued host log [op] _ known)
    unfold retries at before ⊢
    rw [countCalls_concat, before, Nat.zero_add, if_neg]
    intro holds
    simp only [Bool.and_eq_true, leaves] at holds
    obtain ⟨call, commits⟩ := holds
    cases op with
    | recordRetryFailure id input =>
      simp only [isRetryOf, Bool.and_eq_true, decide_eq_true_eq] at call
      obtain ⟨rfl, _⟩ := call
      split at commits
      · rename_i next ok
        obtain ⟨item, member, named, _⟩ := recordRetryFailure_ok ok
        have known := run_issued host log [Op.recordRetryFailure id input] _
          ((sound_run host log).issued item member)
        rw [named] at known
        exact unissued known
      · cases commits
    | _ => cases call

/-- The journals of the row in every state of one more call. -/
theorem kept_concat (current : row ∈ (run host (log ++ [op])).inbox)
    (before : ∀ earlier rest, log = earlier ++ rest → ∀ old ∈ (run host earlier).inbox,
      old.inboxItemId = row.inboxItemId → old.events <+: row.events) :
    ∀ earlier later, log ++ [op] = earlier ++ later → ∀ old ∈ (run host earlier).inbox,
      old.inboxItemId = row.inboxItemId → old.events <+: row.events := by
  intro earlier later split old oldMember same
  rcases List.eq_nil_or_concat later with rfl | ⟨rest, last, rfl⟩
  · rw [List.append_nil] at split
    rw [← split] at oldMember
    obtain rfl := (sound_run host (log ++ [op])).ids.eq oldMember current same
    exact List.prefix_refl _
  · rw [List.concat_eq_append, ← List.append_assoc] at split
    exact before earlier rest (List.append_inj_left' split rfl) old oldMember same

theorem Ledger.skip (ledger : Ledger host log row) (member : row ∈ (run host log).inbox)
    (failure : step (run host log) op = .error e) : Ledger host (log ++ [op]) row := by
  have same : run host (log ++ [op]) = run host log := by
    rw [run_concat, Replay.attempt_of_error failure]
  refine ⟨ledger.keys, fun domain => ?_, ?_⟩
  · have paid := ledger.paid domain
    unfold retries at paid ⊢
    rw [countCalls_concat, if_neg]
    · exact paid
    · simp [leaves, failure]
  · exact kept_concat (same ▸ member) ledger.kept

theorem Ledger.step (ok : Store.step (run host log) op = .ok next)
    (member : item ∈ (run host log).inbox) (rowMember : row ∈ next.inbox)
    (written : row = item ∨ RowWrite (run host log) item op row) (ledger : Ledger host log item) :
    Ledger host (log ++ [op]) row := by
  have sound := sound_run host log
  have reached : run host (log ++ [op]) = next := by rw [run_concat, Replay.attempt_of_ok ok]
  have named : row.inboxItemId = item.inboxItemId := by
    rcases written with rfl | write
    · rfl
    · exact congrArg Receipt.inboxItemId (RowWrite.receipt_eq write)
  have grows : item.events <+: row.events := by
    rcases written with rfl | write
    · exact List.prefix_refl _
    · exact RowWrite.grows write
  refine ⟨fun domain attempt blocked has => ?_, fun domain => ?_, ?_⟩
  · have before : item.hasEvent (.retryFailure domain attempt blocked) = true →
        attempt ≤ retryCount row domain := fun old =>
      le_trans (ledger.keys domain attempt blocked old) (retryCount_mono grows domain)
    rcases written with rfl | write
    · exact before has
    · rcases RowWrite.retryKey write has with old | ⟨input, rfl⟩
      · exact before old
      · have row_eq := retried_row sound member ok rowMember named
        rw [row_eq, SupervisedInboxItem.hasEvent, retried_events ledger.keys, List.any_append,
          Bool.or_eq_true] at has
        rcases has with old | new
        · exact before old
        · -- the new keys carry the new count
          have counted : domain = input.domain ∧ attempt = retryAttempt item input.domain := by
            simp only [failureEvents, List.any_cons, Bool.or_eq_true, decide_eq_true_eq,
              EventKey.retryFailure.injEq] at new
            rcases new with ⟨domains, attempts, _⟩ | new
            · exact ⟨domains.symm, attempts.symm⟩
            · split at new
              · simp only [List.any_cons, List.any_nil, Bool.or_false, decide_eq_true_eq,
                  EventKey.retryFailure.injEq] at new
                exact ⟨new.1.symm, new.2.1.symm⟩
              · cases new
          rw [counted.1, counted.2, row_eq, retryCount_retried ledger.keys]
          exact le_rfl
  · have paid := ledger.paid domain
    unfold retries at paid ⊢
    rw [countCalls_concat, named]
    split
    · rename_i holds
      simp only [Bool.and_eq_true] at holds
      cases op with
      | recordRetryFailure id input =>
        have call := holds.1
        simp only [isRetryOf, Bool.and_eq_true, decide_eq_true_eq] at call
        obtain ⟨rfl, rfl⟩ := call
        rw [retried_row sound member ok rowMember named, retryCount_retried ledger.keys]
        exact Nat.add_le_add_right paid 1
      | _ => cases holds.1
    · exact le_trans paid (retryCount_mono grows domain)
  · refine kept_concat (reached ▸ rowMember) fun earlier rest split old oldMember same => ?_
    exact (ledger.kept earlier rest split old oldMember (same.trans named)).trans grows

theorem Ledger.new (ok : Store.step (run host log) op = .ok next)
    (rowMember : row ∈ next.inbox) (inserted : Inserted (run host log) op row) :
    Ledger host (log ++ [op]) row := by
  have reached : run host (log ++ [op]) = next := by rw [run_concat, Replay.attempt_of_ok ok]
  refine ⟨fun domain attempt blocked has => ?_, fun domain => ?_, ?_⟩
  · rcases NewRow.hasEvent inserted.new has with ⟨phase, same⟩ | same
    · cases same
    · cases same
  · have before := retries_unissued inserted.fresh domain
    unfold retries at before ⊢
    rw [countCalls_concat, before, if_neg]
    · exact Nat.zero_le _
    · have other : isRetryOf row.inboxItemId domain op = false := by
        have new := inserted.new
        cases op with
        | recordRetryFailure id input => cases new
        | _ => rfl
      simp [other]
  · refine kept_concat (reached ▸ rowMember) fun earlier rest split old oldMember same => ?_
    have known := run_issued host earlier rest _ ((sound_run host earlier).issued old oldMember)
    rw [← split, same] at known
    exact absurd known inserted.fresh

/-- Every step of the log spares the debts. -/
def SparesDebt (host : Host) (log : List Op) : Prop :=
  Replay.Meets step (fun db op => sparesDebt db op = true) (Database.initial host) log

instance (host : Host) (log : List Op) : Decidable (SparesDebt host log) :=
  inferInstanceAs (Decidable (Replay.Meets step (fun db op => sparesDebt db op = true)
    (Database.initial host) log))

theorem ledger_run (spares : SparesDebt host log) :
    ∀ row ∈ (run host log).inbox, Live (run host log) row → Ledger host log row := by
  induction log using List.reverseRecOn with
  | nil => exact fun row member => absurd member List.not_mem_nil
  | append_singleton log op ih =>
    obtain ⟨earlier, last, _⟩ := Replay.meets_append.mp spares
    have before := ih earlier
    have sound := sound_run host log
    rw [run_concat]
    cases result : step (run host log) op with
    | error e =>
      rw [Replay.attempt_of_error result]
      exact fun row member live => (before row member live).skip member result
    | ok next =>
      rw [Replay.attempt_of_ok result]
      intro row member live
      rcases step_untrimmed sound result member live with ⟨item, itemMember, written⟩ | inserted
      · have itemLive := live_source sound result last itemMember written live
        exact .step result itemMember member written (before item itemMember itemLive)
      · exact .new result member inserted

/-! ## The law -/

/-- What one failure that commits does to the item. -/
structure Charged (host : Host) (earlier : List Op) (input : RetryFailure)
    (item row : SupervisedInboxItem) : Prop where
  /-- No journal of the item had the new key before. -/
  unused : ∀ before after, earlier = before ++ after → ∀ old ∈ (run host before).inbox,
    old.inboxItemId = item.inboxItemId →
      old.hasEvent (.retryFailure input.domain (retryAttempt item input.domain) false) = false
  appended : (row.events.filter fun event => event.phase = .retryScheduled) =
    (item.events.filter fun event => event.phase = .retryScheduled) ++
      [⟨.retryFailure input.domain (retryAttempt item input.domain) false, .retryScheduled⟩]
  state : row.state = .blocked ∨ automatic row.state = true
  spent : 2 ≤ retries host earlier item.inboxItemId input.domain → row.state = .blocked

structure DebtKept (host : Host) (log : List Op) : Prop where
  charged : ∀ earlier inboxItemId input later,
    log = earlier ++ .recordRetryFailure inboxItemId input :: later →
      ∀ next, step (run host earlier) (.recordRetryFailure inboxItemId input) = .ok next →
        ∃ item ∈ (run host earlier).inbox, ∃ row ∈ next.inbox, item.inboxItemId = inboxItemId ∧
          row.inboxItemId = inboxItemId ∧ Charged host earlier input item row
  twice : ∀ inboxItemId domain, automaticRetries host log inboxItemId domain ≤ 2

theorem charges (spares : SparesDebt host earlier)
    (ok : step (run host earlier) (.recordRetryFailure inboxItemId input) = .ok next) :
    ∃ item ∈ (run host earlier).inbox, ∃ row ∈ next.inbox, item.inboxItemId = inboxItemId ∧
      row.inboxItemId = inboxItemId ∧ row = retried item input ∧ Ledger host earlier item := by
  obtain ⟨item, member, named, written, unsettled⟩ := recordRetryFailure_ok ok
  have same : (retried item input).inboxItemId = item.inboxItemId :=
    congrArg Receipt.inboxItemId (retried_receipt item input)
  refine ⟨item, member, retried item input, ?_, named, same.trans named, rfl,
    ledger_run spares item member (.inl unsettled)⟩
  rw [written]
  exact Table.put_mem member same.symm

theorem charged_of (ledger : Ledger host earlier item) :
    Charged host earlier input item (retried item input) := by
  constructor
  case unused =>
    intro before after split old oldMember same
    refine Bool.eq_false_of_not_eq_true fun has => ?_
    have grown := ledger.kept before after split old oldMember same
    have absent := ledger.keys.fresh input.domain false
    unfold SupervisedInboxItem.hasEvent at has absent
    rw [List.any_eq_true] at has
    obtain ⟨event, listed, key⟩ := has
    rw [List.any_eq_true.mpr ⟨event, grown.subset listed, key⟩] at absent
    cases absent
  case appended =>
    rw [retried_events ledger.keys, List.filter_append, retryCount_failure]
  case state =>
    rw [retried_state]
    exact (retryState_cases item input).imp And.left And.left
  case spent =>
    intro two
    have paid := ledger.paid input.domain
    rw [retried_state]
    rcases retryState_cases item input with ⟨blocked, _⟩ | ⟨_, few⟩
    · exact blocked
    · omega

/-- A call that leaves the item automatically retryable is one of the first two. -/
theorem automaticRetries_bound (spares : SparesDebt host log) (inboxItemId : String)
    (domain : SupervisedRetryDomain) :
    automaticRetries host log inboxItemId domain ≤ retries host log inboxItemId domain ∧
      automaticRetries host log inboxItemId domain ≤ 2 := by
  induction log using List.reverseRecOn with
  | nil => exact ⟨le_rfl, Nat.zero_le _⟩
  | append_singleton log op ih =>
    obtain ⟨earlier, _⟩ := Replay.meets_append.mp spares
    have before := ih earlier
    unfold automaticRetries retries at before ⊢
    rw [countCalls_concat, countCalls_concat]
    split
    case isFalse => omega
    rename_i holds
    simp only [Bool.and_eq_true, leaves] at holds
    obtain ⟨call, commits⟩ := holds
    cases result : step (run host log) op with
    | error e =>
      rw [result] at commits
      cases commits
    | ok next =>
      rw [result] at commits
      simp only [List.any_eq_true, Bool.and_eq_true, decide_eq_true_eq] at commits
      obtain ⟨row, member, named, retryable⟩ := commits
      have committed : (isRetryOf inboxItemId domain op &&
          leaves inboxItemId (fun _ => true) (run host log) op) = true := by
        simp only [Bool.and_eq_true, leaves, result, List.any_eq_true, decide_eq_true_eq]
        exact ⟨call, row, member, named, trivial⟩
      rw [if_pos committed]
      cases op with
      | recordRetryFailure id input =>
        simp only [isRetryOf, Bool.and_eq_true, decide_eq_true_eq] at call
        obtain ⟨rfl, rfl⟩ := call
        obtain ⟨item, itemMember, written, writtenMember, itemNamed, writtenNamed, written_eq,
          ledger⟩ := charges earlier result
        have keyed := (step_follows (sound_run host log) result).sound.ids
        rw [keyed.eq member writtenMember (named.trans writtenNamed.symm), written_eq,
          retried_state] at retryable
        have paid := ledger.paid input.domain
        rw [itemNamed] at paid
        unfold retries at paid
        rcases retryState_cases item input with ⟨blocked, _⟩ | ⟨_, few⟩
        · rw [blocked] at retryable
          cases retryable
        · omega
      | _ => cases call

theorem retry_debt (host : Host) (log : List Op) (spares : SparesDebt host log) :
    DebtKept host log := by
  constructor
  case charged =>
    rintro earlier inboxItemId input later rfl next ok
    obtain ⟨item, member, row, rowMember, named, rowNamed, rfl, ledger⟩ :=
      charges (Replay.meets_append.mp spares).1 ok
    exact ⟨item, member, _, rowMember, named, rowNamed, charged_of ledger⟩
  case twice => exact fun inboxItemId domain => (automaticRetries_bound spares inboxItemId domain).2

/-! ## A move that settles before it is rolled back -/

def unsent : RetryFailure :=
  { domain := .preDispatch, error := "unreachable", resetUndispatchedTurnId := none }

def failedClaim : List Op :=
  [.claimHead "agent" none FifoLane.now, .recordRetryFailure "first" unsent]

/-- A claim that is handed back leaves one more event. -/
def returnedClaim : List Op :=
  [.claimHead "agent" none FifoLane.now, .resetPreNativeHandoff "first"]

/-- The journal row of `moveAway "move" "room"`. -/
def journaledMove (phase : RoomMovePhase) : AgentRoomMove :=
  { operationId := "move", requestId := "request", agentId := "agent", sourceRoomId := "room"
    destinationRoomId := "elsewhere", daemonGeneration := 1, workAttemptId := none
    executionGenerationId := none, agentSessionId := none, activatingInboxItemId := none
    providerTurnId := none, effectId := none, phase, sourceCursorPresent := false
    sourceCursor := none }

/-- Two failures, a move that is in the phase when history is pruned, its rollback, and
a third failure. -/
def movedInDebt (phase : RoomMovePhase) : List Op :=
  .insertSyntheticMessage (message "first" "room" "m1") ::
    (failedClaim ++ [.resetPreNativeHandoff "first"] ++ failedClaim ++
      [.resetPreNativeHandoff "first"] ++ (List.replicate 64 returnedClaim).flatten ++
      [.external Host.quiet [journaledMove phase],
        .commitRoomMoveQueue (moveAway "move" "room") FifoLane.now, .pruneHistory "agent",
        .rollbackRoomMoveIngress (moveBack "move" "room")] ++ failedClaim)

theorem unsettledMove_keeps_debt :
    SparesDebt Host.quiet (movedInDebt .rollbackRequired) ∧
      retries Host.quiet (movedInDebt .rollbackRequired) "first" .preDispatch = 3 ∧
      DebtKept Host.quiet (movedInDebt .rollbackRequired) :=
  ⟨by decide +kernel, by decide +kernel, retry_debt _ _ (by decide +kernel)⟩

/-- The rollback of a settled move revives the item without the events of its debt. -/
theorem settledMove_forgives_debt : ¬ ∀ host log, DebtKept host log := by
  intro kept
  have bound := (kept Host.quiet (movedInDebt .failed)).twice "first" .preDispatch
  have third : automaticRetries Host.quiet (movedInDebt .failed) "first" .preDispatch = 3 := by
    decide +kernel
  omega

end LetAgents.Inbox.RetryDebt

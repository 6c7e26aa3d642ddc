import LetAgents.Inbox.RowLife

/-!
# Cutovers between the daemon inbox and custodial polling

Source: src/apps/desktop/daemon/delivery-drain.ts:45-453,
supervised-agent-inbox-store.ts:314-438, 818-877.

The drain journal, the queue and the effects are written by separate transactions with
guards of their own. A drain reaches `dispatching` only when its agent has nothing under
way, and no guard lets work in before the drain is complete.
-/
namespace LetAgents.Inbox.DrainCutover

open Lib Lib.Checked Records Retention Pruning DeliveryDrain Ingress Effects Delivery
  RoomMove Store Writes Transaction Reachable RowLife

/-! ## Readiness -/

/-- `state IN ('prepared','executing','uncertain')`. -/
def undecided : EffectState → Bool
  | .prepared | .executing | .uncertain => true
  | _ => false

/-- Nothing of the agent is under way: its rows are settled, its effects are decided. -/
structure Drained (db : Database) (agentId : String) : Prop where
  settled : ∀ item ∈ db.inbox, item.agentId = agentId → item.state.isFinal = true
  effects : ∀ effect ∈ db.effects, effect.agentId = agentId → undecided effect.state = false
  tombstones : ∀ tombstone ∈ db.tombstones, tombstone.agentId = agentId →
    tombstone.state ≠ .uncertain

variable {db d next : Database} {agentId operationId cursor : String}
  {cutover : DeliveryDrainRecord} {current : Option DaemonManifestEntry} {op : Op}
  {row item : SupervisedInboxItem} {effect : EffectRow}

theorem undecided_of_unsettledEffects (none' : unsettledEffects db agentId = false) :
    (∀ effect ∈ db.effects, effect.agentId = agentId → undecided effect.state = false) ∧
      ∀ tombstone ∈ db.tombstones, tombstone.agentId = agentId → tombstone.state ≠ .uncertain := by
  simp only [unsettledEffects, Bool.or_eq_false_iff, List.any_eq_false, Bool.and_eq_true,
    Bool.or_eq_true, decide_eq_true_eq, not_and, not_or] at none'
  refine ⟨fun effect member agent => ?_, none'.2⟩
  obtain ⟨⟨notPrepared, notExecuting⟩, notUncertain⟩ := none'.1 effect member agent
  cases state : effect.state with
  | prepared => exact absurd state notPrepared
  | executing => exact absurd state notExecuting
  | uncertain => exact absurd state notUncertain
  | completed | failed => rfl

/-- The cursor that a ready drain hands to the other mode. -/
structure HandedCursor (db : Database) (cutover : DeliveryDrainRecord) (cursor : Option String) :
    Prop where
  forward : cutover.fromMode = .mcpPolling →
    ∃ ack, custodialAckCursor db cutover = .ok ack ∧ cursor = some ack
  reverse : cutover.fromMode ≠ .mcpPolling →
    cursor = (db.cursors cutover.agentId).bind (·.lastObservedMessageId)

/-- What is left of the readiness check once the cursor is known. -/
def queueReadiness (db : Database) (cutover : DeliveryDrainRecord) (cursor : Option String) :
    Except String (DeliveryDrainRecord × DrainStatus × Option String) :=
  let effects : DrainStatus := if unsettledEffects db cutover.agentId then .waiting else .ready
  if (db.unsettled cutover.agentId).any fun item =>
      cutover.admittedInboxItemId ≠ some item.inboxItemId then
    return (cutover, .queued, cursor)
  else
    match cutover.admittedInboxItemId with
    | none => return (cutover, effects, cursor)
    | some admittedId => do
      let lost := "Delivery drain lost its exact admitted inbox item."
      let item ← found (db.item admittedId) lost
      require (item.agentId = cutover.agentId ∧ some item.roomId = cutover.roomId ∧
        some item.sourceMessageId = cutover.admittedSourceMessageId ∧
        some item.actionId = cutover.admittedActionId) lost
      if item.state.isFinal then
        assertAdmittedReceipt cutover item
        return (cutover, effects, cursor)
      else if deliveryDrainAllowsAdmission db item then return (cutover, .waiting, cursor)
      else return (cutover, .queued, cursor)

theorem deliveryDrainReadiness_cases (ok : deliveryDrainReadiness db operationId = .ok result) :
    ∃ cutover cursor, ownedDrain db operationId none = .ok cutover ∧
      HandedCursor db cutover cursor ∧ queueReadiness db cutover cursor = .ok result := by
  obtain ⟨cutover, owned, ok⟩ := bind_ok ok
  obtain ⟨_, ok⟩ := require_bind_ok ok
  dsimp only at ok
  split at ok
  · rename_i forward
    obtain ⟨_, _, ok⟩ := bind_ok ok
    obtain ⟨ack, acked, ok⟩ := bind_ok ok
    exact ⟨cutover, some ack, owned, ⟨fun _ => ⟨ack, acked, rfl⟩, fun reverse => absurd forward reverse⟩,
      ok⟩
  · rename_i reverse
    exact ⟨cutover, _, owned, ⟨fun forward => absurd forward reverse, fun _ => rfl⟩, ok⟩

theorem queueReadiness_ready {cursor handed : Option String}
    (ids : Table.Keyed (·.inboxItemId) db.inbox)
    (ok : queueReadiness db cutover cursor = .ok (result, .ready, handed)) :
    result = cutover ∧ handed = cursor ∧ Drained db cutover.agentId := by
  have decided : ∀ {status : DrainStatus}, status = .ready →
      (if unsettledEffects db cutover.agentId = true then DrainStatus.waiting else .ready) = status →
      unsettledEffects db cutover.agentId = false := by
    rintro _ rfl ready
    by_cases waits : unsettledEffects db cutover.agentId = true
    · rw [if_pos waits] at ready
      cases ready
    · rw [Bool.not_eq_true] at waits
      exact waits
  unfold queueReadiness at ok
  dsimp only at ok
  split at ok
  · cases ok
  rename_i noOther
  simp only [List.any_eq_true, not_exists, not_and, decide_eq_true_eq, not_not] at noOther
  have others : ∀ item ∈ db.inbox, item.agentId = cutover.agentId →
      cutover.admittedInboxItemId ≠ some item.inboxItemId → item.state.isFinal = true := by
    intro item member agent other
    by_contra unsettled
    rw [Bool.not_eq_true] at unsettled
    refine other (noOther item (List.mem_filter.mpr ⟨member, ?_⟩))
    simp [agent, unsettled]
  split at ok
  · rename_i noAdmitted
    simp only [pure, Except.pure, Except.ok.injEq, Prod.mk.injEq] at ok
    obtain ⟨same, ready, cursors⟩ := ok
    obtain ⟨effects, tombstones⟩ := undecided_of_unsettledEffects (decided rfl ready)
    refine ⟨same.symm, cursors.symm, ⟨fun item member agent => others item member agent ?_, effects,
      tombstones⟩⟩
    rw [noAdmitted]
    exact (Option.some_ne_none _).symm
  · rename_i admittedId admitted
    obtain ⟨item, itemKnown, ok⟩ := found_bind_ok ok
    obtain ⟨_, ok⟩ := require_bind_ok ok
    obtain ⟨member, named⟩ := item_ok itemKnown
    split at ok
    · rename_i final
      obtain ⟨_, _, ok⟩ := bind_ok ok
      simp only [pure, Except.pure, Except.ok.injEq, Prod.mk.injEq] at ok
      obtain ⟨same, ready, cursors⟩ := ok
      obtain ⟨effects, tombstones⟩ := undecided_of_unsettledEffects (decided rfl ready)
      refine ⟨same.symm, cursors.symm, ⟨fun other otherMember agent => ?_, effects, tombstones⟩⟩
      by_cases isAdmitted : admittedId = other.inboxItemId
      · rw [ids.eq otherMember member (isAdmitted.symm.trans named.symm)]
        exact final
      · refine others other otherMember agent ?_
        rw [admitted]
        exact fun same => isAdmitted (Option.some.inj same)
    · split at ok
      · cases ok
      · cases ok

/-- A cursor is handed over only when nothing of the agent is under way. -/
theorem requireReadyCursor_ok (ids : Table.Keyed (·.inboxItemId) db.inbox)
    (ok : requireReadyCursor db operationId = .ok cursor) :
    ∃ cutover, readDeliveryDrain db operationId = some cutover ∧ Drained db cutover.agentId ∧
      HandedCursor db cutover (some cursor) ∧ (numericCursor cursor).isSome = true := by
  obtain ⟨⟨cutover, status, handed⟩, readiness, ok⟩ := bind_ok ok
  obtain ⟨ready, ok⟩ := require_bind_ok ok
  obtain ⟨value, given, ok⟩ := found_bind_ok ok
  obtain ⟨numeric, ok⟩ := require_bind_ok ok
  cases ok
  obtain ⟨owned, known, ownedDrains, cursors, queue⟩ := deliveryDrainReadiness_cases readiness
  rw [show status = .ready from ready] at queue
  obtain ⟨_, rfl, drained⟩ := queueReadiness_ready ids queue
  rw [given] at cursors
  exact ⟨owned, ownedDrain_ok ownedDrains, drained, cursors, numeric⟩

/-! ## The journal -/

/-- The phases that a drain may move to. -/
inductive PhaseMove (db : Database) (cutover : DeliveryDrainRecord) : DrainPhase → Prop where
  | cancelled (early : cutover.phase = .prepared ∨ cutover.phase = .draining ∨
      cutover.phase = .cancelled) : PhaseMove db cutover .cancelled
  | dispatched (early : cutover.phase = .prepared ∨ cutover.phase = .draining)
      (drained : Drained db cutover.agentId) : PhaseMove db cutover .dispatching
  | doubted (blocks : deliveryDrainBlocksRuntime cutover = true) : PhaseMove db cutover .uncertain
  | completed (blocks : deliveryDrainBlocksRuntime cutover = true)
      (drained : Drained db cutover.agentId) : PhaseMove db cutover .complete

/-- What a transaction does to the drain journal. -/
inductive JournalStep (db : Database) : List DeliveryDrainRecord → Prop where
  | same : JournalStep db db.cutovers
  | opened (cutover : DeliveryDrainRecord) (draining : cutover.phase = .draining)
      (fresh : ∀ other ∈ db.cutovers, other.operationId ≠ cutover.operationId) :
      JournalStep db (db.cutovers ++ [cutover])
  | moved (cutover : DeliveryDrainRecord) (phase : DrainPhase) (known : cutover ∈ db.cutovers)
      (move : PhaseMove db cutover phase) :
      JournalStep db (setDrainPhase db cutover.operationId phase).cutovers

section Journal

variable {db next : Database}

theorem prepareOwnedDrain_journal
    (ok : prepareOwnedDrain db input current reverseOperationId = .ok next) :
    JournalStep db next.cutovers := by
  obtain rfl | ⟨opened, rfl, draining, -, fresh⟩ := prepareOwnedDrain_cases ok
  · exact .same
  · exact .opened opened draining fresh

theorem cancelDeliveryDrain_journal
    (ok : cancelDeliveryDrain db operationId agentId = .ok next) :
    JournalStep db next.cutovers := by
  obtain ⟨cutover, known, ok⟩ := found_bind_ok ok
  obtain ⟨⟨_, _, _, early⟩, ok⟩ := require_bind_ok ok
  cases ok
  obtain ⟨member, rfl⟩ := readDeliveryDrain_ok known
  exact .moved cutover .cancelled member (.cancelled early)

theorem markDeliveryDrainDispatch_journal (ids : Table.Keyed (·.inboxItemId) db.inbox)
    (ok : markDeliveryDrainDispatch db input current = .ok next) :
    JournalStep db next.cutovers := by
  obtain ⟨cutover, owned, ok⟩ := bind_ok ok
  obtain ⟨phase, ok⟩ := require_bind_ok ok
  obtain ⟨_, _, ok⟩ := bind_ok ok
  obtain ⟨_, _, ok⟩ := found_bind_ok ok
  obtain ⟨_, ok⟩ := require_bind_ok ok
  obtain ⟨_, ready, ok⟩ := bind_ok ok
  obtain ⟨ready', known, drained, _⟩ := requireReadyCursor_ok ids ready
  rw [ownedDrain_ok owned, Option.some.injEq] at known
  obtain ⟨member, named⟩ := readDeliveryDrain_ok (ownedDrain_ok owned)
  split at ok
  · cases ok
    exact .same
  · rename_i early
    cases ok
    simp only [deliveryDrainBlocksRuntime, Bool.or_eq_true, decide_eq_true_eq, not_or] at early
    rw [← named]
    refine .moved cutover .dispatching member (.dispatched ?_ (known ▸ drained))
    rcases phase with prepared | draining | dispatching | uncertain
    · exact .inl prepared
    · exact .inr draining
    · exact absurd dispatching early.1
    · exact absurd uncertain early.2

theorem markDeliveryDrainUncertain_journal
    (ok : markDeliveryDrainUncertain db operationId agentId = .ok next) :
    JournalStep db next.cutovers := by
  obtain ⟨cutover, owned, ok⟩ := bind_ok ok
  obtain ⟨blocks, ok⟩ := require_bind_ok ok
  cases ok
  obtain ⟨member, rfl⟩ := readDeliveryDrain_ok (ownedDrain_ok owned)
  exact .moved cutover .uncertain member (.doubted blocks)

/-- The commit of a drain: its agent is drained, and the other mode gets a cursor that
is not older than the agent's. -/
structure CutoverCommit (db : Database) (cutover : DeliveryDrainRecord) (cursor : String)
    (next : Database) : Prop where
  member : cutover ∈ db.cutovers
  blocks : deliveryDrainBlocksRuntime cutover = true
  drained : Drained db cutover.agentId
  handed : HandedCursor db cutover (some cursor)
  numeric : (numericCursor cursor).isSome = true
  journal : next.cutovers = (setDrainPhase db cutover.operationId .complete).cutovers
  inbox : next.inbox = db.inbox
  cursors : next.cursors = if cutover.fromMode = .mcpPolling then
      (setIngressCursor db cutover.agentId cutover.roomId cursor).cursors else db.cursors
  host : next.host = transferAuthority (if cutover.fromMode = .mcpPolling then db.host
    else setWorkerRoomCursor db.host cutover.agentId cursor) cutover cursor

theorem commitDeliveryDrain_commit (ids : Table.Keyed (·.inboxItemId) db.inbox)
    (ok : commitDeliveryDrain db operationId agentId current = .ok next) :
    ∃ cutover cursor, readDeliveryDrain db operationId = some cutover ∧
      cutover.agentId = agentId ∧ CutoverCommit db cutover cursor next := by
  obtain ⟨cutover, owned, ok⟩ := bind_ok ok
  obtain ⟨blocks, ok⟩ := require_bind_ok ok
  obtain ⟨_, _, ok⟩ := bind_ok ok
  obtain ⟨cursor, ready, ok⟩ := bind_ok ok
  obtain ⟨_, ok⟩ := require_bind_ok ok
  obtain ⟨ready', known, drained, handed, numeric⟩ := requireReadyCursor_ok ids ready
  rw [ownedDrain_ok owned, Option.some.injEq] at known
  obtain ⟨member, rfl⟩ := readDeliveryDrain_ok (ownedDrain_ok owned)
  have named : cutover.agentId = agentId := by
    obtain ⟨found', _, owned⟩ := found_bind_ok owned
    obtain ⟨⟨named, _⟩, owned⟩ := require_bind_ok owned
    cases owned
    simpa using named
  have frame := setIngressCursor_frame db cutover.agentId cutover.roomId cursor
  cases ok
  refine ⟨cutover, cursor, ownedDrain_ok owned, named, member, blocks, known ▸ drained,
    known ▸ handed, numeric, ?_, ?_, ?_, ?_⟩
  · split
    · rw [frame]
      rfl
    · rfl
  · split
    · rw [frame]
      rfl
    · rfl
  · split
    · rfl
    · rfl
  · split
    · rw [frame]
      rfl
    · rfl

theorem drain_journal (ids : Table.Keyed (·.inboxItemId) db.inbox) (writes : isDrain op = true)
    (ok : step db op = .ok next) : JournalStep db next.cutovers := by
  cases op <;> simp only [isDrain, Bool.false_eq_true] at writes
  case prepareDeliveryDrain input current => exact prepareOwnedDrain_journal ok
  case prepareCustodialForward input reverseOperationId current =>
    obtain ⟨_, ok⟩ := require_bind_ok ok
    exact prepareOwnedDrain_journal ok
  case cancelDeliveryDrain operationId agentId => exact cancelDeliveryDrain_journal ok
  case markDeliveryDrainDispatch input current => exact markDeliveryDrainDispatch_journal ids ok
  case markDeliveryDrainUncertain operationId agentId =>
    exact markDeliveryDrainUncertain_journal ok
  case commitDeliveryDrain operationId agentId current =>
    obtain ⟨cutover, cursor, _, _, commit⟩ := commitDeliveryDrain_commit ids ok
    rw [commit.journal]
    exact .moved cutover .complete commit.member (.completed commit.blocks commit.drained)

end Journal

/-- The operations that give an agent another room or purge it. -/
def movesAgent : Op → Bool
  | .commitRoomMoveCursor _ | .commitRoomMoveQueue _ _ | .rollbackRoomMoveIngress _
  | .removeAgent _ => true
  | _ => false

/-- Only the operations of the journal write it, and only they, ingress and what gives an agent
another room write its cursor. -/
theorem executes_journal (other : isDrain op = false) (executes : Executes db op d) :
    d.cutovers = db.cutovers ∧ (writesIngress op = false → movesAgent op = false → d.cursors = db.cursors) := by
  induction executes with
  | start => exact ⟨rfl, fun _ _ => rfl⟩
  | row _ _ _ ih => exact ih
  | rows _ => exact ⟨rfl, fun _ _ => rfl⟩
  | insert _ fresh _ _ ih =>
    obtain ⟨rfl, _⟩ := issueFor_ok fresh
    exact ih
  | settle _ _ ih =>
    rename_i d item now _ _
    obtain ⟨_, _, equal⟩ := settle_eq d item now
    rw [equal]
    exact ih
  | prune _ pruned ih =>
    rw [prune_frame pruned]
    exact ih
  | remove call removed =>
    refine ⟨(removeAgent_ok removed).2.2.2.2.1, fun _ stays => ?_⟩
    rw [call] at stays
    cases stays
  | ingress _ writes ih =>
    refine ⟨ih.1, fun noWrite => ?_⟩
    rw [noWrite] at writes
    cases writes
  | observe _ ih | repair _ ih => exact ih
  | issue _ fresh ih =>
    obtain ⟨rfl, _⟩ := issue_ok fresh
    exact ih
  | effects _ _ ih | tombstones _ _ ih => exact ih
  | admitted fresh _ =>
    obtain ⟨rfl, _⟩ := issue_ok fresh
    exact ⟨rfl, fun _ _ => rfl⟩
  | moves _ _ ih => exact ih
  | drain writes _ =>
    rw [other] at writes
    cases writes
  | external _ => exact ⟨rfl, fun _ _ => rfl⟩

theorem step_journal (sound : Sound db) (ok : step db op = .ok next) :
    JournalStep db next.cutovers := by
  by_cases writes : isDrain op = true
  · exact drain_journal sound.ids writes ok
  · rw [Bool.not_eq_true] at writes
    rw [(executes_journal writes (step_executes sound ok)).1]
    exact .same

/-! ## Nothing starts while ingress is frozen -/

/-- The agent's drain is dispatched and not complete. -/
def Frozen (db : Database) (agentId : String) : Prop :=
  (unresolvedDeliveryDrain db agentId).any deliveryDrainBlocksRuntime = true

theorem frozen_of_blocks (sound : Sound db) (member : drain ∈ db.cutovers)
    (blocks : deliveryDrainBlocksRuntime drain = true) : Frozen db drain.agentId := by
  unfold Frozen
  cases found : unresolvedDeliveryDrain db drain.agentId with
  | none =>
    have absent := List.find?_eq_none.mp found drain member
    simp [blocksRuntime_open blocks] at absent
  | some other =>
    have holds := List.find?_some found
    simp only [Bool.and_eq_true, decide_eq_true_eq, Bool.not_eq_true'] at holds
    have otherMember := List.mem_of_find?_eq_some found
    have ids := sound.drains other otherMember drain member holds.1 holds.2
      (blocksRuntime_open blocks)
    rw [sound.cutovers.eq otherMember member ids, Option.any_some]
    exact blocks

/-- A frozen agent gets no new row. -/
theorem NewRow.not_frozen (new : NewRow db op row) : ¬ Frozen db row.agentId := by
  have refused : ∀ {agentId : String}, assertDeliveryDrainIngressAllowed db agentId = .ok () →
      ¬ Frozen db agentId := by
    intro agentId allowed frozen
    have passed := require_ok allowed
    rw [frozen] at passed
    exact passed rfl
  cases new with
  | polled message fifoSequence allowed | synthetic fifoSequence allowed => exact refused allowed
  | continuation source message activation fifoSequence allowed =>
    rename_i input
    have agent := congrArg Receipt.agentId (continuationChild_receipt input
      (newItem input.uuid input.agentId input.roomId source message activation fifoSequence))
    intro frozen
    refine refused allowed ?_
    rw [show (continuationChild input _).agentId = input.agentId from agent] at frozen
    exact frozen

theorem assertActiveEffectAuthority_ok (ok : assertActiveEffectAuthority db authority = .ok item) :
    item ∈ db.inbox ∧ item.agentId = authority.agentId ∧ item.state.isFinal = false := by
  unfold assertActiveEffectAuthority at ok
  split at ok
  · rename_i only listed
    obtain ⟨_, known, ok⟩ := bind_ok ok
    cases known
    obtain ⟨state, ok⟩ := require_bind_ok ok
    obtain ⟨_, ok⟩ := require_bind_ok ok
    obtain ⟨_, ok⟩ := require_bind_ok ok
    obtain ⟨_, ok⟩ := require_bind_ok ok
    cases ok
    have member : item ∈ db.inbox.filter (bindsAuthority authority) := by
      rw [listed]
      exact List.mem_singleton_self _
    obtain ⟨stored, binds⟩ := List.mem_filter.mp member
    simp only [bindsAuthority, Option.any_eq_true, Bool.and_eq_true, decide_eq_true_eq] at binds
    obtain ⟨binding, _, ⟨⟨⟨⟨⟨⟨⟨agent, _⟩, _⟩, _⟩, _⟩, _⟩, same⟩, _⟩, _⟩ := binds
    refine ⟨stored, same.trans agent, ?_⟩
    rcases state with dispatching | awaiting
    · rw [dispatching]
      rfl
    · rw [awaiting]
      rfl
  · obtain ⟨_, refused, _⟩ := bind_ok ok
    cases refused

/-- An effect is admitted only under a turn of its agent. -/
theorem NewEffect.unsettled (new : NewEffect db op effect) :
    ∃ item ∈ db.inbox, item.agentId = effect.agentId ∧ item.state.isFinal = false := by
  cases new with
  | prepared mutation state resultJson serialized noEffect noTombstone authority states =>
    exact ⟨_, assertActiveEffectAuthority_ok authority⟩
  | roomMove serialized noEffect authority => exact ⟨_, assertActiveEffectAuthority_ok authority⟩

theorem interruptedEffect_decided (now : String) (decided : undecided effect.state = false) :
    interruptedEffect now effect = effect := by
  unfold interruptedEffect
  have done : effect.state ≠ .executing := by
    rintro executing
    rw [executing] at decided
    cases decided
  simp [done]

/-- A decided effect stays decided. -/
theorem EffectWrite.decided (write : EffectWrite db op effect written)
    (decided : undecided effect.state = false) : undecided written.state = false := by
  have absurdly : ∀ {state}, effect.state = state → undecided state = true → False := by
    rintro _ rfl open'
    rw [decided] at open'
    cases open'
  cases write with
  | proposed resultJson tool =>
    unfold completed
    split
    · rfl
    · exact decided
  | doubted error executing | returned error executing => exact (absurdly executing rfl).elim
  | rejected error prepared | started prepared
  | staged resultJson now prepared => exact (absurdly prepared rfl).elim
  | settled d completable =>
    rcases completable with executing | uncertain | ⟨prepared, _⟩
    · exact (absurdly executing rfl).elim
    · exact (absurdly uncertain rfl).elim
    · exact (absurdly prepared rfl).elim
  | interrupted now =>
    rw [interruptedEffect_decided now decided]
    exact decided

theorem settledEffect_decided (now : String) (decided : undecided effect.state = false) :
    undecided (settledEffect now effect).state = false := by
  unfold settledEffect
  split
  · rfl
  · exact decided

theorem deleteReceipt_tombstones (ok : deleteReceipt db item = .ok next) :
    next.tombstones ⊆ db.tombstones := by
  obtain ⟨_, written⟩ := require_bind_ok ok
  cases written
  exact fun row member => List.mem_of_mem_filter member

/-- A tombstone after a pruning was there, or stands for an effect that was uncertain. -/
theorem prune_tombstones (ok : pruneSupervisedAgentHistory db agentId keep = .ok next)
    (member : tombstone ∈ next.tombstones) : tombstone ∈ db.tombstones ∨
      ∃ effect ∈ db.effects, effect.state = .uncertain ∧ effect.agentId = tombstone.agentId := by
  obtain ⟨compacted, kept, compaction, deletion, rfl⟩ := prune_stages ok
  have first : ∀ row ∈ compacted.tombstones, row ∈ db.tombstones ∨
      ∃ effect ∈ db.effects, effect.state = .uncertain ∧ effect.agentId = row.agentId := by
    refine foldlM_preserves (motive := fun d => ∀ row ∈ d.tombstones, row ∈ db.tombstones ∨
      ∃ effect ∈ db.effects, effect.state = .uncertain ∧ effect.agentId = row.agentId) ?_ compaction
      fun row there => .inl there
    intro d effect d' listed known compacts row rowMember
    rw [(compactEffect_ok compacts).1] at rowMember
    rcases List.mem_append.mp rowMember with old | new
    · exact known row old
    · rw [List.mem_singleton.mp new]
      have stored := (List.mem_insertionSort _).mp (List.mem_of_mem_drop listed)
      obtain ⟨effectMember, holds⟩ := List.mem_filter.mp stored
      simp only [Bool.and_eq_true, decide_eq_true_eq] at holds
      exact .inr ⟨effect, effectMember, holds.2, rfl⟩
  have second : kept.tombstones ⊆ (dropUnboundTombstones compacted agentId).tombstones := by
    refine foldlM_preserves (motive := fun d => d.tombstones ⊆
      (dropUnboundTombstones compacted agentId).tombstones) ?_ deletion (List.Subset.refl _)
    intro d item d' _ fewer deletes
    exact fun row member => fewer (deleteReceipt_tombstones deletes member)
  exact first tombstone (List.mem_of_mem_filter (second member))

/-- A written tombstone says how the effect ended. -/
theorem TombstoneWrite.certain (write : TombstoneWrite op tombstone written) :
    written.state ≠ .uncertain := by
  cases write with
  | settled d =>
    simp only [completionOf]
    split <;> exact nofun

/-- Is the operation the rollback of a room move? -/
def isRollback : Op → Bool
  | .rollbackRoomMoveIngress _ => true
  | _ => false

section Frozen

variable {db d : Database} {op : Op} {agentId : String}

/-- A frozen agent has no rows but those it had. -/
theorem executes_rows (sound : Sound db) (frozen : Frozen db agentId)
    (executes : Executes db op d) (member : row ∈ d.inbox) (agent : row.agentId = agentId) :
    ∃ item ∈ db.inbox, RowStep db op item row := by
  rcases (executes_follows sound executes).rows row member with stepped | inserted
  · exact stepped
  · rw [← agent] at frozen
    exact absurd frozen (NewRow.not_frozen inserted.new)

/-- The rows of a frozen agent stay settled. -/
theorem executes_settled (sound : Sound db) (drained : Drained db agentId) (frozen : Frozen db agentId)
    (other : isRollback op = false) (executes : Executes db op d) :
    ∀ row ∈ d.inbox, row.agentId = agentId → row.state.isFinal = true := by
  intro row member agent
  obtain ⟨item, itemMember, stepped⟩ := executes_rows sound frozen executes member agent
  have final := drained.settled item itemMember
    ((congrArg Receipt.agentId (RowStep.receipt_eq stepped)).symm.trans agent)
  rcases RowStep.of_final sound itemMember stepped final with same | ⟨_, rolls, _⟩
  · rw [same]
    exact final
  · rw [rolls] at other
    cases other

/-- No effect of a drained agent is opened again. -/
theorem executes_effects (drained : Drained db agentId) (executes : Executes db op d) :
    (∀ effect ∈ d.effects, effect.agentId = agentId → undecided effect.state = false) ∧
      ∀ tombstone ∈ d.tombstones, tombstone.agentId = agentId → tombstone.state ≠ .uncertain := by
  have before := And.intro drained.effects drained.tombstones
  induction executes with
  | start => exact before
  | row _ _ _ ih => exact ih
  | rows _ => exact before
  | insert _ fresh _ _ ih =>
    obtain ⟨rfl, _⟩ := issueFor_ok fresh
    exact ih
  | settle _ _ ih =>
    rename_i d item now _ _
    obtain ⟨f, settles, equal⟩ := settle_eq d item now
    rw [equal]
    refine ⟨fun effect member agent => ?_, ih.2⟩
    obtain ⟨old, oldMember, rfl⟩ := List.mem_map.mp member
    rcases settles old with same | changed
    · rw [same] at agent ⊢
      exact ih.1 old oldMember agent
    · rw [changed] at agent ⊢
      have claims := congrArg (fun row => row.identity.turn.agentId) (settledEffect_claim now old)
      exact settledEffect_decided now (ih.1 old oldMember (claims.symm.trans agent))
  | prune _ pruned ih =>
    refine ⟨fun effect member => ih.1 effect ((prune_effects pruned).subset member),
      fun tombstone member agent => ?_⟩
    rcases prune_tombstones pruned member with old | ⟨effect, effectMember, uncertain, same⟩
    · exact ih.2 tombstone old agent
    · have decided := ih.1 effect effectMember (same.trans agent)
      rw [uncertain] at decided
      cases decided
  | remove _ removed =>
    obtain ⟨_, effects, tombstones, _⟩ := removeAgent_ok removed
    rw [effects, tombstones]
    exact ⟨fun effect member => before.1 effect (List.mem_of_mem_filter member),
      fun tombstone member => before.2 tombstone (List.mem_of_mem_filter member)⟩
  | ingress _ _ ih | observe _ ih | repair _ ih => exact ih
  | issue _ fresh ih =>
    obtain ⟨rfl, _⟩ := issue_ok fresh
    exact ih
  | effects _ writes ih =>
    refine ⟨fun effect member agent => ?_, ih.2⟩
    obtain ⟨old, oldMember, rfl⟩ := List.mem_map.mp member
    rcases writes old oldMember with same | write
    · rw [same] at agent ⊢
      exact ih.1 old oldMember agent
    · have claims := congrArg (fun row => row.identity.turn.agentId) (EffectWrite.claim_eq write)
      exact EffectWrite.decided write (ih.1 old oldMember (claims.symm.trans agent))
  | tombstones _ writes ih =>
    refine ⟨ih.1, fun tombstone member agent => ?_⟩
    obtain ⟨old, oldMember, rfl⟩ := List.mem_map.mp member
    rcases writes old oldMember with same | write
    · rw [same] at agent ⊢
      exact ih.2 old oldMember agent
    · exact TombstoneWrite.certain write
  | admitted fresh new =>
    obtain ⟨rfl, _⟩ := issue_ok fresh
    refine ⟨fun effect member agent => ?_, before.2⟩
    rcases List.mem_append.mp member with old | added
    · exact before.1 effect old agent
    · rw [List.mem_singleton.mp added] at agent
      obtain ⟨item, itemMember, same, unsettled⟩ := NewEffect.unsettled new
      rw [drained.settled item itemMember (same.trans agent)] at unsettled
      cases unsettled
  | moves _ _ ih => exact ih
  | drain _ _ | external _ => exact before

/-- A frozen agent stays drained, whatever runs. -/
theorem step_drained (sound : Sound db) (drained : Drained db agentId)
    (frozen : Frozen db agentId) (other : isRollback op = false) (ok : step db op = .ok next) :
    Drained next agentId := by
  have executes := step_executes sound ok
  obtain ⟨effects, tombstones⟩ := executes_effects drained executes
  exact ⟨executes_settled sound drained frozen other executes, effects, tombstones⟩

end Frozen

/-- While a drain blocks the runtime, its agent is drained. -/
def FrozenDrained (db : Database) : Prop :=
  ∀ drain ∈ db.cutovers, deliveryDrainBlocksRuntime drain = true → Drained db drain.agentId

theorem step_frozenDrained (sound : Sound db) (before : FrozenDrained db)
    (other : isRollback op = false) (ok : step db op = .ok next) : FrozenDrained next := by
  intro drain member blocks
  by_cases writes : isDrain op = true
  · have same : Drained db drain.agentId → Drained next drain.agentId := by
      intro drained
      rw [(drain_ok writes ok).1]
      exact ⟨drained.settled, drained.effects, drained.tombstones⟩
    have journal := drain_journal sound.ids writes ok
    generalize next.cutovers = cutovers at member journal
    cases journal with
    | same => exact same (before drain member blocks)
    | opened cutover draining fresh =>
      rcases List.mem_append.mp member with old | new
      · exact same (before drain old blocks)
      · rw [List.mem_singleton.mp new, deliveryDrainBlocksRuntime, draining] at blocks
        cases blocks
    | moved cutover phase known move =>
      rcases setDrainPhase_mem member with ⟨old, _⟩ | ⟨old, oldMember, named, rfl⟩
      · exact same (before drain old blocks)
      · rw [sound.cutovers.eq oldMember known named] at blocks same ⊢
        cases move with
        | cancelled => cases blocks
        | dispatched early drained => exact same drained
        | doubted blocked => exact same (before cutover known blocked)
        | completed => cases blocks
  · rw [Bool.not_eq_true] at writes
    have journal := (executes_journal writes (step_executes sound ok)).1
    rw [journal] at member
    exact step_drained sound (before drain member blocks) (frozen_of_blocks sound member blocks) other
      ok

/-! ## The dispatch is not taken back -/

/-- The phases from the record of the dispatch on. -/
def dispatched : DrainPhase → Bool
  | .dispatching | .uncertain | .complete => true
  | _ => false

/-- A dispatched drain is still there, and still dispatched. -/
def KeepsDispatch (db next : Database) : Prop :=
  ∀ drain ∈ db.cutovers, dispatched drain.phase = true →
    ∃ after ∈ next.cutovers, after.operationId = drain.operationId ∧
      after.agentId = drain.agentId ∧ dispatched after.phase = true

theorem KeepsDispatch.refl (db : Database) : KeepsDispatch db db :=
  fun drain member past => ⟨drain, member, rfl, rfl, past⟩

theorem KeepsDispatch.trans (first : KeepsDispatch a b) (second : KeepsDispatch b c) :
    KeepsDispatch a c := by
  intro drain member past
  obtain ⟨middle, middleMember, id, agent, middlePast⟩ := first drain member past
  obtain ⟨last, lastMember, lastId, lastAgent, lastPast⟩ := second middle middleMember middlePast
  exact ⟨last, lastMember, lastId.trans id, lastAgent.trans agent, lastPast⟩

theorem phaseMove_past (move : PhaseMove db cutover phase) (past : dispatched cutover.phase = true) :
    dispatched phase = true := by
  cases move with
  | cancelled early =>
    rcases early with same | same | same
    · rw [same] at past
      cases past
    · rw [same] at past
      cases past
    · rw [same] at past
      cases past
  | dispatched | doubted | completed => rfl

theorem step_keepsDispatch (sound : Sound db) (ok : step db op = .ok next) :
    KeepsDispatch db next := by
  have journal := step_journal sound ok
  unfold KeepsDispatch
  generalize next.cutovers = cutovers at journal
  cases journal with
  | same => exact KeepsDispatch.refl db
  | opened cutover draining fresh =>
    exact fun drain member past =>
      ⟨drain, List.mem_append_left _ member, rfl, rfl, past⟩
  | moved cutover phase known move =>
    intro drain member past
    by_cases named : drain.operationId = cutover.operationId
    · refine ⟨{ drain with phase }, ?_, rfl, rfl, ?_⟩
      · exact List.mem_map.mpr ⟨drain, member, if_pos named⟩
      · rw [sound.cutovers.eq member known named] at past
        exact phaseMove_past move past
    · exact ⟨drain, List.mem_map.mpr ⟨drain, member, if_neg named⟩, rfl, rfl, past⟩

/-! ## Admission -/

theorem retryState_ne_dispatching (item : SupervisedInboxItem) (input : RetryFailure) :
    retryState item input ≠ .dispatching := by
  unfold retryState
  split
  · exact nofun
  split
  · exact nofun
  split
  · exact nofun
  · exact nofun

/-- A row enters `dispatching` only past the drain's gate. -/
theorem RowWrite.admits (write : RowWrite db item op written)
    (dispatching : written.state = .dispatching) :
    item.state = .dispatching ∨ deliveryDrainAllowsAdmission db item = true := by
  cases write with
  | annotated notes =>
    rw [Annotates.state notes] at dispatching
    exact .inl dispatching
  | transitioned call allowed =>
    obtain ⟨_, facts⟩ := assertTransition_ok allowed
    rw [recordTransition_state] at dispatching
    exact .inr (facts.admitted dispatching)
  | claimed head pending admitted => exact .inr admitted
  | turnStarted started => exact .inl started
  | retried =>
    rw [retried_state] at dispatching
    exact absurd dispatching (retryState_ne_dispatching _ _)
  | handedBack =>
    rw [handedBack_state] at dispatching
    cases dispatching
  | finished =>
    rw [finished_state] at dispatching
    exact .inl dispatching
  | outcomeRecorded =>
    rw [outcomeRecorded_state] at dispatching
    exact .inl dispatching
  | published =>
    rw [published_state] at dispatching
    cases dispatching
  | skipped =>
    rw [skipped_state] at dispatching
    cases dispatching
  | stopped =>
    rw [stopped_state] at dispatching
    split at dispatching
    · cases dispatching
    · cases dispatching
  | unused =>
    rw [unused_state] at dispatching
    cases dispatching
  | recovered unsettled proven decided =>
    rw [recovered_state] at dispatching
    rcases recoveryDecision_cases decided with ⟨_, rfl⟩ | ⟨_, _, rfl⟩ | ⟨_, _, rfl | rfl | rfl | ⟨rfl, _⟩⟩
    · cases dispatching
    · cases dispatching
    · cases dispatching
    · cases dispatching
    · cases dispatching
    · cases dispatching
  | released =>
    rw [released_state] at dispatching
    cases dispatching
  | roomMoveCancelled =>
    rw [roomMoveCancelled_state] at dispatching
    cases dispatching
  | revived =>
    rw [revived_state] at dispatching
    cases dispatching

/-- The gate lets the drain's admitted item through and no other. -/
theorem admitted_of_allowed (sound : Sound db)
    (allowed : deliveryDrainAllowsAdmission db item = true) (member : drain ∈ db.cutovers)
    (agent : drain.agentId = item.agentId) (unresolved : drain.phase.resolved = false) :
    drain.admittedInboxItemId = some item.inboxItemId := by
  unfold deliveryDrainAllowsAdmission at allowed
  split at allowed
  · rename_i none'
    have absent := List.find?_eq_none.mp none' drain member
    simp [agent, unresolved] at absent
  · rename_i other found
    have holds := List.find?_some found
    simp only [Bool.and_eq_true, decide_eq_true_eq, Bool.not_eq_true'] at holds
    have otherMember := List.mem_of_find?_eq_some found
    have ids := sound.drains other otherMember drain member (holds.1.trans agent.symm) holds.2
      unresolved
    rw [← sound.cutovers.eq otherMember member ids]
    split at allowed
    · cases allowed
    · rename_i exact'
      simp only [Bool.or_eq_true, decide_eq_true_eq, not_or, not_not] at exact'
      exact exact'.1.1.2

theorem step_admits (sound : Sound db) (ok : step db op = .ok next)
    (member : row ∈ next.inbox) (dispatching : row.state = .dispatching) :
    (∃ item ∈ db.inbox, item.inboxItemId = row.inboxItemId ∧ item.state = .dispatching) ∨
      ∀ drain ∈ db.cutovers, drain.agentId = row.agentId → drain.phase.resolved = false →
        drain.admittedInboxItemId = some row.inboxItemId := by
  rcases (step_follows sound ok).rows row member with ⟨item, itemMember, stepped⟩ | inserted
  · have receipts := RowStep.receipt_eq stepped
    have ids : row.inboxItemId = item.inboxItemId := congrArg Receipt.inboxItemId receipts
    have agents : row.agentId = item.agentId := congrArg Receipt.agentId receipts
    have entered : item.state = .dispatching ∨ deliveryDrainAllowsAdmission db item = true := by
      obtain ⟨written, rfl | write, trims⟩ := stepped
      · rw [trims.state_eq] at dispatching
        exact .inl dispatching
      · rw [trims.state_eq] at dispatching
        exact RowWrite.admits write dispatching
    rcases entered with already | allowed
    · exact .inl ⟨item, itemMember, ids.symm, already⟩
    · refine .inr fun drain drainMember agent unresolved => ?_
      rw [ids]
      exact admitted_of_allowed sound allowed drainMember (agent.trans agents) unresolved
  · rcases NewRow.state inserted.new with pending | ⟨blocked, _⟩
    · rw [pending] at dispatching
      cases dispatching
    · rw [blocked] at dispatching
      cases dispatching

/-! ## The ingress cursor -/

/-- The number of a cursor. -/
def observedNumber (cursor : Option IngressCursor) : Option Nat :=
  (cursor.bind (·.lastObservedMessageId)).bind numericCursor

/-- A cursor that is kept stays in its room and never goes back. -/
def Advances (before after : Option IngressCursor) : Prop :=
  ∀ row, before = some row → ∃ next, after = some next ∧ next.roomId = row.roomId ∧
    ∀ n, observedNumber before = some n → ∃ m, observedNumber after = some m ∧ n ≤ m

theorem Advances.refl (cursor : Option IngressCursor) : Advances cursor cursor :=
  fun row known => ⟨row, known, rfl, fun n value => ⟨n, value, le_rfl⟩⟩

theorem Advances.trans (first : Advances a b) (second : Advances b c) : Advances a c := by
  intro row known
  obtain ⟨middle, middleKnown, room, later⟩ := first row known
  obtain ⟨last, lastKnown, lastRoom, latest⟩ := second middle middleKnown
  refine ⟨last, lastKnown, lastRoom.trans room, fun n value => ?_⟩
  obtain ⟨m, middleValue, bound⟩ := later n value
  obtain ⟨k, lastValue, lastBound⟩ := latest m middleValue
  exact ⟨k, lastValue, le_trans bound lastBound⟩

section Cursors

variable {db next : Database}

theorem bootstrapCursor_advances (ok : bootstrapCursor db input = .ok next) (agentId : String) :
    Advances (db.cursors agentId) (next.cursors agentId) := by
  obtain ⟨_, _, ok⟩ := bind_ok ok
  obtain ⟨_, _, ok⟩ := bind_ok ok
  obtain ⟨_, _, ok⟩ := bind_ok ok
  obtain ⟨_, _, ok⟩ := bind_ok ok
  split at ok
  · obtain ⟨_, same⟩ := require_bind_ok ok
    cases same
    exact .refl _
  · rename_i absent
    cases ok
    by_cases named : agentId = input.agentId
    · rw [named, absent]
      exact nofun
    · have same : (putCursor db input.agentId
          (some ⟨input.roomId, input.lastObservedMessageId⟩)).cursors agentId = db.cursors agentId :=
        Function.update_of_ne named _ _
      rw [same]
      exact .refl _

theorem nextCursor_ok {lastObserved current next : Option String}
    (ok : nextCursor lastObserved current = .ok next) :
    ∀ n, current.bind numericCursor = some n → ∃ m, next.bind numericCursor = some m ∧ n ≤ m := by
  intro n value
  cases current with
  | none => cases value
  | some text =>
    cases lastObserved with
    | none =>
      cases ok
      exact ⟨n, value, le_rfl⟩
    | some candidate =>
      obtain ⟨_, numeric, ok⟩ := bind_ok ok
      obtain ⟨newer, compared, ok⟩ := bind_ok ok
      cases ok
      unfold isNewerCursor at compared
      split at compared
      · rename_i none'
        cases none'
      · rename_i current' same
        cases same
        split at compared
        · rename_i candidateNumber currentNumber candidateValue currentValue
          cases compared
          rw [Option.bind_some, currentValue, Option.some.injEq] at value
          by_cases later : currentNumber < candidateNumber
          · refine ⟨candidateNumber, ?_, by omega⟩
            simpa [later] using candidateValue
          · refine ⟨currentNumber, ?_, by omega⟩
            simpa [later] using currentValue
        · cases compared

theorem observeMessage_cursors (ok : observeMessage agentId roomId d sourceMessageId = .ok next) :
    next.cursors = d.cursors := by
  obtain ⟨_, _, ok⟩ := bind_ok ok
  dsimp only at ok
  split at ok
  · cases ok
    rfl
  · cases ok
    rfl

theorem ingestMessage_cursors (ok : ingestMessage agentId roomId d message = .ok next) :
    next.cursors = d.cursors := by
  obtain ⟨_, _, ok⟩ := bind_ok ok
  split at ok
  · cases ok
    rfl
  · obtain ⟨issued, fresh, written⟩ := bind_ok ok
    obtain ⟨rfl, _⟩ := issueFor_ok fresh
    cases written
    rfl

theorem commitPollIngestion_advances (ok : commitPollIngestion db input = .ok next)
    (agentId : String) : Advances (db.cursors agentId) (next.cursors agentId) := by
  obtain ⟨_, _, ok⟩ := bind_ok ok
  obtain ⟨_, _, ok⟩ := bind_ok ok
  obtain ⟨_, _, ok⟩ := bind_ok ok
  obtain ⟨_, _, ok⟩ := bind_ok ok
  obtain ⟨room, ok⟩ := require_bind_ok ok
  obtain ⟨_, ok⟩ := require_bind_ok ok
  obtain ⟨cursor, polled, ok⟩ := bind_ok ok
  split at ok
  · cases ok
    exact .refl _
  obtain ⟨seen, observed, ok⟩ := bind_ok ok
  obtain ⟨received, ingested, ok⟩ := bind_ok ok
  have seenCursors : seen.cursors = db.cursors :=
    foldlM_preserves (motive := fun d => d.cursors = db.cursors)
      (fun _ _ _ _ same observes => (observeMessage_cursors observes).trans same) observed rfl
  have receivedCursors : received.cursors = db.cursors :=
    foldlM_preserves (motive := fun d => d.cursors = db.cursors)
      (fun _ _ _ _ same ingests => (ingestMessage_cursors ingests).trans same) ingested seenCursors
  have recorded : next.cursors = Function.update db.cursors input.agentId
      (some ⟨input.roomId, cursor⟩) := by
    rw [← receivedCursors]
    split at ok
    · rw [prune_frame ok]
      rfl
    · cases ok
      rfl
  rw [recorded]
  by_cases named : agentId = input.agentId
  · rw [named, Function.update_self]
    intro row known
    have kept : row.roomId = input.roomId := by
      rw [known] at room
      simpa using room
    refine ⟨_, rfl, kept.symm, fun n value => ?_⟩
    exact nextCursor_ok polled n value
  · rw [Function.update_of_ne named]
    exact .refl _

/-- An acknowledged cursor is not older than the agent's ingress cursor. -/
theorem custodialAckCursor_ok (ok : custodialAckCursor db cutover = .ok cursor) :
    ∃ ingress observed ack, db.cursors cutover.agentId = some ingress ∧
      some ingress.roomId = cutover.roomId ∧
      observedNumber (db.cursors cutover.agentId) = some observed ∧
      numericCursor cursor = some ack ∧ observed ≤ ack := by
  obtain ⟨_, _, ok⟩ := found_bind_ok ok
  obtain ⟨_, _, ok⟩ := found_bind_ok ok
  obtain ⟨_, ok⟩ := require_bind_ok ok
  obtain ⟨roomCursor, _, ok⟩ := found_bind_ok ok
  obtain ⟨ack, acked, ok⟩ := found_bind_ok ok
  obtain ⟨ingress, known, ok⟩ := found_bind_ok ok
  obtain ⟨observed, value, ok⟩ := found_bind_ok ok
  obtain ⟨_, _, ok⟩ := found_bind_ok ok
  obtain ⟨⟨room, bound, _⟩, ok⟩ := require_bind_ok ok
  cases ok
  refine ⟨ingress, observed, ack, known, room, ?_, acked, bound⟩
  rw [observedNumber, known]
  exact value

/-- The cursor that a drain hands over is not older than the agent's ingress cursor. -/
theorem HandedCursor.newer (handed : HandedCursor db cutover (some cursor))
    (before : observedNumber (db.cursors cutover.agentId) = some observed) :
    ∃ value, numericCursor cursor = some value ∧ observed ≤ value := by
  by_cases forward : cutover.fromMode = .mcpPolling
  · obtain ⟨ack, acked, same⟩ := handed.forward forward
    cases same
    obtain ⟨_, number, value, _, _, known, numeric, bound⟩ := custodialAckCursor_ok acked
    rw [before, Option.some.injEq] at known
    exact ⟨value, numeric, known ▸ bound⟩
  · have same := handed.reverse forward
    rw [observedNumber, ← same, Option.bind_some] at before
    exact ⟨observed, before, le_rfl⟩

/-- A forward cutover installs the handed cursor as the ingress cursor. -/
theorem setIngressCursor_forward (handed : HandedCursor db cutover (some cursor))
    (forward : cutover.fromMode = .mcpPolling) :
    ∃ row, db.cursors cutover.agentId = some row ∧
      (setIngressCursor db cutover.agentId cutover.roomId cursor).cursors =
        Function.update db.cursors cutover.agentId
          (some { row with lastObservedMessageId := some cursor }) := by
  obtain ⟨ack, acked, same⟩ := handed.forward forward
  obtain ⟨ingress, _, _, known, room, _⟩ := custodialAckCursor_ok acked
  refine ⟨ingress, known, ?_⟩
  unfold setIngressCursor
  rw [known]
  dsimp only
  rw [if_pos room]

theorem CutoverCommit.advances (commit : CutoverCommit db cutover cursor next) (agentId : String) :
    Advances (db.cursors agentId) (next.cursors agentId) := by
  rw [commit.cursors]
  split
  · rename_i forward
    obtain ⟨row, known, written⟩ := setIngressCursor_forward commit.handed forward
    rw [written]
    by_cases named : agentId = cutover.agentId
    · rw [named, Function.update_self]
      intro old oldKnown
      rw [known, Option.some.injEq] at oldKnown
      refine ⟨_, rfl, by rw [oldKnown], fun n value => ?_⟩
      exact commit.handed.newer value
    · rw [Function.update_of_ne named]
      exact .refl _
  · exact .refl _

theorem drain_advances (ids : Table.Keyed (·.inboxItemId) db.inbox) (writes : isDrain op = true)
    (ok : step db op = .ok next) (agentId : String) :
    Advances (db.cursors agentId) (next.cursors agentId) := by
  cases op <;> simp only [isDrain, Bool.false_eq_true] at writes
  case prepareDeliveryDrain input current =>
    rw [(prepareOwnedDrain_ok ok).1]
    exact .refl _
  case prepareCustodialForward input reverseOperationId current =>
    obtain ⟨_, ok⟩ := require_bind_ok ok
    rw [(prepareOwnedDrain_ok ok).1]
    exact .refl _
  case cancelDeliveryDrain operationId owner =>
    rw [(cancelDeliveryDrain_ok ok).1]
    exact .refl _
  case markDeliveryDrainDispatch input current =>
    rw [(markDeliveryDrainDispatch_ok ok).1]
    exact .refl _
  case markDeliveryDrainUncertain operationId owner =>
    rw [(markDeliveryDrainUncertain_ok ok).1]
    exact .refl _
  case commitDeliveryDrain operationId owner current =>
    obtain ⟨cutover, cursor, _, _, commit⟩ := commitDeliveryDrain_commit ids ok
    exact commit.advances agentId

theorem step_advances (sound : Sound db) (stays : movesAgent op = false)
    (ok : step db op = .ok next) (agentId : String) :
    Advances (db.cursors agentId) (next.cursors agentId) := by
  by_cases drains : isDrain op = true
  · exact drain_advances sound.ids drains ok agentId
  rw [Bool.not_eq_true] at drains
  by_cases writes : writesIngress op = true
  · cases op <;> simp only [writesIngress, Bool.false_eq_true] at writes
    case bootstrapCursor input => exact bootstrapCursor_advances ok agentId
    case setIngressHealth input =>
      cases ok
      exact .refl _
    case commitPollIngestion input => exact commitPollIngestion_advances ok agentId
    case commitRoomMoveCursor input => cases stays
    case commitRoomMoveQueue input now => cases stays
    case rollbackRoomMoveIngress input => cases stays
  · rw [Bool.not_eq_true] at writes
    rw [(executes_journal drains (step_executes sound ok)).2 writes stays]
    exact .refl _

end Cursors

/-! ## Runs -/

/-- What a state of the store guarantees to the transactions that follow. -/
structure CutoverSafety (db : Database) : Prop where
  /-- While a drain is unresolved no item but its admitted one enters `dispatching`. -/
  admission : ∀ op next, step db op = .ok next → ∀ row ∈ next.inbox, row.state = .dispatching →
    (∃ item ∈ db.inbox, item.inboxItemId = row.inboxItemId ∧ item.state = .dispatching) ∨
      ∀ drain ∈ db.cutovers, drain.agentId = row.agentId → drain.phase.resolved = false →
        drain.admittedInboxItemId = some row.inboxItemId
  /-- From the dispatch until the drain is complete nothing is under way, and no row is
  inserted. -/
  frozen : ∀ drain ∈ db.cutovers, deliveryDrainBlocksRuntime drain = true →
    Drained db drain.agentId ∧
      ∀ op next, step db op = .ok next → ∀ row ∈ next.inbox, row.agentId = drain.agentId →
        ∃ item ∈ db.inbox, item.inboxItemId = row.inboxItemId
  /-- A commit hands over a cursor that is not older than the agent's, when nothing of the
  agent is under way. -/
  commits : ∀ operationId agentId current next,
    step db (.commitDeliveryDrain operationId agentId current) = .ok next →
      ∃ cutover cursor, cutover.operationId = operationId ∧ cutover.agentId = agentId ∧
        CutoverCommit db cutover cursor next ∧
        ∀ observed, observedNumber (db.cursors agentId) = some observed →
          ∃ value, numericCursor cursor = some value ∧ observed ≤ value

theorem cutoverSafety (sound : Sound db) (drained : FrozenDrained db) : CutoverSafety db := by
  refine ⟨fun op next ok row member dispatching => step_admits sound ok member dispatching,
    fun drain member blocks => ⟨drained drain member blocks, fun op next ok row rowMember agent =>
      ?_⟩, fun operationId agentId current next ok => ?_⟩
  · obtain ⟨item, itemMember, stepped⟩ := executes_rows sound (frozen_of_blocks sound member blocks)
      (step_executes sound ok) rowMember agent
    exact ⟨item, itemMember, (congrArg Receipt.inboxItemId (RowStep.receipt_eq stepped)).symm⟩
  · obtain ⟨cutover, cursor, known, rfl, commit⟩ := commitDeliveryDrain_commit sound.ids ok
    exact ⟨cutover, cursor, (readDeliveryDrain_ok known).2, rfl, commit,
      fun observed value => commit.handed.newer value⟩

theorem rollback_movesAgent (stays : movesAgent op = false) : isRollback op = false := by
  cases op <;> first | rfl | cases stays

theorem frozenDrained_run (host : Host) (stays : ∀ op ∈ log, movesAgent op = false) :
    FrozenDrained (run host log) :=
  (Replay.replay_preserves (fun _ op => movesAgent op = false)
    (fun db => Sound db ∧ FrozenDrained db)
    (fun _ _ _ before stays ok => ⟨(step_follows before.1 ok).sound,
      step_frozenDrained before.1 before.2 (rollback_movesAgent stays) ok⟩)
    (Replay.meets_of_mem stays _)
    ⟨sound_initial host, fun _ member => absurd member List.not_mem_nil⟩).2

theorem markDeliveryDrainDispatch_blocks
    (ok : markDeliveryDrainDispatch db input current = .ok next) :
    ∃ drain ∈ next.cutovers, drain.operationId = input.operationId ∧
      drain.agentId = input.agentId ∧ deliveryDrainBlocksRuntime drain = true := by
  obtain ⟨cutover, owned, ok⟩ := bind_ok ok
  obtain ⟨_, ok⟩ := require_bind_ok ok
  obtain ⟨_, _, ok⟩ := bind_ok ok
  obtain ⟨_, _, ok⟩ := found_bind_ok ok
  obtain ⟨_, ok⟩ := require_bind_ok ok
  obtain ⟨_, _, ok⟩ := bind_ok ok
  obtain ⟨member, named⟩ := readDeliveryDrain_ok (ownedDrain_ok owned)
  have agent : cutover.agentId = input.agentId := by
    obtain ⟨_, _, owned⟩ := found_bind_ok owned
    obtain ⟨⟨named, _⟩, owned⟩ := require_bind_ok owned
    cases owned
    simpa using named
  split at ok
  · rename_i blocks
    cases ok
    exact ⟨cutover, member, named, agent, blocks⟩
  · cases ok
    exact ⟨{ cutover with phase := .dispatching },
      List.mem_map.mpr ⟨cutover, member, if_pos named⟩, named, agent, rfl⟩

/-- Cutovers are safe in every interleaving of the store's transactions that leaves the
agent in its room. -/
theorem drain_cutover_safety (host : Host) (earlier later : List Op)
    (stays : ∀ op ∈ earlier ++ later, movesAgent op = false) :
    CutoverSafety (run host (earlier ++ later)) ∧
      (∀ input current next, step (run host earlier) (.markDeliveryDrainDispatch input current) =
        .ok next → ∃ drain ∈ next.cutovers, drain.operationId = input.operationId ∧
          drain.agentId = input.agentId ∧ deliveryDrainBlocksRuntime drain = true) ∧
      KeepsDispatch (run host earlier) (run host (earlier ++ later)) ∧
      ∀ agentId, Advances ((run host earlier).cursors agentId)
        ((run host (earlier ++ later)).cursors agentId) := by
  have steps : ∀ op ∈ later, movesAgent op = false :=
    fun op member => stays op (List.mem_append_right _ member)
  have reached : run host (earlier ++ later) = Replay.replay step (run host earlier) later := by
    unfold run
    rw [Replay.replay_append]
  refine ⟨cutoverSafety (sound_run host _) (frozenDrained_run host stays),
    fun input current next ok => markDeliveryDrainDispatch_blocks ok, ?_, fun agentId => ?_⟩
  · rw [reached]
    exact Replay.replay_relates (fun _ op => movesAgent op = false) Sound KeepsDispatch
      (fun _ _ _ sound _ ok => (step_follows sound ok).sound) KeepsDispatch.refl
      KeepsDispatch.trans (fun _ _ _ sound _ ok => step_keepsDispatch sound ok)
      (Replay.meets_of_mem steps _) (sound_run host earlier)
  · rw [reached]
    exact Replay.replay_relates (fun _ op => movesAgent op = false) Sound
      (fun db next => Advances (db.cursors agentId) (next.cursors agentId))
      (fun _ _ _ sound _ ok => (step_follows sound ok).sound) (fun _ => .refl _)
      Advances.trans (fun _ _ _ sound stays ok => step_advances sound stays ok agentId)
      (Replay.meets_of_mem steps _) (sound_run host earlier)

/-! ## One cutover to custodial polling -/

def connection : ProviderConnection :=
  { kind := "codex_app_server", url := "unix:socket", pid := some 7, processIdentity := some "process"
    serverAuthPath := none, sha256 := "digest" }

/-- A daemon whose agent runs with its current configuration. -/
def runningHost : Host :=
  { Host.quiet with
    configurations := fun _ => some
      { deliveryMode := .daemonInbox, pollingContract := none, configRevision := 1
        runtimeConfigurationRevision := some 1 }
    executions := [⟨"attempt", "generation", 1, false⟩] }

def entry : DaemonManifestEntry :=
  { id := "agent", roomId := "room", provider := "codex", deliveryMode := some .daemonInbox
    desiredState := "running", condition := "none", workAttemptId := some "attempt"
    providerRef := some
      { workAttemptId := "attempt", executionGenerationId := "generation"
        providerContinuationId := "conversation", providerConnection := some connection
        custodialLaunchAgentSessionId := none }
    deliveryCutover := false }

def handle : ProviderActionHandle :=
  { workAttemptId := "attempt", pid := some 7, providerContinuationId := some "conversation"
    providerConnection := some connection, appliedConfigurationRevision := none
    custodyLaunchAgentSessionId := none }

/-- The agent reads up to a message, and its drain is dispatched. -/
def drainDispatched : List Op :=
  [.bootstrapCursor ⟨"agent", "room", some "msg_3"⟩,
    .prepareDeliveryDrain
      { requestId := "request", operationId := "drain", agentId := "agent", roomId := "room"
        executionGenerationId := "generation", handle, boundary := .idle "conversation" "process" }
      (some entry),
    .markDeliveryDrainDispatch ⟨"drain", "agent", handle, .idle "conversation" "process"⟩ (some entry)]

/-- The drain is cancelled in vain, and commits. -/
def drainCommitted : List Op :=
  [.cancelDeliveryDrain "drain" "agent", .commitDeliveryDrain "drain" "agent" (some entry)]

theorem one_cutover :
    (∃ drain ∈ (run runningHost drainDispatched).cutovers, drain.phase = .dispatching) ∧
      (∃ drain ∈ (run runningHost (drainDispatched ++ drainCommitted)).cutovers,
        drain.phase = .complete) ∧
      KeepsDispatch (run runningHost drainDispatched)
        (run runningHost (drainDispatched ++ drainCommitted)) := by
  have stays : ∀ op ∈ drainDispatched ++ drainCommitted, movesAgent op = false := by
    simp [drainDispatched, drainCommitted, movesAgent]
  exact ⟨by decide +kernel, by decide +kernel,
    (drain_cutover_safety runningHost drainDispatched drainCommitted stays).2.2.1⟩

end LetAgents.Inbox.DrainCutover

import LetAgents.Inbox.TurnBinding

/-!
# The life of an effect

An admitted effect is remembered by its full row or by a tombstone. Compaction turns
the first into the second, and retention deletes either only together with the item
that the turn is bound to. `executes_recorded` follows one effect through a
transaction, `recorded_run` through a run that starts no turn twice.
-/
namespace LetAgents.Inbox.EffectLife

open Lib Lib.Checked Records Retention Pruning Effects Delivery Store Writes Transaction
  Reachable RowLife TurnBinding

/-- A tombstone stands for the effect with this claim. -/
structure Remembers (tombstone : EffectTombstone) (claimed : Claim) : Prop where
  effectId : tombstone.effectId = claimed.effectId
  identity : tombstone.identity = claimed.identity
  roomId : tombstone.roomId = claimed.roomId
  toolName : tombstone.toolName = claimed.toolName
  mutation : tombstone.mutation = claimed.mutation
  requestSha256 : tombstone.requestSha256 = claimed.request.sha256

/-- The effect is recorded, and with `crossed` also past its execution boundary. -/
inductive Recorded (d : Database) (claimed : Claim) (crossed : Bool) : Prop where
  | full {effect : EffectRow} (member : effect ∈ d.effects) (same : claim effect = claimed)
      (past : crossed = true → effect.state ≠ .prepared)
  | compacted {tombstone : EffectTombstone} (member : tombstone ∈ d.tombstones)
      (remembers : Remembers tombstone claimed)

/-- The effects that never come back to `prepared`. -/
def Claim.irreversible (claimed : Claim) : Bool :=
  claimed.mutation && claimed.toolName ≠ "complete_room_turn"

theorem tombstoneOf_remembers (effect : EffectRow) :
    Remembers (tombstoneOf effect) (claim effect) :=
  ⟨rfl, rfl, rfl, rfl, rfl, rfl⟩

/-! ## Writes -/

variable {effect : EffectRow} {db d next : Database} {op : Op} {claimed : Claim} {crossed : Bool}
  {item row : SupervisedInboxItem} {turn : ProviderTurn} {host : Host} {earlier later : List Op}

theorem interruptedEffect_past (now : String)
    (irreversible : Claim.irreversible (claim effect) = true) (past : effect.state ≠ .prepared) :
    (interruptedEffect now effect).state ≠ .prepared := by
  simp only [Claim.irreversible, claim, Bool.and_eq_true] at irreversible
  unfold interruptedEffect
  rw [if_neg (of_decide_eq_true irreversible.2), irreversible.1]
  split
  · exact past
  · exact nofun

/-- No write brings a mutation back before its boundary. -/
theorem EffectWrite.past (write : EffectWrite db op effect written)
    (irreversible : Claim.irreversible (claim effect) = true) (past : effect.state ≠ .prepared) :
    written.state ≠ .prepared := by
  cases write with
  | proposed resultJson tool =>
    unfold completed
    split
    · exact nofun
    · exact past
  | doubted => exact nofun
  | returned error executing readOnly =>
    simp only [claim, readOnly] at irreversible
    cases irreversible
  | rejected | started => exact nofun
  | staged resultJson now prepared => exact past
  | settled =>
    simp only [completionOf]
    split <;> exact nofun
  | interrupted now => exact interruptedEffect_past now irreversible past

theorem settledEffect_past (now : String) (past : effect.state ≠ .prepared) :
    (settledEffect now effect).state ≠ .prepared := by
  unfold settledEffect
  split
  · exact nofun
  · exact past

/-- A map over the effects that keeps what is recorded of each. -/
theorem Recorded.map (recorded : Recorded d claimed crossed)
    (keeps : ∀ effect ∈ d.effects, claim effect = claimed → claim (f effect) = claim effect ∧
      (crossed = true → effect.state ≠ .prepared → (f effect).state ≠ .prepared)) :
    Recorded { d with effects := d.effects.map f } claimed crossed := by
  cases recorded with
  | full member same past =>
    obtain ⟨kept, pastAfter⟩ := keeps _ member same
    exact .full (List.mem_map_of_mem member) (kept.trans same)
      fun cross => pastAfter cross (past cross)
  | compacted member remembers => exact .compacted member remembers

/-- The tables of effects decide what is recorded. -/
theorem Recorded.frame (recorded : Recorded d claimed crossed)
    (effects : d.effects ⊆ next.effects) (tombstones : d.tombstones ⊆ next.tombstones) :
    Recorded next claimed crossed := by
  cases recorded with
  | full member same past => exact .full (effects member) same past
  | compacted member remembers => exact .compacted (tombstones member) remembers

/-! ## Retention -/

/-- Compaction replaces the row of an effect by its tombstone. -/
theorem compactEffects_recorded {effects : List EffectRow}
    (keyed : Table.Keyed (·.effectId) db.effects)
    (stored : ∀ effect ∈ effects, effect ∈ db.effects)
    (ok : effects.foldlM compactEffect db = .ok next) (before : Recorded db claimed crossed) :
    Recorded next claimed crossed := by
  refine (foldlM_preserves (motive := fun d => d.effects ⊆ db.effects ∧ Recorded d claimed crossed)
    ?_ ok ⟨List.Subset.refl _, before⟩).2
  rintro d effect d' listed ⟨fewer, recorded⟩ compacts
  obtain ⟨rfl, -, -⟩ := compactEffect_ok compacts
  refine ⟨fun row member => fewer (List.mem_of_mem_filter member), ?_⟩
  cases recorded with
  | full member same past =>
    rename_i row
    by_cases gone : (row.effectId = effect.effectId && row.state = .uncertain) = true
    · -- the compacted row is the recorded one
      simp only [Bool.and_eq_true, decide_eq_true_eq] at gone
      have equal := keyed.eq (fewer member) (stored effect listed) gone.1
      rw [← same, equal]
      exact .compacted (List.mem_append_right _ (List.mem_singleton.mpr rfl))
        (tombstoneOf_remembers effect)
    · refine .full (List.mem_filter.mpr ⟨member, ?_⟩) same past
      rw [Bool.not_eq_true] at gone
      rw [gone]
      rfl
  | compacted member remembers => exact .compacted (List.mem_append_left _ member) remembers

/-- Is the row bound to the turn? -/
def BoundTo (turn : ProviderTurn) (row : SupervisedInboxItem) : Prop :=
  ∃ binding ∈ row.binding, binding.turn = turn

/-- Deleting a receipt deletes effects of its own turn only. -/
theorem deleteReceipt_recorded (bound : BoundTurn gone) (ok : deleteReceipt d gone = .ok next)
    (other : ¬ BoundTo claimed.identity.turn gone) (before : Recorded d claimed crossed) :
    Recorded next claimed crossed := by
  have kept : ∀ effect : SupervisedEffectRecord, effect.turn = claimed.identity.turn →
      (gone.binding.any fun binding => effect.agentId = gone.agentId &&
        effect.executionGenerationId = binding.originExecutionGenerationId &&
        some effect.providerTurnId = gone.providerTurnId) = false := by
    intro effect turn
    rw [← Bool.not_eq_true]
    intro owned
    simp only [Option.any_eq_true, Bool.and_eq_true, decide_eq_true_eq] at owned
    obtain ⟨binding, known, ⟨agent, generation⟩, turnId⟩ := owned
    obtain ⟨bindingAgent, _, bindingTurn⟩ := bound.agrees binding known
    refine other ⟨binding, known, ?_⟩
    rw [← turn]
    rw [bindingTurn, Option.some.injEq] at turnId
    simp only [ProviderTurnBinding.turn, SupervisedEffectRecord.turn, bindingAgent, agent,
      generation, turnId]
  obtain ⟨_, written⟩ := require_bind_ok ok
  cases written
  cases before with
  | full member same past =>
    rename_i effect
    refine .full (List.mem_filter.mpr ⟨member, ?_⟩) same past
    have turn : effect.turn = claimed.identity.turn := by
      rw [← same]
      rfl
    dsimp only
    rw [kept effect.toSupervisedEffectRecord turn]
    rfl
  | compacted member remembers =>
    rename_i tombstone
    refine .compacted (List.mem_filter.mpr ⟨member, ?_⟩) remembers
    have turn : tombstone.turn = claimed.identity.turn := by
      rw [← remembers.identity]
      rfl
    dsimp only
    rw [kept tombstone.toSupervisedEffectRecord turn]
    rfl

/-- Pruning forgets an effect only with the item whose turn it belongs to. -/
theorem prune_recorded (sound : Sound d) (bound : ∀ row ∈ d.inbox, BoundTurn row)
    (ok : pruneSupervisedAgentHistory d agentId keep = .ok next) (member : item ∈ d.inbox)
    (known : item.binding = some binding) (turn : binding.turn = claimed.identity.turn)
    (room : binding.roomId = claimed.roomId)
    (single : ∀ row ∈ d.inbox, BoundTo claimed.identity.turn row → row = item)
    (before : Recorded d claimed crossed) :
    Recorded next claimed crossed ∨ ∀ row ∈ next.inbox, row.inboxItemId ≠ item.inboxItemId := by
  obtain ⟨compacted, kept, compaction, deletion, rfl⟩ := prune_stages ok
  have first : Recorded compacted claimed crossed := by
    refine compactEffects_recorded sound.effects (fun effect listed => ?_) compaction before
    have inFilter := (List.mem_insertionSort _).mp (List.mem_of_mem_drop listed)
    exact List.mem_of_mem_filter inFilter
  have inbox : compacted.inbox = d.inbox := by rw [compactEffects_frame compaction]
  -- the binding keeps the tombstone
  have second : Recorded (dropUnboundTombstones compacted agentId) claimed crossed := by
    cases first with
    | full effectMember same past => exact .full effectMember same past
    | compacted tombstoneMember remembers =>
      rename_i tombstone
      refine .compacted (List.mem_filter.mpr ⟨tombstoneMember, ?_⟩) remembers
      have holds : hasBinding compacted tombstone.roomId tombstone.turn = true := by
        simp only [hasBinding, List.any_eq_true, Option.any_eq_true, Bool.and_eq_true,
          decide_eq_true_eq]
        refine ⟨item, inbox ▸ member, binding, known, room.trans remembers.roomId.symm, ?_⟩
        rw [turn, ← remembers.identity]
        rfl
      rw [holds, Bool.not_true, Bool.and_false, Bool.not_false]
  have stale : ∀ gone ∈ staleReceipts (dropUnboundTombstones compacted agentId) agentId,
      gone ∈ d.inbox := by
    intro gone listed
    have inFilter := (List.mem_insertionSort _).mp (List.mem_of_mem_drop listed)
    rw [← inbox]
    exact List.mem_of_mem_filter inFilter
  have third : Recorded kept claimed crossed ∨
      ∀ row ∈ kept.inbox, row.inboxItemId ≠ item.inboxItemId := by
    refine foldlM_preserves (motive := fun d' => Recorded d' claimed crossed ∨
      ∀ row ∈ d'.inbox, row.inboxItemId ≠ item.inboxItemId) ?_ deletion (.inl second)
    rintro d' gone d'' listed (recorded | absent) deletes
    · have rows := deleteReceipt_ok deletes
      by_cases same : gone = item
      · refine .inr fun row rowMember => ?_
        rw [rows] at rowMember
        rw [← same]
        exact of_decide_eq_true (List.mem_filter.mp rowMember).2
      · have goneMember := stale gone listed
        exact .inl (deleteReceipt_recorded (bound gone goneMember) deletes
          (fun owns => same (single gone goneMember owns)) recorded)
    · refine .inr fun row rowMember => absent row ?_
      rw [deleteReceipt_ok deletes] at rowMember
      exact List.mem_of_mem_filter rowMember
  rcases third with recorded | absent
  · exact .inl (recorded.frame (List.Subset.refl _) (List.Subset.refl _))
  · refine .inr fun row rowMember => ?_
    obtain ⟨source, sourceMember, rfl⟩ := List.mem_map.mp rowMember
    have receipts := (trimmed_trims kept agentId source).receipt_eq
    rw [show (trimmed kept agentId source).inboxItemId = source.inboxItemId from
      congrArg Receipt.inboxItemId receipts]
    exact absent source sourceMember

/-! ## Inside a transaction -/

/-- The call starts the turn on an item without one. -/
def StartsOn (op : Op) (turn : ProviderTurn) (item : SupervisedInboxItem) : Prop :=
  item.providerTurnId = none ∧ ∃ providerTurnId authority,
    op = .checkpointTurnStarted item.inboxItemId providerTurnId authority ∧
      turn = (turnBinding item providerTurnId authority).turn

/-- A row is bound to a turn because its item was, or because the call starts it. -/
theorem RowStep.boundTo (columns : TurnColumns item) (stepped : RowStep db op item row)
    (owns : BoundTo turn row) : BoundTo turn item ∨ StartsOn op turn item := by
  obtain ⟨binding, known, same⟩ := owns
  cases RowStep.turn columns stepped with
  | same kept =>
    simp only [turnColumns, Prod.mk.injEq] at kept
    rw [kept.2.2.2.1] at known
    exact .inl ⟨binding, known, same⟩
  | started dispatching before nonblank written =>
    simp only [turnColumns, Prod.mk.injEq] at written
    rw [written.2.2.2.1, Option.mem_some_iff] at known
    rw [← known] at same
    exact .inr ⟨before, _, _, rfl, same.symm⟩
  | reset asked before noEffect noTerminal noOutcome written =>
    simp only [turnColumns, Prod.mk.injEq] at written
    rw [written.2.2.2.1] at known
    cases known
  | finished bound turn written =>
    simp only [turnColumns, Prod.mk.injEq] at written
    rw [written.2.2.2.1] at known
    exact .inl ⟨binding, known, same⟩

/-- The one item that is bound to the turn of a claim, under a call that does not
start the turn again. -/
structure Holder (db : Database) (op : Op) (claimed : Claim) (item : SupervisedInboxItem) :
    Prop where
  member : item ∈ db.inbox
  bound : ∃ binding ∈ item.binding, binding.turn = claimed.identity.turn ∧
    binding.roomId = claimed.roomId
  single : ∀ other ∈ db.inbox, BoundTo claimed.identity.turn other → other = item
  fresh : ∀ other ∈ db.inbox, ¬ StartsOn op claimed.identity.turn other

theorem Holder.of_bound (holder : Holder db op claimed item) (columns : TurnColumns other)
    (member : other ∈ db.inbox) (stepped : RowStep db op other row)
    (owns : BoundTo claimed.identity.turn row) : other = item := by
  rcases RowStep.boundTo columns stepped owns with before | starts
  · exact holder.single other member before
  · exact absurd starts (holder.fresh other member)

theorem Recorded.hasTurnEffect (bound : BoundTurn item)
    (owns : ∃ binding ∈ item.binding, binding.turn = claimed.identity.turn ∧ binding.roomId = claimed.roomId)
    (recorded : Recorded db claimed crossed) : hasTurnEffect db item = true := by
  obtain ⟨binding, known, turn, room⟩ := owns
  obtain ⟨agents, rooms, turns⟩ := bound.agrees binding known
  have ofTurn : ∀ effect : SupervisedEffectRecord, effect.turn = claimed.identity.turn →
      effect.roomId = claimed.roomId → (item.binding.any fun binding =>
        effect.agentId = item.agentId && effect.roomId = item.roomId &&
          effect.executionGenerationId = binding.originExecutionGenerationId &&
          some effect.providerTurnId = item.providerTurnId) = true := by
    intro effect sameTurn sameRoom
    rw [← turn] at sameTurn
    simp only [SupervisedEffectRecord.turn, ProviderTurnBinding.turn, ProviderTurn.mk.injEq]
      at sameTurn
    simp only [Option.any_eq_true, Bool.and_eq_true, decide_eq_true_eq]
    refine ⟨binding, known, ⟨⟨sameTurn.1.trans agents, ?_⟩, sameTurn.2.1⟩, ?_⟩
    · rw [sameRoom, ← room, rooms]
    · rw [turns, sameTurn.2.2]
  unfold Delivery.hasTurnEffect
  simp only [Bool.or_eq_true, List.any_eq_true]
  cases recorded with
  | full member same past =>
    refine .inl ⟨_, member, ofTurn _ ?_ ?_⟩
    · rw [← same]
      rfl
    · rw [← same]
      rfl
  | compacted member remembers =>
    refine .inr ⟨_, member, ofTurn _ ?_ remembers.roomId⟩
    rw [← remembers.identity]
    rfl

/-- The holder of a recorded effect keeps its binding. -/
theorem Holder.binding (holder : Holder db op claimed item) (columns : TurnColumns item)
    (recorded : Recorded db claimed crossed) (stepped : RowStep db op item row) :
    row.binding = item.binding ∧ row.providerTurnId = item.providerTurnId := by
  cases RowStep.turn columns stepped with
  | same same =>
    simp only [turnColumns, Prod.mk.injEq] at same
    exact ⟨same.2.2.2.1, same.2.2.1⟩
  | started dispatching before nonblank written =>
    obtain ⟨binding, known, _⟩ := holder.bound
    have turn := (columns.agrees binding known).2.2
    rw [before] at turn
    cases turn
  | reset asked before noEffect noTerminal noOutcome written =>
    rw [recorded.hasTurnEffect columns.toBoundTurn holder.bound] at noEffect
    cases noEffect
  | finished bound same written =>
    simp only [turnColumns, Prod.mk.injEq] at written
    exact ⟨written.2.2.2.1, written.2.2.1⟩

theorem NewRow.unbound (new : NewRow db op row) : ¬ BoundTo turn row := by
  rintro ⟨binding, known, _⟩
  rw [(NewRow.unstarted new).2.1] at known
  cases known

/-- A recorded effect stays recorded, past its boundary if it was, or its item is
gone. -/
theorem executes_recorded (sound : Sound db) (columns : ∀ row ∈ db.inbox, TurnColumns row)
    (irreversible : crossed = true → Claim.irreversible claimed = true)
    (holder : Holder db op claimed item) (before : Recorded db claimed crossed)
    (executes : Executes db op d) :
    Recorded d claimed crossed ∨ ∀ row ∈ d.inbox, row.inboxItemId ≠ item.inboxItemId := by
  have written : ∀ {d : Database} {f : EffectRow → EffectRow},
      (∀ effect ∈ d.effects, f effect = effect ∨ EffectWrite db op effect (f effect)) →
      Recorded d claimed crossed →
      Recorded { d with effects := d.effects.map f } claimed crossed := by
    intro d f writes recorded
    refine recorded.map fun effect member same => ?_
    rcases writes effect member with kept | write
    · rw [kept]
      exact ⟨rfl, fun _ past => past⟩
    · refine ⟨EffectWrite.claim_eq write, fun cross past => ?_⟩
      exact EffectWrite.past write (same ▸ irreversible cross) past
  have settled : ∀ {d : Database} {row : SupervisedInboxItem} {now : String},
      Recorded d claimed crossed →
      Recorded (settleSupervisedTerminalItem d row now) claimed crossed := by
    intro d row now recorded
    obtain ⟨f, settles, equal⟩ := settle_eq d row now
    rw [equal]
    refine recorded.map fun effect _ _ => ?_
    rcases settles effect with same | changed
    · rw [same]
      exact ⟨rfl, fun _ past => past⟩
    · rw [changed]
      exact ⟨settledEffect_claim now effect, fun _ past => settledEffect_past now past⟩
  have remembered : ∀ {d : Database} {f : EffectTombstone → EffectTombstone},
      (∀ row ∈ d.tombstones, f row = row ∨ TombstoneWrite op row (f row)) →
      Recorded d claimed crossed →
      Recorded { d with tombstones := d.tombstones.map f } claimed crossed := by
    intro d f writes recorded
    cases recorded with
    | full member same past => exact .full member same past
    | compacted member remembers =>
      refine .compacted (List.mem_map_of_mem member) ?_
      rcases writes _ member with kept | write
      · rw [kept]
        exact remembers
      · generalize f _ = after at write
        cases write
        exact ⟨remembers.effectId, remembers.identity, remembers.roomId, remembers.toolName,
          remembers.mutation, remembers.requestSha256⟩
  induction executes with
  | start => exact .inl before
  | row rest member write ih =>
    refine ih.imp (fun recorded => recorded.frame (List.Subset.refl _) (List.Subset.refl _))
      fun absent row after => ?_
    rcases Table.mem_put after with ⟨rfl, old, oldMember, same⟩ | ⟨kept, _⟩
    · rw [← same]
      exact absent old oldMember
    · exact absent row kept
  | rows writes => exact .inl (before.frame (List.Subset.refl _) (List.Subset.refl _))
  | insert rest fresh fifo new ih =>
    have follows := executes_follows sound rest
    obtain ⟨rfl, unknown, _⟩ := issueFor_ok fresh
    refine ih.imp (fun recorded => recorded.frame (List.Subset.refl _) (List.Subset.refl _))
      fun absent row after same => ?_
    rcases List.mem_append.mp after with old | added
    · exact absent row old same
    · rw [List.mem_singleton.mp added] at same
      rw [same] at unknown
      exact unknown (follows.grows _ (sound.issued item holder.member))
  | settle rest member ih =>
    refine ih.imp settled fun absent row after => absent row ?_
    rw [settle_inbox] at after
    exact after
  | prune rest pruned ih =>
    rename_i d next agentId keep
    have follows := executes_follows sound rest
    rcases ih with recorded | absent
    · by_cases held : ∃ row ∈ d.inbox, row.inboxItemId = item.inboxItemId
      · obtain ⟨row, rowMember, same⟩ := held
        have source : RowStep db op item row := by
          rcases follows.rows row rowMember with ⟨other, otherMember, stepped⟩ | inserted
          · have ids := (congrArg Receipt.inboxItemId (RowStep.receipt_eq stepped)).symm.trans same
            rw [sound.ids.eq otherMember holder.member ids] at stepped
            exact stepped
          · have known := sound.issued item holder.member
            rw [← same] at known
            exact absurd known inserted.fresh
        obtain ⟨binding, known, turn, room⟩ := holder.bound
        have kept := (holder.binding (columns item holder.member) before source).1
        have result := prune_recorded follows.sound (fun other otherMember => ?_) pruned rowMember
          (kept.trans known) turn room (fun other otherMember owns => ?_) recorded
        · exact result.imp id fun absent other after => same ▸ absent other after
        · rcases follows.rows other otherMember with ⟨first, firstMember, stepped⟩ | inserted
          · exact ((RowStep.turn (columns first firstMember) stepped).keeps
              (columns first firstMember)).toBoundTurn
          · obtain ⟨noTurn, noBinding, noTerminal⟩ := NewRow.unstarted inserted.new
            exact (TurnColumns.fresh noTurn noBinding noTerminal).toBoundTurn
        · rcases follows.rows other otherMember with ⟨first, firstMember, stepped⟩ | inserted
          · have first_eq := holder.of_bound (columns first firstMember) firstMember stepped owns
            refine follows.sound.ids.eq otherMember rowMember ?_
            have receipts := congrArg Receipt.inboxItemId (RowStep.receipt_eq stepped)
            rw [first_eq] at receipts
            exact receipts.trans same.symm
          · exact absurd owns (NewRow.unbound inserted.new)
      · refine .inr fun row after same => held ?_
        obtain ⟨source, sourceMember, trims⟩ := prune_source pruned after
        exact ⟨source, sourceMember,
          (congrArg Receipt.inboxItemId trims.receipt_eq).symm.trans same⟩
    · refine .inr fun row after => ?_
      obtain ⟨source, sourceMember, trims⟩ := prune_source pruned after
      rw [show row.inboxItemId = source.inboxItemId from
        congrArg Receipt.inboxItemId trims.receipt_eq]
      exact absent source sourceMember
  | remove call removed =>
    rename_i agentId next
    obtain ⟨inbox, effects, tombstones, _⟩ := removeAgent_ok removed
    by_cases purged : item.agentId = agentId
    · refine .inr fun row after same => ?_
      rw [inbox] at after
      have stored := List.mem_filter.mp after
      rw [sound.ids.eq stored.1 holder.member same] at stored
      exact of_decide_eq_true stored.2 purged
    · -- the effect is of the item's agent
      obtain ⟨binding, known, turn, _⟩ := holder.bound
      have agent : claimed.identity.turn.agentId = item.agentId := by
        rw [← turn]
        exact ((columns item holder.member).agrees binding known).1
      refine .inl ?_
      cases before with
      | full member same past =>
        refine .full (effects ▸ List.mem_filter.mpr ⟨member, decide_eq_true ?_⟩) same past
        rw [← same] at agent
        exact fun gone => purged (agent.symm.trans gone)
      | compacted member remembers =>
        refine .compacted (tombstones ▸ List.mem_filter.mpr ⟨member, decide_eq_true ?_⟩) remembers
        rw [← remembers.identity] at agent
        exact fun gone => purged (agent.symm.trans gone)
  | ingress rest writes ih | observe rest ih | repair rest ih =>
    exact ih.imp (fun recorded => recorded.frame (List.Subset.refl _) (List.Subset.refl _)) id
  | issue rest fresh ih =>
    obtain ⟨rfl, _⟩ := issue_ok fresh
    exact ih.imp (fun recorded => recorded.frame (List.Subset.refl _) (List.Subset.refl _)) id
  | effects rest writes ih => exact ih.imp (written writes) id
  | tombstones rest writes ih => exact ih.imp (remembered writes) id
  | admitted fresh new =>
    obtain ⟨rfl, _⟩ := issue_ok fresh
    exact .inl (before.frame (List.subset_append_left _ _) (List.Subset.refl _))
  | moves rest _ ih =>
    exact ih.imp (fun recorded => recorded.frame (List.Subset.refl _) (List.Subset.refl _)) id
  | drain writes ok =>
    exact .inl (before.frame (List.Subset.refl _) (List.Subset.refl _))
  | external call => exact .inl (before.frame (List.Subset.refl _) (List.Subset.refl _))

/-! ## Runs that start no turn twice -/

/-- The turn that a call starts on an item without one. -/
def startedTurn (db : Database) : Op → Option ProviderTurn
  | .checkpointTurnStarted inboxItemId providerTurnId authority =>
    ((db.item inboxItemId).filter fun item => item.providerTurnId = none).map fun item =>
      (turnBinding item providerTurnId authority).turn
  | _ => none

def turnBound (db : Database) (turn : ProviderTurn) : Bool :=
  db.inbox.any fun item => item.binding.any fun binding => binding.turn = turn

def turnRecorded (db : Database) (turn : ProviderTurn) : Bool :=
  (db.effects.any fun effect => effect.turn = turn) ||
    db.tombstones.any fun tombstone => tombstone.turn = turn

/-- A started turn is bound to no item, and no earlier state recorded an effect of it. -/
def freshTurn (host : Host) (earlier : List Op) (op : Op) : Bool :=
  (startedTurn (run host earlier) op).all fun turn => !turnBound (run host earlier) turn &&
    (List.range (earlier.length + 1)).all fun k => !turnRecorded (run host (earlier.take k)) turn

/-- The turns that a log starts are new. -/
def FreshTurns (host : Host) (log : List Op) : Prop :=
  ∀ n (_ : n < log.length), freshTurn host (log.take n) log[n] = true

instance (host : Host) (log : List Op) : Decidable (FreshTurns host log) :=
  inferInstanceAs (Decidable (∀ n (_ : n < log.length), freshTurn host (log.take n) log[n] = true))

theorem FreshTurns.at (fresh : FreshTurns host (earlier ++ op :: later)) :
    freshTurn host earlier op = true := by
  have here := fresh earlier.length (by simp)
  simpa using here

theorem FreshTurns.left (fresh : FreshTurns host (earlier ++ later)) : FreshTurns host earlier := by
  intro n short
  have here := fresh n (by rw [List.length_append]; omega)
  rwa [List.take_append_of_le_length (Nat.le_of_lt short), List.getElem_append_left short] at here

theorem startedTurn_of (sound : Sound db) (member : item ∈ db.inbox)
    (starts : StartsOn op turn item) : startedTurn db op = some turn := by
  obtain ⟨before, providerTurnId, authority, rfl, rfl⟩ := starts
  have known : db.item item.inboxItemId = some item := Table.Keyed.find sound.ids member
  simp only [startedTurn, known, Option.filter_some, before, decide_true, if_true, Option.map_some]

theorem Recorded.turnRecorded (recorded : Recorded db claimed crossed) :
    turnRecorded db claimed.identity.turn = true := by
  simp only [EffectLife.turnRecorded, Bool.or_eq_true, List.any_eq_true, decide_eq_true_eq]
  cases recorded with
  | full member same past =>
    refine .inl ⟨_, member, ?_⟩
    rw [← same]
    rfl
  | compacted member remembers =>
    refine .inr ⟨_, member, ?_⟩
    rw [← remembers.identity]
    rfl

/-- What a call that starts a turn has proven fresh. -/
theorem freshTurn_of (fresh : freshTurn host earlier op = true)
    (member : item ∈ (run host earlier).inbox) (starts : StartsOn op turn item) :
    (∀ other ∈ (run host earlier).inbox, ¬ BoundTo turn other) ∧
      ∀ before after, earlier = before ++ after → turnRecorded (run host before) turn = false := by
  unfold freshTurn at fresh
  rw [startedTurn_of (sound_run host earlier) member starts, Option.all_some, Bool.and_eq_true,
    Bool.not_eq_true', List.all_eq_true] at fresh
  refine ⟨fun other otherMember owns => ?_, ?_⟩
  · have bound : turnBound (run host earlier) turn = true := by
      obtain ⟨binding, known, same⟩ := owns
      simp only [turnBound, List.any_eq_true, Option.any_eq_true, decide_eq_true_eq]
      exact ⟨other, otherMember, binding, known, same⟩
    rw [fresh.1] at bound
    cases bound
  · rintro before after rfl
    have here := fresh.2 before.length (List.mem_range.mpr (by rw [List.length_append]; omega))
    rw [List.take_left, Bool.not_eq_true'] at here
    exact here

/-- In a run of fresh turns, a turn is bound to one item. -/
theorem bound_once (fresh : FreshTurns host log) (turn : ProviderTurn) :
    ∀ row ∈ (run host log).inbox, ∀ other ∈ (run host log).inbox, BoundTo turn row →
      BoundTo turn other → row = other := by
  induction log using List.reverseRecOn with
  | nil => exact fun row member => absurd member List.not_mem_nil
  | append_singleton log op ih =>
    have before := ih fresh.left
    have columns := turn_columns host log
    have source : ∀ row ∈ (run host (log ++ [op])).inbox, BoundTo turn row →
        ∃ item ∈ (run host log).inbox, row.inboxItemId = item.inboxItemId ∧
          (BoundTo turn item ∨ StartsOn op turn item) := by
      intro row member owns
      rcases run_source host log op member with ⟨item, itemMember, stepped⟩ | inserted
      · exact ⟨item, itemMember, congrArg Receipt.inboxItemId (RowStep.receipt_eq stepped),
          RowStep.boundTo (columns item itemMember) stepped owns⟩
      · exact absurd owns (NewRow.unbound inserted.new)
    intro row member other otherMember owns otherOwns
    obtain ⟨item, itemMember, same, bound⟩ := source row member owns
    obtain ⟨otherItem, otherItemMember, otherSame, otherBound⟩ := source other otherMember otherOwns
    have items : item.inboxItemId = otherItem.inboxItemId := by
      rcases bound with bound | starts
      · rcases otherBound with otherBound | starts
        · rw [before item itemMember otherItem otherItemMember bound otherBound]
        · exact absurd bound ((freshTurn_of fresh.at otherItemMember starts).1 item itemMember)
      · rcases otherBound with otherBound | otherStarts
        · exact absurd otherBound ((freshTurn_of fresh.at itemMember starts).1 _ otherItemMember)
        · obtain ⟨_, _, _, rfl, _⟩ := starts
          obtain ⟨_, _, _, calls, _⟩ := otherStarts
          exact (Op.checkpointTurnStarted.inj calls).1
    exact (sound_run host _).ids.eq member otherMember (same.trans (items.trans otherSame.symm))

/-- An effect is remembered, past its boundary if it was, as long as the item lives
that its turn is bound to; then the turn is never bound again. -/
theorem recorded_run (fresh : FreshTurns host (earlier ++ later))
    (irreversible : crossed = true → Claim.irreversible claimed = true)
    (member : item ∈ (run host earlier).inbox)
    (bound : ∃ binding ∈ item.binding, binding.turn = claimed.identity.turn ∧ binding.roomId = claimed.roomId)
    (before : Recorded (run host earlier) claimed crossed) :
    (Recorded (run host (earlier ++ later)) claimed crossed ∧
      ∃ row ∈ (run host (earlier ++ later)).inbox, row.inboxItemId = item.inboxItemId ∧
        row.binding = item.binding ∧ row.providerTurnId = item.providerTurnId) ∨
    ∀ row ∈ (run host (earlier ++ later)).inbox, ¬ BoundTo claimed.identity.turn row ∧
      row.inboxItemId ≠ item.inboxItemId := by
  induction later using List.reverseRecOn with
  | nil =>
    rw [List.append_nil]
    exact .inl ⟨before, item, member, rfl, rfl, rfl⟩
  | append_singleton later op ih =>
    rw [← List.append_assoc] at fresh ⊢
    have sound := sound_run host (earlier ++ later)
    have columns := turn_columns host (earlier ++ later)
    have freshHere : freshTurn host (earlier ++ later) op = true := fresh.at
    have unstarted : ∀ other ∈ (run host (earlier ++ later)).inbox,
        ¬ StartsOn op claimed.identity.turn other := by
      intro other otherMember starts
      have unrecorded := (freshTurn_of freshHere otherMember starts).2 earlier later rfl
      rw [before.turnRecorded] at unrecorded
      cases unrecorded
    -- a turn that no item is bound to stays free
    have free : (∀ row ∈ (run host (earlier ++ later)).inbox,
        BoundTo claimed.identity.turn row → row.inboxItemId = item.inboxItemId) →
        ∀ row ∈ (run host (earlier ++ later ++ [op])).inbox,
          BoundTo claimed.identity.turn row → row.inboxItemId = item.inboxItemId := by
      intro holds row after owns
      rcases run_source host (earlier ++ later) op after with ⟨source, sourceMember, stepped⟩ | inserted
      · rw [show row.inboxItemId = source.inboxItemId from
          congrArg Receipt.inboxItemId (RowStep.receipt_eq stepped)]
        rcases RowStep.boundTo (columns source sourceMember) stepped owns with owned | starts
        · exact holds source sourceMember owned
        · exact absurd starts (unstarted source sourceMember)
      · exact absurd owns (NewRow.unbound inserted.new)
    have gone : (∀ row ∈ (run host (earlier ++ later)).inbox,
        row.inboxItemId ≠ item.inboxItemId) →
        ∀ row ∈ (run host (earlier ++ later ++ [op])).inbox,
          row.inboxItemId ≠ item.inboxItemId := by
      intro absent row after same
      rcases run_source host (earlier ++ later) op after with ⟨source, sourceMember, stepped⟩ | inserted
      · exact absent source sourceMember
          ((congrArg Receipt.inboxItemId (RowStep.receipt_eq stepped)).symm.trans same)
      · have known := run_issued host earlier later _ ((sound_run host earlier).issued item member)
        rw [← same] at known
        exact inserted.fresh known
    rcases ih fresh.left with ⟨recorded, row, rowMember, same, binding, turn⟩ | absent
    · obtain ⟨bound, known, boundTurn, boundRoom⟩ := bound
      have rowBound : BoundTo claimed.identity.turn row := ⟨bound, binding ▸ known, boundTurn⟩
      have holder : Holder (run host (earlier ++ later)) op claimed row :=
        { member := rowMember
          bound := ⟨bound, binding ▸ known, boundTurn, boundRoom⟩
          single := fun other otherMember owns =>
            bound_once fresh.left claimed.identity.turn other otherMember row rowMember owns rowBound
          fresh := unstarted }
      have next : Recorded (run host (earlier ++ later ++ [op])) claimed crossed ∨
          ∀ last ∈ (run host (earlier ++ later ++ [op])).inbox,
            last.inboxItemId ≠ row.inboxItemId := by
        unfold run at recorded holder columns sound ⊢
        rw [Replay.replay_concat]
        cases result : step (Replay.replay step (Database.initial host) (earlier ++ later)) op with
        | ok next =>
          rw [Replay.attempt_of_ok result]
          exact executes_recorded sound columns irreversible holder recorded
            (step_executes sound result)
        | error e =>
          rw [Replay.attempt_of_error result]
          exact .inl recorded
      by_cases held : ∃ last ∈ (run host (earlier ++ later ++ [op])).inbox,
          last.inboxItemId = row.inboxItemId
      · obtain ⟨last, lastMember, lastSame⟩ := held
        have stepped := run_row host (earlier ++ later) op rowMember lastMember lastSame
        have kept := holder.binding (columns row rowMember) recorded stepped
        rcases next with recordedNext | absent
        · exact .inl ⟨recordedNext, last, lastMember, lastSame.trans same, kept.1.trans binding,
            kept.2.trans turn⟩
        · exact absurd lastSame (absent last lastMember)
      · refine .inr fun last lastMember => ?_
        have other : last.inboxItemId ≠ item.inboxItemId := fun clash =>
          held ⟨last, lastMember, clash.trans same.symm⟩
        refine ⟨fun owns => other (free (fun first firstMember owned => ?_) last lastMember owns),
          other⟩
        rw [holder.single first firstMember owned, same]
    · refine .inr fun row after => ?_
      have other := gone (fun row rowMember => (absent row rowMember).2) row after
      exact ⟨fun owns => other (free (fun first firstMember owned =>
        absurd owned (absent first firstMember).1) row after owns), other⟩

end LetAgents.Inbox.EffectLife

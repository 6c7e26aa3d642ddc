import LetAgents.Inbox.EffectLife
import LetAgents.Inbox.EffectSteps

/-!
# The owner of an effect

Every full effect belongs to an item that is bound to its turn. Retention deletes the
item only when no effect of the turn is open, and takes the closed effects with it.
-/
namespace LetAgents.Inbox.EffectOwners

open Lib Lib.Checked Records Retention Pruning Delivery Store Writes Transaction
  Reachable RowLife TurnBinding EffectLife EffectSteps

/-- The item is bound to the effect's turn in the effect's room. -/
def Owns (item : SupervisedInboxItem) (effect : EffectRow) : Prop :=
  ∃ binding ∈ item.binding, binding.turn = effect.turn ∧ binding.roomId = effect.roomId

variable {item : SupervisedInboxItem} {effect : EffectRow} {d next db : Database} {op : Op}

theorem Owns.boundTo (owns : Owns item effect) : BoundTo effect.turn item := by
  obtain ⟨binding, known, turn, _⟩ := owns
  exact ⟨binding, known, turn⟩

theorem Owns.of_binding (owns : Owns item effect) (same : row.binding = item.binding) :
    Owns row effect := by
  unfold Owns at owns ⊢
  rw [same]
  exact owns

theorem Owns.of_claim (owns : Owns item effect) (same : claim other = claim effect) :
    Owns item other := by
  obtain ⟨binding, known, turn, room⟩ := owns
  have turns : other.turn = effect.turn := congrArg (fun c : Claim => c.identity.turn) same
  have rooms : other.roomId = effect.roomId := congrArg Claim.roomId same
  exact ⟨binding, known, turn.trans turns.symm, room.trans rooms.symm⟩

/-- Still to be executed or completed. -/
def Open (effect : EffectRow) : Prop := effect.state = .prepared ∨ effect.state = .executing

/-! ## Retention -/

/-- Deleting a receipt leaves no closed effect of its turn. -/
theorem deleteReceipt_effect (bound : BoundTurn gone) (ok : deleteReceipt d gone = .ok next)
    (member : effect ∈ next.effects) : effect ∈ d.effects ∧ (Owns gone effect → Open effect) := by
  obtain ⟨_, written⟩ := require_bind_ok ok
  cases written
  obtain ⟨before, spared⟩ := List.mem_filter.mp member
  refine ⟨before, fun owns => ?_⟩
  obtain ⟨binding, known, turn, _⟩ := owns
  obtain ⟨agent, _, turnId⟩ := bound.agrees binding known
  simp only [SupervisedEffectRecord.turn, ProviderTurnBinding.turn, ProviderTurn.mk.injEq] at turn
  have ofTurn : (gone.binding.any fun binding => effect.agentId = gone.agentId &&
      effect.executionGenerationId = binding.originExecutionGenerationId &&
      some effect.providerTurnId = gone.providerTurnId) = true := by
    simp only [Option.any_eq_true, Bool.and_eq_true, decide_eq_true_eq]
    refine ⟨binding, known, ⟨?_, turn.2.1.symm⟩, ?_⟩
    · rw [← turn.1, agent]
    · rw [turnId, turn.2.2]
  dsimp only at spared
  rw [ofTurn, Bool.true_and] at spared
  simp only [Bool.not_eq_true', Bool.and_eq_false_iff, decide_eq_false_iff_not, not_not] at spared
  exact spared

theorem deleteReceipts_effect {stale : List SupervisedInboxItem}
    (bound : ∀ gone ∈ stale, BoundTurn gone) (ok : stale.foldlM deleteReceipt d = .ok next)
    (member : effect ∈ next.effects) :
    effect ∈ d.effects ∧ ∀ gone ∈ stale, Owns gone effect → Open effect := by
  induction stale generalizing d with
  | nil =>
    cases ok
    exact ⟨member, fun _ listed => absurd listed List.not_mem_nil⟩
  | cons first rest ih =>
    obtain ⟨middle, deleted, continued⟩ := bind_ok ok
    obtain ⟨inMiddle, others⟩ :=
      ih (fun gone listed => bound gone (.tail _ listed)) continued
    obtain ⟨before, own⟩ := deleteReceipt_effect (bound first List.mem_cons_self) deleted inMiddle
    refine ⟨before, fun gone listed => ?_⟩
    rcases List.mem_cons.mp listed with rfl | inRest
    · exact own
    · exact others gone inRest

theorem mem_staleReceipts (stale : gone ∈ staleReceipts d agentId) :
    gone ∈ d.inbox ∧ disposable d agentId gone = true :=
  List.mem_filter.mp ((List.mem_insertionSort _).mp (List.mem_of_mem_drop stale))

/-- An open effect pins its item. -/
theorem pinned_of_open (bound : BoundTurn item) (member : effect ∈ d.effects)
    (owns : Owns item effect) (opened : Open effect) : pinnedByEffect d item = true := by
  obtain ⟨binding, known, turn, _⟩ := owns
  obtain ⟨agent, _, turnId⟩ := bound.agrees binding known
  simp only [SupervisedEffectRecord.turn, ProviderTurnBinding.turn, ProviderTurn.mk.injEq] at turn
  simp only [pinnedByEffect, List.any_eq_true, Bool.and_eq_true, Bool.or_eq_true, decide_eq_true_eq]
  refine ⟨effect, member, ⟨⟨?_, ?_⟩, ?_⟩, opened⟩
  · rw [← turn.1, agent]
  · rw [turnId, turn.2.2]
  · rw [Option.mem_def.mp known, Option.all_some, decide_eq_true_eq]
    exact turn.2.1.symm

/-- The rows of the effects that survive a pruning keep their owner. -/
theorem prune_owner (ids : Table.Keyed (·.inboxItemId) d.inbox)
    (bound : ∀ row ∈ d.inbox, BoundTurn row)
    (ok : pruneSupervisedAgentHistory d agentId keep = .ok next) (member : effect ∈ next.effects)
    (itemMember : item ∈ d.inbox) (owns : Owns item effect) :
    ∃ row ∈ next.inbox, Trims item row := by
  obtain ⟨compacted, kept, compaction, deletion, rfl⟩ := prune_stages ok
  have inbox : (dropUnboundTombstones compacted agentId).inbox = d.inbox := by
    change compacted.inbox = d.inbox
    rw [compactEffects_frame compaction]
  have stale : ∀ gone ∈ staleReceipts (dropUnboundTombstones compacted agentId) agentId,
      gone ∈ d.inbox ∧ disposable (dropUnboundTombstones compacted agentId) agentId gone = true := by
    intro gone listed
    obtain ⟨inBound, holds⟩ := mem_staleReceipts listed
    exact ⟨inbox ▸ inBound, holds⟩
  obtain ⟨before, opened⟩ :=
    deleteReceipts_effect (fun gone listed => bound gone (stale gone listed).1) deletion member
  have survives : item ∈ kept.inbox := by
    rw [deleteReceipts_ok deletion]
    refine mem_survivors.mpr ⟨inbox ▸ itemMember, fun gone listed same => ?_⟩
    obtain ⟨goneMember, holds⟩ := stale gone listed
    have gone_eq : item = gone := ids.eq itemMember goneMember same
    have pinned : pinnedByEffect (dropUnboundTombstones compacted agentId) gone = true := by
      rw [← gone_eq]
      exact pinned_of_open (bound item itemMember) before owns (opened gone listed (gone_eq ▸ owns))
    simp [disposable, pinned] at holds
  exact ⟨trimmed kept agentId item, List.mem_map_of_mem survives, trimmed_trims kept agentId item⟩

/-! ## Inside a transaction -/

theorem executes_columns (sound : Sound db) (columns : ∀ row ∈ db.inbox, TurnColumns row)
    (executes : Executes db op d) : ∀ row ∈ d.inbox, TurnColumns row := by
  intro row member
  rcases (executes_follows sound executes).rows row member with ⟨item, itemMember, stepped⟩ | inserted
  · exact (RowStep.turn (columns item itemMember) stepped).keeps (columns item itemMember)
  · obtain ⟨noTurn, noBinding, noTerminal⟩ := NewRow.unstarted inserted.new
    exact .fresh noTurn noBinding noTerminal

/-- The owner of an earlier effect keeps its binding. -/
theorem RowStep.keepsOwner (columns : TurnColumns item) (stepped : RowStep db op item row)
    (source : (∃ old ∈ db.effects, claim old = claim effect) ∨ admittedId op ≠ none)
    (owns : Owns item effect) : row.binding = item.binding := by
  cases RowStep.turn columns stepped with
  | same same =>
    simp only [turnColumns, Prod.mk.injEq] at same
    exact same.2.2.2.1
  | started dispatching before nonblank written =>
    obtain ⟨binding, known, _⟩ := owns
    have turn := (columns.agrees binding known).2.2
    rw [before] at turn
    cases turn
  | reset asked before noEffect noTerminal noOutcome written =>
    rcases source with ⟨old, oldMember, same⟩ | admits
    · have recorded : Recorded db (claim effect) false :=
        .full oldMember same (by rintro ⟨⟩)
      have bound : ∃ binding ∈ item.binding, binding.turn = (claim effect).identity.turn ∧
          binding.roomId = (claim effect).roomId := owns
      have present : hasTurnEffect db item = true :=
        recorded.hasTurnEffect columns.toBoundTurn bound
      rw [present] at noEffect
      cases noEffect
    · exact absurd rfl admits
  | finished bound same written =>
    simp only [turnColumns, Prod.mk.injEq] at written
    exact written.2.2.2.1

/-- The same item still owns the effect. -/
def StillOwns (d : Database) (item : SupervisedInboxItem) : Prop :=
  ∃ row ∈ d.inbox, row.inboxItemId = item.inboxItemId ∧ row.binding = item.binding

theorem executes_owner (sound : Sound db) (columns : ∀ row ∈ db.inbox, TurnColumns row)
    (executes : Executes db op d) :
    ∀ effect ∈ d.effects,
      (∃ old ∈ db.effects, claim old = claim effect) ∨ admittedId op ≠ none →
      ∀ item ∈ db.inbox, Owns item effect → StillOwns d item := by
  induction executes with
  | start => exact fun effect _ _ item member _ => ⟨item, member, rfl, rfl⟩
  | row rest writtenMember write ih =>
    rename_i d source written
    intro effect member known item itemMember owns
    obtain ⟨row, rowMember, same, binding⟩ := ih effect member known item itemMember owns
    have named : written.inboxItemId = source.inboxItemId :=
      congrArg Receipt.inboxItemId (RowWrite.receipt_eq write)
    by_cases own : row.inboxItemId = written.inboxItemId
    · have sources : source = item :=
        sound.ids.eq writtenMember itemMember (named.symm.trans (own.symm.trans same))
      have stepped : RowStep db op item written := ⟨written, .inr (sources ▸ write), .refl written⟩
      exact ⟨written, Table.put_mem rowMember own, own.symm.trans same,
        RowStep.keepsOwner (columns item itemMember) stepped known owns⟩
    · exact ⟨row, Table.mem_put_of_ne rowMember own, same, binding⟩
  | rows writes =>
    rename_i f
    intro effect member known item itemMember owns
    have stepped : RowStep db op item (f item) := ⟨f item, writes item itemMember, .refl _⟩
    exact ⟨f item, List.mem_map_of_mem itemMember,
      congrArg Receipt.inboxItemId (RowStep.receipt_eq stepped),
      RowStep.keepsOwner (columns item itemMember) stepped known owns⟩
  | insert rest fresh fifo new ih =>
    obtain ⟨rfl, _⟩ := issueFor_ok fresh
    intro effect member known item itemMember owns
    obtain ⟨row, rowMember, kept⟩ := ih effect member known item itemMember owns
    exact ⟨row, List.mem_append_left _ rowMember, kept⟩
  | settle rest settled ih =>
    rename_i d settledItem now
    intro effect member known item itemMember owns
    obtain ⟨f, settles, equal⟩ := settle_eq d settledItem now
    rw [equal] at member
    obtain ⟨before, beforeMember, rfl⟩ := List.mem_map.mp member
    have claims : claim (f before) = claim before := by
      rcases settles before with same | changed
      · rw [same]
      · rw [changed]
        exact settledEffect_claim now before
    have held := ih before beforeMember (claims ▸ known) item itemMember (owns.of_claim claims.symm)
    unfold StillOwns
    rw [settle_inbox]
    exact held
  | prune rest pruned ih =>
    intro effect member known item itemMember owns
    have follows := executes_follows sound rest
    obtain ⟨row, rowMember, same, binding⟩ :=
      ih effect ((prune_effects pruned).subset member) known item itemMember owns
    obtain ⟨last, lastMember, trims⟩ := prune_owner follows.sound.ids
      (fun other otherMember => (executes_columns sound columns rest other otherMember).toBoundTurn)
      pruned member rowMember (owns.of_binding binding)
    have kept := Trims.turnColumns trims
    simp only [turnColumns, Prod.mk.injEq] at kept
    exact ⟨last, lastMember, (congrArg Receipt.inboxItemId trims.receipt_eq).trans same,
      kept.2.2.2.1.trans binding⟩
  | remove call removed =>
    obtain ⟨inbox, effects, _⟩ := removeAgent_ok removed
    intro effect member known item itemMember owns
    rw [effects] at member
    obtain ⟨_, otherAgent⟩ := List.mem_filter.mp member
    obtain ⟨binding, bound, turn, _⟩ := owns
    have agent := ((columns item itemMember).agrees binding bound).1
    have effectAgent : binding.agentId = effect.agentId := congrArg ProviderTurn.agentId turn
    refine ⟨item, inbox ▸ List.mem_filter.mpr ⟨itemMember, decide_eq_true fun gone => ?_⟩, rfl, rfl⟩
    exact of_decide_eq_true otherAgent (effectAgent.symm.trans (agent.trans gone))
  | ingress rest writes ih | observe rest ih | repair rest ih => exact ih
  | issue rest fresh ih =>
    obtain ⟨rfl, _⟩ := issue_ok fresh
    exact ih
  | effects rest writes ih =>
    rename_i d f
    intro effect member known item itemMember owns
    obtain ⟨before, beforeMember, rfl⟩ := List.mem_map.mp member
    have claims : claim (f before) = claim before := by
      rcases writes before beforeMember with same | write
      · rw [same]
      · exact EffectWrite.claim_eq write
    exact ih before beforeMember (claims ▸ known) item itemMember (owns.of_claim claims.symm)
  | tombstones rest writes ih => exact ih
  | admitted fresh new =>
    obtain ⟨rfl, _⟩ := issue_ok fresh
    exact fun effect _ _ item member _ => ⟨item, member, rfl, rfl⟩
  | moves rest _ ih => exact ih
  | drain writes ok
  | external call => exact fun effect _ _ item member _ => ⟨item, member, rfl, rfl⟩

/-! ## Runs -/

/-- Every effect has an owner. -/
def Owned (db : Database) : Prop := ∀ effect ∈ db.effects, ∃ item ∈ db.inbox, Owns item effect

/-- The owner before a transaction, of an effect after it. -/
theorem step_source (sound : Sound db) (owned : Owned db) (ok : step db op = .ok next)
    (member : effect ∈ next.effects) :
    ((∃ old ∈ db.effects, claim old = claim effect) ∨ admittedId op ≠ none) ∧
      ∃ item ∈ db.inbox, Owns item effect := by
  cases step_effects sound ok effect member with
  | kept oldMember kept =>
    obtain ⟨item, itemMember, owns⟩ := owned _ oldMember
    exact ⟨.inl ⟨_, oldMember, kept.same.symm⟩, item, itemMember, owns.of_claim kept.same⟩
  | started oldMember prepared open' =>
    obtain ⟨item, itemMember, owns⟩ := owned _ oldMember
    exact ⟨.inl ⟨_, oldMember, rfl⟩, item, itemMember, owns.of_claim rfl⟩
  | admitted named unknown admission kept =>
    obtain ⟨item, itemMember, _, binding, known, turn, room⟩ := admission.bound
    have owns : Owns item _ := ⟨binding, known, turn, room⟩
    exact ⟨.inr (by rw [named]; rintro ⟨⟩), item, itemMember, owns.of_claim kept.same⟩

theorem step_owned (sound : Sound db) (columns : ∀ row ∈ db.inbox, TurnColumns row)
    (owned : Owned db) (ok : step db op = .ok next) : Owned next := by
  intro effect member
  obtain ⟨source, item, itemMember, owns⟩ := step_source sound owned ok member
  obtain ⟨row, rowMember, _, binding⟩ :=
    executes_owner sound columns (step_executes sound ok) effect member source item itemMember owns
  exact ⟨row, rowMember, owns.of_binding binding⟩

theorem run_concat (host : Host) (log : List Op) (op : Op) :
    run host (log ++ [op]) = Replay.attempt step (run host log) op := by
  unfold run
  rw [Replay.replay_concat]

/-- Every effect of every run has an owner. -/
theorem owned_run (host : Host) (log : List Op) : Owned (run host log) := by
  induction log using List.reverseRecOn with
  | nil => exact nofun
  | append_singleton log op ih =>
    have sound := sound_run host log
    have columns := turn_columns host log
    rw [run_concat]
    cases result : step (run host log) op with
    | ok next =>
      rw [Replay.attempt_of_ok result]
      exact step_owned sound columns ih result
    | error e =>
      rw [Replay.attempt_of_error result]
      exact ih

end LetAgents.Inbox.EffectOwners

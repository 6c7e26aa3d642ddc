import LetAgents.Inbox.Reachable

/-!
# Steps of the effects table

Where a full effect row after a transaction comes from: an earlier row, the crossing of
its execution boundary, or an admission. `EffectKept` is what every other write
respects; `step_effects` is the case analysis over the operations.
-/
namespace LetAgents.Inbox.EffectSteps

open Lib Lib.Checked Records Retention Pruning Effects Store Writes
  Transaction Reachable

/-! ## Rows -/

/-- Work that settlement ends: a prepared effect or an executing read, but no room
move. -/
def unfinished (effect : SupervisedEffectRecord) : Bool :=
  effect.toolName ≠ "join_room" &&
    (effect.state = .prepared || (effect.state = .executing && !effect.mutation))

/-- The row continues an effect without crossing the execution boundary. -/
structure EffectKept (old effect : EffectRow) : Prop where
  same : claim effect = claim old
  executing : effect.state = .executing → old.state = .executing
  completed : old.state = .completed → effect.state = .completed
  unfinished : unfinished effect.toSupervisedEffectRecord = true →
    unfinished old.toSupervisedEffectRecord = true ∨
      (old.toolName = "complete_room_turn" ∧ old.state = .executing)

theorem EffectKept.refl (effect : EffectRow) : EffectKept effect effect :=
  ⟨rfl, id, id, .inl⟩

variable {old effect : EffectRow} {db d : Database} {op : Op} {input : PrepareEffect}
  {request : RequestText}

theorem EffectKept.toolName (kept : EffectKept old effect) :
    effect.toolName = old.toolName := congrArg Claim.toolName kept.same

theorem EffectKept.turn (kept : EffectKept old effect) :
    effect.turn = old.turn := congrArg (fun claimed => claimed.identity.turn) kept.same

theorem EffectKept.trans (first : EffectKept old middle) (second : EffectKept middle effect) :
    EffectKept old effect := by
  refine ⟨second.same.trans first.same, fun executing => first.executing (second.executing executing),
    fun completed => second.completed (first.completed completed), fun holds => ?_⟩
  rcases second.unfinished holds with before | ⟨tool, executing⟩
  · exact first.unfinished before
  · exact .inr ⟨first.toolName.symm.trans tool, first.executing executing⟩

/-- A row whose write leaves the claim alone and ends in a state that needs no work. -/
theorem EffectKept.ended (same : claim effect = claim old)
    (ended : effect.state = .completed ∨
      ((effect.state = .failed ∨ effect.state = .uncertain) ∧ old.state ≠ .completed)) :
    EffectKept old effect := by
  rcases ended with completed | ⟨failed | uncertain, before⟩
  · refine ⟨same, ?_, fun _ => completed, ?_⟩
    · rw [completed]
      rintro ⟨⟩
    · simp [EffectSteps.unfinished, completed]
  · refine ⟨same, ?_, fun was => absurd was before, ?_⟩
    · rw [failed]
      rintro ⟨⟩
    · simp [EffectSteps.unfinished, failed]
  · refine ⟨same, ?_, fun was => absurd was before, ?_⟩
    · rw [uncertain]
      rintro ⟨⟩
    · simp [EffectSteps.unfinished, uncertain]

theorem completed_kept (resultJson now : String) (effect : EffectRow) :
    EffectKept effect (completed resultJson now effect) := by
  unfold completed
  split
  · exact .ended rfl (.inl rfl)
  · exact .refl effect

theorem interruptedEffect_kept (now : String) (effect : EffectRow) :
    EffectKept effect (interruptedEffect now effect) := by
  have same := interruptedEffect_claim now effect
  unfold interruptedEffect at same ⊢
  split at same
  · rename_i idle
    rw [if_pos idle]
    exact .refl effect
  rename_i busy
  rw [if_neg busy]
  simp only [Bool.or_eq_true, decide_eq_true_eq, not_or, not_not] at busy
  have running : effect.state ≠ .completed := by
    rw [busy.1]
    rintro ⟨⟩
  split
  · rename_i completion
    refine ⟨rfl, ?_, fun was => absurd was running, fun _ => .inr ⟨completion, busy.1⟩⟩
    rintro ⟨⟩
  · split
    · exact .ended rfl (.inr ⟨.inr rfl, running⟩)
    · rename_i readOnly
      refine ⟨rfl, ?_, fun was => absurd was running, fun _ => .inl ?_⟩
      · rintro ⟨⟩
      · simp [EffectSteps.unfinished, busy.1, busy.2, readOnly]

theorem settledEffect_kept (now : String) (effect : EffectRow) :
    EffectKept effect (settledEffect now effect) := by
  unfold settledEffect
  split
  · rename_i open'
    refine .ended rfl (.inr ⟨.inl rfl, fun was => ?_⟩)
    simp [was] at open'
  · exact .refl effect

/-- Only `markEffectExecuting` crosses the boundary. -/
theorem EffectWrite.kept (write : EffectWrite db op effect written) :
    EffectKept effect written ∨ ∃ input, op = .markEffectExecuting input := by
  have not_completed : ∀ {state : EffectState}, effect.state = state → state ≠ .completed →
      effect.state ≠ .completed := fun same other => same ▸ other
  cases write with
  | proposed resultJson => exact .inl (completed_kept _ _ effect)
  | doubted error executing =>
    exact .inl (.ended rfl (.inr ⟨.inr rfl, not_completed executing nofun⟩))
  | returned error executing readOnly =>
    refine .inl ⟨rfl, ?_, fun was => absurd was (not_completed executing nofun), fun holds => .inl ?_⟩
    · rintro ⟨⟩
    · simp only [EffectSteps.unfinished, Bool.and_eq_true] at holds ⊢
      exact ⟨holds.1, by simp [executing, readOnly]⟩
  | rejected error prepared =>
    exact .inl (.ended rfl (.inr ⟨.inl rfl, not_completed prepared nofun⟩))
  | started => exact .inr ⟨_, rfl⟩
  | staged resultJson now prepared => exact .inl ⟨rfl, id, id, .inl⟩
  | settled d completable =>
    have before : effect.state ≠ .completed := by
      rcases completable with executing | uncertain | ⟨prepared, _⟩
      · exact not_completed executing nofun
      · exact not_completed uncertain nofun
      · exact not_completed prepared nofun
    refine .inl (.ended rfl ?_)
    simp only [completionOf]
    split
    · exact .inr ⟨.inl rfl, before⟩
    · exact .inl rfl
  | interrupted now => exact .inl (interruptedEffect_kept now effect)

/-- Every effect of the second table continues one of the first. -/
def Continues (before after : List EffectRow) : Prop :=
  ∀ effect ∈ after, ∃ old ∈ before, EffectKept old effect

theorem Continues.refl (effects : List EffectRow) : Continues effects effects :=
  fun effect member => ⟨effect, member, .refl effect⟩

theorem Continues.subset (continues : Continues before middle) (fewer : after ⊆ middle) :
    Continues before after :=
  fun effect member => continues effect (fewer member)

theorem Continues.map (continues : Continues before middle)
    (keeps : ∀ effect ∈ middle, EffectKept effect (f effect)) :
    Continues before (middle.map f) := by
  intro effect member
  obtain ⟨source, sourceMember, rfl⟩ := List.mem_map.mp member
  obtain ⟨old, oldMember, kept⟩ := continues source sourceMember
  exact ⟨old, oldMember, kept.trans (keeps source sourceMember)⟩

/-- An update of one row by its id. -/
theorem updateEffect_continues (keyed : Table.Keyed (fun effect => effect.effectId) d.effects)
    (member : effect ∈ d.effects) (kept : EffectKept effect (change effect)) :
    Continues d.effects (updateEffect d effect.effectId change).effects := by
  refine Continues.map (.refl _) fun other otherMember => ?_
  split
  · rename_i same
    rw [keyed.eq otherMember member same]
    exact kept
  · exact .refl other

/-! ## The operations that open effects -/

/-- The operations that admit an effect or start it. -/
def opensEffects : Op → Bool
  | .prepareEffect _ | .prepareRoomMoveEffect _ | .markEffectExecuting _ => true
  | _ => false

theorem executes_continues (quiet : opensEffects op = false) (executes : Executes db op d) :
    Continues db.effects d.effects := by
  induction executes with
  | start => exact .refl _
  | row _ _ _ ih => exact ih
  | rows _ => exact .refl _
  | insert _ fresh _ _ ih =>
    obtain ⟨rfl, _⟩ := issueFor_ok fresh
    exact ih
  | settle _ _ ih =>
    rename_i d item now _ _
    obtain ⟨f, settles, equal⟩ := settle_eq d item now
    rw [equal]
    refine ih.map fun effect _ => ?_
    rcases settles effect with same | settled
    · rw [same]
      exact .refl effect
    · rw [settled]
      exact settledEffect_kept now effect
  | prune _ pruned ih => exact ih.subset (prune_effects pruned).subset
  | remove call removed =>
    obtain ⟨_, effects, _⟩ := removeAgent_ok removed
    rw [effects]
    exact (Continues.refl _).subset List.filter_sublist.subset
  | ingress _ _ ih | observe _ ih | repair _ ih => exact ih
  | issue _ fresh ih =>
    obtain ⟨rfl, _⟩ := issue_ok fresh
    exact ih
  | effects _ writes ih =>
    refine ih.map fun effect member => ?_
    rcases writes effect member with same | write
    · rw [same]
      exact .refl effect
    · rcases EffectWrite.kept write with kept | ⟨_, call⟩
      · exact kept
      · rw [call] at quiet
        cases quiet
  | tombstones _ _ ih => exact ih
  | admitted _ new =>
    cases new with
    | prepared | roomMove => cases quiet
  | moves _ _ ih => exact ih
  | drain _ _ | external _ => exact .refl _

/-! ## Authority -/

/-- The authority holds for an active item that is bound to the turn. -/
theorem assertActiveEffectAuthority_ok (ok : assertActiveEffectAuthority db authority = .ok item) :
    item ∈ db.inbox ∧ (item.state = .dispatching ∨ item.state = .awaitingResult) ∧
      ∃ binding ∈ item.binding, binding.turn = authority.turn ∧
        binding.roomId = authority.roomId := by
  unfold assertActiveEffectAuthority at ok
  split at ok
  case h_2 => cases ok
  rename_i found single
  obtain ⟨chosen, chooses, ok⟩ := bind_ok ok
  obtain ⟨state, ok⟩ := require_bind_ok ok
  obtain ⟨_, ok⟩ := require_bind_ok ok
  obtain ⟨_, ok⟩ := require_bind_ok ok
  obtain ⟨_, ok⟩ := require_bind_ok ok
  cases chooses
  cases ok
  have listed : item ∈ db.inbox.filter (bindsAuthority authority) := by
    rw [single]
    exact List.mem_singleton.mpr rfl
  obtain ⟨member, binds⟩ := List.mem_filter.mp listed
  simp only [bindsAuthority, Option.any_eq_true, Bool.and_eq_true, decide_eq_true_eq] at binds
  obtain ⟨binding, known, facts⟩ := binds
  obtain ⟨⟨⟨⟨⟨⟨⟨⟨agent, room⟩, _⟩, generation⟩, _⟩, turn⟩, _⟩, _⟩, _⟩ := facts
  refine ⟨member, state, binding, known, ?_, room⟩
  simp only [ProviderTurnBinding.turn, EffectAuthority.turn, agent, generation, turn]

/-- What an admission has checked about the turn of the new row. -/
structure Admission (db : Database) (effect : EffectRow) : Prop where
  bound : ∃ item ∈ db.inbox, (item.state = .dispatching ∨ item.state = .awaitingResult) ∧
    ∃ binding ∈ item.binding, binding.turn = effect.turn ∧ binding.roomId = effect.roomId
  open' : turnComplete db effect.turn = false
  state : effect.state = .prepared ∨ effect.state = .completed
  completion : effect.toolName = "complete_room_turn" → effect.state = .completed ∧
    mutationExecuting db effect.turn = false ∧
    ∀ other ∈ db.effects, other.turn = effect.turn → other.toolName ≠ "complete_room_turn"

/-- The id of the effect that a call may admit. -/
def admittedId : Op → Option String
  | .prepareEffect input => some input.uuid
  | .prepareRoomMoveEffect input => some input.uuid
  | _ => none

/-- A full row after a transaction. -/
inductive EffectStep (db : Database) : Op → EffectRow → Prop where
  | kept {op : Op} {old effect : EffectRow} (member : old ∈ db.effects)
      (kept : EffectKept old effect) : EffectStep db op effect
  | started {input : MarkEffectExecuting} {old : EffectRow} (member : old ∈ db.effects)
      (prepared : old.state = .prepared)
      (open' : old.toolName ≠ "complete_room_turn" → turnComplete db old.turn = false) :
      EffectStep db (.markEffectExecuting input)
        { old with state := .executing, updatedAt := input.now }
  | admitted {op : Op} {new effect : EffectRow} (named : admittedId op = some new.effectId)
      (unknown : ∀ old ∈ db.effects, old.effectId ≠ new.effectId) (admission : Admission db new)
      (kept : EffectKept new effect) : EffectStep db op effect

theorem Continues.step {next : Database} (continues : Continues db.effects next.effects) :
    ∀ effect ∈ next.effects, EffectStep db op effect := by
  intro effect member
  obtain ⟨old, oldMember, kept⟩ := continues effect member
  exact .kept oldMember kept

/-! ## Preparing -/

section Prepare

variable {db next : Database}

theorem replayEffect_continues (sound : Sound db) (member : effect ∈ db.effects)
    (ok : replayEffect db input request effect = .ok next) :
    Continues db.effects next.effects := by
  obtain ⟨_, ok⟩ := require_bind_ok ok
  split at ok
  · cases ok
    exact .refl _
  obtain ⟨_, _, ok⟩ := bind_ok ok
  split at ok
  · obtain ⟨completion, _, ok⟩ := found_bind_ok ok
    obtain ⟨_, ok⟩ := require_bind_ok ok
    cases ok
    exact updateEffect_continues sound.effects member (completed_kept _ _ effect)
  split at ok
  · rename_i executing
    have running : effect.state ≠ .completed := by
      rw [executing]
      rintro ⟨⟩
    split at ok
    · refine Continues.subset ?_ (prune_effects ok).subset
      exact updateEffect_continues sound.effects member (.ended rfl (.inr ⟨.inr rfl, running⟩))
    · rename_i readOnly
      cases ok
      refine updateEffect_continues sound.effects member
        ⟨rfl, ?_, fun was => absurd was running, fun holds => .inl ?_⟩
      · rintro ⟨⟩
      · simp only [unfinished, Bool.and_eq_true] at holds ⊢
        exact ⟨holds.1, by simp [executing, readOnly]⟩
  · cases ok
    exact .refl _

theorem insertEffect_ok (ok : insertEffect db effect = .ok next) :
    next = { db with issued := effect.effectId :: db.issued, effects := db.effects ++ [effect] } ∧
      effect.effectId ∉ db.issued := by
  obtain ⟨issued, fresh, written⟩ := bind_ok ok
  obtain ⟨rfl, unknown, _⟩ := issue_ok fresh
  cases written
  exact ⟨rfl, unknown⟩

theorem insertEffect_steps (sound : Sound db) (named : admittedId op = some effect.effectId)
    (admission : Admission db effect) (ok : insertEffect db effect = .ok next) :
    ∀ row ∈ next.effects, EffectStep db op row := by
  obtain ⟨rfl, unknown⟩ := insertEffect_ok ok
  intro row member
  rcases List.mem_append.mp member with before | new
  · exact .kept before (.refl row)
  · rw [List.mem_singleton.mp new]
    exact .admitted named
      (fun old oldMember same => unknown (same ▸ sound.effectsIssued old oldMember)) admission
      (.refl _)

theorem completionSingleton_none (none' : completionSingleton db turn = none)
    (member : effect ∈ db.effects) (same : effect.turn = turn) :
    effect.toolName ≠ "complete_room_turn" := by
  intro tool
  have listed : effect ∈ ((effectsOfTurn db turn).filter fun effect =>
      effect.toolName = "complete_room_turn").insertionSort fun a b =>
        a.createdAt < b.createdAt ∨ (a.createdAt = b.createdAt ∧ a.effectId ≤ b.effectId) := by
    refine (List.mem_insertionSort _).mpr ?_
    simp only [effectsOfTurn, List.mem_filter, decide_eq_true_eq]
    exact ⟨⟨member, same⟩, tool⟩
  rw [List.head?_eq_none_iff.mp none'] at listed
  cases listed

theorem turnComplete_false :
    turnComplete db turn = false ↔ ∀ effect ∈ db.effects, effect.turn = turn →
      effect.toolName = "complete_room_turn" → effect.state ≠ .completed := by
  simp only [turnComplete, List.any_eq_false, Bool.and_eq_true, decide_eq_true_eq, not_and]
  constructor
  · intro none' effect member same tool
    exact none' effect member ⟨same, tool⟩
  · rintro none' effect member ⟨same, tool⟩
    exact none' effect member same tool

theorem admitEffect_steps (sound : Sound db)
    (open' : turnComplete db input.authority.turn = false)
    (completion : input.toolName = "complete_room_turn" → mutationExecuting db input.authority.turn = false ∧ ∀ other ∈ db.effects, other.turn = input.authority.turn → other.toolName ≠ "complete_room_turn")
    (ok : admitEffect db input request = .ok next) :
    ∀ row ∈ next.effects, EffectStep db (.prepareEffect input) row := by
  obtain ⟨item, authority, ok⟩ := bind_ok ok
  obtain ⟨member, active, binding, known, turn, room⟩ := assertActiveEffectAuthority_ok authority
  have admits : ∀ {mutation : Bool} {state : EffectState} {resultJson : Option String},
      (state = .prepared ∧ input.toolName ≠ "complete_room_turn") ∨ state = .completed →
      Admission db (newEffect input request mutation state resultJson) := by
    intro mutation state resultJson states
    refine ⟨⟨item, member, active, binding, known, turn, room⟩, open', ?_, fun tool => ?_⟩
    · rcases states with ⟨rfl, _⟩ | rfl
      · exact .inl rfl
      · exact .inr rfl
    · rcases states with ⟨_, other⟩ | rfl
      · exact absurd tool other
      · exact ⟨rfl, completion tool⟩
  split at ok
  · obtain ⟨_, ok⟩ := require_bind_ok ok
    obtain ⟨_, _, ok⟩ := bind_ok ok
    exact insertEffect_steps sound rfl (admits (.inr rfl)) ok
  split at ok
  · obtain ⟨_, _, ok⟩ := found_bind_ok ok
    exact insertEffect_steps sound rfl (admits (.inr rfl)) ok
  · rename_i otherTool
    obtain ⟨_, _, ok⟩ := bind_ok ok
    exact insertEffect_steps sound rfl (admits (.inl ⟨rfl, otherTool⟩)) ok

theorem prepareEffect_steps (sound : Sound db) (ok : prepareEffect db input = .ok next) :
    ∀ row ∈ next.effects, EffectStep db (.prepareEffect input) row := by
  obtain ⟨request, _, ok⟩ := bind_ok ok
  obtain ⟨_, ok⟩ := require_bind_ok ok
  obtain ⟨_, ok⟩ := require_bind_ok ok
  split at ok
  · rename_i effect known
    exact (replayEffect_continues sound (findEffect_ok known).1 ok).step
  split at ok
  · obtain ⟨_, ok⟩ := require_bind_ok ok
    cases ok
    exact (Continues.refl _).step
  obtain ⟨barrier, ok⟩ := require_bind_ok ok
  split at ok
  · obtain ⟨completion, _, ok⟩ := found_bind_ok ok
    split at ok
    · rename_i effect known
      obtain ⟨member, _, tool⟩ := completionSingleton_ok known
      obtain ⟨_, ok⟩ := require_bind_ok ok
      obtain ⟨_, ok⟩ := require_bind_ok ok
      obtain ⟨_, _, ok⟩ := bind_ok ok
      cases ok
      exact (updateEffect_continues sound.effects member (completed_kept _ _ effect)).step
    · rename_i none'
      obtain ⟨idle, ok⟩ := require_bind_ok ok
      refine admitEffect_steps sound ?_ (fun _ => ⟨Bool.eq_false_of_not_eq_true idle,
        fun other member same => completionSingleton_none none' member same⟩) ok
      exact turnComplete_false.mpr fun effect member same tool =>
        absurd tool (completionSingleton_none none' member same)
  · rename_i otherTool
    refine admitEffect_steps sound ?_ (fun tool => absurd tool otherTool) ok
    exact Bool.eq_false_of_not_eq_true fun complete => otherTool (barrier complete)

/-! ## Starting -/

theorem markEffectExecuting_steps (sound : Sound db) {input : MarkEffectExecuting}
    (ok : (markEffectExecuting db input).map Prod.fst = .ok next) :
    ∀ row ∈ next.effects, EffectStep db (.markEffectExecuting input) row := by
  obtain rfl | ⟨effect, member, named, prepared, turn, ⟨rejection, rfl⟩ | ⟨item, -, barrier, rfl⟩⟩ :=
    markEffectExecuting_cases ok
  · exact (Continues.refl _).step
  · rw [← named]
    refine (updateEffect_continues sound.effects member ?_).step
    rw [if_pos prepared]
    refine .ended rfl (.inr ⟨.inl rfl, ?_⟩)
    rw [prepared]
    rintro ⟨⟩
  · intro row rowMember
    obtain ⟨old, oldMember, rfl⟩ := List.mem_map.mp rowMember
    split
    · rename_i same
      rw [sound.effects.eq oldMember member (same.trans named.symm)]
      refine .started member prepared fun tool => ?_
      exact Bool.eq_false_of_not_eq_true fun complete => barrier ⟨tool, complete⟩
    · exact .kept oldMember (.refl old)

/-! ## Room moves -/

theorem journalRoomMove_continues {input : PrepareRoomMoveEffect}
    (keyed : Table.Keyed (fun effect => effect.effectId) d.effects)
    (ok : journalRoomMove d input effectId = .ok next) : Continues d.effects next.effects := by
  obtain ⟨effect, member, roomMoves, rfl⟩ := journalRoomMove_ok ok
  refine updateEffect_continues keyed member ?_
  unfold stagedMove
  split
  · exact ⟨rfl, id, id, .inl⟩
  · exact .refl effect

theorem roomMoveEffect_tool {input : PrepareRoomMoveEffect} :
    (roomMoveEffect input request).toolName ≠ "complete_room_turn" := by
  change "join_room" ≠ "complete_room_turn"
  decide

theorem prepareRoomMoveEffect_steps (sound : Sound db) {input : PrepareRoomMoveEffect}
    (ok : prepareRoomMoveEffect db input = .ok next) :
    ∀ row ∈ next.effects, EffectStep db (.prepareRoomMoveEffect input) row := by
  obtain ⟨request, _, ok⟩ := bind_ok ok
  split at ok
  · obtain ⟨_, ok⟩ := require_bind_ok ok
    split at ok
    · cases ok
      exact (Continues.refl _).step
    · obtain ⟨_, _, ok⟩ := bind_ok ok
      obtain ⟨_, ok⟩ := require_bind_ok ok
      exact (journalRoomMove_continues sound.effects ok).step
  · obtain ⟨open', ok⟩ := require_bind_ok ok
    obtain ⟨item, authority, ok⟩ := bind_ok ok
    obtain ⟨_, ok⟩ := require_bind_ok ok
    obtain ⟨_, _, ok⟩ := bind_ok ok
    obtain ⟨admitted, inserts, ok⟩ := bind_ok ok
    obtain ⟨member, active, binding, known, turn, room⟩ := assertActiveEffectAuthority_ok authority
    have admission : Admission db (roomMoveEffect input request) :=
      { bound := ⟨item, member, active, binding, known, turn, room⟩
        open' := Bool.eq_false_of_not_eq_true open'
        state := .inl rfl
        completion := fun tool => absurd tool roomMoveEffect_tool }
    intro row rowMember
    obtain ⟨middle, middleMember, kept⟩ :=
      journalRoomMove_continues (insertEffect_keyed sound inserts) ok row rowMember
    obtain ⟨rfl, unknown⟩ := insertEffect_ok inserts
    rcases List.mem_append.mp middleMember with before | new
    · exact .kept before kept
    · rw [List.mem_singleton.mp new] at kept
      exact .admitted rfl
        (fun old oldMember same => unknown (same ▸ sound.effectsIssued old oldMember)) admission kept

end Prepare

/-- The effects after a committed transaction. -/
theorem step_effects (sound : Sound db) (ok : step db op = .ok next) :
    ∀ effect ∈ next.effects, EffectStep db op effect := by
  cases opens : opensEffects op with
  | false => exact (executes_continues opens (step_executes sound ok)).step
  | true =>
    cases op with
    | prepareEffect input => exact prepareEffect_steps sound ok
    | markEffectExecuting input => exact markEffectExecuting_steps sound ok
    | prepareRoomMoveEffect input => exact prepareRoomMoveEffect_steps sound ok
    | _ => cases opens

end LetAgents.Inbox.EffectSteps

import LetAgents.Inbox.EffectOwners

/-!
# The completion of a turn closes it

A completion proposal is stored as completed, once for each turn, and only while no
mutation of the turn executes. From then on the turn admits nothing and starts nothing:
the proposal lives as long as the item of the turn.
-/
namespace LetAgents.Inbox.TurnBarrier

open Lib Lib.Js Lib.Checked Records Retention Pruning Effects Delivery Store Writes Transaction
  Reachable RowLife TurnBinding EffectLife EffectSteps EffectOwners

/-! ## Completion proposals -/

def isCompletion (effect : SupervisedEffectRecord) : Prop := effect.toolName = "complete_room_turn"

/-- A stored proposal is committed, and no tombstone stands for one. -/
structure Done (db : Database) : Prop where
  effects : ∀ effect ∈ db.effects, isCompletion effect.toSupervisedEffectRecord →
    effect.state = .completed
  tombstones : ∀ tombstone ∈ db.tombstones, ¬ isCompletion tombstone.toSupervisedEffectRecord

variable {db d next : Database} {effect : EffectRow} {op : Op} {turn : ProviderTurn} {host : Host}
  {earlier later log : List Op}

theorem Done.keeps (done : Done db) (member : old ∈ db.effects) (kept : EffectKept old effect)
    (completion : isCompletion effect.toSupervisedEffectRecord) : effect.state = .completed :=
  kept.completed (done.effects old member (kept.toolName.symm.trans completion))

theorem EffectWrite.done (write : EffectWrite db op effect written)
    (before : isCompletion effect.toSupervisedEffectRecord → effect.state = .completed)
    (completion : isCompletion written.toSupervisedEffectRecord) : written.state = .completed := by
  have tool : isCompletion effect.toSupervisedEffectRecord :=
    (congrArg Claim.toolName (EffectWrite.claim_eq write)).symm.trans completion
  rcases EffectWrite.kept write with kept | ⟨input, rfl⟩
  · exact kept.completed (before tool)
  · -- a committed proposal is neither started nor rejected
    have was := before tool
    cases write with
    | rejected error prepared | started prepared | staged resultJson now prepared =>
      rw [prepared] at was
      cases was
    | interrupted now => exact (interruptedEffect_kept now effect).completed was

theorem compactEffects_done {effects : List EffectRow}
    (uncertain : ∀ effect ∈ effects, effect ∈ d.effects ∧ effect.state = .uncertain)
    (ok : effects.foldlM compactEffect d = .ok next) (done : Done d) : Done next := by
  refine foldlM_preserves (motive := Done) ?_ ok done
  intro d' effect next' listed done compacts
  obtain ⟨rfl, _⟩ := compactEffect_ok compacts
  obtain ⟨member, state⟩ := uncertain effect listed
  refine ⟨fun row rowMember => done.effects row (List.mem_of_mem_filter rowMember), ?_⟩
  intro tombstone listed completion
  rcases List.mem_append.mp listed with before | new
  · exact done.tombstones tombstone before completion
  · rw [List.mem_singleton.mp new] at completion
    have committed := ‹Done d›.effects effect member completion
    rw [state] at committed
    cases committed

theorem prune_done (ok : pruneSupervisedAgentHistory d agentId keep = .ok next) (done : Done d) :
    Done next := by
  obtain ⟨compacted, kept, compaction, deletion, rfl⟩ := prune_stages ok
  have first : Done compacted := by
    refine compactEffects_done (fun effect listed => ?_) compaction done
    have inFilter := (List.mem_insertionSort _).mp (List.mem_of_mem_drop listed)
    obtain ⟨member, holds⟩ := List.mem_filter.mp inFilter
    simp only [Bool.and_eq_true, decide_eq_true_eq] at holds
    exact ⟨member, holds.2⟩
  have second : Done (dropUnboundTombstones compacted agentId) :=
    ⟨first.effects, fun tombstone listed => first.tombstones tombstone (List.mem_of_mem_filter listed)⟩
  have third : Done kept := by
    refine foldlM_preserves (motive := Done) ?_ deletion second
    intro d' gone next' _ done deletes
    obtain ⟨_, written⟩ := require_bind_ok deletes
    cases written
    exact ⟨fun effect listed => done.effects effect (List.mem_of_mem_filter listed),
      fun tombstone listed => done.tombstones tombstone (List.mem_of_mem_filter listed)⟩
  exact ⟨third.effects, third.tombstones⟩

theorem executes_done (done : Done db) (executes : Executes db op d) : Done d := by
  induction executes with
  | start => exact done
  | row _ _ _ ih => exact ⟨ih.effects, ih.tombstones⟩
  | rows _ => exact ⟨done.effects, done.tombstones⟩
  | insert _ fresh _ _ ih =>
    obtain ⟨rfl, _⟩ := issueFor_ok fresh
    exact ⟨ih.effects, ih.tombstones⟩
  | settle _ _ ih =>
    rename_i d item now _ _
    obtain ⟨f, settles, equal⟩ := settle_eq d item now
    rw [equal]
    refine ⟨fun effect listed completion => ?_, ih.tombstones⟩
    obtain ⟨before, member, rfl⟩ := List.mem_map.mp listed
    rcases settles before with same | settled
    · rw [same] at completion ⊢
      exact ih.effects before member completion
    · rw [settled] at completion ⊢
      exact ih.keeps member (settledEffect_kept now before) completion
  | prune _ pruned ih => exact prune_done pruned ih
  | remove call removed =>
    obtain ⟨_, effects, tombstones, _⟩ := removeAgent_ok removed
    refine ⟨?_, ?_⟩
    · rw [effects]
      exact fun effect listed => done.effects effect (List.mem_of_mem_filter listed)
    · rw [tombstones]
      exact fun tombstone listed => done.tombstones tombstone (List.mem_of_mem_filter listed)
  | ingress _ _ ih | observe _ ih | repair _ ih => exact ⟨ih.effects, ih.tombstones⟩
  | issue _ fresh ih =>
    obtain ⟨rfl, _⟩ := issue_ok fresh
    exact ⟨ih.effects, ih.tombstones⟩
  | effects _ writes ih =>
    refine ⟨fun effect listed completion => ?_, ih.tombstones⟩
    obtain ⟨before, member, rfl⟩ := List.mem_map.mp listed
    rcases writes before member with same | write
    · rw [same] at completion ⊢
      exact ih.effects before member completion
    · exact EffectWrite.done write (ih.effects before member) completion
  | tombstones rest writes ih =>
    rename_i d f
    refine ⟨ih.effects, fun tombstone listed completion => ?_⟩
    obtain ⟨before, member, rfl⟩ := List.mem_map.mp listed
    rcases writes before member with same | write
    · rw [same] at completion
      exact ih.tombstones before member completion
    · generalize f before = after at write completion
      cases write
      exact ih.tombstones before member completion
  | admitted fresh new =>
    obtain ⟨rfl, _⟩ := issue_ok fresh
    refine ⟨fun effect listed completion => ?_, done.tombstones⟩
    rcases List.mem_append.mp listed with before | added
    · exact done.effects effect before completion
    · rw [List.mem_singleton.mp added] at completion ⊢
      cases new with
      | prepared mutation state resultJson serialized noEffect noTombstone authority states =>
        rcases states with ⟨_, other, _⟩ | committed
        · exact absurd completion other
        · exact committed
      | roomMove => exact absurd completion roomMoveEffect_tool
  | moves _ _ ih => exact ⟨ih.effects, ih.tombstones⟩
  | drain _ _ | external _ => exact ⟨done.effects, done.tombstones⟩

/-- A turn has one completion proposal. -/
def Single (db : Database) : Prop := ∀ left ∈ db.effects, ∀ right ∈ db.effects,
  isCompletion left.toSupervisedEffectRecord → isCompletion right.toSupervisedEffectRecord →
    left.turn = right.turn → left = right

/-- A proposal after a transaction was there before it, or is the one that the call
admits. -/
theorem completion_source (done : Done db) (stepped : EffectStep db op effect)
    (completion : isCompletion effect.toSupervisedEffectRecord) :
    (∃ old ∈ db.effects, claim effect = claim old ∧ old.state = .completed) ∨
      (admittedId op = some effect.effectId ∧ mutationExecuting db effect.turn = false ∧
        ∀ other ∈ db.effects, other.turn = effect.turn →
          ¬ isCompletion other.toSupervisedEffectRecord) := by
  cases stepped with
  | kept member kept =>
    exact .inl ⟨_, member, kept.same, done.effects _ member (kept.toolName.symm.trans completion)⟩
  | started member prepared open' =>
    have committed := done.effects _ member completion
    rw [prepared] at committed
    cases committed
  | admitted named unknown admission kept =>
    obtain ⟨_, idle, first⟩ := admission.completion (kept.toolName.symm.trans completion)
    have same : effect.effectId = _ := congrArg Claim.effectId kept.same
    rw [kept.turn, same]
    exact .inr ⟨named, idle, first⟩

theorem step_single (sound : Sound db) (done : Done db) (single : Single db)
    (ok : step db op = .ok next) : Single next := by
  have keyed := (step_follows sound ok).sound.effects
  intro left leftMember right rightMember leftTool rightTool turns
  rcases completion_source done (step_effects sound ok left leftMember) leftTool with
    ⟨old, oldMember, same, _⟩ | ⟨named, _, first⟩
  · rcases completion_source done (step_effects sound ok right rightMember) rightTool with
      ⟨other, otherMember, otherSame, _⟩ | ⟨_, _, first⟩
    · have equal : old = other := by
        refine single old oldMember other otherMember ?_ ?_ ?_
        · exact (congrArg Claim.toolName same).symm.trans leftTool
        · exact (congrArg Claim.toolName otherSame).symm.trans rightTool
        · have leftTurn : left.turn = old.turn := congrArg (fun c : Claim => c.identity.turn) same
          have rightTurn : right.turn = other.turn :=
            congrArg (fun c : Claim => c.identity.turn) otherSame
          rw [← leftTurn, turns, rightTurn]
      refine keyed.eq leftMember rightMember ?_
      rw [equal, ← otherSame] at same
      exact congrArg Claim.effectId same
    · have leftTurn : left.turn = old.turn := congrArg (fun c : Claim => c.identity.turn) same
      exact absurd ((congrArg Claim.toolName same).symm.trans leftTool)
        (first old oldMember (leftTurn.symm.trans turns))
  · rcases completion_source done (step_effects sound ok right rightMember) rightTool with
      ⟨other, otherMember, otherSame, _⟩ | ⟨otherNamed, _, _⟩
    · have rightTurn : right.turn = other.turn :=
        congrArg (fun c : Claim => c.identity.turn) otherSame
      exact absurd ((congrArg Claim.toolName otherSame).symm.trans rightTool)
        (first other otherMember (rightTurn.symm.trans turns.symm))
    · refine keyed.eq leftMember rightMember ?_
      rw [named, Option.some.injEq] at otherNamed
      exact otherNamed

theorem completions_run (host : Host) (log : List Op) :
    Done (run host log) ∧ Single (run host log) := by
  induction log using List.reverseRecOn with
  | nil =>
    exact ⟨⟨nofun,
      nofun⟩, nofun⟩
  | append_singleton log op ih =>
    have sound := sound_run host log
    rw [run_concat]
    cases result : step (run host log) op with
    | ok next =>
      rw [Replay.attempt_of_ok result]
      exact ⟨executes_done ih.1 (step_executes sound result), step_single sound ih.1 ih.2 result⟩
    | error e =>
      rw [Replay.attempt_of_error result]
      exact ih

/-! ## One provider turn -/

def boundBy (turn : ProviderTurn) (item : SupervisedInboxItem) : Bool :=
  item.binding.any fun binding => binding.turn = turn

/-- Is an item bound to the turn that was not before? -/
def binds (db next : Database) (turn : ProviderTurn) : Bool :=
  next.inbox.any fun row => boundBy turn row &&
    !(db.inbox.any fun item => item.inboxItemId = row.inboxItemId && boundBy turn item)

def bindsAt (host : Host) (log : List Op) (turn : ProviderTurn) (n : Nat) : Bool :=
  binds (run host (log.take n)) (run host (log.take (n + 1))) turn

/-- The log binds the turn once: its id names one provider turn. -/
def OneTurn (host : Host) (log : List Op) (turn : ProviderTurn) : Prop :=
  ∀ n < log.length, ∀ m < n, bindsAt host log turn m = true → bindsAt host log turn n = false

instance (host : Host) (log : List Op) (turn : ProviderTurn) : Decidable (OneTurn host log turn) :=
  inferInstanceAs (Decidable (∀ n < log.length, ∀ m < n, bindsAt host log turn m = true →
    bindsAt host log turn n = false))

theorem boundBy_iff : boundBy turn item = true ↔ BoundTo turn item := by
  simp only [boundBy, Option.any_eq_true, decide_eq_true_eq]
  rfl

theorem binds_false (none' : binds db next turn = false) (member : row ∈ next.inbox)
    (bound : BoundTo turn row) :
    ∃ item ∈ db.inbox, item.inboxItemId = row.inboxItemId ∧ BoundTo turn item := by
  simp only [binds, List.any_eq_false, Bool.and_eq_true, Bool.not_eq_true', not_and,
    decide_eq_true_eq, boundBy_iff] at none'
  have known := none' row member bound
  push Not at known
  exact known

theorem bindsAt_left (short : n < earlier.length) :
    bindsAt host (earlier ++ later) turn n = bindsAt host earlier turn n := by
  unfold bindsAt
  rw [List.take_append_of_le_length (Nat.le_of_lt short), List.take_append_of_le_length short]

theorem bindsAt_last :
    bindsAt host (log ++ [op]) turn log.length = binds (run host log) (run host (log ++ [op])) turn := by
  unfold bindsAt
  rw [List.take_left, List.take_of_length_le (by simp)]

theorem OneTurn.left (one : OneTurn host (earlier ++ later) turn) : OneTurn host earlier turn := by
  intro n short m before
  have here := one n (by rw [List.length_append]; omega) m before
  rwa [bindsAt_left short, bindsAt_left (Nat.lt_trans before short)] at here

/-- A turn that is bound was bound by some call. -/
theorem bound_history (member : row ∈ (run host log).inbox) (bound : BoundTo turn row) :
    ∃ n < log.length, bindsAt host log turn n = true := by
  induction log using List.reverseRecOn generalizing row with
  | nil => cases member
  | append_singleton log op ih =>
    cases last : binds (run host log) (run host (log ++ [op])) turn with
    | true =>
      refine ⟨log.length, by simp, ?_⟩
      rw [bindsAt_last]
      exact last
    | false =>
      obtain ⟨item, itemMember, _, itemBound⟩ := binds_false last member bound
      obtain ⟨n, short, was⟩ := ih itemMember itemBound
      refine ⟨n, by rw [List.length_append]; omega, ?_⟩
      rw [bindsAt_left short]
      exact was

/-- Once bound, the turn is bound to no other item. -/
theorem OneTurn.no_start (one : OneTurn host (earlier ++ later ++ [op]) turn)
    (was : ∃ item ∈ (run host earlier).inbox, BoundTo turn item) (row : SupervisedInboxItem)
    (member : row ∈ (run host (earlier ++ later ++ [op])).inbox) (bound : BoundTo turn row) :
    ∃ item ∈ (run host (earlier ++ later)).inbox, item.inboxItemId = row.inboxItemId ∧
      BoundTo turn item := by
  obtain ⟨item, itemMember, itemBound⟩ := was
  obtain ⟨m, short, first⟩ := bound_history itemMember itemBound
  have shorter : m < (earlier ++ later).length := by
    rw [List.length_append]
    omega
  have second := one (earlier ++ later).length (by simp) m shorter (by
    rw [bindsAt_left shorter, bindsAt_left short]
    exact first)
  rw [bindsAt_last] at second
  exact binds_false second member bound

theorem OneTurn.single (one : OneTurn host log turn) :
    ∀ row ∈ (run host log).inbox, ∀ other ∈ (run host log).inbox,
      BoundTo turn row → BoundTo turn other → row = other := by
  induction log using List.reverseRecOn with
  | nil => exact fun row member => absurd member List.not_mem_nil
  | append_singleton log op ih =>
    intro row member other otherMember bound otherBound
    refine (sound_run host (log ++ [op])).ids.eq member otherMember ?_
    by_cases before : ∃ item ∈ (run host log).inbox, BoundTo turn item
    · have again : OneTurn host (log ++ [] ++ [op]) turn := by rwa [List.append_nil]
      have source := again.no_start before
      rw [List.append_nil] at source
      obtain ⟨item, itemMember, same, itemBound⟩ := source row member bound
      obtain ⟨second, secondMember, secondSame, secondBound⟩ := source other otherMember otherBound
      rw [← same, ← secondSame, ih one.left item itemMember second secondMember itemBound secondBound]
    · -- both rows are bound by this call, which names one item
      have starts : ∀ row ∈ (run host (log ++ [op])).inbox, BoundTo turn row →
          ∃ item ∈ (run host log).inbox, row.inboxItemId = item.inboxItemId ∧
            StartsOn op turn item := by
        intro row member bound
        rcases run_source host log op member with ⟨item, itemMember, stepped⟩ | inserted
        · rcases RowStep.boundTo (turn_columns host log item itemMember) stepped bound with
            owned | starts
          · exact absurd ⟨item, itemMember, owned⟩ before
          · exact ⟨item, itemMember, congrArg Receipt.inboxItemId (RowStep.receipt_eq stepped), starts⟩
        · exact absurd bound (NewRow.unbound inserted.new)
      obtain ⟨item, _, same, _, _, _, call, _⟩ := starts row member bound
      obtain ⟨second, _, secondSame, _, _, _, secondCall, _⟩ := starts other otherMember otherBound
      rw [call] at secondCall
      rw [same, secondSame]
      exact (Op.checkpointTurnStarted.inj secondCall).1

/-- A committed start binds its item. -/
theorem start_binds (sound : Sound db) (member : item ∈ db.inbox) (starts : StartsOn op turn item)
    (ok : step db op = .ok next) :
    ∃ row ∈ next.inbox, row.inboxItemId = item.inboxItemId ∧ BoundTo turn row := by
  obtain ⟨_, providerTurnId, authority, rfl, rfl⟩ := starts
  obtain ⟨_, ok⟩ := require_bind_ok ok
  obtain ⟨_, _, ok⟩ := bind_ok ok
  obtain ⟨_, _, ok⟩ := bind_ok ok
  obtain ⟨_, _, ok⟩ := bind_ok ok
  obtain ⟨found, known, ok⟩ := found_bind_ok ok
  obtain ⟨_, ok⟩ := require_bind_ok ok
  obtain ⟨_, _, ok⟩ := bind_ok ok
  obtain ⟨_, ok⟩ := require_bind_ok ok
  obtain ⟨_, ok⟩ := require_bind_ok ok
  obtain ⟨_, ok⟩ := require_bind_ok ok
  obtain ⟨_, ok⟩ := require_bind_ok ok
  cases ok
  obtain ⟨foundMember, named⟩ := item_ok known
  rw [sound.ids.eq foundMember member named]
  obtain ⟨_, written⟩ := recordEvent_eq { item with
    providerTurnId := some providerTurnId
    attemptCount := if present item.providerTurnId then item.attemptCount else item.attemptCount + 1
    binding := some (turnBinding item providerTurnId authority) }
    (.phase .turnStarted (toString (if present item.providerTurnId then item.attemptCount
      else item.attemptCount + 1) ++ ":" ++ providerTurnId)) .turnStarted
  have row : turnStarted item providerTurnId authority = _ := written
  refine ⟨turnStarted item providerTurnId authority, Table.put_mem member ?_, ?_, ?_⟩
  · rw [row]
  · rw [row]
  · rw [row]
    exact ⟨_, rfl, rfl⟩

/-! ## The barrier -/

section Closed

variable {host : Host} {earlier : List Op} {turn : ProviderTurn}

theorem turnComplete_iff : turnComplete db turn = true ↔
    ∃ effect ∈ db.effects, effect.turn = turn ∧ isCompletion effect.toSupervisedEffectRecord ∧
      effect.state = .completed := by
  simp only [turnComplete, List.any_eq_true, Bool.and_eq_true, decide_eq_true_eq, and_assoc]
  rfl

theorem owner_bound (complete : turnComplete (run host log) turn = true) :
    ∃ item ∈ (run host log).inbox, BoundTo turn item := by
  obtain ⟨effect, member, rfl, _⟩ := turnComplete_iff.mp complete
  obtain ⟨item, itemMember, owns⟩ := owned_run host log effect member
  exact ⟨item, itemMember, owns.boundTo⟩

/-- A complete turn stays complete as long as its item lives. -/
theorem complete_or_unbound (later : List Op) (one : OneTurn host (earlier ++ later) turn)
    (complete : turnComplete (run host earlier) turn = true) :
    turnComplete (run host (earlier ++ later)) turn = true ∨
      ∀ row ∈ (run host (earlier ++ later)).inbox, ¬ BoundTo turn row := by
  induction later using List.reverseRecOn with
  | nil =>
    rw [List.append_nil]
    exact .inl complete
  | append_singleton later op ih =>
    rw [← List.append_assoc] at one ⊢
    have source := one.no_start (owner_bound complete)
    have sound := sound_run host (earlier ++ later)
    have columns := turn_columns host (earlier ++ later)
    have single := one.left.single
    have owned := owned_run host (earlier ++ later)
    have done := (completions_run host (earlier ++ later)).1
    have before := ih one.left
    rw [run_concat] at source ⊢
    cases result : step (run host (earlier ++ later)) op with
    | error e =>
      rw [Replay.attempt_of_error result]
      exact before
    | ok next =>
      rw [Replay.attempt_of_ok result] at source ⊢
      have executes := step_executes sound result
      rcases before with held | unbound
      · obtain ⟨effect, member, same, completion, committed⟩ := turnComplete_iff.mp held
        obtain ⟨item, itemMember, owns⟩ := owned effect member
        have bound : BoundTo turn item := same ▸ owns.boundTo
        have holder : Holder _ op (claim effect) item :=
          { member := itemMember
            bound := owns
            single := fun other otherMember otherBound =>
              single other otherMember item itemMember (same ▸ otherBound) bound
            fresh := fun other otherMember starts => by
              obtain ⟨row, rowMember, named, rowBound⟩ :=
                start_binds sound otherMember starts result
              obtain ⟨old, oldMember, oldSame, oldBound⟩ := source row rowMember (same ▸ rowBound)
              have equal := sound.ids.eq oldMember otherMember (oldSame.trans named)
              rw [equal] at oldBound
              obtain ⟨binding, known, _⟩ := oldBound
              have started := ((columns other otherMember).agrees binding known).2.2
              rw [starts.1] at started
              cases started }
        have recorded : Recorded _ (claim effect) false := .full member rfl nofun
        rcases executes_recorded sound columns (by rintro ⟨⟩) holder recorded executes with
          kept | gone
        · cases kept with
          | full memberAfter claims past =>
            rename_i after
            refine .inl (turnComplete_iff.mpr ⟨after, memberAfter, ?_, ?_, ?_⟩)
            · exact (congrArg (fun c : Claim => c.identity.turn) claims).trans same
            · exact (congrArg Claim.toolName claims).trans completion
            · exact (executes_done done executes).effects after memberAfter
                ((congrArg Claim.toolName claims).trans completion)
          | compacted memberAfter remembers =>
            exact absurd (remembers.toolName.trans completion)
              ((executes_done done executes).tombstones _ memberAfter)
        · refine .inr fun row rowMember rowBound => ?_
          obtain ⟨old, oldMember, oldSame, oldBound⟩ := source row rowMember rowBound
          rw [single old oldMember item itemMember oldBound bound] at oldSame
          exact gone row rowMember oldSame.symm
      · refine .inr fun row rowMember rowBound => ?_
        obtain ⟨old, oldMember, _, oldBound⟩ := source row rowMember rowBound
        exact unbound old oldMember oldBound

/-- The row continues one of the earlier state, and executes only if that did. -/
def Continued (before : Database) (effect : EffectRow) : Prop :=
  ∃ old ∈ before.effects, claim effect = claim old ∧
    (effect.state = .executing → old.state = .executing)

/-- A complete turn admits and starts nothing. -/
theorem closed_run (later : List Op) (one : OneTurn host (earlier ++ later) turn)
    (complete : turnComplete (run host earlier) turn = true) :
    ∀ effect ∈ (run host (earlier ++ later)).effects, effect.turn = turn →
      Continued (run host earlier) effect := by
  induction later using List.reverseRecOn with
  | nil =>
    rw [List.append_nil]
    exact fun effect member _ => ⟨effect, member, rfl, id⟩
  | append_singleton later op ih =>
    rw [← List.append_assoc] at one ⊢
    have sound := sound_run host (earlier ++ later)
    have owned := owned_run host (earlier ++ later)
    have done := (completions_run host (earlier ++ later)).1
    have state := complete_or_unbound later one.left complete
    have before := ih one.left
    rw [run_concat]
    cases result : step (run host (earlier ++ later)) op with
    | error e =>
      rw [Replay.attempt_of_error result]
      exact before
    | ok next =>
      rw [Replay.attempt_of_ok result]
      intro effect member same
      -- nothing opens the turn: it is complete, or no item is bound to it
      have barred : turnComplete (run host (earlier ++ later)) turn = false →
          ∀ item ∈ (run host (earlier ++ later)).inbox, ¬ BoundTo turn item := by
        intro incomplete
        rcases state with held | unbound
        · rw [held] at incomplete
          cases incomplete
        · exact unbound
      cases step_effects sound result effect member with
      | kept oldMember kept =>
        obtain ⟨first, firstMember, claims, executing⟩ :=
          before _ oldMember (kept.turn.symm.trans same)
        exact ⟨first, firstMember, kept.same.trans claims,
          fun now => executing (kept.executing now)⟩
      | started oldMember prepared open' =>
        rename_i old
        by_cases completion : isCompletion old.toSupervisedEffectRecord
        · have committed := done.effects old oldMember completion
          rw [prepared] at committed
          cases committed
        · obtain ⟨item, itemMember, owns⟩ := owned old oldMember
          have turns : old.turn = turn := same
          exact absurd (turns ▸ owns.boundTo)
            (barred (turns ▸ open' completion) item itemMember)
      | admitted named unknown admission kept =>
        rename_i new
        obtain ⟨item, itemMember, _, binding, known, turns, _⟩ := admission.bound
        have newTurn : new.turn = turn := kept.turn.symm.trans same
        exact absurd ⟨binding, known, turns.trans newTurn⟩
          (barred (newTurn ▸ admission.open') item itemMember)

end Closed

/-- The barrier of a turn, over all states of a run. -/
structure Barrier (host : Host) (log : List Op) (turn : ProviderTurn) : Prop where
  /-- The turn has one completion proposal. -/
  single : ∀ left ∈ (run host log).effects, ∀ right ∈ (run host log).effects,
    left.turn = turn → right.turn = turn → left.toolName = "complete_room_turn" →
      right.toolName = "complete_room_turn" → left = right
  /-- While a proposal becomes completed, no mutation of the turn executes. -/
  clear : ∀ earlier op later, log = earlier ++ op :: later →
    turnComplete (run host earlier) turn = false →
      turnComplete (run host (earlier ++ [op])) turn = true →
        mutationExecuting (run host earlier) turn = false ∧
          mutationExecuting (run host (earlier ++ [op])) turn = false
  /-- Afterwards no effect of the turn is new, and none enters `executing`. -/
  closed : ∀ earlier later, log = earlier ++ later → turnComplete (run host earlier) turn = true →
    ∀ effect ∈ (run host log).effects, effect.turn = turn →
      ∃ old ∈ (run host earlier).effects, claim effect = claim old ∧
        (effect.state = .executing → old.state = .executing)

theorem step_clear (sound : Sound db) (done : Done db) (ok : step db op = .ok next)
    (incomplete : turnComplete db turn = false) (complete : turnComplete next turn = true) :
    mutationExecuting db turn = false ∧ mutationExecuting next turn = false := by
  obtain ⟨effect, member, same, completion, _⟩ := turnComplete_iff.mp complete
  rcases completion_source done (step_effects sound ok effect member) completion with
    ⟨old, oldMember, claims, committed⟩ | ⟨named, idle, _⟩
  · have turns : effect.turn = old.turn := congrArg (fun c : Claim => c.identity.turn) claims
    have held : turnComplete db turn = true := turnComplete_iff.mpr ⟨old, oldMember,
      turns.symm.trans same, (congrArg Claim.toolName claims).symm.trans completion, committed⟩
    rw [incomplete] at held
    cases held
  · rw [same] at idle
    refine ⟨idle, ?_⟩
    simp only [mutationExecuting, List.any_eq_false, Bool.and_eq_true, decide_eq_true_eq, not_and]
      at idle ⊢
    rintro other otherMember ⟨⟨turns, tool⟩, executing⟩ mutation
    cases step_effects sound ok other otherMember with
    | kept oldMember kept =>
      exact idle _ oldMember ⟨⟨kept.turn.symm.trans turns, fun was => tool (kept.toolName.trans was)⟩,
        kept.executing executing⟩ ((congrArg Claim.mutation kept.same).symm.trans mutation)
    | started => cases named
    | admitted _ _ admission kept =>
      have was := kept.executing executing
      rcases admission.state with prepared | committed
      · rw [prepared] at was
        cases was
      · rw [committed] at was
        cases was

theorem turn_barrier (host : Host) (log : List Op) (turn : ProviderTurn)
    (one : OneTurn host log turn) : Barrier host log turn := by
  constructor
  case single =>
    intro left leftMember right rightMember leftTurn rightTurn leftTool rightTool
    exact (completions_run host log).2 left leftMember right rightMember leftTool rightTool
      (leftTurn.trans rightTurn.symm)
  case clear =>
    rintro earlier op later rfl incomplete complete
    rw [run_concat] at complete ⊢
    cases result : step (run host earlier) op with
    | error e =>
      rw [Replay.attempt_of_error result, incomplete] at complete
      cases complete
    | ok next =>
      rw [Replay.attempt_of_ok result] at complete ⊢
      exact step_clear (sound_run host earlier) (completions_run host earlier).1 result incomplete
        complete
  case closed =>
    rintro earlier later rfl complete
    exact closed_run later one complete

/-! ## A turn with two mutations -/

def oneTurn : EffectAuthority :=
  { agentId := "agent", roomId := "room", executionGenerationId := "generation"
    providerTurnId := "turn", workAttemptId := "attempt"
    currentExecutionGenerationId := "generation", providerContinuationId := "conversation" }

/-- The agent runs in the authority of the turn. -/
def running : Host :=
  { Host.quiet with
    runtime := fun agentId => if agentId = "agent" then
      some { roomId := "room", desiredState := "running", condition := "none"
             workAttemptId := some "attempt", providerWorkAttemptId := some "attempt"
             providerContinuationId := some "conversation"
             providerExecutionGenerationId := some "generation" }
      else none }

def request (toolName mcpRequestId uuid : String) : PrepareEffect :=
  { authority := oneTurn, mcpRequestId, toolName, mutation := none, uuid, now := "t"
    request := ⟨.object [("outcome", .string "no_reply")], some ⟨"json", "sha"⟩⟩ }

/-- One mutation completes, the other is prepared when the turn completes. -/
def completedTurn : List Op :=
  [.insertSyntheticMessage
      { agentId := "agent", roomId := "room", sourceMessageId := "m1", sourceMessage := .object []
        activation := .object [], uuid := "item" },
    .claimHead "agent" none "t",
    .checkpointTurnStarted "item" "turn" ⟨"attempt", "generation", "conversation"⟩,
    .prepareEffect (request "send_message" "r1" "first"),
    .markEffectExecuting ⟨"first", oneTurn, "t"⟩,
    .prepareEffect (request "send_message" "r2" "second"),
    .prepareEffect (request "complete_room_turn" "r3" "early"),
    .completeEffect ⟨"first", .json "null", none, none, "t"⟩,
    .prepareEffect (request "complete_room_turn" "r4" "done"),
    .markEffectExecuting ⟨"second", oneTurn, "t"⟩,
    .prepareEffect (request "send_message" "r5" "third"),
    .prepareEffect (request "complete_room_turn" "r6" "again")]

/-- The effects of the turn, and whether it is complete. -/
def turnEffects (log : List Op) : List (String × EffectState) × Bool :=
  ((run running log).effects.map fun effect => (effect.effectId, effect.state),
    turnComplete (run running log) oneTurn.turn)

theorem completedTurn_barrier :
    turnEffects (completedTurn.take 8) = ([("first", .completed), ("second", .prepared)], false) ∧
    turnEffects completedTurn =
      ([("first", .completed), ("second", .failed), ("done", .completed)], true) ∧
    Barrier running completedTurn oneTurn.turn :=
  ⟨by decide +kernel, by decide +kernel,
    turn_barrier running completedTurn oneTurn.turn (by decide +kernel)⟩

end LetAgents.Inbox.TurnBarrier

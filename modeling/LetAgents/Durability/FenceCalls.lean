import LetAgents.Durability.Fences

/-!
# What a call does to the fences

A call changes the fence of its attempt only, and one call at a time is under way on an attempt. The
invariant says for each place in a call, and in a collection, what holds of the attempts that it is about.
-/
namespace LetAgents.Durability.Fences

open Lib

/-! ## The invariant -/

/-- What holds of the attempt of a call, by where the call stands. -/
def PhaseSound (sys : System) (call : Call) : Prop :=
  match call.phase with
  | .acquiring => sys.fences.get call.workAttemptId = none ∧
      (call.operation = .concludeAttempt → call.workAttemptId ∉ sys.live)
  | .fenced => (sys.fences.get call.workAttemptId).isSome = true ∧
      (call.operation = .concludeAttempt → call.workAttemptId ∉ sys.live)
  | .letting => call.workAttemptId ∉ sys.live
  | .releasing handle => call.workAttemptId ∉ sys.live ∧ handle.workAttemptId = call.workAttemptId ∧
      handle.mode = .shared
  | _ => True

/-- What holds of the attempts that a collector quiesces, by where it stands. -/
def StageSound (sys : System) (stage : Stage) : Prop :=
  match stage with
  | .quiescing _ held => (held.map Prod.fst).Nodup ∧ ∀ e ∈ held, sys.fences.get e.1 = some e.2
  | .releasing _ held todo => (todo.map Prod.fst).Nodup ∧
      ∀ e ∈ todo, e ∈ held ∧ sys.fences.get e.1 = some e.2
  | .restoring todo held => todo ⊆ held.map Prod.fst ∧
      ∀ e ∈ held, e.1 ∈ todo ∨ (sys.fences.get e.1).isSome = true
  | .reacquiring id todo held => id :: todo ⊆ held.map Prod.fst ∧ sys.fences.get id = none ∧
      ∀ e ∈ held, e.1 ∈ id :: todo ∨ (sys.fences.get e.1).isSome = true
  | .resuming held => ∀ e ∈ held, (sys.fences.get e.1).isSome = true
  | .deleting fence _ => fence.mode = .exclusive
  | _ => True

/-- What is stored is what is held. -/
structure Held (sys : System) : Prop where
  stored : ∀ h ∈ sys.records, h.mode = .shared → sys.fences.get h.workAttemptId = some h
  acquired : ∀ id h, sys.fences.get id = some h →
    h ∈ sys.records ∧ h.workAttemptId = id ∧ h.mode = .shared
  exclusive : ∀ h ∈ sys.records, h.mode = .exclusive → ∀ other ∈ sys.records, other.mode ≠ .shared

structure Sound (sys : System) : Prop where
  held : Held sys
  order : ∀ (j k : Nat) (a b : Call), j < k → sys.calls[j]? = some a → sys.calls[k]? = some b →
    a.workAttemptId = b.workAttemptId → b.phase ≠ .waiting → a.phase = .done
  phases : ∀ call ∈ sys.calls, PhaseSound sys call
  stages : ∀ c ∈ sys.collectors, StageSound sys c.stage
  apart : ∀ call ∈ sys.calls, call.underWay = true → ∀ c ∈ sys.collectors,
    call.workAttemptId ∉ c.quiesced
  alone : ∀ (j k : Nat) (a b : Collector), sys.collectors[j]? = some a → sys.collectors[k]? = some b →
    a.stage.held ≠ [] → b.stage.held ≠ [] → j = k
  covered : ∀ id ∈ sys.live, id ∈ sys.mine → (sys.fences.get id).isSome = true ∨
    id ∈ sys.unrestored ∨ ∃ c ∈ sys.collectors, id ∈ c.quiesced

/-! ## Acquiring and releasing -/

variable {sys sys' : System} {id : String} {h : Handle}

theorem Held.acquire (held : Held sys) (free : sys.fences.get id = none)
    (admits : sys.admitsShared = true) : Held (sys.acquire id) := by
  have shared : ∀ other ∈ sys.records, other.mode = .shared := by
    simpa [System.admitsShared] using admits
  refine ⟨fun new there mode => ?_, fun other new has => ?_, fun new there mode => ?_⟩
  · rcases List.mem_cons.mp there with rfl | old
    · exact OrderedMap.get_set_self _ _ _
    · have before := held.stored new old mode
      have differs : new.workAttemptId ≠ id := by
        rintro rfl
        rw [free] at before
        cases before
      exact (OrderedMap.get_set_of_ne _ _ differs).trans before
  · by_cases same : other = id
    · subst same
      have own : some _ = some new := (OrderedMap.get_set_self _ _ _).symm.trans has
      cases own
      exact ⟨.head _, rfl, rfl⟩
    · obtain ⟨old, attempt, mode⟩ :=
        held.acquired other new ((OrderedMap.get_set_of_ne _ _ same).symm.trans has)
      exact ⟨.tail _ old, attempt, mode⟩
  · rcases List.mem_cons.mp there with rfl | old
    · cases mode
    · rw [shared new old] at mode
      cases mode

/-- A handle is released, and forgotten where it is stored. -/
theorem Held.release (held : Held sys) (has : sys.fences.get id = some h) :
    Held ((sys.drop h).delete id) := by
  obtain ⟨-, own, -⟩ := held.acquired id h has
  refine ⟨fun other there mode => ?_, fun other new has' => ?_, fun other there mode => ?_⟩
  · obtain ⟨old, differs⟩ := List.mem_filter.mp there
    have before := held.stored other old mode
    have apart : other.workAttemptId ≠ id := by
      intro same
      rw [same, has] at before
      exact of_decide_eq_true differs (Option.some.inj before).symm
    exact (OrderedMap.get_delete_of_ne _ apart).trans before
  · by_cases same : other = id
    · subst same
      rw [show ((sys.drop h).delete other).fences.get other = none from
        OrderedMap.get_delete_self _ _] at has'
      cases has'
    · have before := (OrderedMap.get_delete_of_ne _ same).symm.trans has'
      obtain ⟨old, attempt, mode⟩ := held.acquired other new before
      refine ⟨List.mem_filter.mpr ⟨old, decide_eq_true ?_⟩, attempt, mode⟩
      rintro rfl
      exact same (attempt.symm.trans own)
  · intro next here
    exact held.exclusive other (List.mem_filter.mp there).1 mode next (List.mem_filter.mp here).1

/-- What is not stored as a fence is dropped. -/
theorem Held.drop (held : Held sys) (absent : ∀ id, sys.fences.get id ≠ some h) :
    Held (sys.drop h) := by
  refine ⟨fun other there => held.stored other (List.mem_filter.mp there).1, fun id other has => ?_,
    fun other there mode next here =>
      held.exclusive other (List.mem_filter.mp there).1 mode next (List.mem_filter.mp here).1⟩
  obtain ⟨old, attempt, mode⟩ := held.acquired id other has
  refine ⟨List.mem_filter.mpr ⟨old, decide_eq_true ?_⟩, attempt, mode⟩
  rintro rfl
  exact absent id has

/-! ## What a step leaves -/

/-- Nothing changes but at the attempts of `ids`. -/
structure AgreeOff (ids : String → Prop) (sys sys' : System) : Prop where
  fences : ∀ id, ¬ids id → sys'.fences.get id = sys.fences.get id
  live : ∀ id, ¬ids id → (id ∈ sys'.live ↔ id ∈ sys.live)
  mine : ∀ id, ¬ids id → (id ∈ sys'.mine ↔ id ∈ sys.mine)
  unrestored : ∀ id, ¬ids id → id ∈ sys.unrestored → id ∈ sys'.unrestored

variable {call : Call} {k : Nat} {phase : Phase}

theorem PhaseSound.of_agree (sound : PhaseSound sys call)
    (fences : sys'.fences.get call.workAttemptId = sys.fences.get call.workAttemptId)
    (live : call.workAttemptId ∈ sys'.live ↔ call.workAttemptId ∈ sys.live) :
    PhaseSound sys' call := by
  unfold PhaseSound at sound ⊢
  rw [fences]
  cases phase : call.phase <;> rw [phase] at sound <;> simp only [live] at sound ⊢ <;> exact sound

theorem PhaseSound.of_rest (rest : call.underWay = false) : PhaseSound sys call := by
  unfold PhaseSound
  simp only [Call.underWay, decide_eq_false_iff_not, not_and_or, not_not] at rest
  rcases rest with waiting | done
  · rw [waiting]
    trivial
  · rw [done]
    trivial

theorem StageSound.of_agree (sound : StageSound sys stage)
    (fences : ∀ e ∈ stage.held, sys'.fences.get e.1 = sys.fences.get e.1) :
    StageSound sys' stage := by
  cases stage with
  | quiescing candidate held =>
    exact ⟨sound.1, fun e there => (fences e there).trans (sound.2 e there)⟩
  | releasing candidate held todo =>
    refine ⟨sound.1, fun e there => ⟨(sound.2 e there).1, ?_⟩⟩
    exact (fences e (sound.2 e there).1).trans (sound.2 e there).2
  | restoring todo held =>
    refine ⟨sound.1, fun e there => ?_⟩
    rw [fences e there]
    exact sound.2 e there
  | reacquiring id todo held =>
    obtain ⟨members, free, others⟩ := sound
    refine ⟨members, ?_, fun e there => ?_⟩
    · obtain ⟨e, there, rfl⟩ := List.mem_map.mp (members List.mem_cons_self)
      exact (fences e there).trans free
    · rw [fences e there]
      exact others e there
  | resuming held =>
    intro e there
    rw [fences e there]
    exact sound e there
  | next | acquiring => trivial
  | deleting => exact sound
  | ended => trivial

/-! ## One step of a call -/

/-- A call that begins is behind no other. -/
theorem isTurn_of (turn : sys.isTurn k id = true) (before : j < k) (here : sys.calls[j]? = some a)
    (same : a.workAttemptId = id) : a.phase = .done := by
  have listed : a ∈ sys.calls.take k := by
    refine List.mem_of_getElem? (i := j) ?_
    rw [List.getElem?_take_of_lt before, here]
  have all := List.all_eq_true.mp turn a listed
  simp only [decide_eq_true_eq] at all
  exact all.resolve_left fun other => other same

/-- A call that goes on, or that begins in its turn. -/
structure MayMove (sys : System) (k : Nat) (call : Call) : Prop where
  here : sys.calls[k]? = some call
  open_ : call.phase ≠ .done
  begins : call.phase = .waiting → sys.isTurn k call.workAttemptId = true ∧
    ∀ c ∈ sys.collectors, call.workAttemptId ∉ c.quiesced

theorem mayMove (here : sys.calls[k]? = some call) (stands : call.phase = phase)
    (open_ : phase ≠ .done) (begun : phase ≠ .waiting) : MayMove sys k call :=
  ⟨here, stands ▸ open_, fun waiting => absurd (stands.symm.trans waiting) begun⟩

/-- What a step of a call has to keep. -/
structure CallStep (sys sys' : System) (k : Nat) (call : Call) (phase : Phase) : Prop where
  calls : sys'.calls = sys.calls.set k { call with phase := phase }
  collectors : sys'.collectors = sys.collectors
  held : Held sys'
  agree : AgreeOff (· = call.workAttemptId) sys sys'
  own : PhaseSound sys' { call with phase := phase }
  covered : call.workAttemptId ∈ sys'.live → call.workAttemptId ∈ sys'.mine →
    (sys'.fences.get call.workAttemptId).isSome = true ∨ call.workAttemptId ∈ sys'.unrestored ∨
      ∃ c ∈ sys.collectors, call.workAttemptId ∈ c.quiesced

theorem CallStep.sound (sound : Sound sys) (may : MayMove sys k call)
    (step : CallStep sys sys' k call phase) : Sound sys' := by
  obtain ⟨here, open_, begins⟩ := may
  have free : ∀ c ∈ sys.collectors, call.workAttemptId ∉ c.quiesced := by
    by_cases waiting : call.phase = .waiting
    · exact (begins waiting).2
    · exact sound.apart call (List.mem_of_getElem? here) (decide_eq_true ⟨waiting, open_⟩)
  -- The calls before it on the attempt are done, and those after it wait.
  have before : ∀ j a, j < k → sys.calls[j]? = some a → a.workAttemptId = call.workAttemptId →
      a.phase = .done := by
    intro j a less ja same
    by_cases waiting : call.phase = .waiting
    · exact isTurn_of (begins waiting).1 less ja same
    · exact sound.order j k a call less ja here same waiting
  have after : ∀ j a, k < j → sys.calls[j]? = some a → a.workAttemptId = call.workAttemptId →
      a.phase = .waiting := by
    intro j a less ja same
    by_contra moved
    exact open_ (sound.order k j call a less here ja same.symm moved)
  have others : ∀ j a, j ≠ k → sys.calls[j]? = some a → a.underWay = true →
      a.workAttemptId ≠ call.workAttemptId := by
    intro j a differs ja busy same
    simp only [Call.underWay, decide_eq_true_eq] at busy
    rcases Nat.lt_or_gt_of_ne differs with less | more
    · exact busy.2 (before j a less ja same)
    · exact busy.1 (after j a more ja same)
  refine ⟨step.held, fun i j a b less ia jb same moved => ?_, fun a member => ?_, fun c member => ?_,
    fun a member busy c there => ?_, fun i j a b ia jb => ?_, fun id isLive isMine => ?_⟩
  · rw [step.calls] at ia jb
    rcases Machine.set_cases ia with ⟨rfl, rfl⟩ | ⟨-, first⟩
    · rcases Machine.set_cases jb with ⟨rfl, -⟩ | ⟨-, second⟩
      · exact absurd less (Nat.lt_irrefl _)
      · exact absurd (after j b less second same.symm) moved
    · rcases Machine.set_cases jb with ⟨rfl, rfl⟩ | ⟨-, second⟩
      · exact before i a less first same
      · exact sound.order i j a b less first second same moved
  · rw [step.calls] at member
    obtain ⟨j, ja⟩ := List.mem_iff_getElem?.mp member
    rcases Machine.set_cases ja with ⟨rfl, rfl⟩ | ⟨differs, ja⟩
    · exact step.own
    · by_cases busy : a.underWay = true
      · have other := others j a differs ja busy
        exact (sound.phases a (List.mem_of_getElem? ja)).of_agree (step.agree.fences _ other)
          (step.agree.live _ other)
      · exact .of_rest (Bool.not_eq_true _ ▸ busy)
  · rw [step.collectors] at member
    refine (sound.stages c member).of_agree fun e there => step.agree.fences _ fun same => ?_
    exact free c member (same ▸ List.mem_map_of_mem there)
  · rw [step.collectors] at there
    rw [step.calls] at member
    obtain ⟨j, ja⟩ := List.mem_iff_getElem?.mp member
    rcases Machine.set_cases ja with ⟨rfl, rfl⟩ | ⟨-, ja⟩
    · exact free c there
    · exact sound.apart a (List.mem_of_getElem? ja) busy c there
  · rw [step.collectors] at ia jb
    exact sound.alone i j a b ia jb
  · rw [step.collectors]
    by_cases own : id = call.workAttemptId
    · subst own
      exact step.covered isLive isMine
    · rw [step.agree.fences id own]
      rcases sound.covered id ((step.agree.live id own).mp isLive) ((step.agree.mine id own).mp isMine)
        with fenced | unrestored | quiesced
      · exact .inl fenced
      · exact .inr (.inl (step.agree.unrestored id own unrestored))
      · exact .inr (.inr quiesced)

theorem AgreeOff.refl (ids : String → Prop) (sys : System) : AgreeOff ids sys sys :=
  ⟨fun _ _ => rfl, fun _ _ => .rfl, fun _ _ => .rfl, fun _ _ there => there⟩

/-- Only the call moves. -/
theorem setPhase_sound (sound : Sound sys) (may : MayMove sys k call)
    (own : PhaseSound sys { call with phase := phase }) : Sound (sys.setPhase k call phase) :=
  CallStep.sound sound may {
    calls := rfl
    collectors := rfl
    held := { sound.held with }
    agree := { AgreeOff.refl _ sys with }
    own := own.of_agree rfl .rfl
    covered := fun isLive isMine => sound.covered _ isLive isMine }

theorem agreeOff_acquire (sys : System) (id : String) : AgreeOff (· = id) sys (sys.acquire id) where
  fences _ differs := OrderedMap.get_set_of_ne _ _ differs
  live _ _ := .rfl
  mine _ _ := .rfl
  unrestored _ differs there := List.mem_filter.mpr ⟨there, decide_eq_true differs⟩

theorem ensuring_sound (idle : operation = .concludeAttempt → id ∉ sys.live) :
    PhaseSound sys ⟨id, operation, sys.ensuring id⟩ := by
  unfold System.ensuring
  split
  · next fenced => exact ⟨fenced, idle⟩
  · next free => exact ⟨by simpa using free, idle⟩

theorem afterRead_sound (call : Call) : PhaseSound sys { call with phase := sys.afterRead call } := by
  obtain ⟨id, operation, phase⟩ := call
  unfold System.afterRead
  cases operation with
  | startGeneration => exact ensuring_sound nofun
  | recoverExecutionFence =>
    dsimp only
    split
    · exact ensuring_sound nofun
    · trivial
  | releaseTerminalExecutionFence held =>
    dsimp only
    split
    · trivial
    · next idle => exact idle
  | concludeAttempt =>
    dsimp only
    split
    · trivial
    · next idle => exact ensuring_sound fun _ => idle

/-- The transaction of a call that has its fence. -/
theorem transact_sound (sound : Sound sys) (here : sys.calls[k]? = some call)
    (phase : call.phase = .fenced)
    (idle : call.operation = .startGeneration → call.workAttemptId ∉ sys.live) :
    Sound (sys.transact k call ok) := by
  have may : MayMove sys k call := mayMove here phase Phase.noConfusion Phase.noConfusion
  have fenced := sound.phases call (List.mem_of_getElem? here)
  simp only [PhaseSound, phase] at fenced
  unfold System.transact
  cases operation : call.operation with
  | startGeneration =>
    dsimp only
    split
    · refine CallStep.sound sound may ⟨rfl, rfl, { sound.held with }, ?_, trivial, ?_⟩
      · refine { AgreeOff.refl (· = call.workAttemptId) sys with live := ?_, mine := ?_ }
        · exact fun _ differs => List.mem_cons.trans (or_iff_right differs)
        · exact fun _ differs => List.mem_cons.trans (or_iff_right differs)
      · exact fun _ _ => .inl fenced.1
    · exact setPhase_sound sound may (idle operation)
  | recoverExecutionFence =>
    refine CallStep.sound sound may ⟨rfl, rfl, { sound.held with }, ?_, trivial, ?_⟩
    · refine { AgreeOff.refl (· = call.workAttemptId) sys with mine := ?_ }
      exact fun _ differs => List.mem_cons.trans (or_iff_right differs)
    · exact fun _ _ => .inl fenced.1
  | releaseTerminalExecutionFence held => exact setPhase_sound sound may trivial
  | concludeAttempt =>
    have notLive := fenced.2 operation
    dsimp only
    split
    · refine CallStep.sound sound may ⟨rfl, rfl, { sound.held with }, ?_, notLive, ?_⟩
      · exact { AgreeOff.refl _ sys with }
      · exact fun isLive => absurd isLive notLive
    · exact setPhase_sound sound may notLive

theorem move_sound (sound : Sound sys) (here : sys.calls[k]? = some call)
    (free : call.phase = .waiting → ∀ c ∈ sys.collectors, call.workAttemptId ∉ c.quiesced)
    (idle : call.phase = .fenced → call.operation = .startGeneration → call.workAttemptId ∉ sys.live) :
    Sound (sys.move k call ok) := by
  have standing := sound.phases call (List.mem_of_getElem? here)
  unfold PhaseSound at standing
  unfold System.move
  cases phase : call.phase with
  | waiting =>
    dsimp only
    split
    · next turn =>
        have open_ : call.phase ≠ .done := by
          rw [phase]
          exact Phase.noConfusion
        exact setPhase_sound sound ⟨here, open_, fun waiting => ⟨turn, free waiting⟩⟩ trivial
    · exact sound
  | reading =>
    refine setPhase_sound sound (mayMove here phase Phase.noConfusion Phase.noConfusion) ?_
    split
    · exact afterRead_sound call
    · trivial
  | acquiring =>
    rw [phase] at standing
    dsimp only at standing ⊢
    split
    · next admits =>
        refine CallStep.sound sound (mayMove here phase Phase.noConfusion Phase.noConfusion)
          ⟨rfl, rfl, { sound.held.acquire standing.1 admits.2 with },
            { agreeOff_acquire sys call.workAttemptId with }, ⟨?_, standing.2⟩, fun _ _ => .inl ?_⟩
        · exact Option.isSome_of_eq_some (OrderedMap.get_set_self _ _ _)
        · exact Option.isSome_of_eq_some (OrderedMap.get_set_self _ _ _)
    · exact setPhase_sound sound (mayMove here phase Phase.noConfusion Phase.noConfusion) trivial
  | fenced => exact transact_sound sound here phase (idle phase)
  | letting =>
    rw [phase] at standing
    dsimp only at standing ⊢
    split
    · next handle has =>
        refine setPhase_sound sound (mayMove here phase Phase.noConfusion Phase.noConfusion) ?_
        split at has
        · obtain ⟨-, own, mode⟩ := sound.held.acquired _ handle has
          exact ⟨standing, own, mode⟩
        · cases has
    · exact setPhase_sound sound (mayMove here phase Phase.noConfusion Phase.noConfusion) trivial
  | releasing handle =>
    rw [phase] at standing
    obtain ⟨notLive, own, mode⟩ := standing
    dsimp only
    split
    · split
      · next has =>
          refine CallStep.sound sound (mayMove here phase Phase.noConfusion Phase.noConfusion)
            ⟨rfl, rfl, { sound.held.release has with }, ?_, trivial, fun isLive => absurd isLive notLive⟩
          refine { AgreeOff.refl (· = call.workAttemptId) sys with fences := ?_ }
          exact fun _ differs => OrderedMap.get_delete_of_ne _ differs
      · next lost =>
          have absent : ∀ id, sys.fences.get id ≠ some handle := by
            intro id has
            obtain ⟨-, same, -⟩ := sound.held.acquired id handle has
            exact lost (own.symm.trans same ▸ has)
          exact CallStep.sound sound (mayMove here phase Phase.noConfusion Phase.noConfusion)
            ⟨rfl, rfl, { sound.held.drop absent with }, { AgreeOff.refl _ sys with }, trivial,
              fun isLive => absurd isLive notLive⟩
    · exact setPhase_sound sound (mayMove here phase Phase.noConfusion Phase.noConfusion) trivial
  | done => exact sound

end LetAgents.Durability.Fences

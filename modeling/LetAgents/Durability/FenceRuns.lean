import LetAgents.Durability.FenceCalls

/-!
# Fences are neither lost nor doubled

What is acquired is stored, as long as a collection and the calls on the attempts that it quiesces keep
apart, and a generation is started only where none is live.
-/
namespace LetAgents.Durability.Fences

open Lib

/-! ## The property -/

/-- `excused`: the attempts whose fence need not be held. -/
structure FencesKept (excused : System → List String) (states : Nat → System) : Prop where
  stored : ∀ n, ∀ h ∈ (states n).records, h.mode = .shared →
    (states n).fences.get h.workAttemptId = some h
  held : ∀ n, (∀ c ∈ (states n).collectors, c.stage = .ended) → ∀ id ∈ (states n).live,
    id ∈ (states n).mine → id ∉ excused (states n) →
      ∃ h ∈ (states n).records, (states n).fences.get id = some h
  exclusive : ∀ n, ∀ h ∈ (states n).records, h.mode = .exclusive →
    ∀ other ∈ (states n).records, other.mode ≠ .shared

/-- The generations of a collection are resumed only when all of them have their fences. -/
def ResumesRestored (states : Nat → System) : Prop :=
  ∀ n, ∀ c ∈ (states n).collectors, ∀ held, c.stage = .resuming held →
    ∀ e ∈ held, ((states n).fences.get e.1).isSome = true

/-! ## The condition -/

/-- A collector takes what it quiesces when no call on it is under way, and a call begins on an attempt that
is not quiesced; a generation is started where none is live. -/
def Input.apart (sys : System) : Input → Bool
  | .call k _ => sys.calls[k]?.all fun call =>
    (call.phase ≠ .waiting || sys.collectors.all fun c => call.workAttemptId ∉ c.quiesced) &&
      (call.phase ≠ .fenced || call.operation ≠ .startGeneration || call.workAttemptId ∉ sys.live)
  | .collector k _ => sys.collectors[k]?.all fun collector =>
    collector.stage ≠ .next || collector.reserved.head?.all (·.2) ||
      (sys.collectors.all (·.stage.held = []) &&
        sys.calls.all fun call => !call.underWay || sys.fences.get call.workAttemptId = none)
  | _ => true

/-! ## One step of a collection -/

variable {sys sys' : System} {id : String} {h : Handle}

/-- What a step of a collector has to keep. -/
structure CollectStep (sys sys' : System) (k : Nat) (collector after : Collector) : Prop where
  calls : sys'.calls = sys.calls
  collectors : sys'.collectors = sys.collectors.set k after
  held : Held sys'
  agree : AgreeOff (· ∈ collector.quiesced) sys sys'
  own : StageSound sys' after.stage
  quiesced : after.stage.held = collector.stage.held ∨ after.stage.held = [] ∨
    (∀ c ∈ sys.collectors, c.stage.held = []) ∧
      ∀ call ∈ sys.calls, call.underWay = true → call.workAttemptId ∉ after.quiesced
  covered : ∀ id ∈ collector.quiesced, id ∈ sys'.live → id ∈ sys'.mine →
    (sys'.fences.get id).isSome = true ∨ id ∈ sys'.unrestored ∨ id ∈ after.quiesced

theorem quiesced_of_held {c : Collector} (empty : c.stage.held = []) : c.quiesced = [] := by
  rw [Collector.quiesced, empty]
  rfl

variable {k : Nat} {collector : Collector}

theorem CollectStep.sound (sound : Sound sys) (here : sys.collectors[k]? = some collector)
    (step : CollectStep sys sys' k collector after) : Sound sys' := by
  have listed := List.mem_of_getElem? here
  -- Another collector quiesces nothing that this one does.
  have others : ∀ j c, j ≠ k → sys.collectors[j]? = some c → c.stage.held ≠ [] →
      collector.stage.held = [] := by
    intro j c differs jc some_
    by_contra own
    exact differs (sound.alone j k c collector jc here some_ own)
  refine ⟨step.held, fun i j a b less ia jb => ?_, fun call member => ?_, fun c member => ?_,
    fun call member busy c there => ?_, fun i j a b ia jb first second => ?_,
    fun id isLive isMine => ?_⟩
  · rw [step.calls] at ia jb
    exact sound.order i j a b less ia jb
  · rw [step.calls] at member
    by_cases busy : call.underWay = true
    · have apart := sound.apart call member busy collector listed
      exact (sound.phases call member).of_agree (step.agree.fences _ apart) (step.agree.live _ apart)
    · exact .of_rest (Bool.not_eq_true _ ▸ busy)
  · rw [step.collectors] at member
    obtain ⟨j, jc⟩ := List.mem_iff_getElem?.mp member
    rcases Machine.set_cases jc with ⟨rfl, rfl⟩ | ⟨differs, old⟩
    · exact step.own
    · refine (sound.stages c (List.mem_of_getElem? old)).of_agree fun e there => ?_
      have none_ := others j c differs old (List.ne_nil_of_mem there)
      refine step.agree.fences _ ?_
      rw [quiesced_of_held none_]
      nofun
  · rw [step.calls] at member
    rw [step.collectors] at there
    obtain ⟨j, jc⟩ := List.mem_iff_getElem?.mp there
    rcases Machine.set_cases jc with ⟨rfl, rfl⟩ | ⟨-, old⟩
    · rcases step.quiesced with same | empty | ⟨-, free⟩
      · rw [Collector.quiesced, same]
        exact sound.apart call member busy collector listed
      · rw [quiesced_of_held empty]
        nofun
      · exact free call member busy
    · exact sound.apart call member busy c (List.mem_of_getElem? old)
  · rw [step.collectors] at ia jb
    have apart : ∀ j c, j ≠ k → sys.collectors[j]? = some c → c.stage.held ≠ [] →
        after.stage.held = [] := by
      intro j c differs jc some_
      rcases step.quiesced with same | empty | ⟨alone, -⟩
      · exact same.trans (others j c differs jc some_)
      · exact empty
      · exact absurd (alone c (List.mem_of_getElem? jc)) some_
    rcases Machine.set_cases ia with ⟨rfl, rfl⟩ | ⟨left, oldA⟩
    · rcases Machine.set_cases jb with ⟨rfl, -⟩ | ⟨right, oldB⟩
      · rfl
      · exact absurd (apart j b right oldB second) first
    · rcases Machine.set_cases jb with ⟨rfl, rfl⟩ | ⟨right, oldB⟩
      · exact absurd (apart i a left oldA first) second
      · exact sound.alone i j a b oldA oldB first second
  · have there : after ∈ sys'.collectors := by
      rw [step.collectors]
      exact List.mem_of_getElem? (i := k) (Machine.set_self here after)
    by_cases own : id ∈ collector.quiesced
    · rcases step.covered id own isLive isMine with fenced | unrestored | kept
      · exact .inl fenced
      · exact .inr (.inl unrestored)
      · exact .inr (.inr ⟨after, there, kept⟩)
    · rw [step.agree.fences id own]
      rcases sound.covered id ((step.agree.live id own).mp isLive) ((step.agree.mine id own).mp isMine)
        with fenced | unrestored | ⟨c, member, quiesced⟩
      · exact .inl fenced
      · exact .inr (.inl (step.agree.unrestored id own unrestored))
      · obtain ⟨j, jc⟩ := List.mem_iff_getElem?.mp member
        have differs : j ≠ k := by
          rintro rfl
          rw [here] at jc
          cases jc
          exact own quiesced
        refine .inr (.inr ⟨c, List.mem_of_getElem? (i := j) ?_, quiesced⟩)
        rw [step.collectors, List.getElem?_set_ne (Ne.symm differs), jc]

section

variable (sound : Sound sys) (here : sys.collectors[k]? = some collector)

include sound here

/-- Only the collector moves, and goes on with what it quiesced. -/
theorem setStage_sound (own : StageSound sys stage) (same : stage.held = collector.stage.held) :
    Sound (sys.setStage k collector stage) :=
  CollectStep.sound sound here {
    calls := rfl
    collectors := rfl
    held := { sound.held with }
    agree := { AgreeOff.refl _ sys with }
    own := own.of_agree fun _ _ => rfl
    quiesced := .inl same
    covered := fun id there _ _ => .inr (.inr (by rw [Collector.quiesced, same]; exact there)) }

/-- The collector leaves what it quiesced, which has its fences. -/
theorem leave_sound (restored : ∀ e ∈ collector.stage.held, (sys.fences.get e.1).isSome = true) :
    Sound (sys.setStage k collector .next) := by
  refine CollectStep.sound sound here
    ⟨rfl, rfl, { sound.held with }, { AgreeOff.refl _ sys with }, trivial, .inr (.inl rfl), ?_⟩
  intro id there _ _
  obtain ⟨e, member, rfl⟩ := List.mem_map.mp there
  exact .inl (restored e member)

/-- A collection that fails says which fences it could not give back. -/
theorem giveUp_sound : Sound (sys.giveUp k collector) := by
  refine CollectStep.sound sound here
    ⟨rfl, rfl, { sound.held with }, ?_, trivial, .inr (.inl rfl), fun id there _ _ => ?_⟩
  · refine { AgreeOff.refl _ sys with unrestored := ?_ }
    exact fun _ _ there => List.mem_append_right _ there
  · cases fenced : (sys.fences.get id).isSome with
    | true => exact .inl fenced
    | false =>
      refine .inr (.inl (List.mem_append_left _ (List.mem_filter.mpr ⟨there, ?_⟩)))
      simpa using fenced

theorem restore_sound (same : collector.stage.held = held) :
    Sound (sys.setStage k collector (System.restore held)) := by
  unfold System.restore
  split
  · next empty =>
      refine leave_sound sound here fun e there => ?_
      rw [same, empty] at there
      cases there
  · refine setStage_sound sound here ⟨fun _ there => there, fun e there => ?_⟩ same.symm
    exact .inl (List.mem_map_of_mem there)

/-- A collector takes its next candidate. -/
theorem next_sound (stage : collector.stage = .next)
    (apart : collector.reserved.head?.all (·.2) = true ∨ (∀ c ∈ sys.collectors, c.stage.held = []) ∧
      ∀ call ∈ sys.calls, call.underWay = true → sys.fences.get call.workAttemptId = none) :
    Sound (sys.collect k collector ok) := by
  have nothing : collector.quiesced = [] := by
    rw [Collector.quiesced, stage]
    rfl
  have idle : ∀ (c : Collector) (after : Stage), after.held = [] → StageSound sys after →
      Sound (sys.setStage k c after) := by
    intro c after empty own
    refine CollectStep.sound sound here ⟨rfl, rfl, { sound.held with }, { AgreeOff.refl _ sys with },
      own.of_agree fun _ _ => rfl, .inr (.inl empty), fun id there => ?_⟩
    rw [nothing] at there
    cases there
  unfold System.collect
  rw [stage]
  dsimp only
  split
  · exact idle _ _ rfl trivial
  · next candidate ephemeral rest reserved =>
      cases ephemeral with
      | true =>
        split
        · exact idle _ _ rfl trivial
        · exact idle _ _ rfl trivial
      | false =>
        simp only [Bool.false_eq_true, if_false]
        split
        · exact idle _ _ rfl trivial
        · split
          · exact idle _ _ rfl trivial
          · rcases apart with ephemeral | ⟨alone, free⟩
            · rw [reserved] at ephemeral
              cases ephemeral
            · refine CollectStep.sound sound here ⟨rfl, rfl, { sound.held with },
                { AgreeOff.refl _ sys with }, ⟨sys.fences.keyed, fun e there => ?_⟩,
                .inr (.inr ⟨alone, fun call member busy quiesced => ?_⟩), fun id there => ?_⟩
              · exact OrderedMap.get_eq_some.mpr there
              · obtain ⟨e, there, same⟩ := List.mem_map.mp quiesced
                have none_ := free call member busy
                rw [← same, OrderedMap.get_eq_some.mpr there] at none_
                cases none_
              · rw [nothing] at there
                cases there

theorem collect_sound (apart : collector.stage = .next → collector.reserved.head?.all (·.2) = true ∨
    (∀ c ∈ sys.collectors, c.stage.held = []) ∧ ∀ call ∈ sys.calls, call.underWay = true →
    sys.fences.get call.workAttemptId = none) :
    Sound (sys.collect k collector ok) := by
  have own := sound.stages collector (List.mem_of_getElem? here)
  cases stage : collector.stage with
  | next => exact next_sound sound here stage (apart stage)
  | ended =>
    unfold System.collect
    rw [stage]
    exact sound
  | quiescing candidate held =>
    rw [stage] at own
    unfold System.collect
    rw [stage]
    dsimp only
    split
    · refine setStage_sound sound here ⟨own.1, fun e there => ⟨there, own.2 e there⟩⟩ ?_
      rw [stage]
      rfl
    · refine leave_sound sound here fun e there => ?_
      rw [stage] at there
      exact Option.isSome_of_eq_some (own.2 e there)
  | releasing candidate held todo =>
    rw [stage] at own
    obtain ⟨nodup, listed⟩ := own
    unfold System.collect
    rw [stage]
    cases todo with
    | nil =>
      refine setStage_sound sound here trivial ?_
      rw [stage]
      rfl
    | cons entry todo =>
      obtain ⟨id, handle⟩ := entry
      obtain ⟨fresh, rest⟩ := List.nodup_cons.mp nodup
      obtain ⟨member, has⟩ := listed (id, handle) List.mem_cons_self
      have quiesced : id ∈ collector.quiesced := by
        rw [Collector.quiesced, stage]
        exact List.mem_map_of_mem member
      dsimp only
      split
      · refine CollectStep.sound sound here ⟨rfl, rfl, { sound.held.release has with }, ?_,
          ⟨rest, fun e there => ?_⟩, .inl (by rw [stage]; rfl), fun other there _ _ => ?_⟩
        · refine { AgreeOff.refl _ sys with fences := fun other apart => ?_ }
          exact OrderedMap.get_delete_of_ne _ fun same => apart (same ▸ quiesced)
        · obtain ⟨kept, before⟩ := listed e (.tail _ there)
          have later : e.1 ∈ todo.map Prod.fst := List.mem_map_of_mem there
          have differs : e.1 ≠ id := fun same => fresh (same ▸ later)
          exact ⟨kept, (OrderedMap.get_delete_of_ne _ differs).trans before⟩
        · refine .inr (.inr ?_)
          rw [Collector.quiesced, stage] at there
          exact there
      · exact giveUp_sound sound here
  | acquiring candidate held =>
    unfold System.collect
    rw [stage]
    dsimp only
    split
    · next admits =>
        have nothing : ∀ id h, sys.fences.get id ≠ some h := by
          intro id h has
          have there := (sound.held.acquired id h has).1
          rw [admits.2] at there
          cases there
        refine CollectStep.sound sound here ⟨rfl, rfl, ⟨?_, ?_, ?_⟩, { AgreeOff.refl _ sys with }, rfl,
          .inl (by rw [stage]; rfl), fun id there _ _ => ?_⟩
        · intro h there mode
          rw [List.mem_singleton.mp there] at mode
          cases mode
        · exact fun id h has => absurd has (nothing id h)
        · intro h there _ other also
          rw [List.mem_singleton.mp also]
          exact Mode.noConfusion
        · refine .inr (.inr ?_)
          rw [Collector.quiesced, stage] at there
          exact there
    · exact restore_sound sound here (by rw [stage]; rfl)
  | deleting fence held =>
    rw [stage] at own
    have absent : ∀ id, sys.fences.get id ≠ some fence := by
      intro id has
      have mode := (sound.held.acquired id fence has).2.2
      rw [show fence.mode = .exclusive from own] at mode
      cases mode
    unfold System.collect
    rw [stage]
    dsimp only
    split
    · have dropped : Sound (sys.drop fence) := { sound with held := sound.held.drop absent }
      exact restore_sound dropped here (by rw [stage]; rfl)
    · exact restore_sound sound here (by rw [stage]; rfl)
  | restoring todo held =>
    rw [stage] at own
    obtain ⟨members, restored⟩ := own
    unfold System.collect
    rw [stage]
    cases todo with
    | nil =>
      refine setStage_sound sound here (fun e there => ?_) (by rw [stage]; rfl)
      exact (restored e there).resolve_left List.not_mem_nil
    | cons id todo =>
      dsimp only
      split
      · refine setStage_sound sound here ?_ ?_
        · split
          · next fenced =>
              refine ⟨fun other there => members (.tail _ there), fun e there => ?_⟩
              rcases restored e there with listed | has
              · rcases List.mem_cons.mp listed with same | later
                · exact .inr (same ▸ fenced)
                · exact .inl later
              · exact .inr has
          · next free => exact ⟨members, by simpa using free, restored⟩
        · rw [stage]
          split <;> rfl
      · exact giveUp_sound sound here
  | reacquiring id todo held =>
    rw [stage] at own
    obtain ⟨members, free, restored⟩ := own
    have quiesced : id ∈ collector.quiesced := by
      rw [Collector.quiesced, stage]
      exact members List.mem_cons_self
    unfold System.collect
    rw [stage]
    dsimp only
    split
    · next admits =>
        refine CollectStep.sound sound here ⟨rfl, rfl, { sound.held.acquire free admits.2 with }, ?_,
          ⟨fun other there => members (.tail _ there), fun e there => ?_⟩,
          .inl (by rw [stage]; rfl), fun other there _ _ => ?_⟩
        · have agree := agreeOff_acquire sys id
          have other_ : ∀ other, other ∉ collector.quiesced → ¬other = id :=
            fun _ apart same => apart (same ▸ quiesced)
          exact ⟨fun other apart => agree.fences other (other_ other apart),
            fun other apart => agree.live other (other_ other apart),
            fun other apart => agree.mine other (other_ other apart),
            fun other apart => agree.unrestored other (other_ other apart)⟩
        · by_cases same : e.1 = id
          · refine .inr ?_
            rw [same]
            exact Option.isSome_of_eq_some (OrderedMap.get_set_self _ _ _)
          · rcases restored e there with listed | has
            · exact .inl ((List.mem_cons.mp listed).resolve_left same)
            · refine .inr ?_
              rw [show ((sys.acquire id).setStage k collector (.restoring todo held)).fences.get e.1 =
                sys.fences.get e.1 from OrderedMap.get_set_of_ne _ _ same]
              exact has
        · refine .inr (.inr ?_)
          rw [Collector.quiesced, stage] at there
          exact there
    · exact giveUp_sound sound here
  | resuming held =>
    rw [stage] at own
    unfold System.collect
    rw [stage]
    refine leave_sound sound here fun e there => ?_
    rw [stage] at there
    exact own e there

/-! ## A whole run -/

end

theorem begin_sound (sound : Sound sys) (id : String) (operation : Operation) :
    Sound (sys.begin id operation) := by
  refine { sound with
    held := { sound.held with }
    order := fun j k a b less ja kb same moved => ?_
    phases := fun call member => ?_
    apart := fun call member busy => ?_ }
  · change (sys.calls ++ [_])[k]? = some b at kb
    rcases Machine.append_cases kb with ⟨-, rfl⟩ | later
    · exact absurd rfl moved
    · rcases Machine.append_cases ja with ⟨rfl, -⟩ | earlier
      · exact absurd (Nat.lt_trans less (List.getElem?_eq_some_iff.mp later).1) (Nat.lt_irrefl _)
      · exact sound.order j k a b less earlier later same moved
  · rcases List.mem_append.mp member with old | new
    · exact (sound.phases call old).of_agree rfl .rfl
    · rw [List.mem_singleton.mp new]
      trivial
  · rcases List.mem_append.mp member with old | new
    · exact sound.apart call old busy
    · rw [List.mem_singleton.mp new] at busy
      cases busy

theorem garbageCollect_sound (sound : Sound sys) (reserved : List (String × Bool)) :
    Sound (sys.step (.garbageCollect reserved)) := by
  refine { sound with
    held := { sound.held with }
    stages := fun c member => ?_
    apart := fun call there busy c member => ?_
    alone := fun j k a b ja kb first second => ?_
    covered := fun id isLive isMine => ?_ }
  · rcases List.mem_append.mp member with old | new
    · exact (sound.stages c old).of_agree fun _ _ => rfl
    · rw [List.mem_singleton.mp new]
      trivial
  · rcases List.mem_append.mp member with old | new
    · exact sound.apart call there busy c old
    · rw [List.mem_singleton.mp new]
      nofun
  · have inside : ∀ (j : Nat) (c : Collector),
        (sys.collectors ++ [⟨reserved.filter (·.1 ∈ sys.concluded), .next⟩])[j]? = some c →
          c.stage.held ≠ [] → sys.collectors[j]? = some c := by
      intro j c jc some_
      rcases Machine.append_cases jc with ⟨-, rfl⟩ | old
      · exact absurd rfl some_
      · exact old
    exact sound.alone j k a b (inside j a ja first) (inside k b kb second) first second
  · rcases sound.covered id isLive isMine with fenced | unrestored | ⟨c, member, quiesced⟩
    · exact .inl fenced
    · exact .inr (.inl unrestored)
    · exact .inr (.inr ⟨c, List.mem_append_left _ member, quiesced⟩)

theorem recordTerminal_sound (sound : Sound sys) (id : String) :
    Sound (sys.step (.recordTerminal id)) := by
  have fewer : ∀ other, other ∈ sys.live.filter (· ≠ id) → other ∈ sys.live :=
    fun _ there => (List.mem_filter.mp there).1
  refine { sound with
    held := { sound.held with }
    phases := fun call member => ?_
    covered := fun other isLive isMine => ?_ }
  · have before := sound.phases call member
    unfold PhaseSound at before ⊢
    cases phase : call.phase <;> rw [phase] at before <;> dsimp only at before ⊢
    case acquiring =>
      exact ⟨before.1, fun conclude isLive => before.2 conclude (fewer _ isLive)⟩
    case fenced => exact ⟨before.1, fun conclude isLive => before.2 conclude (fewer _ isLive)⟩
    case letting => exact fun isLive => before (fewer _ isLive)
    case releasing => exact ⟨fun isLive => before.1 (fewer _ isLive), before.2⟩
  · exact sound.covered other (fewer _ isLive) (List.mem_filter.mp isMine).1

theorem initial_sound (live concluded : List String) : Sound (.initial live concluded) where
  held := by
    refine ⟨?_, ?_, ?_⟩
    · rintro _ ⟨⟩
    · rintro _ _ ⟨⟩
    · rintro _ ⟨⟩
  order := by rintro _ _ _ _ _ ⟨⟩
  phases := by rintro _ ⟨⟩
  stages := by rintro _ ⟨⟩
  apart := by rintro _ ⟨⟩
  alone := by rintro _ _ _ _ ⟨⟩
  covered := by rintro _ _ ⟨⟩

theorem step_sound (sound : Sound sys) (apart : input.apart sys = true) :
    Sound (sys.step input) := by
  cases input with
  | startGeneration id | recoverExecutionFence id | releaseTerminalExecutionFence id
  | concludeAttempt id => exact begin_sound sound id _
  | garbageCollect reserved => exact garbageCollect_sound sound reserved
  | recordTerminal id => exact recordTerminal_sound sound id
  | call k ok =>
    unfold System.step
    dsimp only
    split
    · next call here =>
        rw [Input.apart, here, Option.all_some, Bool.and_eq_true] at apart
        obtain ⟨free, idle⟩ := apart
        refine move_sound sound here (fun waiting => ?_) fun fenced start => ?_
        · rw [waiting] at free
          simpa using free
        · rw [fenced, start] at idle
          simpa using idle
    · exact sound
  | collector k ok =>
    unfold System.step
    dsimp only
    split
    · next collector here =>
        rw [Input.apart, here, Option.all_some] at apart
        refine collect_sound sound here fun next => ?_
        rw [next] at apart
        simp only [ne_eq, not_true_eq_false, decide_false, Bool.false_or, Bool.or_eq_true,
          Bool.and_eq_true, List.all_eq_true, decide_eq_true_eq, Bool.not_eq_true'] at apart
        refine apart.imp_right fun free => ⟨free.1, fun call member busy => ?_⟩
        refine (free.2 call member).resolve_left ?_
        rw [busy]
        exact Bool.noConfusion
    · exact sound

/-- In a run whose steps keep apart no fence is lost or doubled. -/
theorem fences_kept (live concluded : List String) (inputs : Nat → Input)
    (apart : ∀ n, (inputs n).apart
      (Machine.states System.step (.initial live concluded) inputs n) = true) :
    FencesKept System.unrestored (Machine.states System.step (.initial live concluded) inputs) ∧
      ResumesRestored (Machine.states System.step (.initial live concluded) inputs) := by
  have sound := Machine.invariant (P := Sound) (initial_sound live concluded) fun n here =>
    step_sound here (apart n)
  refine ⟨⟨fun n => (sound n).held.stored, fun n ended id isLive isMine restored => ?_,
    fun n => (sound n).held.exclusive⟩, fun n c member held stage => ?_⟩
  · rcases (sound n).covered id isLive isMine with fenced | unrestored | ⟨c, member, quiesced⟩
    · obtain ⟨h, has⟩ := Option.isSome_iff_exists.mp fenced
      exact ⟨h, ((sound n).held.acquired id h has).1, has⟩
    · exact absurd unrestored restored
    · rw [Collector.quiesced, ended c member] at quiesced
      cases quiesced
  · have own := (sound n).stages c member
    rw [stage] at own
    exact own

/-- A generation of `a` is started, and `b` is collected; `restored` says whether the fence of `a` can be
acquired again. -/
def collection (restored : Bool) : Nat → Input := Machine.finitely
  ([.startGeneration "a", .call 0 true, .call 0 true, .call 0 true, .call 0 true,
    .garbageCollect [("b", false)], .collector 0 true, .collector 0 true, .collector 0 true,
    .collector 0 true, .collector 0 true, .collector 0 true, .collector 0 true, .collector 0 restored] ++
    List.replicate 3 (.collector 0 true)) (.recordTerminal "c")

theorem collection_restored :
    (FencesKept System.unrestored
        (Machine.states System.step (.initial [] ["b"]) (collection true)) ∧
      ResumesRestored (Machine.states System.step (.initial [] ["b"]) (collection true))) ∧
      ((Machine.states System.step (.initial [] ["b"]) (collection true) 17).fences.get "a").isSome =
        true := by
  refine ⟨fences_kept [] ["b"] (collection true) ?_, by decide +kernel⟩
  have listed : ∀ n < 17, (collection true n).apart
      (Machine.states System.step (.initial [] ["b"]) (collection true) n) = true := by
    decide +kernel
  intro n
  by_cases inside : n < 17
  · exact listed n inside
  · have idles : collection true n = .recordTerminal "c" :=
      List.getD_eq_default _ _ (Nat.le_of_not_lt inside)
    rw [idles]
    rfl

/-- A fence that a collection could not restore is not held, and its generation lives on. -/
theorem unrestored_unfenced :
    ¬∀ (live concluded : List String) (inputs : Nat → Input),
      FencesKept (fun _ => []) (Machine.states System.step (.initial live concluded) inputs) := by
  intro claim
  have held := (claim [] ["b"] (collection false)).held 17
  revert held
  decide +kernel

end LetAgents.Durability.Fences

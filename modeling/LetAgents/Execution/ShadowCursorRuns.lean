import LetAgents.Execution.ShadowCursor

/-!
# The source cursor over a run

No step moves a cursor backwards or forgets a gap, and what carries the epoch of another binding
writes nothing.
-/
namespace LetAgents.Execution.ShadowStore

open Lib Lib.Checked Protocol FactRows

variable {ingested : Ingested} {s : Store} {t : Transaction} {db : Database} {bindings : List Binding}

/-! ## The invariant over a run -/

variable {done : Done} {store : Nat} {call : Call} {sourceId agentId : ExecutionIdentity}
  {current row : ObserverRow}

theorem steers_sound (sound : CursorSound t.db bindings ingested) (steers : Steers t done) :
    CursorSound done.transaction.db (bindings ++ (done.bound.map Prod.snd).toList)
      (ingested ++ done.ingested.toList) := by
  cases steers with
  | rests observers sources bound ingests =>
    rw [bound, ingests, Option.map_none, Option.toList_none, Option.toList_none, List.append_nil,
      List.append_nil]
    exact sound.rests observers sources
  | binds input token binds bound ingests =>
    rw [bound, ingests, Option.toList_none, List.append_nil]
    exact binds_sound sound binds
  | observes agentId current position here above observers sources bound ingests =>
    rw [bound, ingests, Option.map_none, Option.toList_none, Option.toList_none, List.append_nil,
      List.append_nil]
    have turns : Turns t.db done.transaction.db agentId (observePosition position current) :=
      turns_of_update sound.observers (fun _ => rfl) here observers
    refine observes_sound sound here turns rfl rfl sources ingested sound.bound (fun _ _ _ => rfl)
      (sound.cursor agentId current here) ?_
    exact Nat.le_trans (sound.positions agentId current here) (Nat.le_max_left _ _)
  | takes fact current here epoch next observers sources bound ingests =>
    obtain ⟨sequence, ingests⟩ := ingests
    rw [bound, ingests, Option.map_none, Option.toList_none, List.append_nil]
    obtain ⟨others, own⟩ := takes_sequences sound here epoch sequence
    have turns : Turns t.db done.transaction.db fact.envelope.agentId
        (admitPosition fact.envelope.sourceSequence.val current) :=
      turns_of_update sound.observers (fun _ => rfl) here observers
    refine observes_sound sound here turns rfl rfl sources _ ?_ others (fun sourceId has => ?_)
      (Nat.le_max_right _ _)
    · intro e member
      rcases List.mem_append.mp member with old | new
      · exact sound.bound e old
      · obtain ⟨now, -, known⟩ := sound.latest _ current here
        rw [List.mem_singleton.mp new, ← epoch]
        exact ⟨now, known⟩
    · change sequencesOf bindings (ingested ++ [(sequence, fact)]) _ _ = _
      rw [own sourceId has, sound.cursor _ current here sourceId has]
      change _ = List.range' 1 fact.envelope.sourceSequence.val
      rw [next, List.range'_concat]
      simp [Nat.add_comm]

variable {connection : Nat → Nat} {sys : System}

structure ObserverSound (connection : Nat → Nat) (sys : System) : Prop where
  system : SystemSound connection sys
  cursor : CursorSound sys.db sys.bindings sys.ingested

/-- What a call that commits has done. -/
theorem body_ok (sound : SystemSound connection sys)
    (body : sys.body connection store call = .ok done) :
    Steers ⟨sys.db, (sys.connections (connection store)).changes⟩ done :=
  body_steers sound.store (sound.caches store).force (sound.tokens store) body

/-- A step commits a body, or it leaves the journal, the observers and the history as they were. -/
theorem step_cases (connection : Nat → Nat) (sys : System) (input : Input) :
    (∃ store call done, sys.body connection store call = .ok done ∧
        sys.step connection input = sys.commit connection store done) ∨
      ((sys.step connection input).db.observers = sys.db.observers ∧
        (sys.step connection input).db.observerSources = sys.db.observerSources ∧
        (sys.step connection input).bindings = sys.bindings ∧
        (sys.step connection input).ingested = sys.ingested) := by
  cases input with
  | call store call commits undone =>
    unfold System.step
    dsimp only
    split
    · split
      · rename_i done body
        split
        · exact .inl ⟨store, call, done, body, rfl⟩
        · exact .inr ⟨rfl, rfl, rfl, rfl⟩
      · exact .inr ⟨rfl, rfl, rfl, rfl⟩
    · exact .inr ⟨rfl, rfl, rfl, rfl⟩
  | projectRuntime store runtimeId =>
    unfold System.step
    dsimp only
    split <;> exact .inr ⟨rfl, rfl, rfl, rfl⟩
  | clear store | recover recoveries => exact .inr ⟨rfl, rfl, rfl, rfl⟩

theorem step_cursor (sound : ObserverSound connection sys) (input : Input) :
    ObserverSound connection (sys.step connection input) := by
  refine ⟨step_sound sound.system input, ?_⟩
  rcases step_cases connection sys input with ⟨store, call, done, body, stepped⟩ |
    ⟨observers, sources, bindings, ingested⟩
  · rw [stepped]
    exact steers_sound sound.cursor (body_ok sound.system body)
  · rw [bindings, ingested]
    exact sound.cursor.rests observers sources

theorem initial_cursor : ObserverSound connection .initial := by
  refine ⟨initial_sound, List.nodup_nil, fun _ => rfl, ?_, fun _ _ => ?_, ?_, ?_, fun _ _ => ⟨0, rfl⟩, ?_⟩
  · rintro _ _ ⟨⟩
  · exact ⟨by rintro ⟨⟩, fun ⟨_, member⟩ => absurd member List.not_mem_nil⟩
  · exact fun _ member => absurd member List.not_mem_nil
  · rintro _ _ ⟨⟩
  · rintro _ _ ⟨⟩

/-! ## Calls of another time -/

/-- A call that carries another epoch than the one that is bound, or another source. -/
def Call.outdated (db : Database) : Call → Prop
  | .bindObserver input => input.expectedEpoch.val ≠ epochOf db input.agentId
  | .observeSourcePosition _ sourceId token _ =>
    ∀ row, db.observer token.agentId = some row → row.observerEpoch = token.epoch →
      row.sourceId ≠ some sourceId
  | .ingest sourceId token value =>
    (∀ row, db.observer token.agentId = some row → row.observerEpoch = token.epoch →
        row.sourceId ≠ some sourceId) ∨
      ∃ fact, parseExecutionFact value = .ok fact ∧
        fact.envelope.observerEpoch.val ≠ epochOf db token.agentId
  | _ => False

theorem Current.names (holds : Current db tokens sourceId token current) :
    ¬∀ row, db.observer token.agentId = some row → row.observerEpoch = token.epoch →
      row.sourceId ≠ some sourceId := fun outdated =>
  outdated current holds.row holds.epoch (holds.source ▸ holds.bound)

theorem outdated_fails (sound : SystemSound connection sys) (outdated : call.outdated sys.db) :
    sys.body connection store call ≠ .ok done := by
  intro ok
  have valid := synchronizeCaches_valid (sound.caches store).force
  cases call with
  | registerRuntime input | trackMessage input fresh | trackNativeTurn input => exact outdated
  | bindObserver input =>
    obtain ⟨out, body, ok⟩ := bind_ok ok
    exact outdated (bindObserver_binds body).epoch.symm
  | observeSourcePosition seen sourceId token latestSequence =>
    obtain ⟨out, body, ok⟩ := bind_ok ok
    obtain ⟨current, holds, -, -⟩ := recordPosition_ok body
    exact holds.names outdated
  | ingest sourceId token value =>
    obtain ⟨fact, parsed, ok⟩ := bind_ok ok
    obtain ⟨out, body, ok⟩ := bind_ok ok
    obtain ⟨-, -, epoch, agent, current, holds, -⟩ := ingest_ok sound.store valid
      (by rw [synchronizeCaches_observers]; exact sound.tokens store) body
    rcases outdated with outdated | ⟨fact', parsed', other⟩
    · exact holds.names outdated
    · rw [parsed] at parsed'
      obtain rfl := Except.ok.inj parsed'
      refine other ?_
      rw [epoch, epochOf, holds.row]
      exact holds.epoch.symm

/-- What a call that is outdated writes: nothing. -/
theorem outdated_step (sound : SystemSound connection sys) (outdated : call.outdated sys.db)
    (store : Nat) (commits : Bool) (undone : Nat) :
    (sys.step connection (.call store call commits undone)).db = sys.db := by
  unfold System.step
  dsimp only
  split
  · split
    · rename_i done body
      exact absurd body (outdated_fails sound outdated)
    · rfl
  · rfl

/-! ## Gaps and sources over a run -/

/-- How an agent's cursor may move in one step. -/
inductive CursorMoves (db : Database) (agentId : ExecutionIdentity) (row next : ObserverRow) : Prop
  | stays (source : next.sourceId = row.sourceId) (epoch : next.observerEpoch = row.observerEpoch)
      (last : row.lastSourceSequence ≤ next.lastSourceSequence)
      (most : row.maxObservedSequence ≤ next.maxObservedSequence)
  | rebound (source : next.sourceId = row.sourceId)
      (epoch : next.observerEpoch = row.observerEpoch + 1)
      (last : next.lastSourceSequence = row.lastSourceSequence)
      (most : next.maxObservedSequence = row.maxObservedSequence)
  | moved (source : next.sourceId ≠ row.sourceId) (epoch : next.observerEpoch = row.observerEpoch + 1)
      (noGap : row.maxObservedSequence ≤ row.lastSourceSequence ∨
        hasRuntimeRecoveryBoundary db agentId row.observerRuntimeGenerationId
          next.observerRuntimeGenerationId row.sourceId = true)

theorem CursorMoves.refl (db : Database) (agentId : ExecutionIdentity) (row : ObserverRow) :
    CursorMoves db agentId row row := .stays rfl rfl le_rfl le_rfl

/-- Another source needs a cursor without a gap, or the boundary of a recovery. -/
theorem checkBinding_moves (checked : checkBinding db input = .ok ())
    (here : db.observer input.agentId = some current)
    (other : current.sourceId ≠ some input.sourceId) :
    current.maxObservedSequence ≤ current.lastSourceSequence ∨
      hasRuntimeRecoveryBoundary db input.agentId current.observerRuntimeGenerationId
        input.observerRuntimeGenerationId current.sourceId = true := by
  unfold checkBinding at checked
  rw [here] at checked
  obtain ⟨-, checked⟩ := require_bind_ok checked
  obtain ⟨-, checked⟩ := require_bind_ok checked
  rw [if_neg other] at checked
  obtain ⟨-, checked⟩ := require_bind_ok checked
  exact (require_ok checked).symm

theorem moves_of_turns (turns : Turns db db' agentId next)
    (here : db.observer agentId = some current) (there : db.observer other = some row)
    (moves : CursorMoves db agentId current next) :
    ∃ row', db'.observer other = some row' ∧ CursorMoves db other row row' := by
  by_cases own : other = agentId
  · rw [own, here] at there
    obtain rfl := Option.some.inj there
    exact ⟨next, by rw [own]; exact turns.here, by rw [own]; exact moves⟩
  · exact ⟨row, by rw [turns.other other own]; exact there, .refl db other row⟩

theorem steers_moves (sound : CursorSound t.db bindings ingested) (steers : Steers t done)
    (there : t.db.observer agentId = some row) :
    ∃ row', done.transaction.db.observer agentId = some row' ∧ CursorMoves t.db agentId row row' := by
  cases steers with
  | rests observers sources bound ingests =>
    exact ⟨row, by rw [Database.observer, observers]; exact there, .refl _ _ _⟩
  | binds input token binds bound ingests =>
    obtain ⟨next, written, agent, epoch, source, last, most, runtime⟩ := binds.writes
    have turns := upsertObserver_turns sound.observers next
      (written ▸ (admitSource_writes t next input.sourceId).1)
    rw [agent] at turns
    cases before : t.db.observer input.agentId with
    | none =>
      refine ⟨row, ?_, .refl _ _ _⟩
      rw [turns.other agentId ?_]
      · exact there
      · rintro rfl
        rw [before] at there
        cases there
    | some current =>
      refine moves_of_turns turns before there ?_
      have grown : next.observerEpoch = current.observerEpoch + 1 := by
        have expected := binds.epoch
        rw [before, Option.elim_some] at expected
        rw [epoch, binds.next, expected]
      rcases same_source_cases t.db input with ⟨same, here, bound, cursor⟩ | ⟨other, cursor⟩
      · obtain rfl : current = same := Option.some.inj (before.symm.trans here)
        rw [cursor] at last most
        exact .rebound (source.trans bound.symm) grown last most
      · refine .moved ?_ grown ?_
        · rw [source]
          exact (other current before).symm
        · rw [runtime]
          exact checkBinding_moves binds.checked before (other current before)
  | observes owner current position here above observers sources bound ingests =>
    have turns : Turns t.db done.transaction.db owner (observePosition position current) :=
      turns_of_update sound.observers (fun _ => rfl) here observers
    exact moves_of_turns turns here there (.stays rfl rfl le_rfl (Nat.le_max_left _ _))
  | takes fact current here epoch next observers sources bound ingests =>
    have turns : Turns t.db done.transaction.db fact.envelope.agentId
        (admitPosition fact.envelope.sourceSequence.val current) :=
      turns_of_update sound.observers (fun _ => rfl) here observers
    refine moves_of_turns turns here there (.stays rfl rfl ?_ (Nat.le_max_left _ _))
    rw [next]
    exact Nat.le_succ _

theorem step_moves (sound : ObserverSound connection sys) (input : Input)
    (there : sys.db.observer agentId = some row) :
    ∃ row', (sys.step connection input).db.observer agentId = some row' ∧
      CursorMoves sys.db agentId row row' := by
  rcases step_cases connection sys input with ⟨store, call, done, body, stepped⟩ | ⟨observers, -⟩
  · rw [stepped]
    exact steers_moves sound.cursor (body_ok sound.system body) there
  · exact ⟨row, by rw [Database.observer, observers]; exact there, .refl _ _ _⟩

/-- A source that the agent's observer was bound to, and is not. -/
def LeftSource (agentId sourceId : ExecutionIdentity) (sys : System) : Prop :=
  (∃ epoch, ⟨agentId, epoch, sourceId⟩ ∈ sys.bindings) ∧
    ∀ row, sys.db.observer agentId = some row → row.sourceId ≠ some sourceId

theorem away_of_turns (turns : Turns db db' agentId next)
    (here : db.observer agentId = some current) (same : next.sourceId = current.sourceId)
    (away : ∀ row, db.observer other = some row → row.sourceId ≠ some sourceId)
    (there : db'.observer other = some row) : row.sourceId ≠ some sourceId := by
  by_cases own : other = agentId
  · rw [own, turns.here] at there
    obtain rfl := Option.some.inj there
    rw [same]
    exact away current (own ▸ here)
  · rw [turns.other other own] at there
    exact away row there

/-- No body binds a source that was left. -/
theorem steers_left (sound : CursorSound t.db bindings ingested) (steers : Steers t done)
    (admitted : t.db.hasSource agentId sourceId = true)
    (away : ∀ row, t.db.observer agentId = some row → row.sourceId ≠ some sourceId)
    (there : done.transaction.db.observer agentId = some row) : row.sourceId ≠ some sourceId := by
  cases steers with
  | rests observers sources bound ingests =>
    rw [Database.observer, observers] at there
    exact away row there
  | binds input token binds bound ingests =>
    obtain ⟨next, written, agent, epoch, source, -⟩ := binds.writes
    have turns := upsertObserver_turns sound.observers next
      (written ▸ (admitSource_writes t next input.sourceId).1)
    rw [agent] at turns
    by_cases own : agentId = input.agentId
    · rw [own, turns.here] at there
      obtain rfl := Option.some.inj there
      rw [own] at admitted away
      rw [source]
      intro same
      obtain rfl := Option.some.inj same
      rw [checkBinding_new binds.checked away] at admitted
      cases admitted
    · rw [turns.other agentId own] at there
      exact away row there
  | observes owner current position here above observers sources bound ingests =>
    have turns : Turns t.db done.transaction.db owner (observePosition position current) :=
      turns_of_update sound.observers (fun _ => rfl) here observers
    exact away_of_turns turns here rfl away there
  | takes fact current here epoch next observers sources bound ingests =>
    have turns : Turns t.db done.transaction.db fact.envelope.agentId
        (admitPosition fact.envelope.sourceSequence.val current) :=
      turns_of_update sound.observers (fun _ => rfl) here observers
    exact away_of_turns turns here rfl away there

theorem step_left (sound : ObserverSound connection sys) (input : Input)
    (left : LeftSource agentId sourceId sys) :
    LeftSource agentId sourceId (sys.step connection input) := by
  obtain ⟨⟨epoch, known⟩, away⟩ := left
  have admitted := (sound.cursor.sources agentId sourceId).mpr ⟨epoch, known⟩
  rcases step_cases connection sys input with ⟨store, call, done, body, stepped⟩ |
    ⟨observers, -, bindings, -⟩
  · rw [stepped]
    refine ⟨⟨epoch, List.mem_append_left _ known⟩, fun row there => ?_⟩
    exact steers_left sound.cursor (body_ok sound.system body) admitted away there
  · refine ⟨⟨epoch, bindings ▸ known⟩, fun row there => away row ?_⟩
    rw [Database.observer, observers] at there
    exact there

/-- A fact that is not taken leaves a gap that reaches to it. -/
theorem ingest_notes (sound : ObserverSound connection sys)
    (body : sys.body connection store (.ingest sourceId token value) = .ok done)
    (skipped : done.result.bind ShadowIngestion.skipped = some position) :
    ∃ row, done.transaction.db.observer token.agentId = some row ∧
      row.lastSourceSequence < position ∧ position ≤ row.maxObservedSequence := by
  obtain ⟨fact, -, ok⟩ := bind_ok body
  obtain ⟨out, ingests, ok⟩ := bind_ok ok
  cases ok
  obtain ⟨-, -, epoch, agent, current, holds, ingests⟩ := ingest_ok sound.system.store
    (synchronizeCaches_valid (sound.system.caches store).force)
    (by rw [synchronizeCaches_observers]; exact sound.system.tokens store) ingests
  obtain ⟨s', t', result, committed⟩ := out
  change result.skipped = some position at skipped
  cases ingests with
  | duplicate answer =>
    rw [answer] at skipped
    cases skipped
  | skipped above answer =>
    obtain rfl : fact.envelope.sourceSequence.val = position :=
      Option.some.inj (answer.symm.trans skipped)
    have here : sys.db.observer fact.envelope.agentId = some current := by
      rw [agent]
      exact holds.row
    have turns : Turns sys.db
        (rememberPosition ⟨sys.db, (sys.connections (connection store)).changes⟩ fact).db
        fact.envelope.agentId (observePosition fact.envelope.sourceSequence.val current) :=
      turns_of_update sound.cursor.observers (fun _ => rfl) here rfl
    rw [← agent]
    exact ⟨_, turns.here, above, Nat.le_max_right _ _⟩
  | taken takes answer =>
    rw [answer] at skipped
    cases skipped

theorem states_cursor (inputs : Nat → Input) (n : Nat) :
    ObserverSound connection (Machine.states (System.step connection) .initial inputs n) :=
  Machine.invariant initial_cursor (fun _ sound => step_cursor sound _) n

/-! ## The cursor -/

/-- What holds of an agent's observer between two steps. -/
structure CursorHolds (connection : Nat → Nat) (sys : System) : Prop where
  epochs : ∀ agentId, (bindingsOf sys.bindings agentId).map Binding.epoch =
    List.range' 1 (epochOf sys.db agentId)
  positions : ∀ agentId row, sys.db.observer agentId = some row →
    row.lastSourceSequence ≤ row.maxObservedSequence
  cursor : ∀ agentId row, sys.db.observer agentId = some row → ∃ sourceId,
    row.sourceId = some sourceId ∧ sequencesOf sys.bindings sys.ingested agentId sourceId =
      List.range' 1 row.lastSourceSequence
  history : ∀ agentId sourceId, ∃ n,
    sequencesOf sys.bindings sys.ingested agentId sourceId = List.range' 1 n
  retention : ∀ agentId, (agentRows sys.db agentId).length ≤ MAX_RETAINED_FACTS_PER_AGENT ∧
    ((agentRows sys.db agentId).map factByteCost).sum ≤ MAX_RETAINED_BYTES_PER_AGENT
  outdated : ∀ store call commits undone, call.outdated sys.db →
    (sys.step connection (.call store call commits undone)).db = sys.db
  notes : ∀ store sourceId token value done,
    sys.body connection store (.ingest sourceId token value) = .ok done → ∀ position,
      done.result.bind ShadowIngestion.skipped = some position →
        ∃ row, done.transaction.db.observer token.agentId = some row ∧
          row.lastSourceSequence < position ∧ position ≤ row.maxObservedSequence

theorem retention_holds (sound : StoreSound db ingested) (agentId : ExecutionIdentity) :
    (agentRows db agentId).length ≤ MAX_RETAINED_FACTS_PER_AGENT ∧
      ((agentRows db agentId).map factByteCost).sum ≤ MAX_RETAINED_BYTES_PER_AGENT := by
  obtain ⟨facts, bytes⟩ := exceededBudget_eq_none.mp (sound.within agentId)
  have costs : ((agentFacts ingested agentId).map fun e => stored e.1 e.2).map factByteCost =
      (agentFacts ingested agentId).map cost := by
    rw [List.map_map]
    exact List.map_congr_left fun e _ => factByteCost_eq _
  rw [agentRows_eq sound.journal, List.length_map, costs]
  exact ⟨facts, bytes⟩

theorem ObserverSound.holds (sound : ObserverSound connection sys) : CursorHolds connection sys where
  epochs := sound.cursor.epochs
  positions := sound.cursor.positions
  cursor agentId row here := by
    obtain ⟨sourceId, bound, -⟩ := sound.cursor.latest agentId row here
    exact ⟨sourceId, bound, sound.cursor.cursor agentId row here sourceId bound⟩
  history := sound.cursor.history
  retention := retention_holds sound.system.store
  outdated store _ commits undone outdated := outdated_step sound.system outdated store commits undone
  notes _ _ _ _ _ body _ skipped := ingest_notes sound body skipped

/-- The cursor of every agent over a whole run. -/
structure ObserverCursor (connection : Nat → Nat) (run : Nat → System) : Prop where
  holds : ∀ n, CursorHolds connection (run n)
  moves : ∀ n agentId row, (run n).db.observer agentId = some row →
    ∃ next, (run (n + 1)).db.observer agentId = some next ∧ CursorMoves (run n).db agentId row next
  left : ∀ n m agentId sourceId, n ≤ m → LeftSource agentId sourceId (run n) →
    LeftSource agentId sourceId (run m)

end LetAgents.Execution.ShadowStore

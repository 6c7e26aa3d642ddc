import LetAgents.Execution.ShadowRuns

/-!
# The observer's source cursor

Each binding of an agent's observer has an epoch of its own and names a source. Which source a fact is
of is said by its epoch; the cursor counts the facts of the source that is bound now.
-/
namespace LetAgents.Execution.ShadowStore

open Lib Lib.Checked Protocol

variable {ingested : Ingested} {s : Store} {t : Transaction}

/-! ## What a body does to an observer -/

/-- The four things that a body can do to the observers. -/
inductive Steers (t : Transaction) (done : Done) : Prop
  | rests (observers : done.transaction.db.observers = t.db.observers)
      (sources : done.transaction.db.observerSources = t.db.observerSources)
      (bound : done.bound = none) (ingested : done.ingested = none)
  | binds (input : ObserverInput) (token : ShadowObserver)
      (binds : Binds t input done.transaction token)
      (bound : done.bound = some (token, ⟨input.agentId, token.epoch, input.sourceId⟩))
      (ingested : done.ingested = none)
  | observes (agentId : ExecutionIdentity) (current : ObserverRow) (position : Nat)
      (here : t.db.observer agentId = some current) (above : current.lastSourceSequence ≤ position)
      (observers : done.transaction.db.observers =
        Table.update ObserverRow.agentId agentId (observePosition position) t.db.observers)
      (sources : done.transaction.db.observerSources = t.db.observerSources)
      (bound : done.bound = none) (ingested : done.ingested = none)
  | takes (fact : ExecutionFact) (current : ObserverRow)
      (here : t.db.observer fact.envelope.agentId = some current)
      (epoch : current.observerEpoch = fact.envelope.observerEpoch.val)
      (next : fact.envelope.sourceSequence.val = current.lastSourceSequence + 1)
      (observers : done.transaction.db.observers =
        Table.update ObserverRow.agentId fact.envelope.agentId
          (admitPosition fact.envelope.sourceSequence.val) t.db.observers)
      (sources : done.transaction.db.observerSources = t.db.observerSources)
      (bound : done.bound = none)
      (ingested : ∃ sequence, done.ingested = some (sequence, fact))

theorem body_steers {call : Call} (sound : StoreSound t.db ingested)
    (force : InForce ⟨t.changes, version⟩ ingested s)
    (tokens : ∀ token ∈ s.observers, TokenSound t.db token)
    (ok : call.body s version t = .ok done) : Steers t done := by
  have valid := synchronizeCaches_valid force
  cases call with
  | registerRuntime input =>
    obtain ⟨out, body, ok⟩ := bind_ok ok
    cases ok
    have leaves := materializeRuntime_leaves body
    exact .rests leaves.observers leaves.sources rfl rfl
  | trackMessage input fresh =>
    obtain ⟨out, body, ok⟩ := bind_ok ok
    cases ok
    have leaves := trackMessage_leaves body
    exact .rests leaves.observers leaves.sources rfl rfl
  | trackNativeTurn input =>
    obtain ⟨out, body, ok⟩ := bind_ok ok
    cases ok
    have leaves := trackNativeTurn_leaves body
    exact .rests leaves.observers leaves.sources rfl rfl
  | bindObserver input =>
    obtain ⟨out, body, ok⟩ := bind_ok ok
    cases ok
    exact .binds input out.2 (bindObserver_binds body) rfl rfl
  | observeSourcePosition seen sourceId token latestSequence =>
    obtain ⟨out, body, ok⟩ := bind_ok ok
    cases ok
    obtain ⟨current, holds, above, rfl | rfl⟩ := recordPosition_ok body
    · exact .rests rfl rfl rfl rfl
    · exact .observes token.agentId current latestSequence holds.row above rfl rfl rfl rfl
  | ingest sourceId token value =>
    obtain ⟨fact, -, ok⟩ := bind_ok ok
    obtain ⟨out, body, ok⟩ := bind_ok ok
    cases ok
    obtain ⟨-, -, epoch, agent, current, holds, ingests⟩ :=
      ingest_ok sound valid (by rw [synchronizeCaches_observers]; exact tokens) body
    have here : t.db.observer fact.envelope.agentId = some current := by
      rw [agent]
      exact holds.row
    obtain ⟨s', t', result, committed⟩ := out
    cases ingests with
    | duplicate answer => exact .rests rfl rfl rfl rfl
    | skipped above answer =>
      exact .observes fact.envelope.agentId current fact.envelope.sourceSequence.val here
        (Nat.le_of_succ_le above) rfl rfl rfl rfl
    | taken takes answer =>
      obtain ⟨next, ⟨turn, replay, next', replayed, -, rfl, -⟩, -⟩ := takes
      have stores := (recordFact_maps t turn replay next' fact).1
      exact .takes fact current here (holds.epoch.trans epoch.symm) next stores.observers
        stores.sources rfl ⟨_, rfl⟩

/-! ## The history of an agent's bindings -/

def bindingsOf (bindings : List Binding) (agentId : ExecutionIdentity) : List Binding :=
  bindings.filter fun binding => binding.agentId = agentId

def epochOf (db : Database) (agentId : ExecutionIdentity) : Nat :=
  (db.observer agentId).elim 0 ObserverRow.observerEpoch

/-- Whether a fact was observed at the source, by the binding of its epoch. -/
def observedAt (bindings : List Binding) (agentId sourceId : ExecutionIdentity)
    (e : Nat × ExecutionFact) : Bool :=
  decide (e.2.envelope.agentId = agentId) &&
    bindings.contains ⟨agentId, e.2.envelope.observerEpoch.val, sourceId⟩

/-- The source sequences of the facts of a source, in the order of the journal. -/
def sequencesOf (bindings : List Binding) (ingested : Ingested) (agentId sourceId : ExecutionIdentity) :
    List Nat :=
  (ingested.filter (observedAt bindings agentId sourceId)).map fun e =>
    e.2.envelope.sourceSequence.val

structure CursorSound (db : Database) (bindings : List Binding) (ingested : Ingested) : Prop where
  observers : Table.Keyed ObserverRow.agentId db.observers
  epochs : ∀ agentId, (bindingsOf bindings agentId).map Binding.epoch =
    List.range' 1 (epochOf db agentId)
  latest : ∀ agentId row, db.observer agentId = some row → ∃ sourceId,
    row.sourceId = some sourceId ∧ ⟨agentId, row.observerEpoch, sourceId⟩ ∈ bindings
  sources : ∀ agentId sourceId, db.hasSource agentId sourceId = true ↔
    ∃ epoch, ⟨agentId, epoch, sourceId⟩ ∈ bindings
  bound : ∀ e ∈ ingested, ∃ sourceId,
    ⟨e.2.envelope.agentId, e.2.envelope.observerEpoch.val, sourceId⟩ ∈ bindings
  cursor : ∀ agentId row, db.observer agentId = some row → ∀ sourceId, row.sourceId = some sourceId →
    sequencesOf bindings ingested agentId sourceId = List.range' 1 row.lastSourceSequence
  history : ∀ agentId sourceId, ∃ n,
    sequencesOf bindings ingested agentId sourceId = List.range' 1 n
  positions : ∀ agentId row, db.observer agentId = some row →
    row.lastSourceSequence ≤ row.maxObservedSequence

variable {db : Database} {bindings : List Binding}

theorem epoch_le (sound : CursorSound db bindings ingested) (member : binding ∈ bindings) :
    1 ≤ binding.epoch ∧ binding.epoch ≤ epochOf db binding.agentId := by
  have here : binding.epoch ∈ (bindingsOf bindings binding.agentId).map Binding.epoch :=
    List.mem_map_of_mem (List.mem_filter.mpr ⟨member, decide_eq_true rfl⟩)
  rw [sound.epochs, List.mem_range'_1] at here
  omega

variable {agentId : ExecutionIdentity} {db' : Database} {current : ObserverRow}
  {input : ObserverInput}

/-- An epoch of an agent is of one binding. -/
theorem binding_unique (sound : CursorSound db bindings ingested)
    (left : ⟨agentId, epoch, a⟩ ∈ bindings) (right : ⟨agentId, epoch, b⟩ ∈ bindings) : a = b := by
  have nodup : ((bindingsOf bindings agentId).map Binding.epoch).Nodup := by
    rw [sound.epochs]
    exact List.nodup_range'
  have here : ∀ c, ⟨agentId, epoch, c⟩ ∈ bindings → ⟨agentId, epoch, c⟩ ∈ bindingsOf bindings agentId :=
    fun _ member => List.mem_filter.mpr ⟨member, decide_eq_true rfl⟩
  have same := List.inj_on_of_nodup_map nodup (here a left) (here b right) rfl
  exact congrArg Binding.sourceId same

theorem sequencesOf_nil_of_new (sound : CursorSound db bindings ingested)
    (new : db.hasSource agentId sourceId = false) :
    sequencesOf bindings ingested agentId sourceId = [] := by
  refine List.map_eq_nil_iff.mpr (List.filter_eq_nil_iff.mpr fun e member observed => ?_)
  rw [observedAt, Bool.and_eq_true, List.contains_iff_mem] at observed
  have known := (sound.sources agentId sourceId).mpr ⟨_, observed.2⟩
  rw [new] at known
  cases known

/-! ## One lemma for each kind of body -/

theorem CursorSound.rests (sound : CursorSound db bindings ingested)
    (observers : db'.observers = db.observers)
    (sources : db'.observerSources = db.observerSources) : CursorSound db' bindings ingested := by
  have same : ∀ agentId, db'.observer agentId = db.observer agentId := fun agentId => by
    rw [Database.observer, observers]
    rfl
  have admitted : ∀ agentId sourceId, db'.hasSource agentId sourceId = db.hasSource agentId sourceId :=
    fun agentId sourceId => by rw [Database.hasSource, sources]; rfl
  have epoch : ∀ agentId, epochOf db' agentId = epochOf db agentId := fun agentId => by
    rw [epochOf, same]
    rfl
  refine ⟨observers ▸ sound.observers, fun agentId => ?_, fun agentId row here => ?_,
    fun agentId sourceId => ?_, sound.bound, fun agentId row here => ?_, sound.history,
    fun agentId row here => ?_⟩
  · rw [epoch]
    exact sound.epochs agentId
  · exact sound.latest agentId row (same agentId ▸ here)
  · rw [admitted]
    exact sound.sources agentId sourceId
  · exact sound.cursor agentId row (same agentId ▸ here)
  · exact sound.positions agentId row (same agentId ▸ here)

/-- An update of one agent's row. -/
structure Turns (db db' : Database) (agentId : ExecutionIdentity) (next : ObserverRow) : Prop where
  keyed : Table.Keyed ObserverRow.agentId db'.observers
  here : db'.observer agentId = some next
  other : ∀ other, other ≠ agentId → db'.observer other = db.observer other

theorem turns_of_update (keyed : Table.Keyed ObserverRow.agentId db.observers)
    (keeps : ∀ row, (change row).agentId = row.agentId) (here : db.observer agentId = some current)
    (observers : db'.observers = Table.update ObserverRow.agentId agentId change db.observers) :
    Turns db db' agentId (change current) := by
  have moved : ∀ other, db'.observer other = (db.observer other).map fun row =>
      if row.agentId = agentId then change row else row := fun other => by
    rw [Database.observer, observers]
    exact Table.find_update keeps other db.observers
  refine ⟨observers ▸ keyed.update keeps, ?_, fun other differs => ?_⟩
  · rw [moved, here, Option.map_some, if_pos (Table.mem_of_find here).2]
  · rw [moved]
    cases there : db.observer other with
    | none => rfl
    | some row =>
      rw [Option.map_some, if_neg]
      rw [(Table.mem_of_find there).2]
      exact differs

theorem observes_sound (sound : CursorSound db bindings ingested)
    (here : db.observer agentId = some current) (turns : Turns db db' agentId next)
    (epoch : next.observerEpoch = current.observerEpoch) (source : next.sourceId = current.sourceId)
    (sources : db'.observerSources = db.observerSources) (more : Ingested)
    (bound : ∀ e ∈ more, ∃ sourceId, ⟨e.2.envelope.agentId, e.2.envelope.observerEpoch.val, sourceId⟩ ∈ bindings)
    (others : ∀ other sourceId, other ≠ agentId ∨ current.sourceId ≠ some sourceId →
      sequencesOf bindings more other sourceId = sequencesOf bindings ingested other sourceId)
    (own : ∀ sourceId, current.sourceId = some sourceId →
      sequencesOf bindings more agentId sourceId = List.range' 1 next.lastSourceSequence)
    (position : next.lastSourceSequence ≤ next.maxObservedSequence) :
    CursorSound db' bindings more := by
  have epochs : ∀ other, epochOf db' other = epochOf db other := fun other => by
    unfold epochOf
    by_cases same : other = agentId
    · rw [same, turns.here, here]
      exact epoch
    · rw [turns.other other same]
  refine ⟨turns.keyed, fun other => ?_, fun other row there => ?_, fun other sourceId => ?_, bound,
    fun other row there sourceId has => ?_, fun other sourceId => ?_, fun other row there => ?_⟩
  · rw [epochs]
    exact sound.epochs other
  · by_cases same : other = agentId
    · rw [same, turns.here] at there
      obtain rfl := Option.some.inj there
      rw [source, epoch, same]
      exact sound.latest agentId current here
    · rw [turns.other other same] at there
      exact sound.latest other row there
  · rw [Database.hasSource, sources]
    exact sound.sources other sourceId
  · by_cases same : other = agentId
    · rw [same, turns.here] at there
      obtain rfl := Option.some.inj there
      rw [same]
      exact own sourceId (source.symm.trans has)
    · rw [others other sourceId (.inl same)]
      rw [turns.other other same] at there
      exact sound.cursor other row there sourceId has
  · by_cases moved : other = agentId ∧ current.sourceId = some sourceId
    · rw [moved.1]
      exact ⟨_, own sourceId moved.2⟩
    · rw [others other sourceId (not_and_or.mp moved)]
      exact sound.history other sourceId
  · by_cases same : other = agentId
    · rw [same, turns.here] at there
      obtain rfl := Option.some.inj there
      exact position
    · rw [turns.other other same] at there
      exact sound.positions other row there

/-- A fact at the next position of the source that is bound. -/
theorem takes_sequences (sound : CursorSound db bindings ingested)
    (here : db.observer fact.envelope.agentId = some current)
    (epoch : current.observerEpoch = fact.envelope.observerEpoch.val) (sequence : Nat) :
    (∀ other sourceId, other ≠ fact.envelope.agentId ∨ current.sourceId ≠ some sourceId →
      sequencesOf bindings (ingested ++ [(sequence, fact)]) other sourceId =
        sequencesOf bindings ingested other sourceId) ∧
      ∀ sourceId, current.sourceId = some sourceId →
        sequencesOf bindings (ingested ++ [(sequence, fact)]) fact.envelope.agentId sourceId =
          sequencesOf bindings ingested fact.envelope.agentId sourceId ++
            [fact.envelope.sourceSequence.val] := by
  obtain ⟨now, bound, member⟩ := sound.latest _ current here
  rw [epoch] at member
  constructor
  · intro other sourceId differs
    have unseen : observedAt bindings other sourceId (sequence, fact) = false := by
      rw [Bool.eq_false_iff]
      intro observed
      rw [observedAt, Bool.and_eq_true, List.contains_iff_mem, decide_eq_true_eq] at observed
      obtain ⟨agent, there⟩ := observed
      rw [← agent] at there differs
      rcases differs with differs | differs
      · exact differs rfl
      · rw [bound, binding_unique sound member there] at differs
        exact differs rfl
    simp [sequencesOf, unseen]
  · intro sourceId has
    obtain rfl : now = sourceId := Option.some.inj (bound.symm.trans has)
    have observed : observedAt bindings fact.envelope.agentId now (sequence, fact) = true := by
      rw [observedAt, Bool.and_eq_true, List.contains_iff_mem]
      exact ⟨decide_eq_true rfl, member⟩
    simp [sequencesOf, observed]

/-! ## Bindings -/

theorem upsertObserver_turns (keyed : Table.Keyed ObserverRow.agentId db.observers)
    (row : ObserverRow) (observers : db'.observers = upsertObserver db row) :
    Turns db db' row.agentId row := by
  unfold upsertObserver at observers
  split at observers
  · rename_i old has
    have moved : ∀ other, db'.observer other = (db.observer other).map fun old =>
        if old.agentId = row.agentId then row else old := fun other => by
      rw [Database.observer, observers]
      refine Table.find_map (fun old => ?_) other db.observers
      split
      · rename_i same
        exact same.symm
      · rfl
    refine ⟨observers ▸ keyed.put row, ?_, fun other differs => ?_⟩
    · rw [moved, has, Option.map_some, if_pos (Table.mem_of_find has).2]
    · rw [moved]
      cases there : db.observer other with
      | none => rfl
      | some old =>
        rw [Option.map_some, if_neg]
        rw [(Table.mem_of_find there).2]
        exact differs
  · rename_i absent
    have found : ∀ other, db'.observer other =
        (db.observer other).or (Table.find ObserverRow.agentId other [row]) := fun other => by
      rw [Database.observer, observers, Table.find_append]
      rfl
    refine ⟨observers ▸ keyed_concat keyed absent, ?_, fun other differs => ?_⟩
    · rw [found, absent, Option.none_or]
      simp [Table.find]
    · rw [found]
      simp [Table.find, differs.symm]

/-- What is written by a binding. -/
theorem admitSource_writes (t : Transaction) (row : ObserverRow) (sourceId : ExecutionIdentity) :
    (admitSource t row sourceId).db.observers = upsertObserver t.db row ∧
      (admitSource t row sourceId).db.observerSources =
        if (t.db.observer row.agentId).any (fun current => current.sourceId = some sourceId) = true then
          t.db.observerSources
        else t.db.observerSources ++ [(row.agentId, sourceId)] := by
  unfold admitSource
  dsimp only
  split <;> exact ⟨rfl, rfl⟩

/-- A source that is not the observer's is bound if it never was. -/
theorem checkBinding_new (checked : checkBinding db input = .ok ())
    (other : ∀ current, db.observer input.agentId = some current → current.sourceId ≠ some input.sourceId) :
    db.hasSource input.agentId input.sourceId = false := by
  unfold checkBinding at checked
  split at checked
  · rename_i current has
    obtain ⟨-, checked⟩ := require_bind_ok checked
    obtain ⟨-, checked⟩ := require_bind_ok checked
    rw [if_neg (other current has)] at checked
    exact (require_bind_ok checked).1
  · exact (require_bind_ok checked).1

theorem bindingsOf_concat (bindings : List Binding) (binding : Binding) (agentId : ExecutionIdentity) :
    bindingsOf (bindings ++ [binding]) agentId =
      bindingsOf bindings agentId ++ if binding.agentId = agentId then [binding] else [] := by
  by_cases same : binding.agentId = agentId <;> simp [bindingsOf, same]

/-- A new epoch is the epoch of no fact. -/
theorem sequencesOf_bound (sound : CursorSound db bindings ingested) (binding : Binding)
    (new : epochOf db binding.agentId < binding.epoch) (agentId sourceId : ExecutionIdentity) :
    sequencesOf (bindings ++ [binding]) ingested agentId sourceId =
      sequencesOf bindings ingested agentId sourceId := by
  unfold sequencesOf
  congr 1
  refine List.filter_congr fun e member => ?_
  obtain ⟨source, known⟩ := sound.bound e member
  have old := (epoch_le sound known).2
  unfold observedAt
  by_cases own : e.2.envelope.agentId = agentId
  · have other : (⟨agentId, e.2.envelope.observerEpoch.val, sourceId⟩ : Binding) ≠ binding := by
      rintro rfl
      rw [own] at old
      exact Nat.not_lt_of_le old new
    simp [other]
  · simp [own]

/-- Whether the input names the source that is bound. -/
theorem same_source_cases (db : Database) (input : ObserverInput) :
    (∃ current, db.observer input.agentId = some current ∧ current.sourceId = some input.sourceId ∧
        sourceCursor db input = (current.lastSourceSequence, current.maxObservedSequence)) ∨
      (∀ current, db.observer input.agentId = some current → current.sourceId ≠ some input.sourceId) ∧
        sourceCursor db input = (0, 0) := by
  unfold sourceCursor
  cases has : db.observer input.agentId with
  | none =>
    refine .inr ⟨?_, rfl⟩
    rintro _ ⟨⟩
  | some current =>
    by_cases same : current.sourceId = some input.sourceId
    · exact .inl ⟨current, rfl, same, if_pos same⟩
    · exact .inr ⟨fun _ here => Option.some.inj here ▸ same, if_neg same⟩

/-- The cursor that a binding starts with is that of its source. -/
theorem sourceCursor_sound (sound : CursorSound db bindings ingested)
    (checked : checkBinding db input = .ok ()) :
    sequencesOf bindings ingested input.agentId input.sourceId =
        List.range' 1 (sourceCursor db input).1 ∧
      (sourceCursor db input).1 ≤ (sourceCursor db input).2 := by
  rcases same_source_cases db input with ⟨current, here, same, cursor⟩ | ⟨other, cursor⟩
  · rw [cursor]
    exact ⟨sound.cursor _ current here _ same, sound.positions _ current here⟩
  · rw [cursor, sequencesOf_nil_of_new sound (checkBinding_new checked other)]
    exact ⟨rfl, le_rfl⟩

theorem hasSource_bound (sound : CursorSound t.db bindings ingested)
    (agent : row.agentId = input.agentId) (agentId sourceId : ExecutionIdentity) :
    (admitSource t row input.sourceId).db.hasSource agentId sourceId = true ↔
      t.db.hasSource agentId sourceId = true ∨ agentId = input.agentId ∧ sourceId = input.sourceId := by
  have sources := (admitSource_writes t row input.sourceId).2
  rw [agent] at sources
  unfold Database.hasSource
  rw [sources]
  split
  · rename_i same
    refine ⟨.inl, fun known => known.elim id ?_⟩
    rintro ⟨rfl, rfl⟩
    obtain ⟨current, here, bound⟩ := (Option.any_eq_true _ _).mp same
    obtain ⟨source, has, member⟩ := sound.latest _ current here
    obtain rfl : source = input.sourceId :=
      Option.some.inj (has.symm.trans (of_decide_eq_true bound))
    exact (sound.sources _ _).mpr ⟨_, member⟩
  · simp

theorem binds_sound (sound : CursorSound t.db bindings ingested) (binds : Binds t input t' token) :
    CursorSound t'.db (bindings ++ [⟨input.agentId, token.epoch, input.sourceId⟩]) ingested := by
  obtain ⟨row, rfl, agent, epoch, source, last, most, -⟩ := binds.writes
  have turns := upsertObserver_turns sound.observers row (admitSource_writes t row input.sourceId).1
  rw [agent] at turns
  have next : token.epoch = epochOf t.db input.agentId + 1 := by
    rw [binds.next, epochOf, binds.epoch]
  have sequences := sequencesOf_bound sound ⟨input.agentId, token.epoch, input.sourceId⟩
    (Nat.lt_of_succ_le (Nat.le_of_eq next.symm))
  obtain ⟨started, ordered⟩ := sourceCursor_sound sound binds.checked
  refine ⟨turns.keyed, fun other => ?_, fun other row' there => ?_, fun other sourceId => ?_,
    fun e member => ?_, fun other row' there sourceId has => ?_, fun other sourceId => ?_,
    fun other row' there => ?_⟩
  · rw [bindingsOf_concat, List.map_append, sound.epochs]
    by_cases own : input.agentId = other
    · have now : epochOf (admitSource t row input.sourceId).db other =
          epochOf t.db input.agentId + 1 := by
        rw [← own, epochOf, turns.here, Option.elim_some, epoch, next]
      rw [now, if_pos own, ← own, List.range'_concat, List.map_singleton, next]
      simp [Nat.add_comm]
    · have kept : epochOf (admitSource t row input.sourceId).db other = epochOf t.db other := by
        rw [epochOf, turns.other other fun same => own same.symm]
        rfl
      rw [kept, if_neg own]
      exact List.append_nil _
  · by_cases own : other = input.agentId
    · rw [own, turns.here] at there
      obtain rfl := Option.some.inj there
      rw [own, epoch]
      exact ⟨input.sourceId, source, List.mem_append_right _ List.mem_cons_self⟩
    · rw [turns.other other own] at there
      obtain ⟨sourceId, has, member⟩ := sound.latest other row' there
      exact ⟨sourceId, has, List.mem_append_left _ member⟩
  · rw [hasSource_bound sound agent, sound.sources]
    constructor
    · rintro (⟨old, member⟩ | ⟨rfl, rfl⟩)
      · exact ⟨old, List.mem_append_left _ member⟩
      · exact ⟨token.epoch, List.mem_append_right _ List.mem_cons_self⟩
    · rintro ⟨old, member⟩
      rcases List.mem_append.mp member with before | new
      · exact .inl ⟨old, before⟩
      · obtain ⟨rfl, -, rfl⟩ := Binding.mk.inj (List.mem_singleton.mp new)
        exact .inr ⟨rfl, rfl⟩
  · obtain ⟨sourceId, known⟩ := sound.bound e member
    exact ⟨sourceId, List.mem_append_left _ known⟩
  · rw [sequences]
    by_cases own : other = input.agentId
    · rw [own, turns.here] at there
      obtain rfl := Option.some.inj there
      obtain rfl : input.sourceId = sourceId := Option.some.inj (source.symm.trans has)
      rw [own, last]
      exact started
    · rw [turns.other other own] at there
      exact sound.cursor other row' there sourceId has
  · rw [sequences]
    exact sound.history other sourceId
  · by_cases own : other = input.agentId
    · rw [own, turns.here] at there
      obtain rfl := Option.some.inj there
      rw [last, most]
      exact ordered
    · rw [turns.other other own] at there
      exact sound.positions other row' there

end LetAgents.Execution.ShadowStore

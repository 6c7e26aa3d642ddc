import LetAgents.Execution.ShadowCaches

/-!
# Runs of the stores of one database

What a body leaves, what a commit publishes and what a rollback undoes keep the journal and its
columns equal to the replay, and the caches with the current stamp true to both.
-/
namespace LetAgents.Execution.ShadowStore

open Lib Lib.Checked Protocol FactRows

variable {ingested : Ingested} {s : Store} {t : Transaction}

/-! ## Ingestion -/

/-- A fact is stored at the next position of its source. -/
structure Takes (t : Transaction) (ingested : Ingested) (fact : ExecutionFact) (current : ObserverRow)
    (t' : Transaction) (committed : Committed) : Prop where
  next : fact.envelope.sourceSequence.val = current.lastSourceSequence + 1
  stored : ∃ turn replay next replayed, Ready t.db ingested fact turn replay next replayed ∧
    t' = recordFact t turn replay next fact ∧
    committed.value = ⟨next, replayed.value.unverifiedFacts, t.db.factSequence + 1⟩
  budget : committed.budget = budgetWith (budgetOfFacts (agentFacts ingested fact.envelope.agentId)) fact

/-- The position that an answer says was not taken. -/
def ShadowIngestion.skipped : ShadowIngestion → Option Nat
  | .gap _ observedSourceSequence => some observedSourceSequence
  | .retentionLimit _ _ observedSourceSequence => some observedSourceSequence
  | _ => none

/-- What an ingestion leaves: a duplicate nothing, a fact that is not taken its position. -/
inductive Ingests (t : Transaction) (ingested : Ingested) (fact : ExecutionFact)
    (current : ObserverRow) : Transaction → ShadowIngestion → Option Committed → Prop
  | duplicate {result : ShadowIngestion} (answer : result.skipped = none) :
      Ingests t ingested fact current t result none
  | skipped {result : ShadowIngestion}
      (above : current.lastSourceSequence + 1 ≤ fact.envelope.sourceSequence.val)
      (answer : result.skipped = some fact.envelope.sourceSequence.val) :
      Ingests t ingested fact current (rememberPosition t fact) result none
  | taken {t' : Transaction} {result : ShadowIngestion} {committed : Committed}
      (takes : Takes t ingested fact current t' committed) (answer : result.skipped = none) :
      Ingests t ingested fact current t' result (some committed)

variable {db : Database} {token : ShadowObserver} {turn : Option TurnRow} {fact : ExecutionFact}
  {current : ObserverRow} {done : Done}

theorem checkReplay_ok (ok : checkReplay db token turn fact = .ok replay) :
    isReplay db fact = .ok replay := by
  obtain ⟨replay', checked, ok⟩ := bind_ok ok
  obtain ⟨_, -, ok⟩ := bind_ok ok
  cases ok
  exact checked

theorem takeFact_ok (ok : takeFact t current turn replay previous budget fact = .ok out) :
    ∃ next, nextProjection replay previous.projection fact = .ok next ∧
      out.1 = recordFact t turn replay next fact ∧
      out.2.1.skipped = none ∧
      out.2.2 = ⟨⟨next, previous.unverifiedFacts, t.db.factSequence + 1⟩, budget⟩ := by
  cases replay with
  | true =>
    cases ok
    exact ⟨_, rfl, rfl, rfl, rfl⟩
  | false =>
    obtain ⟨next, reduced, ok⟩ := bind_ok ok
    cases ok
    exact ⟨next, reduced, rfl, rfl, rfl⟩

theorem Admitted.ready (admitted : Admitted db tokens sourceId token fact current turn) :
    ∀ identity ∈ nativeTurnOf fact, ∃ row, turn = some row ∧ db.turn identity.turnId = some row ∧
      row.runtimeGenerationId = fact.envelope.runtimeGenerationId := by
  intro identity isTurn
  rcases retainedTurn_ok admitted.retained with ⟨none_, -⟩ | ⟨other, row, own, has, -, here, -, runtime⟩
  · rw [none_] at isTurn
    cases isTurn
  · obtain rfl : other = identity := Option.some.inj (own.symm.trans isTurn)
    exact ⟨row, has, here, runtime⟩

theorem ingest_ok (sound : StoreSound t.db ingested) (valid : Valid ingested s)
    (tokens : ∀ token ∈ s.observers, TokenSound t.db token)
    (ok : ingest s version t sourceId token fact = .ok out) :
    Valid ingested out.1 ∧ out.1.observers = s.observers ∧
      fact.envelope.observerEpoch.val = token.epoch ∧ fact.envelope.agentId = token.agentId ∧
      ∃ current, Current t.db s.observers sourceId token current ∧
        Ingests t ingested fact current out.2.1 out.2.2.1 out.2.2.2 := by
  obtain ⟨admission, decided, ok⟩ := bind_ok ok
  obtain ⟨current, holds, epoch, agent, fresh | duplicate⟩ := admitFact_ok decided
  · obtain ⟨turn, rfl, admitted⟩ := fresh
    obtain ⟨reckoned, valid₁, observers₁⟩ :=
      retainedBudget_ok sound (valid.inForce ⟨t.changes, version⟩) fact.envelope.agentId
    dsimp only at ok
    split at ok
    · cases ok
      exact ⟨valid₁, observers₁, epoch, agent, current, holds,
        .skipped admitted.above rfl⟩
    · rename_i within
      rw [reckoned] at within
      split at ok
      · cases ok
        exact ⟨valid₁, observers₁, epoch, agent, current, holds,
          .skipped admitted.above rfl⟩
      · rename_i here
        have known := admitted.known (tokens token holds.issued)
        obtain ⟨replay, checked, ok⟩ := bind_ok ok
        obtain ⟨replayed, right⟩ := sound.replays fact.envelope.runtimeGenerationId
        obtain ⟨s₂, projected, valid₂, observers₂⟩ :=
          cachedProjection_ok sound (valid₁.inForce ⟨t.changes, version⟩) right
        rw [projected, ok_bind] at ok
        obtain ⟨taken, took, ok⟩ := bind_ok ok
        cases ok
        obtain ⟨next, reduced, written, answer, committed⟩ := takeFact_ok took
        refine ⟨valid₂, observers₂.trans observers₁, epoch, agent, current, holds,
          .taken ⟨?_, ⟨turn, replay, next, replayed, ?_, written, ?_⟩, ?_⟩ answer⟩
        · exact Nat.le_antisymm (Nat.not_lt.mp here) admitted.above
        · exact ⟨known, admitted.ready, right, within, checkReplay_ok checked, reduced⟩
        · rw [committed]
        · rw [committed, reckoned]
  · obtain ⟨row, gapPending, rfl, -⟩ := duplicate
    cases ok
    exact ⟨valid, rfl, epoch, agent, current, holds, .duplicate rfl⟩

/-! ## Bodies -/

/-- What an ingested fact leaves for the caches is right with the fact. -/
structure Remembers (ingested : Ingested) (fact : ExecutionFact) (committed : Committed) : Prop where
  value : ∃ replayed, replayFacts (factsOf ingested fact.envelope.runtimeGenerationId) = .ok replayed ∧
    committed.value = replayed.value
  budget : committed.budget = budgetOfFacts (agentFacts ingested fact.envelope.agentId)

/-- What a body has done that is ready to commit. -/
structure Left (ingested : Ingested) (s : Store) (t : Transaction) (done : Done) : Prop where
  valid : Valid ingested done.store
  observers : done.store.observers = s.observers
  grows : Extends t.db done.transaction.db
  sound : StoreSound done.transaction.db (ingested ++ done.ingested.toList)
  changes : t.changes ≤ done.transaction.changes
  counted : ∀ e ∈ done.ingested, t.changes < done.transaction.changes
  bound : ∀ b ∈ done.bound, TokenSound done.transaction.db b.1
  committed : (done.ingested = none ∧ done.committed = none) ∨ ∃ sequence fact committed,
    done.ingested = some (sequence, fact) ∧
      done.committed =
        some (fact.envelope.runtimeGenerationId, fact.envelope.agentId, committed) ∧
      Remembers (ingested ++ [(sequence, fact)]) fact committed

section

variable (sound : StoreSound t.db ingested)
include sound

theorem Left.ofQuiet (valid : Valid ingested s') (observers : s'.observers = s.observers)
    (quiet : Quiet t.db t'.db) (changes : t.changes ≤ t'.changes) (store : done.store = s')
    (transaction : done.transaction = t') (ingests : done.ingested = none)
    (commits : done.committed = none)
    (bound : ∀ b ∈ done.bound, TokenSound done.transaction.db b.1) : Left ingested s t done := by
  refine ⟨by rw [store]; exact valid, by rw [store]; exact observers, ?_, ?_, ?_, ?_, bound,
    .inl ⟨ingests, commits⟩⟩
  · rw [transaction]
    exact quiet.extends
  · rw [transaction, ingests, Option.toList_none, List.append_nil]
    exact quiet.sound sound
  · rw [transaction]
    exact changes
  · rw [ingests]
    exact fun _ member => absurd member nofun

theorem Takes.left (valid : Valid ingested s') (observers : s'.observers = s.observers)
    (takes : Takes t ingested fact current t' committed) :
    Left ingested s t (.ofIngest fact (s', t', result, some committed)) := by
  obtain ⟨-, ⟨turn, replay, next, replayed, ready, rfl, value⟩, budget⟩ := takes
  obtain ⟨stores, onRuntime, onTurn, runtimes, turns, summarizes⟩ :=
    recordFact_maps t turn replay next fact
  obtain ⟨replayed', right, value'⟩ := replays_concat sound ready (t.db.factSequence + 1)
  have sequence : committed.value.lastJournalSequence = t.db.factSequence + 1 := by rw [value]
  refine ⟨valid, observers, summarizes.extends runtimes turns, ?_, Nat.le_of_lt stores.changes,
    fun _ _ => stores.changes, nofun,
    .inr ⟨_, fact, committed, rfl, rfl, ?_, ?_⟩⟩
  · change StoreSound _ (ingested ++ [(committed.value.lastJournalSequence, fact)])
    rw [sequence]
    exact recordFact_sound sound ready
  · rw [sequence]
    exact ⟨replayed', right, by rw [value, value']⟩
  · rw [budgetWith_eq]
    exact budget

theorem body_left {call : Call} (force : InForce ⟨t.changes, version⟩ ingested s)
    (tokens : ∀ token ∈ s.observers, TokenSound t.db token)
    (ok : call.body s version t = .ok done) : Left ingested s t done := by
  have valid := synchronizeCaches_valid force
  have observers : (s.synchronizeCaches ⟨t.changes, version⟩).observers = s.observers :=
    synchronizeCaches_observers
  cases call with
  | registerRuntime input =>
    obtain ⟨out, body, ok⟩ := bind_ok ok
    cases ok
    have leaves := materializeRuntime_leaves body
    exact .ofQuiet sound valid observers leaves.quiet leaves.changes rfl rfl rfl rfl
      nofun
  | trackMessage input fresh =>
    obtain ⟨out, body, ok⟩ := bind_ok ok
    cases ok
    have leaves := trackMessage_leaves body
    exact .ofQuiet sound valid observers leaves.quiet leaves.changes rfl rfl rfl rfl
      nofun
  | trackNativeTurn input =>
    obtain ⟨out, body, ok⟩ := bind_ok ok
    cases ok
    have leaves := trackNativeTurn_leaves body
    exact .ofQuiet sound valid observers leaves.quiet leaves.changes rfl rfl rfl rfl
      nofun
  | bindObserver input =>
    obtain ⟨out, body, ok⟩ := bind_ok ok
    cases ok
    have binds := bindObserver_binds body
    have observes := binds.observes
    refine .ofQuiet sound valid observers observes.quiet observes.changes rfl rfl rfl rfl ?_
    rintro b member
    obtain rfl := Option.some.inj member
    have there : TokenSound t.db out.2 := by
      rw [TokenSound, binds.agentId]
      exact ⟨binds.subject, binds.observer⟩
    exact there.mono observes.quiet.extends
  | observeSourcePosition seen sourceId token latestSequence =>
    obtain ⟨out, body, ok⟩ := bind_ok ok
    cases ok
    obtain ⟨current, -, -, cases_⟩ := recordPosition_ok body
    have observes : Observes t out := by
      rcases cases_ with rfl | rfl
      · exact ⟨.refl _, le_rfl⟩
      · exact updateObserver_observes _ _
    exact .ofQuiet sound valid observers observes.quiet observes.changes rfl rfl rfl rfl
      nofun
  | ingest sourceId token value =>
    obtain ⟨fact, -, ok⟩ := bind_ok ok
    obtain ⟨out, body, ok⟩ := bind_ok ok
    cases ok
    obtain ⟨valid', observers', -, -, current, -, ingests⟩ :=
      ingest_ok sound valid (by rw [observers]; exact tokens) body
    obtain ⟨s', t', result, committed⟩ := out
    have observers'' := observers'.trans observers
    cases ingests with
    | duplicate answer =>
      exact .ofQuiet sound valid' observers'' (.refl _) le_rfl rfl rfl rfl rfl
        nofun
    | skipped above answer =>
      have observes := updateObserver_observes (t := t) fact.envelope.agentId
        (observePosition fact.envelope.sourceSequence.val)
      exact .ofQuiet sound valid' observers'' observes.quiet observes.changes rfl rfl rfl rfl
        nofun
    | taken takes answer => exact takes.left sound valid' observers''

end

/-! ## Commits -/

theorem factsOf_of_ne {sequence : Nat} (right : RightProjection ingested entry)
    (other : entry.1 ≠ fact.envelope.runtimeGenerationId) :
    RightProjection (ingested ++ [(sequence, fact)]) entry := by
  unfold RightProjection
  rw [factsOf_concat_of_ne ingested sequence other]
  exact right

/-- The caches are right again after the commit. -/
theorem Remembers.valid {sequence : Nat}
    (remembers : Remembers (ingested ++ [(sequence, fact)]) fact committed)
    (valid : Valid ingested s) :
    Valid (ingested ++ [(sequence, fact)])
      ((s.rememberProjection fact.envelope.runtimeGenerationId committed.value).rememberBudget
        fact.envelope.agentId committed.budget) := by
  obtain ⟨projections, budgets, -⟩ :=
    rememberProjection_keeps s fact.envelope.runtimeGenerationId committed.value
  obtain ⟨replayed, right, value⟩ := remembers.value
  constructor
  · intro entry member
    rcases projections entry member with ⟨own, value'⟩ | ⟨kept, other⟩
    · exact ⟨replayed, by rw [own]; exact right, value'.trans value⟩
    · exact factsOf_of_ne (valid.projections entry kept) other
  · intro entry member
    rcases mem_rememberBudget member with rfl | ⟨kept, other⟩
    · exact remembers.budget
    · rw [budgets] at kept
      unfold RightBudget
      rw [agentFacts_concat_of_ne ingested sequence other]
      exact valid.budgets entry kept

theorem Left.remember (left : Left ingested s t done) (stamp : Stamp) :
    Valid (ingested ++ done.ingested.toList) (done.remember stamp) := by
  unfold Done.remember
  rcases left.committed with ⟨ingests, commits⟩ | ⟨sequence, fact, committed, ingests, commits, right⟩
  · rw [ingests, commits, Option.toList_none, List.append_nil]
    have kept := left.valid.withStamp (some stamp)
    dsimp only
    split
    · exact kept.withObservers _
    · exact kept
  · rw [ingests, commits]
    have kept := right.valid (left.valid.withStamp (some stamp))
    dsimp only
    split
    · exact kept.withObservers _
    · exact kept

/-- A binding hands out its token. -/
theorem remember_observers (done : Done) (stamp : Stamp) :
    (done.remember stamp).observers = (done.bound.map Prod.fst).toList ++ done.store.observers := by
  have caches : ∀ s : Store, ∀ runtimeId agentId (committed : Committed),
      ((s.rememberProjection runtimeId committed.value).rememberBudget agentId
        committed.budget).observers = s.observers :=
    fun s runtimeId _ committed => (rememberProjection_keeps s runtimeId committed.value).2.2.1
  unfold Done.remember
  dsimp only
  split
  · rename_i token binding bound
    rw [bound]
    split
    · exact congrArg (token :: ·) (caches _ _ _ _)
    · rfl
  · rename_i bound
    rw [bound]
    split
    · exact caches _ _ _ _
    · rfl

theorem remember_stamp (done : Done) (stamp : Stamp) :
    (done.remember stamp).projectionStamp = some stamp := by
  unfold Done.remember
  dsimp only
  split <;> split
  · exact (rememberProjection_keeps _ _ _).2.2.2
  · rfl
  · exact (rememberProjection_keeps _ _ _).2.2.2
  · rfl

/-! ## Steps -/

def Stamp.le (a b : Stamp) : Prop := a.changes ≤ b.changes ∧ a.version ≤ b.version

theorem Stamp.le_antisymm {a b : Stamp} (ab : a.le b) (ba : b.le a) : a = b := by
  exact congrArg₂ Stamp.mk (Nat.le_antisymm ab.1 ba.1) (Nat.le_antisymm ab.2 ba.2)

variable {connection : Nat → Nat} {sys : System}

/-- A store that was there at the last write of its connection knows it. -/
structure CacheSound (stamp : Stamp) (ingested : Ingested) (s : Store) : Prop where
  past : ∀ own ∈ s.projectionStamp, own.le stamp
  force : InForce stamp ingested s

structure SystemSound (connection : Nat → Nat) (sys : System) : Prop where
  store : StoreSound sys.db sys.ingested
  caches : ∀ i, CacheSound (sys.connections (connection i)) sys.ingested (sys.stores i)
  tokens : ∀ i, ∀ token ∈ (sys.stores i).observers, TokenSound sys.db token

/-- Caches that are in force after a write were so before, and nothing was written. -/
theorem CacheSound.later (sound : CacheSound stamp ingested s) (grows : stamp.le stamp')
    (same : stamp' = stamp → more = ingested) : CacheSound stamp' more s := by
  refine ⟨fun own has => ?_, fun has => ?_⟩
  · have past := sound.past own has
    exact ⟨Nat.le_trans past.1 grows.1, Nat.le_trans past.2 grows.2⟩
  · have equal : stamp' = stamp := Stamp.le_antisymm (sound.past stamp' has) grows
    rw [same equal]
    exact sound.force (equal ▸ has)

theorem Stamp.le_refl (stamp : Stamp) : stamp.le stamp := ⟨le_rfl, le_rfl⟩

theorem publish_le (connections : Nat → Stamp) (own : Nat)
    (grows : (connections own).changes ≤ after) (other : Nat) : (connections other).le
      (System.publish connections own (connections own).changes after other) := by
  unfold System.publish
  split
  · rename_i same
    exact ⟨same ▸ grows, le_rfl⟩
  · split
    · exact Stamp.le_refl _
    · exact ⟨le_rfl, Nat.le_succ _⟩

/-- A connection that sees no change is one that nothing was written beside. -/
theorem publish_same
    (same : System.publish connections own (connections own).changes after other = connections other) :
    after = (connections own).changes := by
  unfold System.publish at same
  split at same
  · rename_i here
    rw [← here]
    exact congrArg Stamp.changes same
  · split at same
    · rename_i unchanged
      exact unchanged.symm
    · exact absurd (congrArg Stamp.version same) (Nat.succ_ne_self _)

section

variable (sound : SystemSound connection sys)
include sound

theorem commit_sound
    (left : Left sys.ingested (sys.stores store) ⟨sys.db, (sys.connections (connection store)).changes⟩ done) :
    SystemSound connection (sys.commit connection store done) := by
  refine ⟨left.sound, fun i => ?_, fun i token member => ?_⟩
  · by_cases own : i = store
    · rw [own]
      change CacheSound _ _ (Function.update sys.stores store _ store)
      rw [Function.update_self]
      refine ⟨fun stamp has => ?_, (left.remember _).inForce _⟩
      rw [remember_stamp] at has
      obtain rfl := Option.some.inj has
      change Stamp.le _ (System.publish _ _ _ _ _)
      unfold System.publish
      rw [if_pos rfl]
      exact Stamp.le_refl _
    · change CacheSound _ _ (Function.update sys.stores store _ i)
      rw [Function.update_of_ne own]
      refine (sound.caches i).later (publish_le _ _ left.changes _) fun same => ?_
      have unchanged := publish_same same
      change sys.ingested ++ done.ingested.toList = sys.ingested
      cases ingests : done.ingested with
      | none => rw [Option.toList_none, List.append_nil]
      | some e => exact absurd (left.counted e ingests) (Nat.not_lt_of_le (Nat.le_of_eq unchanged))
  · by_cases own : i = store
    · rw [own] at member
      change token ∈ (Function.update sys.stores store _ store).observers at member
      rw [Function.update_self, remember_observers] at member
      rcases List.mem_append.mp member with new | old
      · cases bound : done.bound with
        | none =>
          rw [bound] at new
          cases new
        | some b =>
          rw [bound] at new
          rw [List.mem_singleton.mp new]
          exact left.bound b bound
      · rw [left.observers] at old
        exact (sound.tokens store token old).mono left.grows
    · change token ∈ (Function.update sys.stores store _ i).observers at member
      rw [Function.update_of_ne own] at member
      exact (sound.tokens i token member).mono left.grows

/-- A store whose caches are put in order: a read, or one that drops them. -/
theorem setStore_sound (caches : CacheSound (sys.connections (connection store)) sys.ingested s)
    (observers : s.observers = (sys.stores store).observers) :
    SystemSound connection (sys.setStore store s) := by
  refine ⟨sound.store, fun i => ?_, fun i token member => ?_⟩
  · by_cases own : i = store
    · rw [own]
      change CacheSound _ _ (Function.update sys.stores store s store)
      rw [Function.update_self]
      exact caches
    · change CacheSound _ _ (Function.update sys.stores store s i)
      rw [Function.update_of_ne own]
      exact sound.caches i
  · by_cases own : i = store
    · rw [own] at member
      change token ∈ (Function.update sys.stores store s store).observers at member
      rw [Function.update_self, observers] at member
      exact sound.tokens store token member
    · change token ∈ (Function.update sys.stores store s i).observers at member
      rw [Function.update_of_ne own] at member
      exact sound.tokens i token member

theorem clear_sound (store : Nat) :
    SystemSound connection (sys.setStore store (sys.stores store).clearProjections) :=
  setStore_sound sound
    ⟨nofun, (clearProjections_valid _ _).inForce _⟩ rfl

/-- Connections that see more leave the caches right. -/
theorem connections_sound (grows : ∀ other, (sys.connections other).le (connections other)) :
    SystemSound connection { sys with connections } :=
  ⟨sound.store, fun i => (sound.caches i).later (grows _) fun _ => rfl, sound.tokens⟩

theorem rollback_sound (store undone : Nat) :
    SystemSound connection (sys.rollback connection store undone) := by
  refine connections_sound (clear_sound sound store) fun other => ?_
  by_cases own : other = connection store
  · rw [own, Function.update_self]
    exact ⟨Nat.le_add_right _ _, le_rfl⟩
  · rw [Function.update_of_ne own]
    exact Stamp.le_refl _

/-- The summaries are about facts: recoveries are not in them. -/
theorem recover_sound (recoveries : List RuntimeRecovery) :
    SystemSound connection { sys with db := { sys.db with recoveries } } := by
  have quiet : Quiet sys.db { sys.db with recoveries } := ⟨rfl, rfl, .inl rfl, .inl rfl⟩
  exact ⟨quiet.sound sound.store, sound.caches, fun i token member =>
    (sound.tokens i token member).mono quiet.extends⟩

theorem step_sound (input : Input) : SystemSound connection (sys.step connection input) := by
  cases input with
  | call store call commits undone =>
    unfold System.step
    dsimp only
    split
    · split
      · rename_i done body
        split
        · exact commit_sound sound
            (body_left sound.store (sound.caches store).force (sound.tokens store) body)
        · exact rollback_sound sound store undone
      · exact rollback_sound sound store undone
    · exact sound
  | projectRuntime store runtimeId =>
    unfold System.step
    dsimp only
    split
    · rename_i s value read
      obtain ⟨replayed, right⟩ := sound.store.replays runtimeId
      obtain ⟨s', cached, valid, observers⟩ :=
        cachedProjection_ok sound.store (sound.caches store).force right
      obtain ⟨out, same, ok⟩ := bind_ok read
      rw [cached] at same
      cases same
      cases ok
      refine setStore_sound sound ⟨fun stamp has => ?_, (valid.withStamp _).inForce _⟩ observers
      obtain rfl := Option.some.inj has
      exact Stamp.le_refl _
    · exact clear_sound sound store
  | clear store => exact clear_sound sound store
  | recover recoveries =>
    exact connections_sound (recover_sound sound recoveries) fun other =>
      ⟨le_rfl, Nat.le_succ _⟩

end

theorem initial_sound : SystemSound connection .initial := by
  refine ⟨⟨⟨rfl, rfl, List.nodup_nil, List.nodup_nil, ?_⟩, fun _ => ⟨_, rfl⟩, fun _ => rfl, ?_, ?_⟩,
    fun _ => ⟨nofun, by rintro ⟨⟩⟩, ?_⟩
  · exact fun _ member => absurd member List.not_mem_nil
  · exact nofun
  · exact nofun
  · exact nofun

theorem states_sound (inputs : Nat → Input) (n : Nat) :
    SystemSound connection (Machine.states (System.step connection) .initial inputs n) :=
  Machine.invariant initial_sound (fun _ sound => step_sound sound _) n

/-! ## The store and its replay -/

/-- The fact rows, the columns and the caches say what the replay says. -/
structure EqualsReplay (connection : Nat → Nat) (sys : System) : Prop where
  projected : ∀ store runtimeId, ∃ value, replayFromScratch sys.db runtimeId = .ok value ∧
    (projectRuntime (sys.stores store) (sys.connections (connection store)) sys.db runtimeId).map
      Prod.snd = .ok value
  runtimes : ∀ row ∈ sys.db.runtimes, ∀ value,
    replayFromScratch sys.db row.runtimeGenerationId = .ok value →
      row.runtimeState = value.projection.runtime ∧ row.controlState = value.projection.control ∧
        row.continuationState = value.projection.continuation
  turns : ∀ row ∈ sys.db.turns, ∀ value,
    replayFromScratch sys.db row.runtimeGenerationId = .ok value →
      (row.state, row.sideEffects) = turnColumns (value.projection.turns.lookup row.turnId)
  order : sys.db.facts.map FactRow.sequence = List.range' 1 sys.db.factSequence
  decoded : sys.db.facts.map (fun row => (row.sequence, sys.db.decode row)) =
    sys.ingested.map fun e => (e.1, .ok e.2)
  reckoned : ∀ store agentId,
    ((sys.stores store).retainedBudget (sys.connections (connection store)) sys.db agentId).2 =
      aggregates sys.db agentId
  budgets : ∀ store, (sys.stores store).projectionStamp = some (sys.connections (connection store)) →
    ∀ agentId budget, (sys.stores store).budgets.get agentId = some budget →
      budget = aggregates sys.db agentId

theorem replayed_of_scratch (sound : StoreSound db ingested)
    (ok : replayFromScratch db runtimeId = .ok value) :
    ∃ replayed, replayFacts (factsOf ingested runtimeId) = .ok replayed ∧ value = replayed.value := by
  obtain ⟨replayed, right⟩ := sound.replays runtimeId
  rw [sound.replayFromScratch right] at ok
  exact ⟨replayed, right, (Except.ok.inj ok).symm⟩

theorem SystemSound.equalsReplay (sound : SystemSound connection sys) :
    EqualsReplay connection sys where
  projected store runtimeId := by
    obtain ⟨replayed, right⟩ := sound.store.replays runtimeId
    obtain ⟨s', cached, -, -⟩ := cachedProjection_ok sound.store (sound.caches store).force right
    refine ⟨replayed.value, sound.store.replayFromScratch right, ?_⟩
    unfold projectRuntime
    rw [cached]
    rfl
  runtimes row member value ok := by
    obtain ⟨replayed, right, rfl⟩ := replayed_of_scratch sound.store ok
    exact sound.store.runtimes row member replayed right
  turns row member value ok := by
    obtain ⟨replayed, right, rfl⟩ := replayed_of_scratch sound.store ok
    exact sound.store.turns row member replayed right
  order := by
    rw [sound.store.journal.rows, List.map_map, ← sound.store.journal.sequences]
    exact List.map_congr_left fun e _ => (stored_ids e.1 e.2).2.2.2.2.2.2
  decoded := by
    rw [sound.store.journal.rows, List.map_map]
    refine List.map_congr_left fun e member => Prod.ext (stored_ids e.1 e.2).2.2.2.2.2.2 ?_
    exact decode_of_known (sound.store.journal.known e member) e.1
  reckoned store agentId := by
    rw [sound.store.aggregates]
    exact (retainedBudget_ok sound.store (sound.caches store).force agentId).1
  budgets store stamp agentId budget has := by
    rw [sound.store.aggregates]
    exact ((sound.caches store).force stamp).budgets (agentId, budget) (OrderedMap.get_eq_some.mp has)

/-- The execution store equals its replay, whatever its stores do and in whatever order. -/
theorem store_equals_replay (connection : Nat → Nat) (inputs : Nat → Input) (n : Nat) :
    EqualsReplay connection (Machine.states (System.step connection) .initial inputs n) :=
  (states_sound inputs n).equalsReplay

end LetAgents.Execution.ShadowStore

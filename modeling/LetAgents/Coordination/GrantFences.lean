import Mathlib.Logic.Equiv.Basic
import LetAgents.Coordination.AgentSessions
import LetAgents.Coordination.GrantFootprints

/-!
# The fence of a grant

A transaction that has asserted the fence of a grant holds the grant's advisory lock to
its commit, and so do a rotation, an advance and a revocation. The recovery in
`createSupervisorHostGrant` holds the lock of the installation instead, so it alone can
come between an assertion and the commit; a transaction that also locks the grant's row
keeps it out.
-/
namespace LetAgents.Coordination.GrantFences

open Lib.ReadCommitted Lib.ReadCommitted.Discipline

/-! ## Transactions under a fence -/

/-- Statements that leave the grants alone. -/
def spares (k : Key) (v v' : Row k) : Prop :=
  keepsIndexes k v v' ∧ onGrants (fun _ v v' => v' = v) k v v'

/-- A transaction that may assert fences, where it likes and as often as it likes, and
writes no grant. The note says which fences have passed. -/
inductive Fenced : Note → Prog → Prop
  | note {n learned : Note} {next : Prog} (passed : learned.passed = n.passed)
      (kept : learned.kept = n.kept) (rest : Fenced learned next) : Fenced n (.note learned next)
  | lock {n : Note} {key : LockKey} {next : Prog} (rest : Fenced n next) : Fenced n (.lock key next)
  | select {n : Note} {next : Seen Row → Prog} (rest : ∀ seen, Fenced n (next seen)) :
      Fenced n (.select next)
  | share {n : Note} {target : ∀ k, Row k → Bool} {next : Seen Row → Prog}
      (rest : ∀ seen, Fenced n (next seen)) : Fenced n (.share target next)
  | update {n : Note} {change : ∀ k, Row k → Option (Row k)} {next : Seen Row → List Key → Prog}
      (within : Within spares change) (rest : ∀ seen rows, Fenced n (next seen rows)) :
      Fenced n (.update change next)
  | insert {n : Note} {k : Key} {row : Row k} {next conflict : Prog} (apart : ∀ id, k ≠ .grant id)
      (rest : Fenced n next) (otherwise : Fenced n conflict) : Fenced n (.insert k row next conflict)
  | finish {n : Note} (result : Outcome) : Fenced n (.finish result)
  | abort {n : Note} (result : Outcome) : Fenced n (.abort result)
  | pass {n : Note} {fence : SupervisorGrantFence} {now : Nat} {passed refused : Prog}
      (rest : Fenced { n with passed := fence :: n.passed } passed) (otherwise : Fenced n refused) :
      Fenced n (passFence n fence now passed refused)
  | keep {n : Note} {fence : SupervisorGrantFence} {now checked_at : Nat}
      {kept : SupervisorGrant → Prog} {refused : Prog}
      (rest : ∀ grant, Fenced { n with kept := fence :: n.kept } (kept grant))
      (otherwise : Fenced n refused) : Fenced n (keepFence n fence now checked_at kept refused)

/-- A footprint that spares the grants is that of a fenced transaction. -/
theorem fenced_closed (passed kept : List SupervisorGrantFence) :
    Program.Closed (fun n : Note => n.passed = passed ∧ n.kept = kept) spares
      (fun k _ => ∀ id, k ≠ .grant id)
      fun program : Prog => ∀ n, n.passed = passed ∧ n.kept = kept → Fenced n program where
  note noted rest _ here := .note (noted.1.trans here.1.symm) (noted.2.trans here.2.symm) (rest _ noted)
  lock rest n here := .lock (rest n here)
  select rest n here := .select fun seen => rest seen n here
  share rest n here := .share fun seen => rest seen n here
  update within rest n here := .update within fun seen rows => rest seen rows n here
  insert bears rest otherwise n here := .insert bears (rest n here) (otherwise n here)
  finish result _ _ := .finish result
  abort result _ _ := .abort result

theorem fenced_of_keeps
    (keeps : program.Keeps (fun m => m.passed = n.passed ∧ m.kept = n.kept) spares
      fun k _ => ∀ id, k ≠ .grant id) : Fenced n program :=
  (fenced_closed n.passed n.kept).of_keeps keeps n ⟨rfl, rfl⟩

theorem rotateBearerTx_fenced : Fenced n (rotateBearerTx env input) := by
  refine fenced_of_keeps fun seen => ?_
  dsimp only
  split
  · trivial
  · exact And.intro (within_atKey fun v v' made => by cases made; exact ⟨⟨rfl, rfl⟩, trivial⟩)
      fun _ _ => And.intro nofun (And.intro trivial trivial)

/-- The rotation of a bearer asserts one fence at most. -/
theorem rotateRoomAgentSessionBearer_fenced :
    Fenced {} (rotateRoomAgentSessionBearer env input) := by
  rw [rotateRoomAgentSessionBearer]
  split
  · exact rotateBearerTx_fenced
  · exact .pass rotateBearerTx_fenced (.abort _)

/-- The grant is the fenced one, and not revoked. -/
def holdsIn (fence : SupervisorGrantFence) (rows : Rows Row) : Prop :=
  ∃ grant : SupervisorGrant, rows (.grant fence.grant_id) = some grant ∧
    (grant.current_generation = fence.generation ∧ grant.token_version = fence.token_version ∧
      grant.revoked_at = none)

/-! ## The calls -/

inductive GrantCall
  | createSupervisorHostGrant (input : CreateSupervisorHostGrantInput)
  | rotateSupervisorHostGrant (input : RotateSupervisorHostGrantInput)
  | advanceSupervisorHostGrantGeneration (input : AdvanceSupervisorHostGrantInput)
  | revokeSupervisorHostGrant (grant_id owner_account_id : String) (now : Nat)
  | fenced (transaction : Prog) (fences : Fenced {} transaction)

variable {id : String} {v v' : SupervisorGrant} {fence : SupervisorGrantFence}
  {f : Footing Row LockKey} {p : Commit GrantCall}

namespace GrantCall

def program (env : Externals) : GrantCall → Prog
  | .createSupervisorHostGrant input => Coordination.createSupervisorHostGrant env input
  | .rotateSupervisorHostGrant input => Coordination.rotateSupervisorHostGrant env input
  | .advanceSupervisorHostGrantGeneration input =>
    Coordination.advanceSupervisorHostGrantGeneration env input
  | .revokeSupervisorHostGrant grant_id owner_account_id now =>
    Coordination.revokeSupervisorHostGrant grant_id owner_account_id now
  | .fenced transaction _ => transaction

/-- The grant whose lock the call takes for its write. -/
def serialized : GrantCall → Option String
  | .rotateSupervisorHostGrant input => some input.grant_id
  | .advanceSupervisorHostGrantGeneration input => some input.grant_id
  | .revokeSupervisorHostGrant grant_id _ _ => some grant_id
  | _ => none

/-- What the calls make of a grant. -/
def law : GrantCall → String → SupervisorGrant → SupervisorGrant → Prop
  | .createSupervisorHostGrant _, _, v, v' =>
    v'.current_generation = v.current_generation ∧ v.token_version < v'.token_version
  | .rotateSupervisorHostGrant input, id, v, v' =>
    id = input.grant_id ∧ v'.current_generation = v.current_generation ∧
      v'.token_version = input.expected_token_version + 1
  | .advanceSupervisorHostGrantGeneration input, id, v, v' =>
    id = input.grant_id ∧ v.current_generation ≤ v'.current_generation ∧
      v.token_version < v'.token_version
  | .revokeSupervisorHostGrant grant_id _ _, id, v, v' =>
    id = grant_id ∧ v'.current_generation = v.current_generation ∧
      v'.token_version = v.token_version ∧ v'.token_hash = v.token_hash
  | .fenced _ _, _, v, v' => v' = v

def bears : GrantCall → Key → Prop
  | .createSupervisorHostGrant _, k => ∃ id, k = .grant id
  | .fenced _ _, k => ∀ id, k ≠ .grant id
  | _, _ => False

theorem law_trans {c : GrantCall} (first : c.law id v v') (second : c.law id v' v'') :
    c.law id v v'' := by
  cases c with
  | createSupervisorHostGrant => exact ⟨second.1.trans first.1, first.2.trans second.2⟩
  | rotateSupervisorHostGrant => exact ⟨first.1, second.2.1.trans first.2.1, second.2.2⟩
  | advanceSupervisorHostGrantGeneration =>
    exact ⟨first.1, first.2.1.trans second.2.1, first.2.2.trans second.2.2⟩
  | revokeSupervisorHostGrant =>
    exact ⟨first.1, second.2.1.trans first.2.1, second.2.2.1.trans first.2.2.1,
      second.2.2.2.trans first.2.2.2⟩
  | fenced => exact Eq.trans second first

end GrantCall

abbrev grants (env : Externals) : System Row GrantCall LockKey Note Outcome :=
  server (GrantCall.program env)

/-- A commit under the lock of a grant holds it; a fenced commit finds its fences. -/
def fencedCommit (p : Commit GrantCall) : Prop :=
  match p.call with
  | .fenced _ _ => ∀ fence ∈ p.note.passed ++ p.note.kept, holdsIn fence p.footing.base
  | _ => ∀ id ∈ p.call.serialized, .supervisorGrant id ∈ p.footing.held

/-- A rotation finds the token version that it checked. -/
def rotatesChecked (p : Commit GrantCall) : Bool :=
  match p.call with
  | .rotateSupervisorHostGrant input =>
    !decide (Changes p (.grant input.grant_id)) ||
      (p.footing.base (.grant input.grant_id)).all fun grant : SupervisorGrant =>
        grant.token_version = input.expected_token_version
  | _ => true

/-- A recovery leaves alone the grants whose fence another call in flight has passed
without a lock on the row. -/
def recoversApart (p : Commit GrantCall) (_ : GrantCall) (n : Note) : Bool :=
  match p.call with
  | .createSupervisorHostGrant _ => n.passed.all fun fence => !decide (Changes p (.grant fence.grant_id))
  | _ => true

def grantDiscipline (env : Externals) : Discipline (grants env) :=
  discipline (GrantCall.program env) (fun c => onGrants c.law) (fun c k _ => c.bears k)
    (fun _ => True) fencedCommit (fun p => rotatesChecked p = true)
    (fun p c n => recoversApart p c n = true)
    (fun {c _ _ _ _} => onGrants_trans (P := c.law) fun _ _ _ _ => GrantCall.law_trans)
    fun born _ _ => born

section Outlines

variable {env : Externals} {c : GrantCall} {n : Note}

/-! ### The fenced transactions -/

/-- Under the locks of the grants, the fences hold. -/
def knows (passed kept : List SupervisorGrantFence) (f : Footing Row LockKey) : Prop :=
  (∀ fence ∈ passed, .supervisorGrant fence.grant_id ∈ f.held ∧ holdsIn fence f.base) ∧
    ∀ fence ∈ kept, .grant fence.grant_id ∈ f.shared ∧ holdsIn fence f.base

theorem holdsIn_of_eq (holds : holdsIn fence rows)
    (same : rows' (.grant fence.grant_id) = rows (.grant fence.grant_id)) :
    holdsIn fence rows' := by
  obtain ⟨grant, has, current⟩ := holds
  exact ⟨grant, same.trans has, current⟩

/-- Others that leave the recoveries out change no grant that is locked. -/
theorem unchanged_of_held (elsewhere : (grantDiscipline env).Elsewhere f p)
    (held : .supervisorGrant id ∈ f.held)
    (apart : ∀ input, p.call = .createSupervisorHostGrant input → ¬Changes p (.grant id)) :
    ¬Changes p (.grant id) := by
  rintro ⟨v', is, changed⟩
  have promised : fencedCommit p := elsewhere.guarantee
  have law : ∀ v : SupervisorGrant, p.footing.base (.grant id) = some v → p.call.law id v v' :=
    fun v was => (elsewhere.lawful.of_base was is).2
  have free : ∀ other ∈ p.call.serialized, other ≠ id := by
    rintro other serial rfl
    cases call : p.call with
    | createSupervisorHostGrant | fenced => rw [call] at serial; cases serial
    | _ =>
      rw [fencedCommit, call] at promised
      rw [call] at serial
      exact elsewhere.held _ (promised other serial) held
  rcases elsewhere.lawful is with ⟨v, was, _⟩ | ⟨absent, born⟩
  · have kept := law v was
    cases call : p.call with
    | createSupervisorHostGrant input => exact apart input call ⟨v', is, changed⟩
    | fenced =>
      rw [call] at kept
      exact changed (was.trans (congrArg some kept.symm))
    | rotateSupervisorHostGrant | advanceSupervisorHostGrantGeneration
    | revokeSupervisorHostGrant =>
      rw [call] at kept free
      exact free _ rfl kept.1.symm
  · change p.call.bears (.grant id) at born
    cases call : p.call with
    | createSupervisorHostGrant input => exact apart input call ⟨v', is, changed⟩
    | fenced =>
      rw [call] at born
      exact born id rfl
    | _ => rw [call] at born; exact born

theorem knows_stable : (grantDiscipline env).Stable c n (knows n.passed n.kept) := by
  rintro f p ⟨passed, kept⟩ _ elsewhere apart
  have under : f.base = p.footing.base := elsewhere.base.symm
  refine ⟨fun fence member => ?_, fun fence member => ?_⟩
  · obtain ⟨held, holds⟩ := passed fence member
    refine ⟨held, holdsIn_of_eq holds ?_⟩
    have unchanged : ¬Changes p (.grant fence.grant_id) := by
      refine unchanged_of_held elsewhere held fun input call => ?_
      have apart : recoversApart p c n = true := apart
      rw [recoversApart, call] at apart
      simpa using List.all_eq_true.mp apart fence member
    rw [under]
    exact over_of_unchanged unchanged
  · obtain ⟨shared, holds⟩ := kept fence member
    refine ⟨shared, holdsIn_of_eq holds (Rows.over_of_none ?_)⟩
    by_contra published
    obtain ⟨row, is⟩ := Option.ne_none_iff_exists'.mp published
    exact (elsewhere.rows is).2 shared

/-- A fenced transaction sees the grants as they are committed. -/
theorem view_grant (proper : (grantDiscipline env).Proper (.fenced transaction fences) f)
    (id : String) : f.view (.grant id) = f.base (.grant id) := by
  cases own : f.written (.grant id) with
  | none => exact Rows.over_of_none own
  | some v' =>
    rcases proper.lawful own with ⟨v, was, law⟩ | ⟨_, born⟩
    · have same : v' = v := law.2
      exact (Rows.over_of_some own).trans ((congrArg some same).trans was.symm)
    · exact absurd rfl (born id)

theorem holdsIn_of_fence (has : rows (.grant fence.grant_id) = some grant)
    (holds : fence.holds now grant = true) : holdsIn fence rows := by
  simp only [SupervisorGrantFence.holds, Bool.and_eq_true, decide_eq_true_eq,
    Option.isNone_iff_eq_none] at holds
  exact ⟨grant, has, holds.1.1.1, holds.1.1.2, holds.1.2⟩

theorem knows_share (here : knows passed kept f) (rows : List Key) :
    knows passed kept (f.share rows) :=
  ⟨here.1, fun fence member =>
    ⟨List.mem_append_right _ (here.2 fence member).1, (here.2 fence member).2⟩⟩

/-- The same as the lock of one more grant is taken. -/
def locked (fence : SupervisorGrantFence) (n : Note) (f : Footing Row LockKey) : Prop :=
  knows n.passed n.kept f ∧ .supervisorGrant fence.grant_id ∈ f.held

theorem locked_stable : (grantDiscipline env).Stable c n (locked fence n) :=
  knows_stable.and (stable_own c n fun _ _ held => LockKey.supervisorGrant fence.grant_id ∈ held)

theorem knows_hold (here : knows n.passed n.kept f) :
    locked fence n (f.hold (.supervisorGrant fence.grant_id)) :=
  ⟨⟨fun other member => ⟨.tail _ (here.1 other member).1, (here.1 other member).2⟩,
    here.2⟩, .head _⟩

theorem fenced_outline (fenced : Fenced n program) :
    (grantDiscipline env).Outline (.fenced transaction fences) program n
      (knows n.passed n.kept) := by
  induction fenced with
  | note passed kept rest ih =>
    rw [passed, kept] at ih
    exact ih
  | lock rest ih =>
    exact Outline.lock knows_stable (fun f here =>
      ⟨fun fence member => ⟨.tail _ (here.1 fence member).1,
        (here.1 fence member).2⟩, here.2⟩) ih
  | select rest ih => exact Outline.glance knows_stable ih
  | @share n target next rest ih =>
    exact Outline.share knows_stable fun f keys here _ _ =>
      ⟨knows n.passed n.kept, knows_share here _, ih _⟩
  | @update n change next within rest ih =>
    exact Outline.update knows_stable (fun _ _ _ k v v' _ made => within k v v' made)
      fun f keys here _ _ => ⟨knows n.passed n.kept, here, ih _ _⟩
  | @insert n k row next conflict apart rest otherwise ih ih' =>
    exact Outline.insert knows_stable apart
      (fun f keys here _ _ _ => ⟨knows n.passed n.kept, here, ih⟩)
      fun f keys here _ _ _ => ⟨knows n.passed n.kept, here, ih'⟩
  | @finish n result =>
    refine Outline.finish knows_stable fun f here _ _ => ⟨fun fence member => ?_, trivial⟩
    rcases List.mem_append.mp member with passed | kept
    · exact (here.1 fence passed).2
    · exact (here.2 fence kept).2
  | abort result => exact Outline.abort
  | @pass n fence now passed refused rest otherwise ih ih' =>
    refine Outline.lock (B := locked fence n) knows_stable (fun f here => knows_hold here)
      (Outline.select locked_stable fun f keys here proper _ => ?_)
    dsimp only
    split
    · rename_i fenced
      rw [view_grant proper] at fenced
      obtain ⟨grant, has, holds⟩ := (Option.any_eq_true _ _).mp fenced
      exact ⟨knows (fence :: n.passed) n.kept,
        ⟨List.forall_mem_cons.mpr ⟨⟨here.2, holdsIn_of_fence has holds⟩, here.1.1⟩, here.1.2⟩, ih⟩
    · exact ⟨knows n.passed n.kept, here.1, ih'⟩
  | @keep n fence now checked_at kept refused rest otherwise ih ih' =>
    refine Outline.lock (B := locked fence n) knows_stable (fun f here => knows_hold here)
      (Outline.select locked_stable fun f keys here proper _ => ?_)
    refine ⟨knows n.passed n.kept, here.1, ?_⟩
    dsimp only
    split
    · exact ih'
    refine Outline.share knows_stable fun f keys here proper lists => ?_
    dsimp only
    split
    · exact ⟨_, knows_share here _, ih'⟩
    · rename_i grant found
      obtain ⟨has, holds⟩ := Option.filter_eq_some_iff.mp found
      have shared : .grant fence.grant_id ∈ targeted
          (fun k _ => decide (k = .grant fence.grant_id)) ⟨f.view, keys⟩ :=
        mem_targeted (lists.1 _ (by rw [has]; nofun)) has (decide_eq_true rfl)
      rw [view_grant proper] at has
      exact ⟨knows n.passed (fence :: n.kept), ⟨here.1, List.forall_mem_cons.mpr
        ⟨⟨List.mem_append_left _ shared, holdsIn_of_fence has holds⟩, (knows_share here _).2⟩⟩, ih grant⟩

/-! ### The grant transactions -/

theorem recover_law (id : String) (made : input.recover env active v = some v') :
    (GrantCall.createSupervisorHostGrant input).law id v v' := by
  obtain ⟨current, _, rfl⟩ := recover_spec made
  exact ⟨rfl, by simp [current]⟩

theorem rotate_law (made : rotate env input v = some v') :
    (GrantCall.rotateSupervisorHostGrant input).law input.grant_id v v' := by
  obtain rfl := rotate_spec made
  exact ⟨rfl, rfl, rfl⟩

theorem advance_law (made : advance env input v = some v') :
    (GrantCall.advanceSupervisorHostGrantGeneration input).law input.grant_id v v' := by
  obtain ⟨current, rfl⟩ := advance_spec made
  simp only [grantCurrent, Bool.and_eq_true, decide_eq_true_eq] at current
  obtain ⟨⟨⟨generation, token⟩, _⟩, _⟩ := current
  exact ⟨rfl, by simp [generation], by simp [token]⟩

theorem revoke_law (made : revokeGrant owner_account_id now v = some v') :
    (GrantCall.revokeSupervisorHostGrant grant_id owner_account_id now).law grant_id v v' := by
  obtain ⟨_, rfl⟩ := revokeGrant_spec made
  exact ⟨rfl, rfl, rfl, rfl⟩

/-- A commit under the lock of its grant. -/
theorem publish_held (call : p.call = c)
    (unfenced : ∀ transaction fences, c ≠ .fenced transaction fences)
    (serial : ∀ other ∈ c.serialized, other = id) (held : .supervisorGrant id ∈ p.footing.held) :
    (grantDiscipline env).guarantee p ∧ (grantDiscipline env).invariant p.footing.view := by
  subst call
  have promised : fencedCommit p := by
    cases call : p.call with
    | fenced transaction fences => exact absurd call (unfenced transaction fences)
    | _ =>
      rw [fencedCommit, call]
      intro other named
      exact serial other (call ▸ named) ▸ held
  exact ⟨promised, trivial⟩

theorem grants_outlined : (grantDiscipline env).Outlined := by
  intro c
  cases c with
  | createSupervisorHostGrant input =>
    refine outline_of_laws (createSupervisorHostGrant_keeps (fun id active v v' made =>
      And.intro (recover_keepsIndexes id made) (recover_law id made)) ⟨_, rfl⟩) ?_
    intro p call _ _ _
    have promised : fencedCommit p := by
      rw [fencedCommit, call]
      nofun
    exact ⟨promised, trivial⟩
  | rotateSupervisorHostGrant input =>
    refine outline_of_lock (rotateSupervisorHostGrant_keeps fun v v' made =>
      And.intro (rotate_keepsIndexes _ made) (rotate_law made)) ?_
    exact fun p call _ held _ _ => publish_held call nofun (fun _ named => (Option.some.inj named).symm) held
  | advanceSupervisorHostGrantGeneration input =>
    refine outline_of_lock (advanceSupervisorHostGrantGeneration_keeps fun v v' made =>
      And.intro (advance_keepsIndexes _ made) (advance_law made)) ?_
    exact fun p call _ held _ _ => publish_held call nofun (fun _ named => (Option.some.inj named).symm) held
  | revokeSupervisorHostGrant grant_id owner_account_id now =>
    refine outline_of_lock (revokeSupervisorHostGrant_keeps fun v v' made =>
      And.intro (revokeGrant_keepsIndexes _ made) (revoke_law made)) ?_
    exact fun p call _ held _ _ => publish_held call nofun (fun _ named => (Option.some.inj named).symm) held
  | fenced transaction fences =>
    exact (fenced_outline fences).of_idle fun _ _ => ⟨nofun, nofun⟩

end Outlines

/-! ## The runs -/

/-- A grant that `getSupervisorHostGrantByToken` accepts the token for. -/
def acceptsGrant (env : Externals) (rows : Rows Row) (token : String) (now : Nat) (id : String) :
    Prop :=
  ∃ grant : SupervisorGrant, rows (.grant id) = some grant ∧
    grant.token_hash = env.sha256 token ∧ grant.revoked_at = none ∧ now < grant.expires_at

/-- What the fence of a grant keeps. -/
structure GrantsFenced (env : Externals) (published : List (Commit GrantCall))
    (s : State Row GrantCall LockKey Note Outcome) : Prop where
  /-- a fenced transaction commits while its fences hold -/
  fenced : ∀ p ∈ published, ∀ transaction fences, p.call = .fenced transaction fences →
    ∀ fence ∈ p.note.passed ++ p.note.kept, holdsIn fence p.footing.base
  /-- neither number goes back, and another token has a greater version -/
  versions : ∀ p ∈ published, ∀ (id : String) (v v' : SupervisorGrant),
    p.footing.base (.grant id) = some v → p.rows (.grant id) = some v' →
      v.current_generation ≤ v'.current_generation ∧ v.token_version ≤ v'.token_version ∧
        (v'.token_hash ≠ v.token_hash → v.token_version < v'.token_version)
  /-- a host has one grant in force for a scope -/
  single : ∀ (id id' : String) (v v' : SupervisorGrant), s.base (.grant id) = some v →
    s.base (.grant id') = some v' → v.revoked_at = none → v'.revoked_at = none →
      v.owner_account_id = v'.owner_account_id → v.host_id = v'.host_id →
        v.installation_id = v'.installation_id → v.scope_key = v'.scope_key → id = id'
  accepted : ∀ (id token token' : String) (now now' : Nat), acceptsGrant env s.base token now id →
    acceptsGrant env s.base token' now' id → token = token'

section Runs

variable {env : Externals}

theorem versions_of_honoured (honoured : (grantDiscipline env).Honoured p)
    (was : p.footing.base (.grant id) = some v) (is : p.rows (.grant id) = some v') :
    v.current_generation ≤ v'.current_generation ∧ v.token_version ≤ v'.token_version ∧
      (v'.token_hash ≠ v.token_hash → v.token_version < v'.token_version) := by
  have law : p.call.law id v v' := (honoured.lawful.of_base was is).2
  cases call : p.call with
  | createSupervisorHostGrant input =>
    rw [call] at law
    exact ⟨law.1.ge, law.2.le, fun _ => law.2⟩
  | rotateSupervisorHostGrant input =>
    rw [call] at law
    obtain ⟨rfl, generation, version⟩ := law
    have checked : rotatesChecked p = true := honoured.meets
    by_cases changed : Changes p (.grant input.grant_id)
    · rw [rotatesChecked, call] at checked
      simp only [changed, decide_true, Bool.not_true, Bool.false_or, was, Option.all_some,
        decide_eq_true_eq] at checked
      exact ⟨generation.ge, by omega, fun _ => by omega⟩
    · obtain rfl : v' = v := by
        by_contra other
        exact changed ⟨v', is, fun same => other (Option.some.inj (same.symm.trans was))⟩
      exact ⟨le_rfl, le_rfl, fun other => absurd rfl other⟩
  | advanceSupervisorHostGrantGeneration input =>
    rw [call] at law
    exact ⟨law.2.1, law.2.2.le, fun _ => law.2.2⟩
  | revokeSupervisorHostGrant grant_id owner_account_id now =>
    rw [call] at law
    obtain ⟨_, generation, version, same⟩ := law
    exact ⟨generation.ge, version.ge, fun other => absurd same other⟩
  | fenced transaction fences =>
    rw [call] at law
    obtain rfl : v' = v := law
    exact ⟨le_rfl, le_rfl, fun other => absurd rfl other⟩

theorem grants_fenced (env : Externals) (collisionFree : Function.Injective env.sha256)
    (db : Database (grants env)) {published : List (Commit GrantCall)}
    {s : State Row GrantCall LockKey Note Outcome}
    (run : (grants env).Run ((grants env).Admitted (fun p => rotatesChecked p = true)
      fun p c n => recoversApart p c n = true) db.state published s) :
    GrantsFenced env published s := by
  obtain ⟨inv, honoured⟩ := outlined_run (d := grantDiscipline env) grants_outlined trivial run
  constructor
  · intro p member transaction fences call
    have promised : fencedCommit p := (honoured p member).guarantee
    rwa [fencedCommit, call] at promised
  · exact fun p member id v v' was is => versions_of_honoured (honoured p member) was is
  · intro id id' v v' has has' live live' owner host installation scope
    by_contra other
    have distinct : Key.grant id ≠ .grant id' := fun same => other (Key.grant.inj same)
    have apart : clash (.grant id) v (.grant id') v' = false := inv.base distinct has has'
    simp [clash, live, live', owner, host, installation, scope] at apart
  · rintro id token token' now now' ⟨v, has, hash, _⟩ ⟨v', has', hash', _⟩
    rw [has] at has'
    cases has'
    exact collisionFree (hash.symm.trans hash')

end Runs

/-! ### Runs on fixed inputs -/

/-- SHA-256 on the tokens of these runs. -/
def digests : Externals where
  sha256 :=
    Equiv.swap "first" "a7937b64b8caa58f03721bb6bacf5c78cb235febe0e70b1b84cd99541461a08e" ∘
      Equiv.swap "second" "16367aacb67a4a017c8da8ab95682ccb390863780f7114dda0a0e0c55644c7c4"
  normalizeTaskWorkflowArtifacts artifacts _ := artifacts
  synchronizeTaskWorkflowArtifactsWithPrUrl artifacts _ _ := artifacts

theorem digests_injective : Function.Injective digests.sha256 :=
  (Equiv.injective _).comp (Equiv.injective _)

/-- The owner's host asks for its credential. -/
def provision (token : String) : CreateSupervisorHostGrantInput where
  owner_account_id := "owner"
  host_id := "host"
  installation_id := "installation"
  allowed_room_ids := ["room"]
  allowed_agent_keys := ["ada"]
  expires_at := 1000
  scope_key := none
  rental_session_id := none
  grant_id := "grant"
  token := token

def supervisedBearer : Bearer where
  session_id := "session"
  room_id := "room"
  supervisor_grant_id := some "grant"
  token_hash := "hash"
  generation := 1
  capabilities := []
  expires_at := 1000
  revoked_at := none
  rotated_from_bearer_id := none

def provisionedStore : Database (grants digests) :=
  let symm := fun {k v k' v'} => clash_symm k v k' v'
  (Database.empty.add symm (.grant "grant") ((provision "first").record digests) (by decide)).add symm
    (.bearer "bearer") supervisedBearer (by decide)

def rotateUnderFence : RotateBearerInput where
  bearer_id := "bearer"
  session_id := some "session"
  capabilities := none
  expires_at := none
  supervisor_grant_id := some "grant"
  supervisor_grant_fence := some ⟨"grant", 1, 1⟩
  next_id := "next"
  token := "worker"
  bearerTtl := 100
  fenced_at := 10
  now := 12

def fencedRotation : GrantCall :=
  .fenced (rotateRoomAgentSessionBearer digests rotateUnderFence) rotateRoomAgentSessionBearer_fenced

/-- A fence of the commit does not hold where it commits. -/
def fenceBroken (p : Commit GrantCall) : Bool :=
  match p.call with
  | .fenced _ _ => p.note.passed.any fun fence =>
    (p.footing.base (.grant fence.grant_id)).any fun grant : SupervisorGrant =>
      grant.token_version ≠ fence.token_version
  | _ => false

/-- The grant is recovered between the assertion of its fence and the commit. -/
theorem recovered_under_fence :
    ¬∀ (env : Externals) (db : Database (grants env)) (published : List (Commit GrantCall))
      (s : State Row GrantCall LockKey Note Outcome), Function.Injective env.sha256 →
        (grants env).Run (fun _ _ => True) db.state published s → GrantsFenced env published s := by
  intro all
  have found : ((grants digests).replay (fun _ _ => True) provisionedStore.state
      ([.start fencedRotation, .run 0, .run 0,
        .start (.createSupervisorHostGrant (provision "second"))] ++
          List.replicate 4 (.run 1) ++ List.replicate 5 (.run 0))).any
      (fun r => r.1.any fenceBroken) = true := by
    decide +kernel
  obtain ⟨published, s, run, checked⟩ := System.exists_run found
  obtain ⟨p, member, broken⟩ := List.any_eq_true.mp checked
  have kept := (all digests provisionedStore published s digests_injective run).fenced p member
  rw [fenceBroken] at broken
  split at broken
  · rename_i transaction fences call
    obtain ⟨fence, passed, other⟩ := List.any_eq_true.mp broken
    obtain ⟨grant, has, moved⟩ := (Option.any_eq_true _ _).mp other
    obtain ⟨grant', has', _, version, _⟩ :=
      kept transaction fences call fence (List.mem_append_left _ passed)
    rw [has] at has'
    cases has'
    exact absurd version (of_decide_eq_true moved)
  · cases broken

/-- A rotation of the token waits for the fenced transaction. -/
theorem rotation_follows_fence :
    ∃ published s, (grants digests).Run ((grants digests).Admitted
        (fun p => rotatesChecked p = true) fun p c n => recoversApart p c n = true)
        provisionedStore.state published s ∧ published.length = 2 ∧
      (s.base (.grant "grant")).any (fun grant : SupervisorGrant => grant.token_version = 2) = true ∧
        GrantsFenced digests published s := by
  have found : ((grants digests).replay ((grants digests).Admitted
      (fun p => rotatesChecked p = true) fun p c n => recoversApart p c n = true)
      provisionedStore.state
      ([.start fencedRotation, .run 0, .run 0,
        .start (.rotateSupervisorHostGrant
          { grant_id := "grant", expected_generation := 1, expected_token_version := 1,
            expires_at := 2000, token := "second", now := 11 })] ++
          List.replicate 5 (.run 0) ++ List.replicate 4 (.run 1))).any
      (fun r => r.1.length = 2 && (r.2.base (.grant "grant")).any fun grant : SupervisorGrant =>
        grant.token_version = 2) = true := by
    decide +kernel
  obtain ⟨published, s, run, checked⟩ := System.exists_run found
  rw [Bool.and_eq_true, decide_eq_true_eq] at checked
  exact ⟨published, s, run, checked.1, checked.2,
    grants_fenced digests digests_injective provisionedStore run⟩

end LetAgents.Coordination.GrantFences

import LetAgents.Coordination.GrantFootprints
import LetAgents.Coordination.TaskFootprints

/-!
# Lease rebind

A rebind moves a work lease from a session that has ended to its successor, against one
attestation of the end. The lease's epoch is the fence: it only grows, and each rebind
raises the one it expects.
-/
namespace LetAgents.Coordination

open Lib.ReadCommitted Lib.ReadCommitted.Discipline

inductive RebindCall
  | recordRebindAttestation (input : RecordRebindAttestationInput)
  | rebindTaskLease (input : RebindTaskLeaseInput)
  | createSupervisorHostGrant (input : CreateSupervisorHostGrantInput)
  | rotateSupervisorHostGrant (input : RotateSupervisorHostGrantInput)
  | advanceSupervisorHostGrantGeneration (input : AdvanceSupervisorHostGrantInput)
  | revokeSupervisorHostGrant (grant_id owner_account_id : String) (now : Nat)
  | updateTask (input : UpdateTaskInput)
  | releaseTaskLease (room_id lease_id : String) (fence : ReleaseFence) (now : Nat)
  | revokeTaskLease (room_id lease_id revoked_reason : String) (now : Nat)
  | applyTaskWorkLeaseAction (input : TaskWorkLeaseActionInput)
  | expireStaleTaskLeases (room_id : String) (now : Nat)

namespace RebindCall

def program (env : Externals) : RebindCall → Prog
  | .recordRebindAttestation input => Coordination.recordRebindAttestation input
  | .rebindTaskLease input => Coordination.rebindTaskLease input
  | .createSupervisorHostGrant input => Coordination.createSupervisorHostGrant env input
  | .rotateSupervisorHostGrant input => Coordination.rotateSupervisorHostGrant env input
  | .advanceSupervisorHostGrantGeneration input =>
    Coordination.advanceSupervisorHostGrantGeneration env input
  | .revokeSupervisorHostGrant grant_id owner_account_id now =>
    Coordination.revokeSupervisorHostGrant grant_id owner_account_id now
  | .updateTask input => Coordination.updateTask env input
  | .releaseTaskLease room_id lease_id fence now =>
    Coordination.releaseTaskLease room_id lease_id fence now
  | .revokeTaskLease room_id lease_id revoked_reason now =>
    Coordination.revokeTaskLease room_id lease_id revoked_reason now
  | .applyTaskWorkLeaseAction input => Coordination.applyTaskWorkLeaseAction env input
  | .expireStaleTaskLeases room_id now => Coordination.expireStaleTaskLeases room_id now

end RebindCall

/-- The evidence of an attestation: all of it but the consumption. -/
def RebindAttestation.evidence (attestation : RebindAttestation) : RebindAttestation :=
  { attestation with consumed_at := none, consumed_by_epoch := none }

/-- The lease is held as before. -/
def sameHolder (v v' : TaskLease) : Prop :=
  v'.epoch = v.epoch ∧ v'.agent_session_id = v.agent_session_id ∧ v'.agent_key = v.agent_key

/-- Only a rebind moves its lease and consumes its attestation; no call writes a session. -/
def RebindCall.law : RebindCall → ∀ k, Row k → Row k → Prop
  | .rebindTaskLease input, .lease id, v, v' => id = input.lease_id ∧ v.epoch ≤ v'.epoch
  | .rebindTaskLease input, .attestation id, v, v' =>
    id = input.attestation_id ∧ v'.evidence = v.evidence
  | _, .lease _, v, v' => sameHolder v v'
  | _, .attestation _, _, _ => False
  | _, .session _, v, v' => v' = v
  | _, _, _, _ => True

variable {c : RebindCall} {lease : TaskLease} {id : String} {attestation : RebindAttestation}
  {input : RebindTaskLeaseInput}

theorem RebindCall.law_trans (first : c.law k v v') (second : c.law k v' v'') : c.law k v v'' := by
  cases k with
  | lease id => cases c <;> (simp only [law, sameHolder] at first second ⊢; grind)
  | attestation id | session id => cases c <;> simp only [law] at first second ⊢ <;> grind
  | _ => cases c <;> trivial

/-- New leases come from updates and lease actions, attestations from their recording. -/
def RebindCall.born : RebindCall → ∀ k, Row k → Prop
  | .updateTask _, .lease _, _ | .applyTaskWorkLeaseAction _, .lease _, _ => True
  | .createSupervisorHostGrant _, .grant _, _ => True
  | .recordRebindAttestation input, .attestation id, row => id = input.id ∧ ∃ lease, row = input.row lease
  | _, _, _ => False

abbrev rebinds (env : Externals) : System Row RebindCall LockKey Note Outcome :=
  server (RebindCall.program env)

/-! ## What a ok is -/

/-- The lease, its sessions and the attestation at the commit of a rebind. -/
structure Rebound (input : RebindTaskLeaseInput) (p : Commit RebindCall) (lease lease' : TaskLease)
    (fromSession toSession : AgentSession) (attestation attestation' : RebindAttestation) : Prop where
  was : p.footing.base (.lease input.lease_id) = some lease
  is : p.rows (.lease input.lease_id) = some lease'
  active : lease.status = .active
  expected : lease.epoch = input.expected_epoch
  held : lease.agent_session_id = some input.from_agent_session_id
  moved : lease' = { lease with
    agent_session_id := some input.to_agent_session_id
    agent_key := toSession.agent_key
    agent_instance_id := toSession.agent_instance_id
    actor_label := toSession.actor_label
    epoch := lease.epoch + 1
    updated_at := input.now
    last_heartbeat_at := some input.now }
  predecessor : p.footing.base (.session input.from_agent_session_id) = some fromSession
  successor : p.footing.base (.session input.to_agent_session_id) = some toSession
  live : toSession.ended_at = none
  worker : toSession.session_kind = .worker
  agent : fromSession.agent_key = lease.agent_key ∧ toSession.agent_key = lease.agent_key
  room : fromSession.room_id = lease.room_id ∧ toSession.room_id = lease.room_id
  owner : toSession.owner_account_id = fromSession.owner_account_id
  grant : fromSession.supervisor_grant_id = some input.supervisor_grant_fence.grant_id ∧
    toSession.supervisor_grant_id = some input.supervisor_grant_fence.grant_id
  after : ∃ ended_at, fromSession.ended_at = some ended_at ∧ ended_at < toSession.created_at
  pending : p.footing.base (.attestation input.attestation_id) = some attestation
  consumed : p.rows (.attestation input.attestation_id) = some attestation'
  fresh : attestation.consumed_at = none ∧ attestation'.consumed_at ≠ none
  evidence : attestation.lease_id = input.lease_id ∧ attestation.epoch = input.expected_epoch ∧
    attestation.from_agent_session_id = input.from_agent_session_id ∧
    attestation.grant_id = input.supervisor_grant_fence.grant_id ∧
    attestation.work_attempt_id = input.work_attempt_id ∧
    attestation.execution_generation_id = input.execution_generation_id

/-- A rebind commits nothing but a ok. -/
def rebindsOnly (p : Commit RebindCall) : Prop :=
  match p.call with
  | .rebindTaskLease input =>
    .taskLease input.lease_id ∈ p.footing.held ∧ p.result = some .done ∧
      ∃ lease lease' fromSession toSession attestation attestation',
        Rebound input p lease lease' fromSession toSession attestation attestation'
  | _ => True

def rebindDiscipline (env : Externals) : Discipline (rebinds env) :=
  discipline (RebindCall.program env) RebindCall.law RebindCall.born (fun _ => True) rebindsOnly
    (fun _ => True) (fun _ _ _ => True) RebindCall.law_trans
    (fun {c k v v'} born _ law => by
      cases c <;> cases k <;> first | exact born | exact law.elim)

section Outlines

variable {env : Externals}

/-! ### What stays while a rebind is in flight -/

section Knowledge

variable {c : RebindCall} {n : Note}

theorem session_stable (id : String) (session : AgentSession) :
    (rebindDiscipline env).Stable c n fun f => ∃ v, f.base (.session id) = some v ∧ v = session :=
  stable_of_law c n fun c' v v' law here => by
    have same : v' = v := by
      obtain ⟨_, law⟩ := law
      cases c' <;> exact law
    exact same.trans here

theorem evidence_stable (id : String) (evidence : RebindAttestation) :
    (rebindDiscipline env).Stable c n fun f =>
      ∃ v : RebindAttestation, f.base (.attestation id) = some v ∧ v.evidence = evidence :=
  stable_of_law (k := Key.attestation id) c n fun c' v v' law here => by
    have same : RebindAttestation.evidence v' = RebindAttestation.evidence v := by
      obtain ⟨_, law⟩ := law
      cases c' <;> first | exact law.2 | exact law.elim
    exact same.trans here

/-- The lock of the lease keeps its agent, and a lease keeps its room. -/
theorem lease_stable (id agent_key room_id : String) :
    (rebindDiscipline env).Stable c n fun f => .taskLease id ∈ f.held ∧
      ∃ v : TaskLease, f.base (.lease id) = some v ∧ v.agent_key = agent_key ∧
        v.room_id = room_id := by
  rintro f p ⟨held, v, has, agent, room⟩ _ elsewhere _
  refine ⟨held, ?_⟩
  cases published : p.rows (.lease id) with
  | none => exact ⟨v, (Rows.over_of_none published).trans has, agent, room⟩
  | some v' =>
    refine ⟨v', Rows.over_of_some published, ?_⟩
    obtain ⟨keeps, law⟩ := elsewhere.lawful.of_base ((congrFun elsewhere.base _).trans has) published
    have promised : rebindsOnly p := elsewhere.guarantee
    refine ⟨?_, keeps.1.trans room⟩
    cases call : p.call with
    | rebindTaskLease input =>
      rw [call] at law
      rw [rebindsOnly, call] at promised
      exact absurd (law.1 ▸ held) (elsewhere.held _ promised.1)
    | _ =>
      rw [call] at law
      exact law.2.2.trans agent

end Knowledge

/-! ### The rebind -/

section Rebind

variable {input : RebindTaskLeaseInput}

/-- What a rebind has read and relies on. -/
structure Scene (input : RebindTaskLeaseInput) (lease : TaskLease) (fromSession toSession : AgentSession)
    (evidence : RebindAttestation) (f : Footing Row LockKey) : Prop where
  lease : .taskLease input.lease_id ∈ f.held ∧
    ∃ v : TaskLease, f.base (.lease input.lease_id) = some v ∧ v.agent_key = lease.agent_key ∧
      v.room_id = lease.room_id
  predecessor : ∃ v, f.base (.session input.from_agent_session_id) = some v ∧ v = fromSession
  successor : ∃ v, f.base (.session input.to_agent_session_id) = some v ∧ v = toSession
  attestation : ∃ v : RebindAttestation,
    f.base (.attestation input.attestation_id) = some v ∧ v.evidence = evidence

theorem scene_stable : (rebindDiscipline env).Stable (.rebindTaskLease input) n
      (Scene input lease fromSession toSession evidence) :=
  fun _ _ here proper elsewhere apart =>
    ⟨lease_stable _ _ _ here.lease proper elsewhere apart,
      session_stable _ _ here.predecessor proper elsewhere apart,
      session_stable _ _ here.successor proper elsewhere apart,
      evidence_stable _ _ here.attestation proper elsewhere apart⟩

/-- What the reads of a rebind have established. -/
structure Fit (input : RebindTaskLeaseInput) (lease : TaskLease) (fromSession toSession : AgentSession)
    (evidence : RebindAttestation) : Prop where
  live : toSession.ended_at = none
  worker : toSession.session_kind = .worker
  agent : fromSession.agent_key = lease.agent_key ∧ toSession.agent_key = lease.agent_key
  room : fromSession.room_id = lease.room_id ∧ toSession.room_id = lease.room_id
  owner : toSession.owner_account_id = fromSession.owner_account_id
  grant : fromSession.supervisor_grant_id = some input.supervisor_grant_fence.grant_id ∧
    toSession.supervisor_grant_id = some input.supervisor_grant_fence.grant_id
  after : ∃ ended_at, fromSession.ended_at = some ended_at ∧ ended_at < toSession.created_at
  evidence : evidence.lease_id = input.lease_id ∧ evidence.epoch = input.expected_epoch ∧
    evidence.from_agent_session_id = input.from_agent_session_id ∧
    evidence.grant_id = input.supervisor_grant_fence.grant_id ∧
    evidence.work_attempt_id = input.work_attempt_id ∧
    evidence.execution_generation_id = input.execution_generation_id

/-- The consumption that a transaction has written. -/
def consumption (input : RebindTaskLeaseInput) (f : Footing Row LockKey) : Prop :=
  f.Revises (.attestation input.attestation_id) fun v v' =>
    consumeAttestation input input.expected_epoch v = some v'

/-- The move that a transaction has written. -/
def relocation (input : RebindTaskLeaseInput) (toSession : AgentSession) (f : Footing Row LockKey) :
    Prop :=
  f.Revises (.lease input.lease_id) fun v v' =>
    moveLease input input.expected_epoch toSession v = some v'

section Writes

variable {lease : TaskLease} {fromSession toSession : AgentSession} {evidence : RebindAttestation}
  {n : Note}

section

variable (fit : Fit input lease fromSession toSession evidence)
include fit

/-- The commit of a rebind that has written everything. -/
theorem rebound_of_writes (scene : Scene input lease fromSession toSession evidence f)
    (consumed : consumption input f) (moved : relocation input toSession f) (n : Note) :
    rebindsOnly ⟨.rebindTaskLease input, n, f, f.written, none, some .done⟩ := by
  obtain ⟨v, v', was, is, made⟩ := moved
  obtain ⟨a, a', pending, spent, taken⟩ := consumed
  obtain ⟨current, rfl⟩ := moveLease_spec made
  obtain ⟨open', rfl⟩ := consumeAttestation_spec taken
  simp only [RebindTaskLeaseInput.current, Bool.and_eq_true, decide_eq_true_eq] at current
  simp only [RebindTaskLeaseInput.pending, Bool.and_eq_true, decide_eq_true_eq,
    Option.isNone_iff_eq_none] at open'
  obtain ⟨⟨active, epoch⟩, holder⟩ := current
  obtain ⟨held, named, has, agent, room⟩ := scene.lease
  obtain ⟨known, hasKnown, same⟩ := scene.attestation
  obtain ⟨_, predecessor, rfl⟩ := scene.predecessor
  obtain ⟨_, successor, rfl⟩ := scene.successor
  rw [was] at has
  cases has
  rw [pending] at hasKnown
  cases hasKnown
  rw [← same] at fit
  exact ⟨held, rfl, v, _, _, _, a, _,
    { was := was
      is := is
      active := active
      expected := epoch
      held := holder
      moved := by rw [epoch]
      predecessor := predecessor
      successor := successor
      live := fit.live
      worker := fit.worker
      agent := ⟨fit.agent.1.trans agent.symm, fit.agent.2.trans agent.symm⟩
      room := ⟨fit.room.1.trans room.symm, fit.room.2.trans room.symm⟩
      owner := fit.owner
      grant := fit.grant
      after := fit.after
      pending := pending
      consumed := spent
      fresh := ⟨open'.2, nofun⟩
      evidence := fit.evidence }⟩

theorem moveWrites_outline :
    (rebindDiscipline env).Outline (.rebindTaskLease input)
      (moveWrites input input.expected_epoch toSession) n fun f =>
        Scene input lease fromSession toSession evidence f ∧ consumption input f ∧
          f.written (.lease input.lease_id) = none := by
  have consumed : (rebindDiscipline env).Stable (.rebindTaskLease input) n (consumption input) :=
    stable_revises _ n _ _
  have moved : (rebindDiscipline env).Stable (.rebindTaskLease input) n
      (relocation input toSession) := stable_revises _ n _ _
  have unmoved := stable_own (d := rebindDiscipline env) (.rebindTaskLease input) n
    fun written _ _ => written (.lease input.lease_id) = none
  have lawful : Within ((rebindDiscipline env).law (.rebindTaskLease input))
      (atKey (.lease input.lease_id) (moveLease input input.expected_epoch toSession)) := by
    refine within_atKey fun v v' made => ⟨moveLease_keepsIndexes _ made, rfl, ?_⟩
    obtain ⟨current, rfl⟩ := moveLease_spec made
    simp only [RebindTaskLeaseInput.current, Bool.and_eq_true, decide_eq_true_eq] at current
    dsimp only
    omega
  refine Outline.update (scene_stable.and (consumed.and unmoved))
    (fun _ _ _ k v v' _ made => lawful k v v' made) fun f keys ⟨scene, spent, free⟩ _ _ => ?_
  by_cases found : chosen (atKey (.lease input.lease_id)
      (moveLease input input.expected_epoch toSession)) ⟨f.view, keys⟩ = []
  · exact ⟨fun _ => True, trivial, by rw [if_pos found]; exact Outline.abort⟩
  refine ⟨fun f => Scene input lease fromSession toSession evidence f ∧ consumption input f ∧
    relocation input toSession f, ⟨⟨scene.1, scene.2, scene.3, scene.4⟩, ?_,
      revises_of_chosen free found⟩, ?_⟩
  · obtain ⟨v, v', has, written, made⟩ := spent
    have apart : Key.attestation input.attestation_id ≠ .lease input.lease_id := nofun
    exact ⟨v, v', has, (written_of_ne apart).trans written, made⟩
  · rw [if_neg found]
    exact Outline.finish (scene_stable.and (consumed.and moved)) fun f ⟨scene, spent, moves⟩ _ _ =>
      ⟨rebound_of_writes fit scene spent moves n, trivial⟩

theorem consumeWrites_outline :
    (rebindDiscipline env).Outline (.rebindTaskLease input)
      (consumeWrites input input.expected_epoch toSession) n fun f =>
        Scene input lease fromSession toSession evidence f ∧
          f.written (.lease input.lease_id) = none ∧
            f.written (.attestation input.attestation_id) = none := by
  have untouched := stable_own (d := rebindDiscipline env) (.rebindTaskLease input) n
    fun written _ _ => written (.lease input.lease_id) = none ∧
      written (.attestation input.attestation_id) = none
  have lawful : Within ((rebindDiscipline env).law (.rebindTaskLease input))
      (atKey (.attestation input.attestation_id)
        (consumeAttestation input input.expected_epoch)) := by
    refine within_atKey fun v v' made => ⟨consumeAttestation_keepsIndexes _ made, rfl, ?_⟩
    obtain ⟨_, rfl⟩ := consumeAttestation_spec made
    rfl
  refine Outline.update (scene_stable.and untouched)
    (fun _ _ _ k v v' _ made => lawful k v v' made) fun f keys ⟨scene, unmoved, free⟩ _ _ => ?_
  by_cases found : chosen (atKey (.attestation input.attestation_id)
      (consumeAttestation input input.expected_epoch)) ⟨f.view, keys⟩ = []
  · exact ⟨fun _ => True, trivial, by rw [if_pos found]; exact Outline.abort⟩
  have apart : Key.lease input.lease_id ≠ .attestation input.attestation_id := nofun
  refine ⟨fun f => Scene input lease fromSession toSession evidence f ∧ consumption input f ∧
    f.written (.lease input.lease_id) = none, ⟨⟨scene.1, scene.2, scene.3, scene.4⟩,
      revises_of_chosen free found, (written_of_ne apart).trans unmoved⟩, ?_⟩
  rw [if_neg found]
  exact moveWrites_outline fit

theorem rebindWrites_outline :
    (rebindDiscipline env).Outline (.rebindTaskLease input)
      (rebindWrites input input.expected_epoch toSession) n fun f =>
        Scene input lease fromSession toSession evidence f ∧ ∀ k, f.written k = none := by
  have clean := stable_own (d := rebindDiscipline env) (.rebindTaskLease input) n
    fun written _ _ => ∀ k, written k = none
  have lawful : Within ((rebindDiscipline env).law (.rebindTaskLease input))
      (revokeBearers input.from_agent_session_id input.now) :=
    revokeBearers_within fun _ _ _ _ => ⟨⟨rfl, rfl⟩, trivial⟩
  refine Outline.update (scene_stable.and clean) (fun _ _ _ k v v' _ made => lawful k v v' made)
    fun f keys ⟨scene, free⟩ _ _ => ?_
  refine ⟨fun f => Scene input lease fromSession toSession evidence f ∧
    f.written (.lease input.lease_id) = none ∧ f.written (.attestation input.attestation_id) = none,
      ⟨⟨scene.1, scene.2, scene.3, scene.4⟩, ?_, ?_⟩, consumeWrites_outline fit⟩
  · exact (written_of_spared fun _ => rfl).trans (free _)
  · exact (written_of_spared fun _ => rfl).trans (free _)

end

end Writes

theorem findAttestation_spec (found : findAttestation wanted seen = some (id, attestation)) :
    seen.rows (.attestation id) = some attestation ∧ wanted attestation = true := by
  obtain ⟨k, _, made⟩ := List.exists_of_findSome?_eq_some found
  cases k with
  | attestation other =>
    obtain ⟨row, kept, same⟩ := Option.map_eq_some_iff.mp made
    cases same
    exact Option.filter_eq_some_iff.mp kept
  | _ => cases made

/-- The conditions of a rebind, as its reads have found them. -/
theorem fit_of_reads (bound : input.boundSessions lease grant fromSession toSession = true)
    (ended : fromSession.ended_at = some ended_at) (later : ¬toSession.created_at ≤ ended_at)
    (pending : input.pending attestation = true)
    (same : attestation.grant_id = input.supervisor_grant_fence.grant_id)
    (named : attestation.work_attempt_id = input.work_attempt_id ∧
      attestation.execution_generation_id = input.execution_generation_id) :
    Fit input lease fromSession toSession attestation.evidence := by
  simp only [RebindTaskLeaseInput.boundSessions, Bool.and_eq_true, decide_eq_true_eq,
    Option.isNone_iff_eq_none] at bound
  obtain ⟨⟨⟨⟨⟨⟨⟨⟨⟨⟨agents, agent⟩, fromRoom⟩, toRoom⟩, live⟩, worker⟩, _⟩, toOwner⟩, fromOwner⟩,
    toGrant⟩, fromGrant⟩ := bound
  simp only [RebindTaskLeaseInput.pending, Bool.and_eq_true, decide_eq_true_eq] at pending
  obtain ⟨⟨⟨lease_id, epoch⟩, predecessor⟩, _⟩ := pending
  exact ⟨live, worker, ⟨agents.trans agent, agent⟩, ⟨fromRoom, toRoom⟩,
    toOwner.trans fromOwner.symm, ⟨fromGrant, toGrant⟩, ⟨ended_at, ended, Nat.lt_of_not_le later⟩,
    lease_id, epoch, predecessor, same, named⟩

/-- The rebind holds the lock of its lease and has written nothing. -/
def reading (input : RebindTaskLeaseInput) (f : Footing Row LockKey) : Prop :=
  .taskLease input.lease_id ∈ f.held ∧ ∀ k, f.written k = none

theorem reading_stable : (rebindDiscipline env).Stable (.rebindTaskLease input) n (reading input) :=
  fun _ _ here _ _ _ => here

theorem rebindTaskLease_evidenced (input : RebindTaskLeaseInput) :
    (rebindDiscipline env).Outline (.rebindTaskLease input) (rebindTaskLease input) {}
      Footing.Idle := by
  refine Outline.lock (B := reading input) ((rebindDiscipline env).stable_idle _ _)
    (fun f idle => ⟨.head _, idle.1⟩) ?_
  refine Outline.lock (B := reading input) reading_stable
    (fun f here => ⟨.tail _ here.1, here.2⟩) ?_
  refine Outline.glance reading_stable fun seen => ?_
  dsimp only
  split
  · exact Outline.abort
  refine Outline.learn reading_stable fun f keys here _ _ => ?_
  rw [Footing.view_of_clean here.2]
  cases found : (f.base (.lease input.lease_id)).filter input.current with
  | none => exact ⟨fun _ => True, trivial, Outline.abort⟩
  | some lease =>
  obtain ⟨hasLease, current⟩ := Option.filter_eq_some_iff.mp found
  refine ⟨fun f => .taskLease input.lease_id ∈ f.held ∧ ∃ v : TaskLease,
    f.base (.lease input.lease_id) = some v ∧ v.agent_key = lease.agent_key ∧
      v.room_id = lease.room_id, ⟨here.1, lease, hasLease, rfl, rfl⟩, ?_⟩
  dsimp only
  split
  · exact Outline.abort
  have known : (rebindDiscipline env).Stable (.rebindTaskLease input) {} _ :=
    Stable.and reading_stable (lease_stable input.lease_id lease.agent_key lease.room_id)
  refine Outline.glance known fun seen => ?_
  split
  · exact Outline.abort
  rename_i grant found
  refine Outline.learn known fun f keys here _ _ => ?_
  rw [Footing.view_of_clean here.1.2]
  dsimp only
  cases hasFrom : f.base (.session input.from_agent_session_id) with
  | none => exact ⟨fun _ => True, trivial, Outline.abort⟩
  | some fromSession =>
  refine ⟨fun f => ∃ v, f.base (.session input.from_agent_session_id) = some v ∧ v = fromSession,
    ⟨_, hasFrom, rfl⟩, ?_⟩
  have known : (rebindDiscipline env).Stable (.rebindTaskLease input) {} _ :=
    known.and (session_stable input.from_agent_session_id fromSession)
  refine Outline.learn known fun f keys here _ _ => ?_
  rw [Footing.view_of_clean here.1.1.2]
  cases hasTo : (f.base (.session input.to_agent_session_id)).filter
      (input.boundSessions lease grant fromSession) with
  | none => exact ⟨fun _ => True, trivial, Outline.abort⟩
  | some toSession =>
  obtain ⟨hasTo, bound⟩ := Option.filter_eq_some_iff.mp hasTo
  refine ⟨fun f => ∃ v, f.base (.session input.to_agent_session_id) = some v ∧ v = toSession,
    ⟨_, hasTo, rfl⟩, ?_⟩
  have known : (rebindDiscipline env).Stable (.rebindTaskLease input) {} _ :=
    known.and (session_stable input.to_agent_session_id toSession)
  dsimp only
  split
  · exact Outline.abort
  rename_i ended_at ended
  split
  · exact Outline.abort
  rename_i later
  refine Outline.select known fun f keys here _ _ => ?_
  obtain ⟨⟨⟨⟨held, clean⟩, named⟩, predecessor⟩, successor⟩ := here
  rw [Footing.view_of_clean clean]
  cases found : findAttestation input.pending ⟨f.base, keys⟩ with
  | none => exact ⟨fun _ => True, trivial, Outline.abort⟩
  | some pair =>
  obtain ⟨id, attestation⟩ := pair
  obtain ⟨has, pending⟩ := findAttestation_spec found
  dsimp only
  split
  · exact ⟨fun _ => True, trivial, Outline.abort⟩
  rename_i fresh
  split
  · exact ⟨fun _ => True, trivial, Outline.abort⟩
  rename_i exactProof
  simp only [not_or, not_not] at fresh exactProof
  obtain ⟨rfl, exactProof⟩ := exactProof
  have epoch : lease.epoch = input.expected_epoch := by
    simp only [RebindTaskLeaseInput.current, Bool.and_eq_true, decide_eq_true_eq] at current
    exact current.1.2
  rw [epoch]
  exact ⟨_, ⟨⟨named, predecessor, successor, attestation, has, rfl⟩, clean⟩,
    rebindWrites_outline (fit_of_reads bound ended later pending fresh.1 exactProof)⟩

end Rebind

/-! ### The other calls -/

section Others

theorem others_promise (other : ∀ input, c ≠ .rebindTaskLease input) (p : Commit RebindCall)
    (call : p.call = c) : rebindsOnly p := by
  rw [rebindsOnly, call]
  cases c with
  | rebindTaskLease input => exact absurd rfl (other input)
  | _ => trivial

/-- The expiry leaves a lease with its holder. -/
theorem expireLeases_sameHolder (keeps : ∀ id v v', sameHolder v v' → c.law (.lease id) v v') :
    Within ((rebindDiscipline env).law c) (expireLeases room_id now) :=
  expireLeases_within fun id v _ =>
    ⟨⟨rfl, rfl, rfl, nofun⟩, keeps id v { v with status := .expired, updated_at := now } ⟨rfl, rfl, rfl⟩⟩

theorem updateTask_sameHolder (input : UpdateTaskInput) (noted : ∀ n, notes n) :
    (updateTask env input).Keeps notes ((rebindDiscipline env).law (.updateTask input))
      ((rebindDiscipline env).born (.updateTask input)) :=
  updateTask_keeps noted (fun _ => And.intro trivial trivial)
    (fun _ _ _ _ => And.intro trivial trivial)
    (fun _ _ v v' made => by
      refine And.intro (bindPrUrl_keepsIndexes _ made) ?_
      obtain rfl := bindPrUrl_spec made
      exact ⟨rfl, rfl, rfl⟩)
    (fun _ _ _ _ _ _ made => And.intro (spend_keepsIndexes _ made) trivial) fun _ _ => trivial

theorem applyTaskWorkLeaseAction_sameHolder (input : TaskWorkLeaseActionInput)
    (noted : ∀ n, notes n) : (applyTaskWorkLeaseAction env input).Keeps notes
      ((rebindDiscipline env).law (.applyTaskWorkLeaseAction input))
      ((rebindDiscipline env).born (.applyTaskWorkLeaseAction input)) := by
  refine applyTaskWorkLeaseAction_keeps noted fun task => workLeaseAction_keeps
    (expireLeases_sameHolder fun _ _ _ same => same) (fun v v' made => ?_)
    (fun _ _ _ => And.intro trivial trivial)
    (fun _ _ _ _ _ _ made => And.intro (spend_keepsIndexes _ made) trivial) fun _ _ => trivial
  refine ⟨dispose_keepsIndexes _ made, ?_⟩
  obtain ⟨_, rfl⟩ := dispose_spec made
  exact ⟨rfl, rfl, rfl⟩

end Others

theorem rebind_outlined : (rebindDiscipline env).Outlined := by
  intro c
  have silent : ∀ {c : RebindCall}, (∀ input, c ≠ .rebindTaskLease input) →
      ∀ p : Commit RebindCall, p.call = c → p.rows = p.footing.written →
        (rebindDiscipline env).Proper c p.footing → (rebindDiscipline env).meets p →
          (rebindDiscipline env).guarantee p ∧ (rebindDiscipline env).invariant p.footing.view :=
    fun other p call _ _ _ => ⟨others_promise other p call, trivial⟩
  cases c with
  | rebindTaskLease input => exact rebindTaskLease_evidenced input
  | recordRebindAttestation input =>
    exact outline_of_laws (recordRebindAttestation_keeps fun lease => ⟨rfl, lease, rfl⟩)
      (silent nofun)
  | createSupervisorHostGrant input =>
    exact outline_of_laws (createSupervisorHostGrant_keeps
      (fun _ _ _ _ made => ⟨recover_keepsIndexes _ made, trivial⟩) trivial) (silent nofun)
  | rotateSupervisorHostGrant input =>
    exact outline_of_laws (rotateSupervisorHostGrant_keeps
      fun _ _ made => ⟨rotate_keepsIndexes _ made, trivial⟩) (silent nofun)
  | advanceSupervisorHostGrantGeneration input =>
    exact outline_of_laws (advanceSupervisorHostGrantGeneration_keeps
      fun _ _ made => ⟨advance_keepsIndexes _ made, trivial⟩) (silent nofun)
  | revokeSupervisorHostGrant grant_id owner_account_id now =>
    exact outline_of_laws (revokeSupervisorHostGrant_keeps
      fun _ _ made => ⟨revokeGrant_keepsIndexes _ made, trivial⟩) (silent nofun)
  | updateTask input =>
    exact outline_of_laws (updateTask_sameHolder input fun _ => trivial) (silent nofun)
  | releaseTaskLease room_id lease_id fence now =>
    refine outline_of_laws (And.intro (within_atKey fun v v' made => ?_) fun _ _ => trivial)
      (silent nofun)
    refine ⟨releaseLease_keepsIndexes _ made, ?_⟩
    obtain ⟨_, rfl⟩ := releaseLease_spec made
    exact ⟨rfl, rfl, rfl⟩
  | revokeTaskLease room_id lease_id revoked_reason now =>
    refine outline_of_laws (And.intro (within_atKey fun v v' made => ?_) fun _ _ => trivial)
      (silent nofun)
    refine ⟨revokeLease_keepsIndexes _ made, ?_⟩
    obtain rfl := revokeLease_spec made
    exact ⟨rfl, rfl, rfl⟩
  | applyTaskWorkLeaseAction input =>
    exact outline_of_laws (applyTaskWorkLeaseAction_sameHolder input fun _ => trivial)
      (silent nofun)
  | expireStaleTaskLeases room_id now =>
    exact outline_of_laws (And.intro (expireLeases_sameHolder fun _ _ _ same => same)
      fun _ _ => trivial) (silent nofun)

end Outlines

/-! ## Every run -/

/-- Two successes against one epoch of a lease. -/
def sameEpoch (p q : Commit RebindCall) : Prop :=
  ∃ input input', p.call = .rebindTaskLease input ∧ q.call = .rebindTaskLease input' ∧
    p.result = some .done ∧ q.result = some .done ∧ input.lease_id = input'.lease_id ∧
      input.expected_epoch = input'.expected_epoch

/-- A rebind succeeds once for an epoch and wholly, a failure leaves everything, and an
attestation stays as it was recorded. -/
structure RebindsOnce (env : Externals) (published : List (Commit RebindCall))
    (s : State Row RebindCall LockKey Note Outcome) : Prop where
  single : published.Pairwise fun p q => ¬sameEpoch p q
  ok : ∀ p ∈ published, ∀ input, p.call = .rebindTaskLease input → p.result = some .done ∧
    (∃ lease lease' fromSession toSession attestation attestation',
      Rebound input p lease lease' fromSession toSession attestation attestation') ∧
    ∀ id row, p.rows (.attestation id) = some row → id = input.attestation_id
  failure : ∀ i next input reason, (rebinds env).step s (.run i) = some next →
    next.returned = s.returned ++ [(.rebindTaskLease input, .failed reason)] → next.base = s.base
  evidence : ∀ p ∈ published, ∀ id attestation attestation',
    p.footing.base (.attestation id) = some attestation →
      p.rows (.attestation id) = some attestation' → attestation'.evidence = attestation.evidence
  recorded : ∀ p ∈ published, ∀ id attestation, p.footing.base (.attestation id) = none →
    p.rows (.attestation id) = some attestation →
      ∃ input lease, p.call = .recordRebindAttestation input ∧ attestation = input.row lease

section Runs

variable {env : Externals} {p : Commit RebindCall}

/-- An epoch that a ok has used is behind. -/
def epochBehind (published : List (Commit RebindCall)) (base : Rows Row) : Prop :=
  ∀ p ∈ published, ∀ input, p.call = .rebindTaskLease input → ∃ lease : TaskLease,
    base (.lease input.lease_id) = some lease ∧ input.expected_epoch < lease.epoch

theorem rebound_of_honoured (honoured : (rebindDiscipline env).Honoured p)
    (call : p.call = .rebindTaskLease input) :
    p.result = some .done ∧ ∃ lease lease' fromSession toSession attestation attestation',
      Rebound input p lease lease' fromSession toSession attestation attestation' := by
  have promised : rebindsOnly p := honoured.guarantee
  rw [rebindsOnly, call] at promised
  exact promised.2

theorem epoch_le_of_honoured (honoured : (rebindDiscipline env).Honoured p)
    (was : p.footing.base (.lease id) = some lease) (is : p.rows (.lease id) = some lease') :
    lease.epoch ≤ lease'.epoch := by
  obtain ⟨_, law⟩ := honoured.lawful.of_base was is
  cases call : p.call with
  | rebindTaskLease input => exact (call ▸ law).2
  | _ =>
    exact (call ▸ law).1.symm.le

/-- A commit leaves the used epochs behind. -/
theorem epochBehind_commit (behind : epochBehind published base)
    (honoured : (rebindDiscipline env).Honoured p) (here : p.footing.base = base) :
    epochBehind (published ++ [p]) (p.rows.over base) := by
  intro q member input call
  rcases List.mem_append.mp member with earlier | now
  · obtain ⟨lease, has, older⟩ := behind q earlier input call
    cases written : p.rows (.lease input.lease_id) with
    | none => exact ⟨lease, (Rows.over_of_none written).trans has, older⟩
    | some lease' =>
      rw [← here] at has
      exact ⟨lease', Rows.over_of_some written,
        older.trans_le (epoch_le_of_honoured honoured has written)⟩
  · obtain rfl := List.mem_singleton.mp now
    obtain ⟨_, lease, lease', _, _, _, _, rebound⟩ := rebound_of_honoured honoured call
    refine ⟨lease', Rows.over_of_some rebound.is, ?_⟩
    rw [rebound.moved, ← rebound.expected]
    exact Nat.lt_succ_self _

/-- A ok finds no other one for its epoch. -/
theorem sameEpoch_excluded (behind : epochBehind published base)
    (honoured : (rebindDiscipline env).Honoured p) (here : p.footing.base = base) :
    ∀ q ∈ published, ¬sameEpoch q p := by
  rintro q member ⟨input, input', call, call', _, _, same, epoch⟩
  obtain ⟨lease, has, older⟩ := behind q member input call
  obtain ⟨_, found, _, _, _, _, _, rebound⟩ := rebound_of_honoured honoured call'
  have there := rebound.was
  rw [here, ← same, has] at there
  cases there
  rw [epoch, rebound.expected] at older
  exact Nat.lt_irrefl _ older

section

variable (honoured : (rebindDiscipline env).Honoured p)
include honoured

/-- A rebind consumes its own attestation only. -/
theorem consumed_of_honoured (call : p.call = .rebindTaskLease input)
    (is : p.rows (.attestation id) = some row) : id = input.attestation_id := by
  rcases honoured.lawful is with ⟨_, _, _, law⟩ | ⟨_, born⟩
  · rw [call] at law
    exact law.1
  · rw [call] at born
    exact born.elim

theorem evidence_of_honoured (was : p.footing.base (.attestation id) = some attestation)
    (is : p.rows (.attestation id) = some attestation') :
    attestation'.evidence = attestation.evidence := by
  obtain ⟨_, law⟩ := honoured.lawful.of_base was is
  cases call : p.call with
  | rebindTaskLease input =>
    rw [call] at law
    exact law.2
  | _ =>
    rw [call] at law
    exact law.elim

theorem recorded_of_honoured (absent : p.footing.base (.attestation id) = none)
    (is : p.rows (.attestation id) = some attestation) :
    ∃ input lease, p.call = .recordRebindAttestation input ∧ attestation = input.row lease := by
  rcases honoured.lawful is with ⟨_, has, _⟩ | ⟨_, born⟩
  · rw [absent] at has
    cases has
  cases call : p.call with
  | recordRebindAttestation input =>
    rw [call] at born
    obtain ⟨_, lease, row⟩ := born
    exact ⟨input, lease, rfl, row⟩
  | _ =>
    rw [call] at born
    exact born.elim

end

variable {db : Database (rebinds env)} {published : List (Commit RebindCall)}
  {s : State Row RebindCall LockKey Note Outcome}

section

variable (run : (rebinds env).Run (fun _ _ => True) db.state published s)
include run

theorem run_admitted :
    (rebinds env).Run ((rebinds env).Admitted (rebindDiscipline env).meets
      (rebindDiscipline env).apart) db.state published s :=
  run.mono fun s action _ => System.admitted_of (fun _ => trivial) (fun _ _ _ => trivial) s action

theorem run_honoured : ∀ p ∈ published, (rebindDiscipline env).Honoured p :=
  (outlined_run rebind_outlined trivial (run_admitted run)).2

theorem run_single : published.Pairwise fun p q => ¬sameEpoch p q := by
  have steps := commits_induction (d := rebindDiscipline env) rebind_outlined trivial
    (P := fun published base =>
      (published.Pairwise fun p q => ¬sameEpoch p q) ∧ epochBehind published base)
    ⟨List.Pairwise.nil, fun _ member => absurd member List.not_mem_nil⟩ ?_ (run_admitted run)
  · exact steps.1
  · intro published base p ⟨single, behind⟩ honoured here
    refine ⟨List.pairwise_append.mpr ⟨single, List.pairwise_singleton _ _, ?_⟩,
      epochBehind_commit behind honoured here⟩
    intro q member r last
    obtain rfl := List.mem_singleton.mp last
    exact sameEpoch_excluded behind honoured here q member

/-- A rebind that fails commits nothing. -/
theorem run_failure (ok : (rebinds env).step s (.run i) = some next)
    (returns : next.returned = s.returned ++ [(.rebindTaskLease input, .failed reason)]) :
    next.base = s.base := by
  rcases System.step_run ok with ⟨p, publishes, _⟩ | ⟨_, same⟩
  · obtain ⟨call, result⟩ := System.step_returned ok publishes returns
    have member : p ∈ published ++ ((rebinds env).made s (.run i)).toList := by
      rw [System.made, publishes]
      exact List.mem_append_right _ (List.mem_singleton.mpr rfl)
    have committed := run_honoured (run.step trivial ok) p member
    rw [(rebound_of_honoured committed call).1] at result
    cases result
  · exact same

end

end Runs

theorem rebinds_once (env : Externals) (db : Database (rebinds env))
    {published : List (Commit RebindCall)} {s : State Row RebindCall LockKey Note Outcome}
    (run : (rebinds env).Run (fun _ _ => True) db.state published s) :
    RebindsOnce env published s where
  single := run_single run
  ok p member _ call :=
    let rebound := rebound_of_honoured (run_honoured run p member) call
    ⟨rebound.1, rebound.2, fun _ _ => consumed_of_honoured (run_honoured run p member) call⟩
  failure _ _ _ _ ok returns := run_failure run ok returns
  evidence p member _ _ _ was is := evidence_of_honoured (run_honoured run p member) was is
  recorded p member _ _ absent is := recorded_of_honoured (run_honoured run p member) absent is

/-! ### A lease that moves once -/

def hostGrant : SupervisorGrant where
  owner_account_id := "owner"
  host_id := "host"
  installation_id := "installation"
  scope_key := "owner"
  rental_session_id := none
  token_hash := "hash"
  token_version := 1
  allowed_room_ids := ["room"]
  allowed_agent_keys := ["ada"]
  current_generation := 1
  expires_at := 1000
  revoked_at := none

def workerSession (created_at : Nat) (ended_at : Option Nat) : AgentSession where
  room_id := "room"
  token_hash := "hash"
  session_kind := .worker
  actor_label := "Ada"
  agent_key := "ada"
  agent_instance_id := none
  display_name := "Ada"
  assigned_base_display_name := none
  owner_account_id := "owner"
  supervisor_grant_id := some "grant"
  created_at := created_at
  last_seen_at := created_at
  ended_at := ended_at

def observedExit : RebindAttestation where
  room_id := "room"
  lease_id := "lease"
  epoch := 0
  from_agent_session_id := "session"
  grant_id := "grant"
  supervisor_generation := 1
  work_attempt_id := "attempt"
  execution_generation_id := "execution"
  cause := "crashed"
  attested_at := 25
  consumed_at := none
  consumed_by_epoch := none

def successorRebind : RebindTaskLeaseInput where
  lease_id := "lease"
  expected_epoch := 0
  from_agent_session_id := "session"
  to_agent_session_id := "successor"
  supervisor_grant_fence := ⟨"grant", 1, 1⟩
  attestation_id := "attestation"
  work_attempt_id := "attempt"
  execution_generation_id := "execution"
  checked_at := 50
  now := 50

def endedWorker : Database (rebinds plainExternals) :=
  let symm := fun {k v k' v'} => clash_symm k v k' v'
  ((((Database.empty.add symm (.lease "lease") workLease (by decide)).add symm (.grant "grant")
    hostGrant (by decide)).add symm (.session "session") (workerSession 5 (some 20))
      (by decide)).add symm (.session "successor") (workerSession 30 none) (by decide)).add symm
        (.attestation "attestation") observedExit (by decide)

/-- Two rebinds of one lease: the first succeeds, the second finds another epoch. -/
theorem lease_moves_once :
    ∃ published s, (rebinds plainExternals).Run (fun _ _ => True) endedWorker.state published s ∧
      published.length = 1 ∧
        s.returned.map Prod.snd = [.done, .failed "lost_race"] ∧
          RebindsOnce plainExternals published s := by
  have found : ((rebinds plainExternals).replay (fun _ _ => True) endedWorker.state
      ([.start (.rebindTaskLease successorRebind), .start (.rebindTaskLease successorRebind)] ++
        List.replicate 12 (.run 0) ++ List.replicate 5 (.run 1))).any
      (fun r => r.1.length = 1 && r.2.returned.map Prod.snd = [.done, .failed "lost_race"]) =
        true := by
    decide +kernel
  obtain ⟨published, s, run, checked⟩ := System.exists_run found
  obtain ⟨one, returned⟩ := Bool.and_eq_true_iff.mp checked
  exact ⟨published, s, run, of_decide_eq_true one, of_decide_eq_true returned,
    rebinds_once _ endedWorker run⟩

end LetAgents.Coordination

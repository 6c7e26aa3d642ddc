import LetAgents.Coordination.TaskFootprints

/-!
# Lease fences

A task update that presents a lease is to take effect while the lease is held. The
update reads the lease under its advisory lock; the rebind and the release take the same
lock, the revocation, the lease actions and the expiry do not.
-/
namespace LetAgents.Coordination

open Lib.ReadCommitted Lib.ReadCommitted.Discipline

inductive LeaseCall
  | updateTask (input : UpdateTaskInput)
  | rebindTaskLease (input : RebindTaskLeaseInput)
  | releaseTaskLease (room_id lease_id : String) (fence : ReleaseFence) (now : Nat)
  | revokeTaskLease (room_id lease_id revoked_reason : String) (now : Nat)
  | applyTaskWorkLeaseAction (input : TaskWorkLeaseActionInput)
  | expireStaleTaskLeases (room_id : String) (now : Nat)

namespace LeaseCall

def program (env : Externals) : LeaseCall → Prog
  | .updateTask input => Coordination.updateTask env input
  | .rebindTaskLease input => Coordination.rebindTaskLease input
  | .releaseTaskLease room_id lease_id fence now =>
    Coordination.releaseTaskLease room_id lease_id fence now
  | .revokeTaskLease room_id lease_id revoked_reason now =>
    Coordination.revokeTaskLease room_id lease_id revoked_reason now
  | .applyTaskWorkLeaseAction input => Coordination.applyTaskWorkLeaseAction env input
  | .expireStaleTaskLeases room_id now => Coordination.expireStaleTaskLeases room_id now

/-- What a call may make of the standing of a lease. -/
def moves : LeaseCall → String → TaskLease → TaskLease → Prop
  | .updateTask _, _, v, v' =>
    v'.status = v.status ∧ v'.epoch = v.epoch ∧ v'.agent_session_id = v.agent_session_id
  | .rebindTaskLease input, id, v, v' =>
    id = input.lease_id ∧ (v.status ≠ .active → v'.status = v.status)
  | .releaseTaskLease _ lease_id _ _, id, v, v' =>
    id = lease_id ∧ (v.status ≠ .active → v'.status = v.status)
  | .revokeTaskLease _ lease_id _ _, id, _, v' => id = lease_id ∧ v'.status = .revoked
  | .applyTaskWorkLeaseAction _, _, v, v' | .expireStaleTaskLeases .., _, v, v' =>
    v.status ≠ .active → v'.status = v.status

theorem moves_trans {c : LeaseCall} {id : String} (first : c.moves id v v')
    (second : c.moves id v' v'') : c.moves id v v'' := by
  cases c <;> simp only [moves] at first second ⊢ <;> grind

/-- New leases come from updates and lease actions. -/
def bears : LeaseCall → ∀ k, Row k → Prop
  | .updateTask _, .lease _, _ | .applyTaskWorkLeaseAction _, .lease _, _ => True
  | _, _, _ => False

end LeaseCall

abbrev leases (env : Externals) : System Row LeaseCall LockKey Note Outcome :=
  server (LeaseCall.program env)

/-- The fence is held in the store. -/
def LeaseFence.stands (fence : LeaseFence) (rows : Rows Row) : Prop :=
  ∃ lease, rows (.lease fence.lease_id) = some lease ∧ fence.held lease = true

/-- The fence held at the commit, and the locks of those that may move a lease. -/
def fencedCommit (p : Commit LeaseCall) : Prop :=
  match p.call with
  | .updateTask input =>
    ∀ fence ∈ input.leaseFence, p.rows input.key ≠ none → fence.stands p.footing.base
  | .rebindTaskLease input => .taskLease input.lease_id ∈ p.footing.held
  | .releaseTaskLease _ lease_id _ _ => .taskLease lease_id ∈ p.footing.held
  | _ => True

/-- A revocation finds its lease active, or revoked as it will be. -/
def revokesLive (p : Commit LeaseCall) : Bool :=
  match p.call with
  | .revokeTaskLease _ lease_id _ _ =>
    (p.rows (.lease lease_id)).isNone || (p.footing.base (.lease lease_id)).all fun lease =>
      lease.status = .active || lease.status = .revoked
  | _ => true

/-- A revocation, a lease action or an expiry leaves alone a lease whose fence another
call has passed. -/
def sparesFence (p : Commit LeaseCall) (_ : LeaseCall) (n : Note) : Bool :=
  match p.call with
  | .revokeTaskLease .. | .applyTaskWorkLeaseAction _ | .expireStaleTaskLeases .. =>
    n.fence.all fun fence => (p.rows (.lease fence.lease_id)).isNone
  | _ => true

def leaseDiscipline (env : Externals) : Discipline (leases env) :=
  discipline (LeaseCall.program env) (fun c => onLeases c.moves) LeaseCall.bears (fun _ => True)
    fencedCommit (fun p => revokesLive p = true) (fun p c n => sparesFence p c n = true)
    (fun {c _ _ _ _} => onLeases_trans (P := c.moves) fun _ _ _ _ => LeaseCall.moves_trans)
    (fun {c k v v'} born _ _ => by cases c <;> cases k <;> exact born)

section Outlines

variable {env : Externals}

theorem fence_stable (passed : n.fence = some fence) : (leaseDiscipline env).Stable c n fun f =>
      .taskLease fence.lease_id ∈ f.held ∧ fence.stands f.base := by
  rintro f p ⟨held, lease, has, holds⟩ _ elsewhere apart
  refine ⟨held, ?_⟩
  cases published : p.rows (.lease fence.lease_id) with
  | none => exact ⟨lease, (Rows.over_of_none published).trans has, holds⟩
  | some lease' =>
    refine ⟨lease', Rows.over_of_some published, ?_⟩
    obtain ⟨keeps, moves⟩ :=
      elsewhere.lawful.of_base ((congrFun elsewhere.base _).trans has) published
    have promised : fencedCommit p := elsewhere.guarantee
    have spared : sparesFence p c n = true := apart
    cases call : p.call with
    | updateTask input =>
      rw [call] at moves
      simp only [onLeases, LeaseCall.moves, keepsIndexes] at moves keeps
      simp only [LeaseFence.held, moves, keeps] at holds ⊢
      exact holds
    | rebindTaskLease input | releaseTaskLease room_id lease_id release now =>
      rw [call] at moves
      rw [fencedCommit, call] at promised
      exact absurd (moves.1 ▸ held) (elsewhere.held _ promised)
    | revokeTaskLease | applyTaskWorkLeaseAction | expireStaleTaskLeases =>
      rw [sparesFence, call, passed] at spared
      simp only [Option.all_some, published, Option.isNone_some, Bool.false_eq_true] at spared

/-! ### The update -/

section UpdateTask

variable {input : UpdateTaskInput} {task : Task}

theorem writeTask_lawful :
    (writeTask env input task).Keeps notes ((leaseDiscipline env).law (.updateTask input))
      ((leaseDiscipline env).born (.updateTask input)) :=
  writeTask_keeps (fun _ _ _ => And.intro trivial trivial)
    (fun _ _ _ _ made => by
      refine And.intro (bindPrUrl_keepsIndexes _ made) ?_
      obtain rfl := bindPrUrl_spec made
      exact And.intro rfl (And.intro rfl rfl))
    fun _ _ => trivial

theorem updateTask_same (v : Task) : (leaseDiscipline env).law (.updateTask input) input.key v v :=
  And.intro trivial trivial

theorem claimTask_lawful : (claimTask input task <| consumeApproval env input.boardIntentApproval <|
      writeTask env input task).Keeps notes ((leaseDiscipline env).law (.updateTask input))
      ((leaseDiscipline env).born (.updateTask input)) :=
  claimTask_keeps updateTask_same
    (consumeApproval_keeps (fun _ _ _ _ _ _ made => And.intro (spend_keepsIndexes _ made) trivial)
      writeTask_lawful)

/-- Without a fence nothing is promised. -/
theorem updateTask_unfenced (unfenced : input.leaseFence = none) :
    (leaseDiscipline env).Outline (.updateTask input) (updateTask env input) {} Footing.Idle := by
  refine outline_of_laws (fun seen => ?_) fun p call _ _ _ => ⟨?_, trivial⟩
  · dsimp only
    split
    · trivial
    refine And.intro trivial ?_
    split
    · trivial
    simp only [fenceTask, unfenced]
    exact claimTask_lawful
  · change fencedCommit p
    rw [fencedCommit, call]
    intro fence fenced
    rw [unfenced] at fenced
    cases fenced

theorem fenced_kept (fenced : input.leaseFence = some fence) :
    (leaseDiscipline env).Kept (.updateTask input) (fun n => n.fence = some fence)
      ((leaseDiscipline env).law (.updateTask input)) ((leaseDiscipline env).born (.updateTask input))
      fun f => .taskLease fence.lease_id ∈ f.held ∧ fence.stands f.base where
  lawful _ _ _ law := law
  bears _ _ born := born
  stable n passed := fence_stable passed
  hold _ _ here := ⟨.tail _ here.1, here.2⟩
  share _ _ here := here
  write _ _ here _ := here
  publish p call _ _ here _ _ := by
    refine ⟨?_, trivial⟩
    change fencedCommit p
    rw [fencedCommit, call]
    intro presented given _
    rw [fenced] at given
    cases given
    exact here.2

theorem updateTask_fenced (fenced : input.leaseFence = some fence) :
    (leaseDiscipline env).Outline (.updateTask input) (updateTask env input) {} Footing.Idle := by
  refine Outline.glance ((leaseDiscipline env).stable_idle _ _) fun seen => ?_
  split
  · refine Outline.finish ((leaseDiscipline env).stable_idle _ _) fun f idle proper meets => ⟨?_, trivial⟩
    intro presented given changed
    exact absurd (idle.1 _) changed
  split
  · trivial
  simp only [fenceTask, fenced]
  have locked : ∀ f : Footing Row LockKey, f.Idle →
      LockKey.taskLease fence.lease_id ∈ (f.hold (.taskLease fence.lease_id)).held ∧
        ∀ k, f.written k = none := fun f idle => ⟨.head _, idle.1⟩
  refine Outline.lock (B := fun f => .taskLease fence.lease_id ∈ f.held ∧ ∀ k, f.written k = none)
    ((leaseDiscipline env).stable_idle _ _) locked ?_
  refine Outline.select (fun f p here _ _ _ => here) fun f keys here proper lists => ?_
  cases passed : (f.view (.lease fence.lease_id)).filter fence.held with
  | none =>
    exact ⟨fun _ => True, trivial, Outline.abort⟩
  | some held =>
    obtain ⟨seen, holds⟩ := Option.filter_eq_some_iff.mp passed
    have stands : fence.stands f.base := by
      refine ⟨held, ?_, holds⟩
      rw [← seen, Footing.view, Rows.over_of_none (here.2 _)]
    exact ⟨_, ⟨here.1, stands⟩, outline_of_keeps
      (progressTask_keeps updateTask_same claimTask_lawful) (fenced_kept fenced) rfl⟩

end UpdateTask

/-! ### The other calls -/

theorem rebindTaskLease_outline (input : RebindTaskLeaseInput) :
    (leaseDiscipline env).Outline (.rebindTaskLease input) (rebindTaskLease input) {}
      Footing.Idle := by
  refine outline_of_lock (rebindTaskLease_keeps ?_ ?_ ?_) fun p call _ held _ _ => ⟨?_, trivial⟩
  · exact revokeBearers_within fun _ _ _ _ => ⟨⟨rfl, rfl⟩, trivial⟩
  · exact fun _ _ _ made => ⟨consumeAttestation_keepsIndexes _ made, trivial⟩
  · intro epoch toSession v v' made
    refine ⟨moveLease_keepsIndexes _ made, rfl, ?_⟩
    obtain ⟨_, rfl⟩ := moveLease_spec made
    exact fun _ => rfl
  · change fencedCommit p
    rw [fencedCommit, call]
    exact held

theorem releaseTaskLease_outline (room_id lease_id : String) (fence : ReleaseFence) (now : Nat) :
    (leaseDiscipline env).Outline (.releaseTaskLease room_id lease_id fence now)
      (releaseTaskLease room_id lease_id fence now) {} Footing.Idle := by
  refine outline_of_lock ⟨within_atKey fun v v' made => ?_, fun _ _ => trivial⟩
    fun p call _ held _ _ => ⟨?_, trivial⟩
  · exact ⟨releaseLease_keepsIndexes _ made, rfl, fun idle =>
      absurd (releaseLease_spec made).1 idle⟩
  · change fencedCommit p
    rw [fencedCommit, call]
    exact held

theorem revokeTaskLease_outline (room_id lease_id revoked_reason : String) (now : Nat) :
    (leaseDiscipline env).Outline (.revokeTaskLease room_id lease_id revoked_reason now)
      (revokeTaskLease room_id lease_id revoked_reason now) {} Footing.Idle := by
  refine outline_of_laws ⟨within_atKey fun v v' made => ?_, fun _ _ => trivial⟩
    fun p call _ _ _ => ⟨?_, trivial⟩
  · refine ⟨revokeLease_keepsIndexes _ made, ?_⟩
    obtain rfl := revokeLease_spec made
    exact ⟨rfl, rfl⟩
  · change fencedCommit p
    rw [fencedCommit, call]
    trivial

theorem expireLeases_lawful
    (moves : ∀ id v v', c.moves id v v' ↔ (v.status ≠ .active → v'.status = v.status)) :
    Within ((leaseDiscipline env).law c) (expireLeases room_id now) :=
  expireLeases_within fun id _ active =>
    ⟨⟨rfl, rfl, rfl, nofun⟩, (moves id _ _).mpr fun idle => absurd active idle⟩

theorem expireStaleTaskLeases_outline (room_id : String) (now : Nat) :
    (leaseDiscipline env).Outline (.expireStaleTaskLeases room_id now)
      (expireStaleTaskLeases room_id now) {} Footing.Idle := by
  refine outline_of_laws ⟨expireLeases_lawful fun _ _ _ => Iff.rfl, fun _ _ => trivial⟩
    fun p call _ _ _ => ⟨?_, trivial⟩
  change fencedCommit p
  rw [fencedCommit, call]
  trivial

theorem applyTaskWorkLeaseAction_outline (input : TaskWorkLeaseActionInput) :
    (leaseDiscipline env).Outline (.applyTaskWorkLeaseAction input)
      (applyTaskWorkLeaseAction env input) {} Footing.Idle := by
  refine outline_of_laws (applyTaskWorkLeaseAction_keeps (fun _ => trivial) fun task =>
    workLeaseAction_keeps (expireLeases_lawful fun _ _ _ => Iff.rfl)
      (fun v v' made => ⟨dispose_keepsIndexes _ made, fun idle => absurd (dispose_spec made).1 idle⟩)
      (fun _ _ _ => ⟨trivial, trivial⟩)
      (fun _ _ _ _ _ _ made => ⟨spend_keepsIndexes _ made, trivial⟩) fun _ _ => trivial)
    fun p call _ _ _ => ⟨?_, trivial⟩
  change fencedCommit p
  rw [fencedCommit, call]
  trivial

theorem lease_outlined : (leaseDiscipline env).Outlined := by
  intro c
  cases c with
  | updateTask input =>
    cases fenced : input.leaseFence with
    | none => exact updateTask_unfenced fenced
    | some fence => exact updateTask_fenced fenced
  | rebindTaskLease input => exact rebindTaskLease_outline input
  | releaseTaskLease room_id lease_id fence now =>
    exact releaseTaskLease_outline room_id lease_id fence now
  | revokeTaskLease room_id lease_id revoked_reason now =>
    exact revokeTaskLease_outline room_id lease_id revoked_reason now
  | applyTaskWorkLeaseAction input => exact applyTaskWorkLeaseAction_outline input
  | expireStaleTaskLeases room_id now => exact expireStaleTaskLeases_outline room_id now

end Outlines

/-! ## Every run -/

/-- Fenced updates take effect while their lease is held, a lease that has ended stays
as it ended, and a task has one active work lease. -/
structure FencesLinearize (published : List (Commit LeaseCall))
    (s : State Row LeaseCall LockKey Note Outcome) : Prop where
  fenced : ∀ p ∈ published, ∀ input, p.call = .updateTask input → ∀ fence ∈ input.leaseFence,
    Changes p input.key → ∃ lease, p.footing.base (.lease fence.lease_id) = some lease ∧
      lease.status = .active ∧ lease.epoch = fence.expected_epoch ∧
        lease.agent_session_id = some fence.agent_session_id
  final : ∀ p ∈ published, ∀ id lease lease', p.footing.base (.lease id) = some lease →
    p.rows (.lease id) = some lease' → lease.status ≠ .active → lease'.status = lease.status
  single : ∀ id id' lease lease', s.base (.lease id) = some lease →
    s.base (.lease id') = some lease' → lease.kind = .work → lease'.kind = .work →
      lease.status = .active → lease'.status = .active → lease.room_id = lease'.room_id →
        lease.task_id = lease'.task_id → id = id'

/-- What an admitted commit makes of a lease. -/
theorem final_of_honoured {p : Commit LeaseCall} (honoured : (leaseDiscipline env).Honoured p)
    {id : String} (was : p.footing.base (.lease id) = some lease)
    (is : p.rows (.lease id) = some lease') (ended : lease.status ≠ .active) :
    lease'.status = lease.status := by
  have moves : p.call.moves id lease lease' := (honoured.lawful.of_base was is).2
  have meets : revokesLive p = true := honoured.meets
  cases call : p.call with
  | updateTask => exact (call ▸ moves).1
  | rebindTaskLease | releaseTaskLease => exact (call ▸ moves).2 ended
  | applyTaskWorkLeaseAction | expireStaleTaskLeases => exact (call ▸ moves) ended
  | revokeTaskLease room_id lease_id revoked_reason now =>
    obtain ⟨rfl, revoked⟩ := call ▸ moves
    rw [revokesLive, call] at meets
    simp only [is, was, Option.isNone_some, Bool.false_or, Option.all_some, Bool.or_eq_true,
      decide_eq_true_eq] at meets
    rw [revoked, meets.resolve_left ended]

theorem fences_linearize (env : Externals) (db : Database (leases env))
    {published : List (Commit LeaseCall)} {s : State Row LeaseCall LockKey Note Outcome}
    (run : (leases env).Run ((leases env).Admitted (fun p => revokesLive p = true)
      fun p c n => sparesFence p c n = true) db.state published s) :
    FencesLinearize published s := by
  obtain ⟨inv, honoured⟩ := outlined_run (d := leaseDiscipline env) lease_outlined trivial run
  constructor
  · intro p member input call fence fenced ⟨row, written, _⟩
    have promised : fencedCommit p := (honoured p member).guarantee
    rw [fencedCommit, call] at promised
    obtain ⟨lease, has, holds⟩ := promised fence fenced (by rw [written]; exact Option.some_ne_none row)
    simp only [LeaseFence.held, Bool.and_eq_true, decide_eq_true_eq] at holds
    obtain ⟨⟨⟨_, active⟩, epoch⟩, session⟩ := holds
    exact ⟨lease, has, active, epoch, session⟩
  · intro p member id lease lease' was is ended
    exact final_of_honoured (honoured p member) was is ended
  · intro id id' lease lease' has has' work work' active active' room task
    by_contra apart
    have fits := inv.base (fun same => apart (by cases same; rfl)) has has'
    simp [leases, server, clash, work, work', active, active', room, task] at fits

/-! ### A revocation between the fence and the write -/

/-- A worker reports that the task is blocked. -/
def reportBlocked : UpdateTaskInput where
  room_id := "room"
  task_id := 1
  updates := { status := some .blocked }
  leaseFence := some workFence
  now := 20
  checked_at := 20

def leasedTask : Database (leases plainExternals) :=
  (Database.empty.add (fun {k v k' v'} => clash_symm k v k' v') (.task "room" 1) startedTask
    (by decide)).add (fun {k v k' v'} => clash_symm k v k' v') (.lease "lease") workLease (by decide)

/-- The update has passed its fence when the revocation commits. -/
def revokedMeanwhile : List (Action LeaseCall) :=
  [.start (.updateTask reportBlocked), .run 0, .run 0, .run 0,
    .start (.revokeTaskLease "room" "lease" "reassigned" 15), .run 1, .run 1, .run 0, .run 0]

/-- The report is committed over a lease that has been revoked. -/
theorem revoked_before_write :
    ¬∀ (db : Database (leases plainExternals)) (published : List (Commit LeaseCall))
      (s : State Row LeaseCall LockKey Note Outcome),
      (leases plainExternals).Run (fun _ _ => True) db.state published s →
        FencesLinearize published s := by
  intro all
  have found : ((leases plainExternals).replay (fun _ _ => True) leasedTask.state
      revokedMeanwhile).any (fun r => r.1.any fun p => match p.call with
        | .updateTask input => input = reportBlocked && decide (Changes p input.key) &&
            (p.footing.base (.lease "lease")).all (·.status ≠ .active)
        | _ => false) = true := by
    decide +kernel
  obtain ⟨published, s, run, checked⟩ := System.exists_run found
  obtain ⟨p, member, late⟩ := List.any_eq_true.mp checked
  split at late
  · rename_i input call
    simp only [Bool.and_eq_true, decide_eq_true_eq] at late
    obtain ⟨⟨rfl, changes⟩, ended⟩ := late
    obtain ⟨lease, has, active, _⟩ :=
      (all leasedTask published s run).fenced p member _ call workFence rfl changes
    rw [show p.footing.base (.lease "lease") = some lease from has] at ended
    simp [active] at ended
  · cases late

/-- A revocation after the write. -/
theorem report_before_revocation :
    ∃ published s, (leases plainExternals).Run ((leases plainExternals).Admitted
        (fun p => revokesLive p = true) fun p c n => sparesFence p c n = true)
        leasedTask.state published s ∧
      published.length = 2 ∧ FencesLinearize published s := by
  have found : ((leases plainExternals).replay ((leases plainExternals).Admitted
      (fun p => revokesLive p = true) fun p c n => sparesFence p c n = true) leasedTask.state
      [.start (.updateTask reportBlocked), .run 0, .run 0, .run 0, .run 0, .run 0,
        .start (.revokeTaskLease "room" "lease" "reassigned" 25), .run 1, .run 1]).any
      (fun r => r.1.length = 2) = true := by
    decide +kernel
  obtain ⟨published, s, run, two⟩ := System.exists_run found
  exact ⟨published, s, run, of_decide_eq_true two, fences_linearize _ leasedTask run⟩

end LetAgents.Coordination

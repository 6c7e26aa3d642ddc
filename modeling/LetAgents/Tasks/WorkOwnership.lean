import Mathlib.Data.List.Pairwise
import LetAgents.Lib.Replay
import LetAgents.Tasks.LocalTaskStore

/-!
# Who owns a task

A task row and its lease row say the same owner after every call, whatever the trigger
did in its middle: each statement keeps `Owned`, the new lease of a mint is the only active
one, and the row it is minted for was assigned just before.
-/
namespace LetAgents.Tasks.WorkOwnership

open Lib Lib.Checked LocalTaskStore

/-! ## Runs -/

inductive WorkCall where
  | claimLocalWorkLease (context : CallContext) (roomId taskId : String) (worker : Worker)
  | changeLocalWorkLease (context : CallContext) (roomId taskId : String) (input : WorkLeaseAction)
      (worker : Option Worker)
  | updateLocalTask (context : CallContext) (caller : Option WorkerCall)
      (observed : Option (String × Nat)) (roomId taskId : String) (patch : TaskPatch)
  | endLocalWorkerLeases (sessionId now : String)
  | heartbeatLocalWorkLeases (sessionId now : String)
  | deleteTask (roomId taskId : String)
  /-- A lease is given an end. -/
  | expire (id : String) (expiresAt : Option String)

def setExpiry (db : LocalDb) (id : String) (expiresAt : Option String) : LocalDb :=
  { db with leases := db.leases.map fun lease =>
      if lease.id = id then { lease with expiresAt } else lease }

def workCall (db : LocalDb) : WorkCall → Except String LocalDb
  | .claimLocalWorkLease context roomId taskId worker =>
    (LocalTaskStore.claimLocalWorkLease context db roomId taskId worker).map Prod.fst
  | .changeLocalWorkLease context roomId taskId input worker =>
    LocalTaskStore.changeLocalWorkLease context db roomId taskId input worker
  | .updateLocalTask context caller observed roomId taskId patch =>
    LocalTaskStore.updateLocalTask context db caller observed roomId taskId patch
  | .endLocalWorkerLeases sessionId now => .ok (LocalTaskStore.endLocalWorkerLeases db sessionId now)
  | .heartbeatLocalWorkLeases sessionId now =>
    .ok (LocalTaskStore.heartbeatLocalWorkLeases db sessionId now)
  | .deleteTask roomId taskId => .ok (db.deleteTask roomId taskId)
  | .expire id expiresAt => .ok (setExpiry db id expiresAt)

/-- What of a lease never changes: its id, its task and its epoch. -/
structure Stamp where
  id : String
  taskKey : String × String
  epoch : Nat

def WorkLease.stamp (lease : WorkLease) : Stamp := ⟨lease.id, lease.taskKey, lease.epoch⟩

def LocalDb.stamps (db : LocalDb) : List Stamp := db.leases.map WorkLease.stamp

/-- The database and every lease ever minted, in order. -/
structure WorkState where
  db : LocalDb
  minted : List Stamp

/-- The leases that a call added. -/
def added (before after : LocalDb) : List Stamp :=
  (LocalDb.stamps after).filter fun stamp =>
    (LocalDb.stamps before).all fun old => old.id ≠ stamp.id

def workStep (s : WorkState) (call : WorkCall) : Except String WorkState := do
  let db ← workCall s.db call
  return ⟨db, s.minted ++ added s.db db⟩

/-- Tasks without leases. -/
def initial (tasks : List LocalTask) : WorkState where
  db := { tasks := tasks.pwFilter fun first second => first.key ≠ second.key, leases := [] }
  minted := []

/-! ## Ownership -/

/-- The leases that hold a task. -/
def activeLeases (db : LocalDb) (taskKey : String × String) : List WorkLease :=
  db.leases.filter fun lease => lease.status = .active && lease.taskKey = taskKey

/-- A database whose task rows and active leases agree. -/
structure Owned (db : LocalDb) : Prop where
  keyed : Table.Keyed LocalTask.key db.tasks
  single : ∀ taskKey, (activeLeases db taskKey).length ≤ 1
  agree : ∀ lease ∈ db.leases, lease.status = .active →
    ∃ task ∈ db.tasks, task.key = lease.taskKey ∧ owns task lease = true

/-- A later database: leases keep their stamps, and at most one is added, with a new id and
an epoch above all those of its task. -/
structure Advanced (before after : LocalDb) : Prop where
  tasks : after.tasks.map LocalTask.key = before.tasks.map LocalTask.key
  stamps : LocalDb.stamps after = LocalDb.stamps before ∨
    ∃ stamp, LocalDb.stamps after = LocalDb.stamps before ++ [stamp] ∧
      (∀ old ∈ LocalDb.stamps before, old.id ≠ stamp.id) ∧
      (∀ old ∈ LocalDb.stamps before, old.taskKey = stamp.taskKey → old.epoch < stamp.epoch) ∧
      ∃ task ∈ before.tasks, task.key = stamp.taskKey

theorem Advanced.refl (db : LocalDb) : Advanced db db := ⟨rfl, .inl rfl⟩

/-- A statement that changes no lease's worker and activates none. -/
structure Quiet (f : WorkLease → WorkLease) : Prop where
  stamp : ∀ lease, WorkLease.stamp (f lease) = WorkLease.stamp lease
  active : ∀ lease, (f lease).status = .active → lease.status = .active
  owner : ∀ lease task, owns task (f lease) = owns task lease

variable {f : WorkLease → WorkLease} {db before after next : LocalDb} {task : LocalTask}
  {lease : WorkLease} {roomId taskId : String} {context : CallContext}

theorem Quiet.taskKey (quiet : Quiet f) (lease : WorkLease) : (f lease).taskKey = lease.taskKey :=
  congrArg Stamp.taskKey (quiet.stamp lease)

theorem Quiet.stamps (quiet : Quiet f) (db : LocalDb) :
    LocalDb.stamps { db with leases := db.leases.map f } = LocalDb.stamps db := by
  simp only [LocalDb.stamps, List.map_map]
  exact List.map_congr_left fun lease _ => quiet.stamp lease

theorem Quiet.single (quiet : Quiet f) {leases : List WorkLease} (taskKey : String × String) :
    ((leases.map f).filter fun lease => lease.status = .active && lease.taskKey = taskKey).length ≤
      (leases.filter fun lease => lease.status = .active && lease.taskKey = taskKey).length := by
  rw [← List.countP_eq_length_filter, ← List.countP_eq_length_filter, List.countP_map]
  refine List.countP_mono_left fun lease _ holds => ?_
  simp only [Function.comp_apply, Bool.and_eq_true, decide_eq_true_eq, quiet.taskKey] at holds ⊢
  exact ⟨quiet.active lease holds.1, holds.2⟩

theorem Owned.quiet (owned : Owned db) (quiet : Quiet f) :
    Owned { db with leases := db.leases.map f } := by
  refine ⟨owned.keyed, fun taskKey => le_trans (quiet.single taskKey) (owned.single taskKey), ?_⟩
  intro lease member active
  obtain ⟨old, oldMember, rfl⟩ := List.mem_map.mp member
  obtain ⟨task, taskMember, same, names⟩ := owned.agree old oldMember (quiet.active old active)
  refine ⟨task, taskMember, ?_, ?_⟩
  · rw [quiet.taskKey, same]
  · rw [quiet.owner, names]

theorem quiet_if [DecidablePred p] (quiet : Quiet f) :
    Quiet fun lease => if p lease then f lease else lease := by
  refine ⟨fun lease => ?_, fun lease => ?_, fun lease task => ?_⟩
  · split
    · exact quiet.stamp lease
    · rfl
  · split
    · exact quiet.active lease
    · exact id
  · split
    · exact quiet.owner lease task
    · rfl

/-- Everything but new leases stays. -/
structure Still (before after : LocalDb) : Prop where
  tasks : after.tasks.map LocalTask.key = before.tasks.map LocalTask.key
  stamps : LocalDb.stamps after = LocalDb.stamps before

theorem Still.trans (earlier : Still first second) (later : Still second third) :
    Still first third :=
  ⟨later.tasks.trans earlier.tasks, later.stamps.trans earlier.stamps⟩

theorem Still.advanced (still : Still before after) : Advanced before after :=
  ⟨still.tasks, .inl still.stamps⟩

theorem still_quiet (db : LocalDb) (quiet : Quiet f) :
    Still db { db with leases := db.leases.map f } :=
  ⟨rfl, quiet.stamps db⟩

theorem put_keys (task : LocalTask) (tasks : List LocalTask) :
    (Table.put LocalTask.key task tasks).map LocalTask.key = tasks.map LocalTask.key := by
  rw [Table.put, List.map_map]
  refine List.map_congr_left fun old _ => ?_
  rw [Function.comp_apply]
  split
  · rename_i same
    exact same.symm
  · rfl

theorem quiet_taskChanged (task : LocalTask) : Quiet fun lease =>
    if lease.taskKey = task.key ∧ lease.status = .active ∧ owns task lease = false then
      { lease with status := .revoked, updatedAt := task.updatedAt
                   revokedReason := some "Task completed or ownership changed" }
    else lease :=
  quiet_if ⟨fun _ => rfl, nofun, fun _ _ => rfl⟩

theorem still_updateOwner (db : LocalDb) (task : LocalTask) : Still db (db.updateOwner task) :=
  ⟨put_keys task db.tasks, (quiet_taskChanged task).stamps db⟩

/-- The trigger revokes every lease that the new row does not name. -/
theorem Owned.updateOwner (owned : Owned db) (present : ∃ old ∈ db.tasks, old.key = task.key) :
    Owned (db.updateOwner task) := by
  refine ⟨owned.keyed.put task, fun taskKey =>
    le_trans ((quiet_taskChanged task).single taskKey) (owned.single taskKey), ?_⟩
  intro lease member active
  obtain ⟨old, oldMember, rfl⟩ := List.mem_map.mp member
  by_cases revoked : old.taskKey = task.key ∧ old.status = .active ∧ owns task old = false
  · rw [if_pos revoked] at active
    cases active
  · rw [if_neg revoked] at active ⊢
    obtain ⟨row, rowMember, same, names⟩ := owned.agree old oldMember active
    by_cases mine : old.taskKey = task.key
    · obtain ⟨stored, storedMember, storedKey⟩ := present
      refine ⟨task, Table.put_mem storedMember storedKey, mine.symm, ?_⟩
      by_contra unnamed
      exact revoked ⟨mine, active, by simpa using unnamed⟩
    · refine ⟨row, Table.mem_put_of_ne rowMember ?_, same, names⟩
      rw [same]
      exact mine

theorem le_nextEpoch (member : lease ∈ db.leases) : lease.epoch < nextEpoch db lease.taskKey := by
  have listed : lease.epoch + 1 ∈
      (db.leases.filter fun other => other.taskKey = lease.taskKey).map fun other => other.epoch + 1 :=
    List.mem_map.mpr ⟨lease, List.mem_filter.mpr ⟨member, by simp⟩, rfl⟩
  have bound : ∀ {epochs : List Nat} {epoch : Nat}, epoch ∈ epochs → epoch ≤ epochs.foldr max 0 := by
    intro epochs epoch
    induction epochs with
    | nil => exact nofun
    | cons first rest ih =>
      intro among
      rcases List.mem_cons.mp among with rfl | more
      · exact le_max_left _ _
      · exact le_trans (ih more) (le_max_right _ _)
  exact bound listed

theorem Owned.insert (owned : Owned db) (member : task ∈ db.tasks)
    (same : task.key = lease.taskKey) (names : owns task lease = true)
    (ok : db.insertLease lease = .ok next) : Owned next := by
  obtain ⟨_, ok⟩ := require_bind_ok ok
  obtain ⟨single, ok⟩ := require_bind_ok ok
  cases ok
  rw [List.all_eq_true] at single
  refine ⟨owned.keyed, fun taskKey => ?_, fun other otherMember active => ?_⟩
  · simp only [activeLeases, List.filter_append, List.length_append]
    by_cases mine : lease.taskKey = taskKey
    · have none' : db.leases.filter (fun other =>
          other.status = .active && other.taskKey = taskKey) = [] := by
        refine List.filter_eq_nil_iff.mpr fun other otherMember counted => ?_
        have free := single other otherMember
        simp only [Bool.and_eq_true, decide_eq_true_eq] at counted free
        rw [mine] at free
        rcases free with inactive | elsewhere
        · exact inactive counted.1
        · exact elsewhere counted.2
      rw [none', List.length_nil, Nat.zero_add]
      exact le_trans (List.length_filter_le _ _) (le_refl 1)
    · have none' : [lease].filter (fun other =>
          other.status = .active && other.taskKey = taskKey) = [] := by simp [mine]
      rw [none']
      exact owned.single taskKey
  · rcases List.mem_append.mp otherMember with old | new
    · exact owned.agree other old active
    · rw [List.mem_singleton] at new
      rw [new]
      exact ⟨task, member, same, names⟩

/-- A mint after `Still` statements advances the database. -/
theorem advanced_insert (still : Still before db)
    (epoch : lease.epoch = nextEpoch db lease.taskKey)
    (present : ∃ task ∈ before.tasks, task.key = lease.taskKey)
    (ok : db.insertLease lease = .ok next) : Advanced before next := by
  obtain ⟨fresh, ok⟩ := require_bind_ok ok
  obtain ⟨_, ok⟩ := require_bind_ok ok
  cases ok
  rw [List.all_eq_true] at fresh
  refine ⟨still.tasks, .inr ⟨WorkLease.stamp lease, ?_, ?_, ?_, present⟩⟩
  · simp only [LocalDb.stamps, List.map_append, List.map_singleton]
    have stamps := still.stamps
    simp only [LocalDb.stamps] at stamps
    rw [stamps]
  · intro old member
    rw [← still.stamps] at member
    obtain ⟨stored, storedMember, rfl⟩ := List.mem_map.mp member
    exact of_decide_eq_true (fresh stored storedMember)
  · intro old member sameTask
    rw [← still.stamps] at member
    obtain ⟨stored, storedMember, rfl⟩ := List.mem_map.mp member
    have below := le_nextEpoch storedMember
    change stored.taskKey = lease.taskKey at sameTask
    rw [sameTask, ← epoch] at below
    exact below

/-! ## Calls -/

theorem Advanced.still (earlier : Advanced first second) (later : Still second third) :
    Advanced first third := by
  refine ⟨later.tasks.trans earlier.tasks, ?_⟩
  rw [later.stamps]
  exact earlier.stamps

theorem quiet_expire (roomId taskId now : String) : Quiet fun lease =>
    if lease.taskKey = (roomId, taskId) ∧ lease.status = .active ∧ notExpired now lease = false then
      { lease with status := .expired, updatedAt := now }
    else lease :=
  quiet_if ⟨fun _ => rfl, nofun, fun _ _ => rfl⟩

theorem quiet_release (id now : String) : Quiet fun lease =>
    if lease.id = id then { lease with status := .released, updatedAt := now } else lease :=
  quiet_if ⟨fun _ => rfl, nofun, fun _ _ => rfl⟩

theorem task_member (found : db.task roomId taskId = some task) :
    task ∈ db.tasks ∧ task.key = (roomId, taskId) :=
  Table.mem_of_find found

/-- The worker that a task was just assigned to gets a lease of its own. -/
theorem mint_sound {status id now assignedAt : String} (owned : Owned db) (still : Still before db)
    (present : ∃ old ∈ db.tasks, old.key = task.key)
    (status_owned : ownedStatuses.contains status = true)
    (ok : mintLease (db.updateOwner (assignTask task (some worker) status assignedAt)) task.roomId task.taskId worker id now = .ok (next, lease)) :
    Owned next ∧ Advanced before next := by
  obtain ⟨agentKey, keyed, ok⟩ := found_bind_ok ok
  obtain ⟨sessionId, session, ok⟩ := found_bind_ok ok
  obtain ⟨actorLabel, label, ok⟩ := found_bind_ok ok
  obtain ⟨minted, inserted, ok⟩ := bind_ok ok
  cases ok
  have assigned : Owned (db.updateOwner (assignTask task (some worker) status assignedAt)) :=
    owned.updateOwner present
  have after := still.trans (still_updateOwner db (assignTask task (some worker) status assignedAt))
  obtain ⟨old, member, same⟩ := present
  refine ⟨assigned.insert (Table.put_mem member same) rfl ?_ inserted,
    advanced_insert after rfl ?_ inserted⟩
  · simp only [owns, assignTask, Option.bind_some, keyed, session, label, status_owned,
      decide_true, Bool.and_true]
  · have keys : old.key ∈ before.tasks.map LocalTask.key := by
      rw [← still.tasks]
      exact List.mem_map_of_mem member
    obtain ⟨first, firstMember, firstKey⟩ := List.mem_map.mp keys
    exact ⟨first, firstMember, firstKey.trans same⟩

theorem claim_sound (owned : Owned db)
    (ok : LocalTaskStore.claimLocalWorkLease context db roomId taskId worker = .ok (next, lease)) :
    Owned next ∧ Advanced db next := by
  have quiet := quiet_expire roomId taskId context.now
  obtain ⟨supervised, _, ok⟩ := bind_ok ok
  obtain ⟨_, ok⟩ := require_bind_ok ok
  obtain ⟨task, stored, ok⟩ := found_bind_ok ok
  obtain ⟨member, key⟩ := task_member stored
  dsimp only at ok
  split at ok
  · obtain ⟨_, ok⟩ := require_bind_ok ok
    cases ok
    exact ⟨owned.quiet quiet, (still_quiet db quiet).advanced⟩
  · obtain ⟨_, ok⟩ := require_bind_ok ok
    obtain ⟨_, ok⟩ := require_bind_ok ok
    obtain ⟨rfl, rfl⟩ : task.roomId = roomId ∧ task.taskId = taskId := by
      simpa [LocalTask.key] using key
    refine mint_sound (owned.quiet quiet) (still_quiet db quiet) ⟨task, member, rfl⟩ ?_ ok
    split
    · rename_i reclaim
      rw [Bool.and_eq_true] at reclaim
      exact reclaim.1
    · rfl

theorem change_sound (owned : Owned db)
    (ok : LocalTaskStore.changeLocalWorkLease context db roomId taskId input worker = .ok next) :
    Owned next ∧ Advanced db next := by
  have quietExpire := quiet_expire roomId taskId context.now
  obtain ⟨_, _, ok⟩ := bind_ok ok
  obtain ⟨task, stored, ok⟩ := found_bind_ok ok
  obtain ⟨active, read, ok⟩ := found_bind_ok ok
  obtain ⟨_, ok⟩ := require_bind_ok ok
  obtain ⟨_, ok⟩ := require_bind_ok ok
  obtain ⟨target, _, ok⟩ := bind_ok ok
  obtain ⟨member, key⟩ := task_member stored
  have quietRelease := quiet_release active.id context.now
  have released := (owned.quiet quietExpire).quiet quietRelease
  have still := (still_quiet db quietExpire).trans
    (still_quiet (expireLeases db roomId taskId context.now) quietRelease)
  cases target with
  | none =>
    cases ok
    exact ⟨released.updateOwner ⟨task, member, rfl⟩,
      (still.trans (still_updateOwner _ _)).advanced⟩
  | some target =>
    obtain ⟨⟨last, lease⟩, minted, ok⟩ := bind_ok ok
    cases ok
    obtain ⟨rfl, rfl⟩ : task.roomId = roomId ∧ task.taskId = taskId := by
      simpa [LocalTask.key] using key
    -- the task of an active lease has a status with an owner
    have inUse : ownedStatuses.contains task.status = true := by
      have listed := List.mem_of_head? read
      rw [readLocalWorkLeases, List.mem_filter] at listed
      simp only [Bool.and_eq_true, decide_eq_true_eq] at listed
      obtain ⟨row, rowMember, same, names⟩ :=
        (owned.quiet quietExpire).agree active listed.1 listed.2.1.2
      have mine : row = task :=
        owned.keyed.eq rowMember member (same.trans listed.2.1.1)
      rw [mine] at names
      simp only [owns, Bool.and_eq_true] at names
      exact names.1.1.1
    refine mint_sound released still ⟨task, member, rfl⟩ ?_ minted
    split
    · rfl
    · exact inUse

theorem update_sound (owned : Owned db)
    (ok : LocalTaskStore.updateLocalTask context db caller observed roomId taskId patch = .ok next) :
    Owned next ∧ Advanced db next := by
  have written {claimed : LocalDb} {row : LocalTask} {worker : Option Worker} {status : String}
      (before : Owned claimed) (advanced : Advanced db claimed)
      (stored : claimed.task roomId taskId = some row) :
      Owned (claimed.updateOwner (patchedRow patch worker row status context.now)) ∧
        Advanced db (claimed.updateOwner (patchedRow patch worker row status context.now)) :=
    ⟨before.updateOwner ⟨row, (task_member stored).1, rfl⟩,
      advanced.still (still_updateOwner claimed _)⟩
  obtain ⟨row, stored, ok⟩ := found_bind_ok ok
  obtain ⟨_, ok⟩ := require_bind_ok ok
  split at ok
  · obtain ⟨supervised, _, ok⟩ := bind_ok ok
    obtain ⟨_, ok⟩ := require_bind_ok ok
    obtain ⟨⟨claimed, lease⟩, claims, ok⟩ := bind_ok ok
    obtain ⟨current, currentStored, ok⟩ := found_bind_ok ok
    obtain ⟨_, _, ok⟩ := bind_ok ok
    obtain ⟨_, _, ok⟩ := bind_ok ok
    obtain ⟨status, _, ok⟩ := bind_ok ok
    cases ok
    have claimedSound : Owned claimed ∧ Advanced db claimed := by
      unfold claimForUpdate at claims
      split at claims
      · obtain ⟨⟨taken, held⟩, claim, claims⟩ := map_ok claims
        cases claims
        exact claim_sound owned claim
      · cases claims
        exact ⟨owned, Advanced.refl db⟩
    exact written claimedSound.1 claimedSound.2 currentStored
  · obtain ⟨_, ok⟩ := require_bind_ok ok
    obtain ⟨status, _, ok⟩ := bind_ok ok
    cases ok
    exact written owned (Advanced.refl db) stored

theorem quiet_end (sessionId now : String) : Quiet fun lease =>
    if lease.agentSessionId = sessionId ∧ lease.status = .active then
      { lease with status := .revoked, revokedReason := some "Worker session ended", updatedAt := now }
    else lease :=
  quiet_if ⟨fun _ => rfl, nofun, fun _ _ => rfl⟩

theorem quiet_heartbeat (sessionId now : String) : Quiet fun lease =>
    if lease.agentSessionId = sessionId ∧ lease.status = .active ∧ notExpired now lease then
      { lease with lastHeartbeatAt := now, updatedAt := now }
    else lease :=
  quiet_if ⟨fun _ => rfl, fun _ => id, fun _ _ => rfl⟩

theorem quiet_expiry (id : String) (expiresAt : Option String) : Quiet fun lease =>
    if lease.id = id then { lease with expiresAt } else lease :=
  quiet_if ⟨fun _ => rfl, fun _ held => held, fun _ _ => rfl⟩

theorem Owned.deleteTask (owned : Owned db) (roomId taskId : String) :
    Owned (db.deleteTask roomId taskId) := by
  refine ⟨owned.keyed.sublist List.filter_sublist, fun taskKey => ?_, fun lease member active => ?_⟩
  · have fewer : (activeLeases (db.deleteTask roomId taskId) taskKey).Sublist
        (activeLeases db taskKey) := List.Sublist.filter _ List.filter_sublist
    exact le_trans fewer.length_le (owned.single taskKey)
  · rw [LocalDb.deleteTask, List.mem_filter] at member
    obtain ⟨task, taskMember, same, names⟩ := owned.agree lease member.1 active
    refine ⟨task, List.mem_filter.mpr ⟨taskMember, ?_⟩, same, names⟩
    rw [same]
    exact member.2

/-! ## History -/

/-- A lease's epoch is above those minted for its task before. -/
def Rising (minted : List Stamp) : Prop :=
  minted.Pairwise fun earlier later => earlier.taskKey = later.taskKey → earlier.epoch < later.epoch

structure WorkSound (s : WorkState) : Prop where
  owned : Owned s.db
  rising : Rising s.minted
  /-- As long as the task is there, so are its leases. -/
  kept : ∀ stamp ∈ s.minted, (∃ task ∈ s.db.tasks, task.key = stamp.taskKey) →
    stamp ∈ LocalDb.stamps s.db

theorem initial_sound (tasks : List LocalTask) : WorkSound (initial tasks) := by
  refine ⟨⟨?_, fun _ => Nat.zero_le _, nofun⟩,
    List.Pairwise.nil, nofun⟩
  rw [Table.Keyed, List.Nodup, List.pairwise_map]
  exact List.pairwise_pwFilter _

theorem added_still (same : LocalDb.stamps after = LocalDb.stamps before) :
    added before after = [] := by
  unfold added
  rw [same]
  refine List.filter_eq_nil_iff.mpr fun stamp member fresh => ?_
  rw [List.all_eq_true] at fresh
  simpa using fresh stamp member

theorem added_insert (grown : LocalDb.stamps after = LocalDb.stamps before ++ [stamp])
    (fresh : ∀ old ∈ LocalDb.stamps before, old.id ≠ stamp.id) : added before after = [stamp] := by
  unfold added
  rw [grown, List.filter_append]
  have none' : added before before = [] := added_still rfl
  unfold added at none'
  rw [none', List.nil_append]
  have counted : ((LocalDb.stamps before).all fun old => old.id ≠ stamp.id) = true :=
    List.all_eq_true.mpr fun old member => decide_eq_true (fresh old member)
  rw [List.filter_cons, if_pos counted, List.filter_nil]

theorem task_exists (same : after.tasks.map LocalTask.key = before.tasks.map LocalTask.key)
    (present : ∃ task ∈ after.tasks, task.key = taskKey) :
    ∃ task ∈ before.tasks, task.key = taskKey := by
  obtain ⟨task, member, key⟩ := present
  have listed := List.mem_map_of_mem (f := LocalTask.key) member
  rw [same] at listed
  obtain ⟨first, firstMember, firstKey⟩ := List.mem_map.mp listed
  exact ⟨first, firstMember, firstKey.trans key⟩

theorem WorkSound.advance (before : WorkSound s) (owned : Owned db) (advanced : Advanced s.db db) :
    WorkSound ⟨db, s.minted ++ added s.db db⟩ := by
  have earlier : ∀ stamp ∈ s.minted, (∃ task ∈ db.tasks, task.key = stamp.taskKey) →
      stamp ∈ LocalDb.stamps s.db :=
    fun stamp member present => before.kept stamp member (task_exists advanced.tasks present)
  rcases advanced.stamps with same | ⟨stamp, grown, fresh, above, present⟩
  · rw [added_still same, List.append_nil]
    refine ⟨owned, before.rising, fun stamp member present => ?_⟩
    rw [same]
    exact earlier stamp member present
  · rw [added_insert grown fresh]
    refine ⟨owned, ?_, fun other member there => ?_⟩
    · refine List.pairwise_append.mpr ⟨before.rising, List.pairwise_singleton _ _, ?_⟩
      intro old oldMember last lastMember sameTask
      rw [List.mem_singleton] at lastMember
      rw [lastMember] at sameTask ⊢
      refine above old (before.kept old oldMember ?_) sameTask
      rw [sameTask]
      exact present
    · rw [grown]
      rcases List.mem_append.mp member with old | new
      · exact List.mem_append_left _ (earlier other old there)
      · exact List.mem_append_right _ new

theorem workStep_sound (s : WorkState) (call : WorkCall) (next : WorkState) (before : WorkSound s)
    (ok : workStep s call = .ok next) : WorkSound next := by
  obtain ⟨db, called, ok⟩ := bind_ok ok
  cases ok
  have quietly {f : WorkLease → WorkLease} (quiet : Quiet f)
      (result : { s.db with leases := s.db.leases.map f } = db) :
      WorkSound ⟨db, s.minted ++ added s.db db⟩ := by
    subst result
    exact before.advance (before.owned.quiet quiet) (still_quiet s.db quiet).advanced
  cases call with
  | claimLocalWorkLease context roomId taskId worker =>
    obtain ⟨⟨claimed, lease⟩, claim, rfl⟩ := map_ok called
    have sound := claim_sound before.owned claim
    exact before.advance sound.1 sound.2
  | changeLocalWorkLease context roomId taskId input worker =>
    have sound := change_sound before.owned called
    exact before.advance sound.1 sound.2
  | updateLocalTask context caller observed roomId taskId patch =>
    have sound := update_sound before.owned called
    exact before.advance sound.1 sound.2
  | endLocalWorkerLeases sessionId now =>
    exact quietly (quiet_end sessionId now) (Except.ok.inj called)
  | heartbeatLocalWorkLeases sessionId now =>
    exact quietly (quiet_heartbeat sessionId now) (Except.ok.inj called)
  | expire id expiresAt => exact quietly (quiet_expiry id expiresAt) (Except.ok.inj called)
  | deleteTask roomId taskId =>
    cases called
    have none' : added s.db (s.db.deleteTask roomId taskId) = [] := by
      refine List.filter_eq_nil_iff.mpr fun stamp member fresh => ?_
      obtain ⟨lease, leaseMember, rfl⟩ := List.mem_map.mp member
      rw [List.all_eq_true] at fresh
      have old := fresh _ (List.mem_map_of_mem (List.mem_filter.mp leaseMember).1)
      simp at old
    rw [none', List.append_nil]
    refine ⟨before.owned.deleteTask roomId taskId, before.rising, fun stamp member present => ?_⟩
    obtain ⟨task, taskMember, same⟩ := present
    rw [LocalDb.deleteTask, List.mem_filter] at taskMember
    obtain ⟨lease, leaseMember, shape⟩ :=
      List.mem_map.mp (before.kept stamp member ⟨task, taskMember.1, same⟩)
    refine List.mem_map.mpr ⟨lease, List.mem_filter.mpr ⟨leaseMember, ?_⟩, shape⟩
    have key : lease.taskKey = task.key := (congrArg Stamp.taskKey shape).trans same.symm
    rw [key]
    exact taskMember.2

/-- A task has one active lease at most, a minted lease is above all earlier ones of its
task, and an active lease, expired or not, names the owner that the task row names. -/
structure WorkLeaseOwnership (s : WorkState) : Prop where
  single : ∀ taskKey, (activeLeases s.db taskKey).length ≤ 1
  rising : Rising s.minted
  agree : ∀ lease ∈ s.db.leases, lease.status = .active →
    ∃ task ∈ s.db.tasks, task.key = lease.taskKey ∧ ownedStatuses.contains task.status = true ∧
      task.assignee = some lease.actorLabel ∧ task.assigneeAgentKey = some lease.agentKey ∧
      task.assigneeAgentSessionId = some lease.agentSessionId

theorem work_lease_ownership (tasks : List LocalTask) (calls : List WorkCall) :
    WorkLeaseOwnership (Replay.replay workStep (initial tasks) calls) := by
  have sound : WorkSound (Replay.replay workStep (initial tasks) calls) :=
    Replay.replay_preserves (fun _ _ => True) WorkSound
      (fun s call next before _ ok => workStep_sound s call next before ok)
      (Replay.meets_of_forall (fun _ _ => True.intro) _ _) (initial_sound tasks)
  refine ⟨sound.owned.single, sound.rising, fun lease member active => ?_⟩
  obtain ⟨task, taskMember, same, names⟩ := sound.owned.agree lease member active
  simp only [owns, Bool.and_eq_true, decide_eq_true_eq] at names
  exact ⟨task, taskMember, same, names.1.1.1, names.2, names.1.1.2, names.1.2⟩

end LetAgents.Tasks.WorkOwnership

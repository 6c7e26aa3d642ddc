import LetAgents.Lib.OrderedMap
import LetAgents.Routing.AddressResolver

/-!
# The owners of the active tasks of a room

Source: src/shared/local-task-store.mjs:153-190, activation-routing.mjs:212-236. The query of the
store groups the tasks by owner and answers with at most two rows; the routing counts the owners
in these rows once more, by keys of its own.

Modelling boundary: a group that has several tasks shows the columns of one that attains its
least label or its least time; SQLite leaves open of which, and also the order of groups of
one time.
-/
namespace LetAgents.Routing

open Lib Lib.RegExp

/-! ## The query -/

structure LocalTask where
  room_id : Text
  status : Text
  assignee : Option Text
  assignee_agent_key : Option Text
  assignee_agent_instance_id : Option Text
  assignee_agent_session_id : Option Text
  created_at : Text
  deriving DecidableEq

/-- `TRIM(x)` of SQLite takes spaces only. -/
def sqlTrim (t : Text) : Text :=
  ((t.dropWhile (· = u ' ')).reverse.dropWhile (· = u ' ')).reverse

/-- `NULLIF(TRIM(x), '')` -/
def sqlGiven (x : Option Text) : Option Text := (x.map sqlTrim).filter (· ≠ [])

def agentKey (task : LocalTask) : Text := task.assignee_agent_key.getD []

/-- `COALESCE(NULLIF(TRIM(assignee), ''), assignee_agent_key)` -/
def ownerLabel (task : LocalTask) : Text := (sqlGiven task.assignee).getD (agentKey task)

def activeStatuses : List Text := ["assigned", "in_progress", "blocked", "in_review"].map text

/-- The condition of the query. -/
def isOwned (roomId : Text) (task : LocalTask) : Bool :=
  task.room_id == roomId && activeStatuses.contains task.status &&
    (sqlGiven task.assignee_agent_key).isSome

/-- The expression that the query groups by. -/
def groupKey (task : LocalTask) : Text :=
  match sqlGiven task.assignee_agent_session_id with
  | some sessionId => text "session:" ++ sessionId
  | none =>
    match sqlGiven task.assignee_agent_instance_id with
    | some instanceId =>
      text "instance:" ++ sqlTrim (agentKey task) ++ text ":" ++ instanceId
    | none => text "agent:" ++ sqlTrim (agentKey task)

/-- The place of a code unit in the order of UTF-8: surrogates come last. -/
def byteRank (c : Nat) : Nat := if 0xD800 ≤ c ∧ c < 0xE000 then c + 0x10000 else c

/-- The collation `BINARY`. -/
def binaryLe (a b : Text) : Prop := a.map byteRank ≤ b.map byteRank

instance : DecidableRel binaryLe := fun _ _ => inferInstanceAs (Decidable (_ ≤ _))

instance : Std.Total binaryLe := ⟨fun a b => le_total (a.map byteRank) (b.map byteRank)⟩

instance : IsTrans Text binaryLe := ⟨fun _ _ _ first second => le_trans first second⟩

/-- `MIN(x)` -/
def least (texts : List Text) : Text := (texts.insertionSort binaryLe).headD []

def ofGroup (tasks : List LocalTask) (group : Text) : List LocalTask :=
  tasks.filter fun task => groupKey task = group

def createdOf (tasks : List LocalTask) (group : Text) : Text :=
  least ((ofGroup tasks group).map LocalTask.created_at)

def labelOf (tasks : List LocalTask) (group : Text) : Text :=
  least ((ofGroup tasks group).map ownerLabel)

structure TaskLease where
  kind : Text := text "work"
  status : Text := text "active"
  actor_label : Text
  agent_key : Text
  agent_instance_id : Option Text
  agent_session_id : Option Text

/-- The lease that a row becomes. -/
def leaseOf (actorLabel : Text) (task : LocalTask) : TaskLease where
  actor_label := if actorLabel ≠ [] then actorLabel else agentKey task
  agent_key := agentKey task
  agent_instance_id := task.assignee_agent_instance_id
  agent_session_id := task.assignee_agent_session_id

/-- The task may lend its columns to the row of its group. -/
structure Represents (tasks : List LocalTask) (task : LocalTask) : Prop where
  member : task ∈ tasks
  attains : task.created_at = createdOf tasks (groupKey task) ∨
    ownerLabel task = labelOf tasks (groupKey task)

def ShowsGroup (tasks : List LocalTask) (group : Text) (row : TaskLease) : Prop :=
  ∃ task, Represents tasks task ∧ groupKey task = group ∧ row = leaseOf (labelOf tasks group) task

/-- The groups in an order that the query may take them in. -/
structure Ordered (tasks : List LocalTask) (groups : List Text) : Prop where
  nodup : groups.Nodup
  all : ∀ group, group ∈ groups ↔ ∃ task ∈ tasks, groupKey task = group
  sorted : groups.Pairwise fun group later =>
    binaryLe (createdOf tasks group) (createdOf tasks later)

/-- The rows are an answer of the query over the tasks that meet its condition. -/
def Answers (tasks : List LocalTask) (rows : List TaskLease) : Prop :=
  ∃ groups, Ordered tasks groups ∧ List.Forall₂ (ShowsGroup tasks) (groups.take 2) rows

def ownedTasks (roomId : Text) (tasks : List LocalTask) : List LocalTask :=
  tasks.filter (isOwned roomId)

def listLocalActiveTaskOwnerLeases (roomId : Text) (tasks : List LocalTask)
    (rows : List TaskLease) : Prop :=
  Answers (ownedTasks roomId tasks) rows

/-! ## Counting the owners -/

def leaseOwnerKey (lease : TaskLease) : Option Text :=
  let sessionId := normalizedString lease.agent_session_id
  if sessionId ≠ [] then some (text "session:" ++ sessionId)
  else
    let instanceId := normalizedString lease.agent_instance_id
    let agentKey := normalizeRoutingSender (some lease.agent_key)
    if instanceId ≠ [] then some (text "instance:" ++ agentKey ++ text ":" ++ instanceId)
    else if agentKey ≠ [] then some (text "agent:" ++ agentKey)
    else
      let actorLabel := normalizeRoutingSender (some lease.actor_label)
      if actorLabel ≠ [] then some (text "label:" ++ actorLabel) else none

def addOwner (ownersByKey : OrderedMap Text TaskLease) (lease : TaskLease) :
    OrderedMap Text TaskLease :=
  if lease.kind ≠ text "work" ∨ lease.status ≠ text "active" then ownersByKey
  else
    match leaseOwnerKey lease with
    | none => ownersByKey
    | some key => ownersByKey.set key lease

def uniqueActiveWorkOwners (leases : List TaskLease) : List TaskLease :=
  (leases.foldl addOwner OrderedMap.empty).values

/-! ## What is counted -/

theorem mem_addOwner : key ∈ (addOwner owners (leaseOf label task)).keys ↔
      key ∈ owners.keys ∨ leaseOwnerKey (leaseOf label task) = some key := by
  have active : ¬((leaseOf label task).kind ≠ text "work" ∨
      (leaseOf label task).status ≠ text "active") := by
    simp [leaseOf]
  rw [addOwner, if_neg active]
  cases named : leaseOwnerKey (leaseOf label task) with
  | none => simp
  | some own =>
    simp only [OrderedMap.keys, List.mem_map, OrderedMap.mem_set, Option.some.injEq]
    constructor
    · rintro ⟨entry, rfl | ⟨member, -⟩, rfl⟩
      · exact .inr rfl
      · exact .inl ⟨entry, member, rfl⟩
    · rintro (⟨entry, member, rfl⟩ | rfl)
      · by_cases same : entry.1 = own
        · exact ⟨_, .inl rfl, same.symm⟩
        · exact ⟨entry, .inr ⟨member, same⟩, rfl⟩
      · exact ⟨_, .inl rfl, rfl⟩

/-- Each owner stands under its own key. -/
theorem addOwner_keyed (keyed : ∀ entry ∈ owners.entries, leaseOwnerKey entry.2 = some entry.1) :
    ∀ entry ∈ (addOwner owners lease).entries, leaseOwnerKey entry.2 = some entry.1 := by
  unfold addOwner
  split
  · exact keyed
  · cases named : leaseOwnerKey lease with
    | none => exact keyed
    | some key =>
      intro entry member
      rcases OrderedMap.mem_set.mp member with rfl | ⟨old, -⟩
      · exact named
      · exact keyed entry old

theorem uniqueActiveWorkOwners_keys (leases : List TaskLease) :
    (uniqueActiveWorkOwners leases).map leaseOwnerKey =
      (leases.foldl addOwner OrderedMap.empty).keys.map some := by
  have keyed : ∀ entry ∈ (leases.foldl addOwner OrderedMap.empty).entries,
      leaseOwnerKey entry.2 = some entry.1 := by
    apply List.foldlRecOn (motive := fun owners : OrderedMap Text TaskLease =>
      ∀ entry ∈ owners.entries, leaseOwnerKey entry.2 = some entry.1)
    · exact nofun
    · intro owners ih lease _
      exact addOwner_keyed ih
  simp only [uniqueActiveWorkOwners, OrderedMap.values, OrderedMap.keys, List.map_map]
  exact List.map_congr_left keyed

theorem mem_owners {rows : List (Text × LocalTask)} :
    key ∈ ((rows.map fun row => leaseOf row.1 row.2).foldl addOwner OrderedMap.empty).keys ↔
      ∃ row ∈ rows, leaseOwnerKey (leaseOf row.1 row.2) = some key := by
  induction rows using List.reverseRecOn with
  | nil => simp [OrderedMap.keys, OrderedMap.empty]
  | append_singleton rows row ih =>
    rw [List.map_append, List.map_singleton, List.foldl_concat, mem_addOwner, ih]
    simp only [List.mem_append, List.mem_singleton]
    constructor
    · rintro (⟨other, member, named⟩ | named)
      · exact ⟨other, .inl member, named⟩
      · exact ⟨row, .inr rfl, named⟩
    · rintro ⟨other, member | rfl, named⟩
      · exact .inl ⟨other, member, named⟩
      · exact .inr named

end LetAgents.Routing

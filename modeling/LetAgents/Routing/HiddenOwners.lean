import LetAgents.Routing.TaskOwners

/-!
# What the bounded query hides

The query groups by keys that keep the case of an agent key, and it stops at two groups. The
routing counts one owner wrongly when the two groups that it sees are of one owner and a group
behind them is of another.
-/
namespace LetAgents.Routing

open Lib Lib.RegExp

/-! ## What the answers look like -/

/-- The tasks may stand for the first two groups of an answer, or both for the only group. -/
structure Leading (tasks : List LocalTask) (first second : LocalTask) : Prop where
  leads : Represents tasks first
  follows : Represents tasks second
  alone : groupKey first = groupKey second →
    first = second ∧ ∀ task ∈ tasks, groupKey task = groupKey first
  oldest : ∀ task ∈ tasks,
    binaryLe (createdOf tasks (groupKey first)) (createdOf tasks (groupKey task))
  next : ∀ task ∈ tasks, groupKey task ≠ groupKey first →
    binaryLe (createdOf tasks (groupKey second)) (createdOf tasks (groupKey task))

/-- The row that a task stands for. -/
def shownBy (tasks : List LocalTask) (task : LocalTask) : TaskLease :=
  leaseOf (labelOf tasks (groupKey task)) task

def leadingRows (tasks : List LocalTask) (first second : LocalTask) : List TaskLease :=
  if groupKey first = groupKey second then [shownBy tasks first]
  else [shownBy tasks first, shownBy tasks second]

theorem Answers.leading (answers : Answers tasks rows) : tasks = [] ∧ rows = [] ∨
      ∃ first second, Leading tasks first second ∧ rows = leadingRows tasks first second := by
  obtain ⟨groups, ⟨nodup, all, sorted⟩, shown⟩ := answers
  rcases groups with _ | ⟨g, _ | ⟨h, rest⟩⟩
  · left
    constructor
    · apply List.eq_nil_iff_forall_not_mem.mpr
      intro task member
      exact List.not_mem_nil ((all _).mpr ⟨task, member, rfl⟩)
    · exact List.forall₂_nil_left_iff.mp shown
  · right
    obtain ⟨row, tail, ⟨first, stands, rfl, rfl⟩, none, rfl⟩ := List.forall₂_cons_left_iff.mp shown
    obtain rfl := List.forall₂_nil_left_iff.mp none
    have only : ∀ task ∈ tasks, groupKey task = groupKey first := by
      intro task member
      exact List.mem_singleton.mp ((all _).mpr ⟨task, member, rfl⟩)
    refine ⟨first, first, ⟨stands, stands, fun _ => ⟨rfl, only⟩, ?_, ?_⟩, ?_⟩
    · intro task member
      rw [only task member]
      exact refl_of binaryLe _
    · intro task member other
      exact absurd (only task member) other
    · rw [leadingRows, if_pos rfl, shownBy]
  · right
    obtain ⟨row, tail, ⟨first, stands, rfl, rfl⟩, more, rfl⟩ := List.forall₂_cons_left_iff.mp shown
    obtain ⟨row', tail', ⟨second, stands', rfl, rfl⟩, none, rfl⟩ :=
      List.forall₂_cons_left_iff.mp more
    obtain rfl := List.forall₂_nil_left_iff.mp none
    rw [List.pairwise_cons, List.pairwise_cons] at sorted
    have apart : groupKey first ≠ groupKey second := by
      intro same
      rw [same] at nodup
      simp at nodup
    refine ⟨first, second, ⟨stands, stands', fun same => absurd same apart, ?_, ?_⟩, ?_⟩
    · intro task member
      rcases List.mem_cons.mp ((all _).mpr ⟨task, member, rfl⟩) with same | later
      · rw [same]
        exact refl_of binaryLe _
      · exact sorted.1 _ later
    · intro task member other
      have later := List.mem_of_ne_of_mem other ((all _).mpr ⟨task, member, rfl⟩)
      rcases List.mem_cons.mp later with same | later
      · rw [same]
        exact refl_of binaryLe _
      · exact sorted.2.1 _ later
    · rw [leadingRows, if_neg apart]
      rfl

/-- The other groups, in the order of their oldest tasks. -/
def laterGroups (tasks : List LocalTask) (first second : LocalTask) : List Text :=
  ((KeySets.ofList (tasks.map groupKey)).filter fun group =>
    group ≠ groupKey first ∧ group ≠ groupKey second).insertionSort
      fun group later => binaryLe (createdOf tasks group) (createdOf tasks later)

theorem mem_laterGroups : group ∈ laterGroups tasks first second ↔
      (∃ task ∈ tasks, groupKey task = group) ∧ group ≠ groupKey first ∧ group ≠ groupKey second := by
  simp [laterGroups]

theorem Leading.answers (leading : Leading tasks first second) :
    Answers tasks (leadingRows tasks first second) := by
  by_cases same : groupKey first = groupKey second
  · obtain ⟨rfl, only⟩ := leading.alone same
    refine ⟨[groupKey first], ⟨List.nodup_singleton _, ?_, List.pairwise_singleton _ _⟩, ?_⟩
    · intro group
      rw [List.mem_singleton]
      constructor
      · rintro rfl
        exact ⟨first, leading.leads.member, rfl⟩
      · rintro ⟨task, member, rfl⟩
        exact only task member
    · rw [leadingRows, if_pos rfl]
      exact .cons ⟨first, leading.leads, rfl, rfl⟩ .nil
  · have total : Std.Total fun group later : Text =>
        binaryLe (createdOf tasks group) (createdOf tasks later) :=
      ⟨fun group later => total_of binaryLe _ _⟩
    refine ⟨groupKey first :: groupKey second :: laterGroups tasks first second, ⟨?_, ?_, ?_⟩, ?_⟩
    · have later : (laterGroups tasks first second).Nodup :=
        (List.perm_insertionSort _ _).nodup_iff.mpr ((KeySets.nodup_ofList _).filter _)
      rw [List.nodup_cons, List.nodup_cons, List.mem_cons, mem_laterGroups, mem_laterGroups]
      simp [same, later]
    · intro group
      rw [List.mem_cons, List.mem_cons, mem_laterGroups]
      constructor
      · rintro (rfl | rfl | ⟨some, -⟩)
        · exact ⟨first, leading.leads.member, rfl⟩
        · exact ⟨second, leading.follows.member, rfl⟩
        · exact some
      · intro some
        by_cases isFirst : group = groupKey first
        · exact .inl isFirst
        · by_cases isSecond : group = groupKey second
          · exact .inr (.inl isSecond)
          · exact .inr (.inr ⟨some, isFirst, isSecond⟩)
    · rw [List.pairwise_cons, List.pairwise_cons]
      refine ⟨?_, ?_, List.pairwise_insertionSort _ _⟩
      · intro group later
        rcases List.mem_cons.mp later with rfl | later
        · exact leading.oldest second leading.follows.member
        · obtain ⟨⟨task, member, rfl⟩, -, -⟩ := mem_laterGroups.mp later
          exact leading.oldest task member
      · intro group later
        obtain ⟨⟨task, member, rfl⟩, other, -⟩ := mem_laterGroups.mp later
        exact leading.next task member other
    · rw [leadingRows, if_neg same]
      exact .cons ⟨first, leading.leads, rfl, rfl⟩ (.cons ⟨second, leading.follows, rfl, rfl⟩ .nil)

/-! ## One owner or several -/

/-- One lease for each task that the query reads. -/
def taskLeases (roomId : Text) (tasks : List LocalTask) : List TaskLease :=
  (ownedTasks roomId tasks).map fun task => leaseOf (ownerLabel task) task

/-- Both name one owner, the same, or neither names exactly one. -/
structure NameAlike (owners others : List TaskLease) : Prop where
  single : owners.length = 1 ↔ others.length = 1
  named : owners.length = 1 → owners.map leaseOwnerKey = others.map leaseOwnerKey

/-- Whatever the query answers, it tells the owner of the tasks. -/
def OwnersFaithful (roomId : Text) (tasks : List LocalTask) : Prop :=
  ∀ rows, listLocalActiveTaskOwnerLeases roomId tasks rows →
    NameAlike (uniqueActiveWorkOwners rows) (uniqueActiveWorkOwners (taskLeases roomId tasks))

def ownKey (task : LocalTask) : Option Text := leaseOwnerKey (leaseOf (ownerLabel task) task)

def shownKey (tasks : List LocalTask) (task : LocalTask) : Option Text :=
  leaseOwnerKey (shownBy tasks task)

/-- The rows of the two tasks show this owner and no other. -/
structure ShowsOnly (tasks : List LocalTask) (first second : LocalTask) (key : Text) : Prop where
  shown : shownKey tasks first = some key ∨ shownKey tasks second = some key
  only : ∀ other, shownKey tasks first = some other ∨ shownKey tasks second = some other →
    other = key

/-- The first two groups are of one owner, and a task behind them is of another. -/
def Hidden (tasks : List LocalTask) : Prop :=
  ∃ first second key, Leading tasks first second ∧ ShowsOnly tasks first second key ∧
    ∃ task ∈ tasks, ∃ other ≠ key, ownKey task = some other

/-- The least label of a group stands in for the label of the task. -/
def Mislabelled (tasks : List LocalTask) : Prop :=
  ∃ first second key, Leading tasks first second ∧
    (∀ task ∈ tasks, ∀ other, ownKey task = some other → other = key) ∧
    ¬(ShowsOnly tasks first second key ↔ ∃ task ∈ tasks, ownKey task = some key)

/-- No agent key is blank to JavaScript. -/
def Named (tasks : List LocalTask) : Prop :=
  ∀ task ∈ tasks, normalizeRoutingSender (some (agentKey task)) ≠ []

/-- Sets of keys name alike when they have the same only element. -/
theorem alike_iff {keys others : List Text} (nodup : keys.Nodup) (nodup' : others.Nodup) :
    ((keys.length = 1 ↔ others.length = 1) ∧ (keys.length = 1 → keys.map some = others.map some)) ↔
      ∀ key, (∀ other, other ∈ keys ↔ other = key) ↔ ∀ other, other ∈ others ↔ other = key := by
  constructor
  · rintro ⟨single, named⟩ key
    have equal : keys.length = 1 → keys = others := fun one =>
      List.map_injective_iff.mpr (Option.some_injective _) (named one)
    constructor
    · intro only
      rwa [← equal ((length_eq_one_iff nodup).mpr ⟨key, only⟩)]
    · intro only
      rwa [equal (single.mpr ((length_eq_one_iff nodup').mpr ⟨key, only⟩))]
  · intro same
    constructor
    · rw [length_eq_one_iff nodup, length_eq_one_iff nodup']
      exact exists_congr same
    · intro one
      obtain ⟨key, only⟩ := (length_eq_one_iff nodup).mp one
      obtain ⟨found, rfl⟩ := List.length_eq_one_iff.mp one
      obtain rfl := (only found).mp List.mem_cons_self
      have only' := (same found).mp only
      obtain ⟨found', rfl⟩ :=
        List.length_eq_one_iff.mp ((length_eq_one_iff nodup').mpr ⟨found, only'⟩)
      rw [(only' found').mp List.mem_cons_self]

/-- One key among those that the tasks show under these labels. -/
def OnlyKey (rows : List (Text × LocalTask)) (key : Text) : Prop :=
  ∀ other, (∃ row ∈ rows, leaseOwnerKey (leaseOf row.1 row.2) = some other) ↔ other = key

theorem nameAlike_iff :
    NameAlike (uniqueActiveWorkOwners (rows.map fun row => leaseOf row.1 row.2))
        (uniqueActiveWorkOwners (others.map fun row => leaseOf row.1 row.2)) ↔
      ∀ key, OnlyKey rows key ↔ OnlyKey others key := by
  have left := uniqueActiveWorkOwners_keys (rows.map fun row => leaseOf row.1 row.2)
  have right := uniqueActiveWorkOwners_keys (others.map fun row => leaseOf row.1 row.2)
  have length := congrArg List.length left
  have length' := congrArg List.length right
  rw [List.length_map, List.length_map] at length length'
  have nodup : ((rows.map fun row => leaseOf row.1 row.2).foldl
      addOwner OrderedMap.empty).keys.Nodup := OrderedMap.keyed _
  have nodup' : ((others.map fun row => leaseOf row.1 row.2).foldl
      addOwner OrderedMap.empty).keys.Nodup := OrderedMap.keyed _
  unfold OnlyKey
  simp only [← mem_owners]
  rw [← alike_iff nodup nodup', ← length, ← length', ← left, ← right]
  exact ⟨fun alike => ⟨alike.single, alike.named⟩, fun alike => ⟨alike.1, alike.2⟩⟩

section

variable {tasks : List LocalTask} {first second : LocalTask} {key : Text}

def shownRows (tasks : List LocalTask) (first second : LocalTask) : List (Text × LocalTask) :=
  if groupKey first = groupKey second then [(labelOf tasks (groupKey first), first)]
  else [(labelOf tasks (groupKey first), first), (labelOf tasks (groupKey second), second)]

theorem shownRows_leases :
    (shownRows tasks first second).map (fun row => leaseOf row.1 row.2) =
      leadingRows tasks first second := by
  unfold shownRows leadingRows
  split <;> rfl

theorem Leading.onlyKey (leading : Leading tasks first second) :
    OnlyKey (shownRows tasks first second) key ↔ ShowsOnly tasks first second key := by
  have shows : ∀ other, (∃ row ∈ shownRows tasks first second,
      leaseOwnerKey (leaseOf row.1 row.2) = some other) ↔
        shownKey tasks first = some other ∨ shownKey tasks second = some other := by
    unfold shownRows
    split
    · rename_i same
      obtain ⟨rfl, -⟩ := leading.alone same
      simp [shownKey, shownBy]
    · simp [shownKey, shownBy]
  unfold OnlyKey
  simp only [shows]
  constructor
  · intro only
    exact ⟨(only key).mpr rfl, fun other => (only other).mp⟩
  · rintro ⟨shown, only⟩ other
    exact ⟨only other, fun same => same ▸ shown⟩

theorem onlyKey_own :
    OnlyKey (tasks.map fun task => (ownerLabel task, task)) key ↔
      (∃ task ∈ tasks, ownKey task = some key) ∧
        ∀ task ∈ tasks, ∀ other, ownKey task = some other → other = key := by
  unfold OnlyKey
  have owns : ∀ other, (∃ row ∈ tasks.map fun task => (ownerLabel task, task),
      leaseOwnerKey (leaseOf row.1 row.2) = some other) ↔
        ∃ task ∈ tasks, ownKey task = some other := by
    simp [ownKey]
  simp only [owns]
  constructor
  · intro only
    exact ⟨(only key).mpr rfl, fun task member other own => (only other).mp ⟨task, member, own⟩⟩
  · rintro ⟨some, only⟩ other
    constructor
    · rintro ⟨task, member, own⟩
      exact only task member other own
    · rintro rfl
      exact some

/-- What the query has to tell apart. -/
theorem answers_alike_iff :
    (∀ rows, Answers tasks rows → NameAlike (uniqueActiveWorkOwners rows)
        (uniqueActiveWorkOwners (tasks.map fun task => leaseOf (ownerLabel task) task))) ↔
      ∀ first second, Leading tasks first second → ∀ key, ShowsOnly tasks first second key ↔
        (∃ task ∈ tasks, ownKey task = some key) ∧
          ∀ task ∈ tasks, ∀ other, ownKey task = some other → other = key := by
  have own : (tasks.map fun task => leaseOf (ownerLabel task) task) =
      (tasks.map fun task => (ownerLabel task, task)).map fun row => leaseOf row.1 row.2 := by
    rw [List.map_map]
    rfl
  have alike : ∀ first second, Leading tasks first second →
      (NameAlike (uniqueActiveWorkOwners (leadingRows tasks first second))
        (uniqueActiveWorkOwners (tasks.map fun task => leaseOf (ownerLabel task) task)) ↔
      ∀ key, ShowsOnly tasks first second key ↔
        (∃ task ∈ tasks, ownKey task = some key) ∧
          ∀ task ∈ tasks, ∀ other, ownKey task = some other → other = key) := by
    intro first second leading
    rw [own, ← shownRows_leases, nameAlike_iff]
    simp only [leading.onlyKey, onlyKey_own]
  constructor
  · intro faithful first second leading
    exact (alike first second leading).mp (faithful _ leading.answers)
  · intro all rows answers
    rcases answers.leading with ⟨rfl, rfl⟩ | ⟨first, second, leading, rfl⟩
    · exact ⟨Iff.rfl, fun _ => rfl⟩
    · exact (alike first second leading).mpr (all first second leading)

/-- A task that has a key of its own shows its own owner. -/
theorem Named.shownKey (named : Named tasks) (member : task ∈ tasks) :
    shownKey tasks task = ownKey task ∧ ∃ key, ownKey task = some key := by
  have present := named task member
  unfold Routing.shownKey shownBy ownKey leaseOwnerKey leaseOf
  dsimp only
  split
  · exact ⟨rfl, _, rfl⟩
  · split
    · exact ⟨rfl, _, rfl⟩
    · exact ⟨rfl, _, rfl⟩

theorem Named.not_mislabelled (named : Named tasks) : ¬Mislabelled tasks := by
  rintro ⟨first, second, key, leading, all, wrong⟩
  obtain ⟨shown, own, ownFirst⟩ := named.shownKey leading.leads.member
  obtain ⟨shown', own', ownSecond⟩ := named.shownKey leading.follows.member
  obtain rfl := all first leading.leads.member own ownFirst
  obtain rfl := all second leading.follows.member own' ownSecond
  apply wrong
  constructor
  · intro _
    exact ⟨first, leading.leads.member, ownFirst⟩
  · intro _
    refine ⟨.inl (shown.trans ownFirst), fun other => ?_⟩
    rw [shown, shown', ownFirst, ownSecond]
    rintro (same | same)
    · exact (Option.some.inj same).symm
    · exact (Option.some.inj same).symm

end

/-- What the query hides it counts wrongly. -/
theorem Hidden.unfaithful (hidden : Hidden (ownedTasks roomId tasks)) :
    ¬OwnersFaithful roomId tasks := by
  intro faithful
  obtain ⟨first, second, key, leading, shows, task, member, other, apart, own⟩ := hidden
  have told := (answers_alike_iff.mp faithful first second leading key).mp shows
  exact apart (told.2 task member other own)

/-- The bounded query leaves the routing by task owner as it is exactly when it hides no owner
behind two groups of one owner; labels take no part where agent keys are not blank. -/
theorem ownersFaithful_iff (roomId : Text) (tasks : List LocalTask) :
    (OwnersFaithful roomId tasks ↔
      ¬Hidden (ownedTasks roomId tasks) ∧ ¬Mislabelled (ownedTasks roomId tasks)) ∧
    (Named (ownedTasks roomId tasks) → ¬Mislabelled (ownedTasks roomId tasks)) := by
  refine ⟨?_, Named.not_mislabelled⟩
  constructor
  · intro faithful
    constructor
    · exact fun hidden => hidden.unfaithful faithful
    · rintro ⟨first, second, key, leading, all, wrong⟩
      have told := answers_alike_iff.mp faithful first second leading key
      apply wrong
      rw [told]
      exact ⟨And.left, fun some => ⟨some, all⟩⟩
  · rintro ⟨shown, labelled⟩
    apply answers_alike_iff.mpr
    intro first second leading key
    have agree : (∀ task ∈ ownedTasks roomId tasks, ∀ other, ownKey task = some other →
        other = key) → (ShowsOnly (ownedTasks roomId tasks) first second key ↔
          ∃ task ∈ ownedTasks roomId tasks, ownKey task = some key) := by
      intro all
      by_contra wrong
      exact labelled ⟨first, second, key, leading, all, wrong⟩
    constructor
    · intro shows
      have all : ∀ task ∈ ownedTasks roomId tasks, ∀ other, ownKey task = some other →
          other = key := by
        intro task member other own
        by_contra apart
        exact shown ⟨first, second, key, leading, shows, task, member, other, apart, own⟩
      exact ⟨(agree all).mp shows, all⟩
    · rintro ⟨some, all⟩
      exact (agree all).mpr some

def ownedTask (agentKey createdAt : String) : LocalTask where
  room_id := text "room"
  status := text "in_progress"
  assignee := none
  assignee_agent_key := some (text agentKey)
  assignee_agent_instance_id := none
  assignee_agent_session_id := none
  created_at := text createdAt

/-- Two tasks of one agent, whose key has a capital letter in one of them, and then a task of
another agent. -/
def recasedTasks : List LocalTask := [ownedTask "A/k" "1", ownedTask "a/k" "2", ownedTask "b/k" "3"]

theorem recased_leading :
    Leading (ownedTasks (text "room") recasedTasks) (ownedTask "A/k" "1") (ownedTask "a/k" "2") where
  leads := ⟨by decide +kernel, by decide +kernel⟩
  follows := ⟨by decide +kernel, by decide +kernel⟩
  alone := by decide +kernel
  oldest := by decide +kernel
  next := by decide +kernel

/-- The query answers with two rows that the routing takes for one owner. -/
theorem recased_owner_hides_another : ¬OwnersFaithful (text "room") recasedTasks := by
  apply Hidden.unfaithful
  refine ⟨_, _, text "agent:a/k", recased_leading, ⟨by decide +kernel, ?_⟩, ownedTask "b/k" "3",
    by decide +kernel, text "agent:b/k", by decide +kernel, by decide +kernel⟩
  have first : shownKey (ownedTasks (text "room") recasedTasks) (ownedTask "A/k" "1") =
    some (text "agent:a/k") := by decide +kernel
  have second : shownKey (ownedTasks (text "room") recasedTasks) (ownedTask "a/k" "2") =
    some (text "agent:a/k") := by decide +kernel
  rw [first, second]
  rintro other (same | same)
  · exact (Option.some.inj same).symm
  · exact (Option.some.inj same).symm

end LetAgents.Routing

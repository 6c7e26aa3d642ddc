import Mathlib.Logic.Function.Basic
import LetAgents.Lib.Replay
import LetAgents.Tasks.LocalTaskStore

/-!
# Review authority

Source: shared/local-task-store.mjs:62-85, 302-372.

A claim reads the task, checks who holds the review, writes the review columns in a
transaction of its own and reads the task back; a release reads and then clears. Nothing
is checked again inside the transaction, so a claim can overwrite a holder it never saw,
and one without an agent key, or one that finds such a holder, takes over the lease id.
`Undisturbed` excludes these writes.

Modelling boundary: the random part of a new id makes it differ from all ids made before.
-/
namespace LetAgents.Tasks.ReviewAuthority

open Lib Lib.Js Lib.Checked LocalTaskStore

/-! ## Requests -/

structure ReviewClaimInput where
  holderLabel : Option String
  agentKey : Option String
  agentSessionId : Option String

/-- `value?.trim() || null`. -/
def trimmed (value : Option String) : Option String :=
  (value.map trim).filter fun text => text ≠ ""

def actorKey (input : ReviewClaimInput) : Option String := trimmed input.agentKey

/-- The id of the review entry in a task's active leases. -/
def currentReviewLeaseId (task : LocalTask) : Option String :=
  task.reviewLeaseId.filter fun id => trim id ≠ ""

def checkReviewClaim (current : LocalTask) (input : ReviewClaimInput) : Except String Unit := do
  require (¬ (actorKey input ≠ none ∧ present current.assigneeAgentKey ∧
      current.assigneeAgentKey = actorKey input))
    "A worker holding the task cannot also claim review authority."
  require (¬ (currentReviewLeaseId current ≠ none ∧ present current.reviewAgentKey ∧
      actorKey input ≠ none ∧ current.reviewAgentKey ≠ actorKey input))
    "Review authority is already held by another local reviewer."

/-- The row that a claim writes. -/
def claimedRow (task : LocalTask) (leaseId : String) (input : ReviewClaimInput) (now : String) :
    LocalTask :=
  { task with
    reviewLeaseId := some leaseId
    reviewHolderLabel := (trimmed input.holderLabel <|> actorKey input) <|> some "Local reviewer"
    reviewAgentKey := actorKey input
    reviewAgentSessionId := trimmed input.agentSessionId
    updatedAt := now }

def checkReviewRelease (current : LocalTask) (leaseId : Option String) : Except String Unit :=
  require (¬ (present leaseId ∧ currentReviewLeaseId current ≠ none ∧
      leaseId ≠ currentReviewLeaseId current))
    "Review lease id did not match the active local review authority."

/-- The row that a release writes. -/
def releasedRow (task : LocalTask) (now : String) : LocalTask :=
  { task with
    reviewLeaseId := none
    reviewHolderLabel := none
    reviewAgentKey := none
    reviewAgentSessionId := none
    updatedAt := now }

/-! ## Calls -/

/-- Where a call stands between two steps. -/
inductive Phase where
  | idle
  /-- A claim is about to write: `holder` is the agent key of the lease whose id it reuses,
  `none` for a new id. -/
  | claiming (input : ReviewClaimInput) (leaseId : String) (holder : Option (Option String))
  | claimed (agentKey : Option String) (leaseId : String)
  | succeeded (agentKey : Option String) (leaseId : String)
  /-- A release is about to write: `target` is the lease that it read. -/
  | releasing (target : Option String)
  | finished

/-- The task row, the calls, and what happened: the ids made, the holder that each id was
written with, and the agent whose claim succeeded and was not released. -/
structure ReviewState where
  task : LocalTask
  phase : Nat → Phase
  generated : List String
  grants : List (String × Option String)
  authority : Option String

def ReviewState.enter (s : ReviewState) (call : Nat) (next : Phase) : ReviewState :=
  { s with phase := Function.update s.phase call next }

/-- A task without a review lease. -/
def initial (task : LocalTask) : ReviewState where
  task := releasedRow task task.updatedAt
  phase _ := .idle
  generated := []
  grants := []
  authority := none

inductive ReviewStep where
  | readClaim (call : Nat) (input : ReviewClaimInput) (newId : String)
  | writeClaim (call : Nat) (now : String)
  | readBack (call : Nat)
  | readRelease (call : Nat) (leaseId : Option String)
  | writeRelease (call : Nat) (now : String)
  /-- Another call changes the columns that are not the review's. -/
  | changeTask (task : LocalTask)

/-- One step; `error` when the call is not at that step. -/
def reviewStep (s : ReviewState) : ReviewStep → Except Unit ReviewState
  | .readClaim call input newId =>
    match s.phase call with
    | .idle =>
      if s.generated.contains newId || trim newId = "" then .error ()
      else match checkReviewClaim s.task input with
        | .ok () =>
          .ok { s.enter call (match currentReviewLeaseId s.task with
              | some id => .claiming input id (some s.task.reviewAgentKey)
              | none => .claiming input newId none) with
            generated := newId :: s.generated }
        | .error _ => .ok (s.enter call .finished)
    | _ => .error ()
  | .writeClaim call now =>
    match s.phase call with
    | .claiming input leaseId _ =>
      .ok { s.enter call (.claimed (actorKey input) leaseId) with
        task := claimedRow s.task leaseId input now
        grants := (leaseId, actorKey input) :: s.grants }
    | _ => .error ()
  | .readBack call =>
    match s.phase call with
    | .claimed agentKey leaseId =>
      if currentReviewLeaseId s.task = some leaseId then
        .ok { s.enter call (.succeeded agentKey leaseId) with
          authority := agentKey <|> s.authority }
      else .ok (s.enter call .finished)
    | _ => .error ()
  | .readRelease call leaseId =>
    match s.phase call with
    | .idle =>
      match checkReviewRelease s.task leaseId with
      | .ok () => .ok (s.enter call (.releasing (currentReviewLeaseId s.task)))
      | .error _ => .ok (s.enter call .finished)
    | _ => .error ()
  | .writeRelease call now =>
    match s.phase call with
    | .releasing target =>
      .ok { s.enter call .finished with
        task := releasedRow s.task now
        authority := if target = currentReviewLeaseId s.task then none else s.authority }
    | _ => .error ()
  | .changeTask task =>
    .ok { s with task := { task with
      reviewLeaseId := s.task.reviewLeaseId
      reviewHolderLabel := s.task.reviewHolderLabel
      reviewAgentKey := s.task.reviewAgentKey
      reviewAgentSessionId := s.task.reviewAgentSessionId } }

/-- A claim writes over no other agent's authority and takes over no other holder's id; a
release clears no authority that it did not read. -/
def undisturbed (s : ReviewState) : ReviewStep → Bool
  | .writeClaim call _ =>
    match s.phase call with
    | .claiming input _ holder =>
      (s.authority = none || s.authority = actorKey input) &&
        holder.all fun key => key = actorKey input
    | _ => true
  | .writeRelease call _ =>
    match s.phase call with
    | .releasing target => s.authority = none || target = currentReviewLeaseId s.task
    | _ => true
  | _ => true

def Undisturbed (s : ReviewState) (step : ReviewStep) : Prop := undisturbed s step = true

instance (s : ReviewState) (step : ReviewStep) : Decidable (Undisturbed s step) :=
  inferInstanceAs (Decidable (_ = true))

/-! ## The invariant -/

/-- What holds of a call by where it stands. -/
def PhaseSound (generated : List String) (grants : List (String × Option String)) : Phase → Prop
  | .claiming _ leaseId none => leaseId ∈ generated ∧ trim leaseId ≠ "" ∧
      ∀ key, (leaseId, key) ∉ grants
  | .claiming _ leaseId (some holder) => trim leaseId ≠ "" ∧ (leaseId, holder) ∈ grants
  | .claimed agentKey leaseId => (leaseId, agentKey) ∈ grants
  | _ => True

structure ReviewSound (s : ReviewState) : Prop where
  stays : ∀ agent, s.authority = some agent → s.task.reviewAgentKey = some agent
  made : ∀ id key, (id, key) ∈ s.grants → id ∈ s.generated
  single : ∀ id first second, (id, first) ∈ s.grants → (id, second) ∈ s.grants → first = second
  row : ∀ id, s.task.reviewLeaseId = some id →
    (id, s.task.reviewAgentKey) ∈ s.grants ∧ trim id ≠ ""
  phases : ∀ call, PhaseSound s.generated s.grants (s.phase call)
  apart : ∀ first second input other id, s.phase first = .claiming input id none →
    s.phase second = .claiming other id none → first = second

theorem initial_sound (task : LocalTask) : ReviewSound (initial task) := by
  refine ⟨nofun, nofun,
    nofun, nofun, fun _ => trivial, nofun⟩

theorem enter_phase (s : ReviewState) (call other : Nat) (next : Phase) :
    (s.enter call next).phase other = if other = call then next else s.phase other := by
  simp only [ReviewState.enter, Function.update_apply]

theorem PhaseSound.generate (facts : PhaseSound generated grants phase) (id : String) :
    PhaseSound (id :: generated) grants phase := by
  cases phase with
  | claiming input leaseId holder =>
    cases holder with
    | none => exact ⟨.tail _ facts.1, facts.2⟩
    | some key => exact facts
  | _ => exact facts

/-- The id in the row, as the task shows it. -/
theorem ReviewSound.current (sound : ReviewSound s) {id : String}
    (shown : currentReviewLeaseId s.task = some id) :
    (id, s.task.reviewAgentKey) ∈ s.grants ∧ trim id ≠ "" :=
  sound.row id (Option.filter_eq_some_iff.mp shown).1

/-- A call moves on without writing; what it enters is no claim with a new id. -/
theorem enter_sound (before : ReviewSound s) (facts : PhaseSound s.generated s.grants next)
    (notNew : ∀ input id, next ≠ .claiming input id none) : ReviewSound (s.enter call next) := by
  refine ⟨before.stays, before.made, before.single, before.row, fun other => ?_, ?_⟩
  · change PhaseSound s.generated s.grants ((s.enter call next).phase other)
    rw [enter_phase]
    split
    · exact facts
    · exact before.phases other
  · intro first second input other id firstPhase secondPhase
    rw [enter_phase] at firstPhase secondPhase
    split at firstPhase
    · exact absurd firstPhase (notNew input id)
    · split at secondPhase
      · exact absurd secondPhase (notNew other id)
      · exact before.apart first second input other id firstPhase secondPhase

/-! ## Steps -/

/-- A claim that read no lease goes on with an id of its own, one that read its own lease
with that one's. -/
theorem readClaim_sound (before : ReviewSound s) (fresh : newId ∉ s.generated)
    (text : trim newId ≠ "") : ReviewSound { s.enter call (match currentReviewLeaseId s.task with
        | some id => .claiming input id (some s.task.reviewAgentKey)
        | none => .claiming input newId none) with generated := newId :: s.generated } := by
  have unused : ∀ key, (newId, key) ∉ s.grants := fun key granted => fresh (before.made _ key granted)
  refine ⟨before.stays, fun id key granted => .tail _ (before.made id key granted),
    before.single, before.row, fun other => ?_, ?_⟩
  · change PhaseSound (newId :: s.generated) s.grants ((s.enter call _).phase other)
    rw [enter_phase]
    split
    · cases shown : currentReviewLeaseId s.task with
      | none => exact ⟨.head _, text, unused⟩
      | some id => exact ⟨(before.current shown).2, (before.current shown).1⟩
    · exact (before.phases other).generate newId
  · intro first second input other id firstPhase secondPhase
    -- an id of an earlier claim was made before
    have older : ∀ call input, s.phase call = .claiming input id none → id ∈ s.generated := by
      intro call input position
      have facts := before.phases call
      rw [position] at facts
      exact facts.1
    have newer : ∀ input other : ReviewClaimInput, (match currentReviewLeaseId s.task with
        | some id => Phase.claiming other id (some s.task.reviewAgentKey)
        | none => .claiming other newId none) = .claiming input id none → id = newId := by
      intro input other shape
      split at shape
      · cases shape
      · cases shape
        rfl
    rw [enter_phase] at firstPhase secondPhase
    split at firstPhase
    · rename_i firstCall
      split at secondPhase
      · rename_i secondCall
        rw [firstCall, secondCall]
      · have made := older second other secondPhase
        rw [newer _ _ firstPhase] at made
        exact absurd made fresh
    · split at secondPhase
      · have made := older first input firstPhase
        rw [newer _ _ secondPhase] at made
        exact absurd made fresh
      · exact before.apart first second input other id firstPhase secondPhase

theorem writeClaim_sound (before : ReviewSound s)
    (position : s.phase call = .claiming input leaseId holder)
    (free : s.authority = none ∨ s.authority = actorKey input)
    (own : ∀ key, holder = some key → key = actorKey input) :
    ReviewSound { s.enter call (.claimed (actorKey input) leaseId) with
      task := claimedRow s.task leaseId input now
      grants := (leaseId, actorKey input) :: s.grants } := by
  have facts := before.phases call
  rw [position] at facts
  have text : trim leaseId ≠ "" := by
    cases holder with
    | none => exact facts.2.1
    | some key => exact facts.1
  -- the id was this agent's already, or nobody's
  have held : ∀ key, (leaseId, key) ∈ s.grants → key = actorKey input := by
    intro key granted
    cases holder with
    | none => exact absurd granted (facts.2.2 key)
    | some mine =>
      rw [before.single leaseId key mine granted facts.2]
      exact own mine rfl
  refine ⟨fun agent authority => ?_, fun id key granted => ?_, fun id first second one other => ?_,
    fun id shown => ?_, fun other => ?_, ?_⟩
  · change s.authority = some agent at authority
    rcases free with none' | mine
    · rw [none'] at authority
      cases authority
    · exact mine.symm.trans authority
  · rcases List.mem_cons.mp granted with new | old
    · cases new
      cases holder with
      | none => exact facts.1
      | some key => exact before.made _ _ facts.2
    · exact before.made id key old
  · rcases List.mem_cons.mp one with newFirst | oldFirst
    · cases newFirst
      rcases List.mem_cons.mp other with newSecond | oldSecond
      · cases newSecond
        rfl
      · exact (held second oldSecond).symm
    · rcases List.mem_cons.mp other with newSecond | oldSecond
      · cases newSecond
        exact held first oldFirst
      · exact before.single id first second oldFirst oldSecond
  · change some leaseId = some id at shown
    cases shown
    exact ⟨.head _, text⟩
  · change PhaseSound s.generated ((leaseId, actorKey input) :: s.grants) ((s.enter call _).phase other)
    rw [enter_phase]
    split
    · exact .head _
    · rename_i different
      have others := before.phases other
      cases phase : s.phase other with
      | claiming second id taken =>
        rw [phase] at others
        cases taken with
        | none =>
          refine ⟨others.1, others.2.1, fun key granted => ?_⟩
          rcases List.mem_cons.mp granted with new | old
          · cases new
            cases holder with
            | none => exact different (before.apart other call second input _ phase position)
            | some key => exact others.2.2 key facts.2
          · exact others.2.2 key old
        | some key => exact ⟨others.1, .tail _ others.2⟩
      | claimed key id =>
        rw [phase] at others
        exact .tail _ others
      | _ => exact trivial
  · intro first second firstInput secondInput id firstPhase secondPhase
    rw [enter_phase] at firstPhase secondPhase
    split at firstPhase
    · cases firstPhase
    · split at secondPhase
      · cases secondPhase
      · exact before.apart first second firstInput secondInput id firstPhase secondPhase

/-- Reading its own id back, a claim knows that the row names its agent. -/
theorem ReviewSound.readBack (sound : ReviewSound s)
    (position : s.phase call = .claimed agentKey leaseId)
    (shown : currentReviewLeaseId s.task = some leaseId) : s.task.reviewAgentKey = agentKey := by
  have granted := sound.phases call
  rw [position] at granted
  exact sound.single leaseId _ _ (sound.current shown).1 granted

theorem reviewStep_sound (s : ReviewState) (step : ReviewStep) (next : ReviewState)
    (before : ReviewSound s) (kept : Undisturbed s step) (ok : reviewStep s step = .ok next) :
    ReviewSound next := by
  cases step with
  | readClaim call input newId =>
    simp only [reviewStep] at ok
    split at ok
    · split at ok
      · cases ok
      · rename_i new
        simp only [Bool.or_eq_true, List.contains_iff_mem, decide_eq_true_eq, not_or] at new
        split at ok
        · cases ok
          exact readClaim_sound before new.1 new.2
        · cases ok
          exact enter_sound before trivial nofun
    · cases ok
  | writeClaim call now =>
    simp only [reviewStep] at ok
    split at ok
    · rename_i input leaseId holder position
      cases ok
      simp only [Undisturbed, undisturbed, position, Bool.and_eq_true, Bool.or_eq_true,
        decide_eq_true_eq] at kept
      refine writeClaim_sound before position kept.1 ?_
      rintro key rfl
      simpa using kept.2
    · cases ok
  | readBack call =>
    simp only [reviewStep] at ok
    split at ok
    · rename_i agentKey leaseId position
      split at ok
      · rename_i shown
        cases ok
        have names := before.readBack position shown
        have entered : ReviewSound (s.enter call (.succeeded agentKey leaseId)) :=
          enter_sound before trivial nofun
        refine ⟨fun agent authority => ?_, entered.made, entered.single, entered.row,
          entered.phases, entered.apart⟩
        cases agentKey with
        | none => exact before.stays agent authority
        | some mine => exact names.trans authority
      · cases ok
        exact enter_sound before trivial nofun
    · cases ok
  | readRelease call leaseId =>
    simp only [reviewStep] at ok
    split at ok
    · split at ok
      · cases ok
        exact enter_sound before trivial nofun
      · cases ok
        exact enter_sound before trivial nofun
    · cases ok
  | writeRelease call now =>
    simp only [reviewStep] at ok
    split at ok
    · rename_i target position
      cases ok
      simp only [Undisturbed, undisturbed, position, Bool.or_eq_true, decide_eq_true_eq] at kept
      have entered : ReviewSound (s.enter call .finished) := enter_sound before trivial nofun
      refine ⟨fun agent authority => ?_, entered.made, entered.single, nofun, entered.phases,
        entered.apart⟩
      split at authority
      · cases authority
      · rename_i other
        rw [kept.resolve_right other] at authority
        cases authority
    · cases ok
  | changeTask task =>
    cases ok
    exact ⟨before.stays, before.made, before.single, before.row, before.phases, before.apart⟩

/-! ## Exclusive authority -/

/-- Until its release the row names the agent whose claim succeeded, no other agent's claim
reads its id back, and an id belongs to one holder. -/
structure ReviewExclusive (s : ReviewState) : Prop where
  stays : ∀ agent, s.authority = some agent → s.task.reviewAgentKey = some agent
  refused : ∀ agent, s.authority = some agent → ∀ call other leaseId,
    s.phase call = .claimed (some other) leaseId → other ≠ agent →
    currentReviewLeaseId s.task ≠ some leaseId
  single : ∀ id first second, (id, first) ∈ s.grants → (id, second) ∈ s.grants → first = second

theorem ReviewSound.exclusive (sound : ReviewSound s) : ReviewExclusive s := by
  refine ⟨sound.stays, fun agent authority call other leaseId position different shown => ?_,
    sound.single⟩
  have names := sound.readBack position shown
  rw [sound.stays agent authority] at names
  exact different (Option.some.inj names).symm

theorem review_exclusive (task : LocalTask) (steps : List ReviewStep)
    (kept : Replay.Meets reviewStep Undisturbed (initial task) steps) :
    ReviewExclusive (Replay.replay reviewStep (initial task) steps) :=
  (Replay.replay_preserves Undisturbed ReviewSound reviewStep_sound kept
    (initial_sound task)).exclusive

def sampleTask : LocalTask :=
  ⟨"room", "task_1", "in_review", none, none, none, none, none, none, none, none, "t0"⟩

def claimBy (agentKey : String) : ReviewClaimInput := ⟨none, some agentKey, none⟩

theorem second_reviewer_waits :
    ReviewExclusive (Replay.replay reviewStep (initial sampleTask)
      [.readClaim 0 (claimBy "a") "first", .writeClaim 0 "t1", .readBack 0,
        .readClaim 1 (claimBy "b") "second", .readRelease 2 (some "first"), .writeRelease 2 "t2",
        .readClaim 3 (claimBy "b") "third", .writeClaim 3 "t3", .readBack 3]) :=
  review_exclusive _ _ (by decide +kernel)

/-- Two claims read the free task; the second overwrites the first. -/
theorem overlapping_claims_overwrite :
    ¬ ∀ task steps, ReviewExclusive (Replay.replay reviewStep (initial task) steps) := by
  intro exclusive
  have overwritten : ∃ steps,
      (Replay.replay reviewStep (initial sampleTask) steps).authority = some "a" ∧
        (Replay.replay reviewStep (initial sampleTask) steps).task.reviewAgentKey = some "b" :=
    ⟨[.readClaim 0 (claimBy "a") "first", .readClaim 1 (claimBy "b") "second", .writeClaim 0 "t1",
      .readBack 0, .writeClaim 1 "t2"], by decide +kernel, by decide +kernel⟩
  obtain ⟨steps, authority, names⟩ := overwritten
  have stays := (exclusive sampleTask steps).stays "a" authority
  rw [names] at stays
  exact absurd stays (by decide)

end LetAgents.Tasks.ReviewAuthority

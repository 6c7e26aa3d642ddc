import LetAgents.Lib.Machine
import LetAgents.Lib.Table

/-!
# Workflow effects

Source: src/api/workflow-effects/broker.ts:14-252 and src/api/db/workflow-effects.ts:58-427, for
one room and idempotency key. A review verdict is created at a provider that knows no such key.
The row says what is done next: the effect is created again after a definite failure, and looked
up after anything else.

Modelling boundary: between two statements of a call anything may happen, and a call may stop
for good. An input says what time it is, whether the review lease is held, what the provider
answers and whether a sweep takes the row. `randomUUID` draws no uuid of an earlier creation
again. What a call returns is left out.
-/
namespace LetAgents.Tasks.WorkflowEffects

open Lib

inductive WorkflowEffectState where
  | pending | succeeded | failed | ambiguous
  deriving DecidableEq

/-- `processing_token` and `processing_started_at`, which the table couples. -/
structure Processing where
  token : String
  started_at : Int

structure WorkflowEffect where
  id : String
  task_id : String
  request_fingerprint : String
  state : WorkflowEffectState
  attempt_count : Nat
  max_attempts : Nat
  processing : Option Processing
  next_attempt_at : Option Int
  external_id : Option String
  last_error : Option String
  quarantine_reason : Option String
  updated_at : Int

structure ReserveWorkflowEffectInput where
  task_id : String
  request_fingerprint : String
  quarantine_reason : Option String
  max_attempts : Option Nat

/-- What a statement sees, and the uuids that it draws. -/
structure Tick where
  now : Int
  leaseHeld : Bool
  id : String
  token : String

def WORKFLOW_EFFECT_PENDING_STALE_MS : Int := 2 * 60000

def WORKFLOW_EFFECT_AMBIGUOUS_LOOKUP_INTERVAL_MS : Int := 5 * 60000

def FAILED_RETRY_BASE_MS : Int := 30000

/-! ## Statements -/

def newEffect (input : ReserveWorkflowEffectInput) (tick : Tick) : WorkflowEffect :=
  let quarantined := input.quarantine_reason.any (· ≠ "")
  { id := tick.id
    task_id := input.task_id
    request_fingerprint := input.request_fingerprint
    state := .pending
    attempt_count := if quarantined then 0 else 1
    max_attempts := input.max_attempts.getD 3
    processing := if quarantined then none else some ⟨tick.token, tick.now⟩
    next_attempt_at := none
    external_id := none
    last_error := none
    quarantine_reason := input.quarantine_reason
    updated_at := tick.now }

/-- The row that is inserted, or `none` where there is one. The table checks `max_attempts`
and that a reason goes with a quarantine. -/
def reserveWorkflowEffect (row : Option WorkflowEffect) (input : ReserveWorkflowEffectInput)
    (tick : Tick) : Except String (Option WorkflowEffect) :=
  if !tick.leaseHeld then .error "workflow_effect_review_lease_stale"
  else if input.max_attempts = some 0 ∨ input.quarantine_reason = some "" then
    .error "check_violation"
  else match row with
    | some existing =>
      if existing.request_fingerprint = input.request_fingerprint ∧ existing.task_id = input.task_id
      then .ok none
      else .error "workflow_effect_idempotency_conflict"
    | none => .ok (newEffect input tick)

def due (row : WorkflowEffect) (now : Int) : Bool := row.next_attempt_at.all (· ≤ now)

def claimFailedWorkflowEffect (row : WorkflowEffect) (tick : Tick) : Option WorkflowEffect :=
  if row.state = .failed ∧ row.processing.isNone ∧ row.attempt_count < row.max_attempts ∧
      due row tick.now then
    some { row with
      state := .pending, attempt_count := row.attempt_count + 1
      processing := some ⟨tick.token, tick.now⟩, next_attempt_at := none, updated_at := tick.now }
  else none

def stale (now : Int) (processing : Processing) : Bool :=
  processing.started_at ≤ now - WORKFLOW_EFFECT_PENDING_STALE_MS

def claimAmbiguousWorkflowEffect (row : WorkflowEffect) (tick : Tick) : Option WorkflowEffect :=
  if row.state = .ambiguous ∧ row.quarantine_reason.isNone ∧
      row.processing.elim (due row tick.now) (stale tick.now) then
    some { row with processing := some ⟨tick.token, tick.now⟩, updated_at := tick.now }
  else none

def markStalePendingWorkflowEffectAmbiguous (row : WorkflowEffect) (tick : Tick) :
    Option WorkflowEffect :=
  if row.state = .pending ∧ row.processing.any (stale tick.now) ∧ row.quarantine_reason.isNone then
    some { row with
      state := .ambiguous, processing := none, updated_at := tick.now
      last_error := some
        "Processing ownership expired before the provider result was persisted; lookup required." }
  else none

def finishWithToken (row : WorkflowEffect) (token : String) (state : WorkflowEffectState)
    (now : Int) (values : WorkflowEffect → WorkflowEffect) : Option WorkflowEffect :=
  if row.processing.any (·.token = token) then
    some { values row with state, processing := none, updated_at := now }
  else none

/-- What `pruneSettledWorkflowEffects` may delete. -/
def settled (row : WorkflowEffect) (settledBefore : Int) : Bool :=
  row.updated_at ≤ settledBefore && (row.state = .succeeded ||
    (row.state = .failed && row.max_attempts ≤ row.attempt_count) || row.quarantine_reason.isSome)

/-! ## Calls -/

inductive CreateResult where
  | succeeded (external_id : String)
  | definite_failure (error : String)
  | ambiguous (error : String)

inductive LookupResult where
  | found (external_id : String)
  | missing
  | threw (error : String)

def markWorkflowEffectSucceeded (row : WorkflowEffect) (token : String) (now : Int)
    (external_id : String) : Option WorkflowEffect :=
  finishWithToken row token .succeeded now fun row =>
    { row with external_id := some external_id, last_error := none, next_attempt_at := none }

/-- `performCreate` behind the answer. -/
def persistCreate (effect row : WorkflowEffect) (token : String) (now : Int) :
    CreateResult → Option WorkflowEffect
  | .succeeded external_id => markWorkflowEffectSucceeded row token now external_id
  | .definite_failure error =>
    finishWithToken row token .failed now fun row =>
      { row with
        last_error := some error
        next_attempt_at := if effect.max_attempts ≤ effect.attempt_count then none
          else some (now + FAILED_RETRY_BASE_MS * effect.attempt_count) }
  | .ambiguous error =>
    finishWithToken row token .ambiguous now fun row =>
      { row with last_error := some error, next_attempt_at := none }

def releaseWorkflowEffectLookup (row : WorkflowEffect) (token : String) (now : Int)
    (error : String) : Option WorkflowEffect :=
  finishWithToken row token .ambiguous now fun row =>
    { row with
      last_error := some error
      next_attempt_at := some (now + WORKFLOW_EFFECT_AMBIGUOUS_LOOKUP_INTERVAL_MS) }

/-- `performLookup` behind the answer. -/
def persistLookup (row : WorkflowEffect) (token : String) (now : Int) :
    LookupResult → Option WorkflowEffect
  | .found external_id => markWorkflowEffectSucceeded row token now external_id
  | .missing => releaseWorkflowEffectLookup row token now
    "Provider lookup completed without finding the correlation marker; creation was not retried."
  | .threw error => releaseWorkflowEffectLookup row token now error

/-- Where a call is: what it does next. -/
inductive Stage where
  | reserve (input : ReserveWorkflowEffectInput)
  | claimFailed (id : String)
  | stalePending (id : String)
  | claimAmbiguous (id : String)
  | create (effect : WorkflowEffect) (token : String)
  | created (effect : WorkflowEffect) (token : String) (result : CreateResult)
  | lookup (id token : String)
  | lookedUp (id token : String) (result : LookupResult)
  | returned

/-- What follows on an effect that was not claimed. -/
def followUp (effect : WorkflowEffect) : Stage :=
  match effect.state with
  | .failed => .claimFailed effect.id
  | .ambiguous => .claimAmbiguous effect.id
  | .pending | .succeeded => .returned

def reconcile (effect : WorkflowEffect) : Stage :=
  if effect.state = .pending then .stalePending effect.id else followUp effect

/-- A claim to create the effect, and what the one call of `provider.create` answers. -/
structure Attempt where
  effect : String
  token : String
  caller : Nat
  answer : Option CreateResult

structure State where
  row : Option WorkflowEffect
  calls : List Stage
  attempts : List Attempt

inductive Input where
  | submit (input : ReserveWorkflowEffectInput)
  | reconcile (effect : WorkflowEffect)
  | go (k : Nat) (tick : Tick)
  | created (k : Nat) (result : CreateResult)
  | lookedUp (k : Nat) (result : LookupResult)
  /-- A statement throws, or the process ends. -/
  | fail (k : Nat) (error : String)
  | prune (settledBefore : Int)

namespace State

def goTo (s : State) (k : Nat) (stage : Stage) : State := { s with calls := s.calls.set k stage }

/-- The call goes on to `provider.create` with the row it has claimed. -/
def claim (s : State) (k : Nat) (effect : WorkflowEffect) (token : String) : State :=
  { s with
    row := some effect, calls := s.calls.set k (.create effect token)
    attempts := s.attempts ++ [⟨effect.id, token, k, none⟩] }

def answer (s : State) (token : String) (result : CreateResult) : State :=
  { s with
    attempts := Table.update Attempt.token token ({ · with answer := some result }) s.attempts }

def write (s : State) (k : Nat) (stage : Stage) (row : WorkflowEffect) : State :=
  { s.goTo k stage with row := some row }

/-- `update ... where id = ... returning`. A call that updates nothing returns. -/
def updating (s : State) (k : Nat) (id : String) (update : WorkflowEffect → Option WorkflowEffect)
    (go : WorkflowEffect → State) : State :=
  match (s.row.filter (·.id = id)).bind update with
  | some effect => go effect
  | none => s.goTo k .returned

/-- The next statement of the `k`-th call. -/
def act (s : State) (k : Nat) (tick : Tick) : Stage → State
  | .reserve input =>
    match reserveWorkflowEffect s.row input tick with
    | .error _ => s.goTo k .returned
    | .ok none => s.goTo k (s.row.elim .returned followUp)
    | .ok (some effect) =>
      if effect.processing.isNone then s.write k .returned effect else s.claim k effect tick.token
  | .claimFailed id =>
    s.updating k id (claimFailedWorkflowEffect · tick) (s.claim k · tick.token)
  | .stalePending id =>
    s.updating k id (markStalePendingWorkflowEffectAmbiguous · tick)
      (s.write k (.claimAmbiguous id))
  | .claimAmbiguous id =>
    s.updating k id (claimAmbiguousWorkflowEffect · tick) (s.write k (.lookup id tick.token))
  | .created effect token result =>
    s.updating k effect.id (persistCreate effect · token tick.now result) (s.write k .returned)
  | .lookedUp id token result =>
    s.updating k id (persistLookup · token tick.now result) (s.write k .returned)
  | .create _ _ | .lookup _ _ | .returned => s

end State

def step (s : State) : Input → State
  | .submit input => { s with calls := s.calls ++ [.reserve input] }
  | .reconcile effect => { s with calls := s.calls ++ [reconcile effect] }
  | .go k tick =>
    match s.calls[k]? with
    | none => s
    | some stage =>
      if s.attempts.any fun a => a.effect = tick.id || a.token = tick.token then s
      else s.act k tick stage
  | .created k result =>
    match s.calls[k]? with
    | some (.create effect token) => (s.answer token result).goTo k (.created effect token result)
    | _ => s
  | .lookedUp k result =>
    match s.calls[k]? with
    | some (.lookup id token) => s.goTo k (.lookedUp id token result)
    | _ => s
  | .fail k error =>
    match s.calls[k]? with
    | some (.lookedUp id token (.found _)) | some (.lookedUp id token .missing) =>
      s.goTo k (.lookedUp id token (.threw error))
    | _ => s.goTo k .returned
  | .prune settledBefore => { s with row := s.row.filter fun row => !settled row settledBefore }

def initial : State := ⟨none, [], []⟩

/-! ## What is kept -/

def Attempt.Refused (a : Attempt) : Prop := ∃ error, a.answer = some (.definite_failure error)

/-- What the attempts of an effect say about its row. -/
structure RowSound (attempts : List Attempt) (row : WorkflowEffect) : Prop where
  counted : attempts.countP (·.effect = row.id) = row.attempt_count
  bounded : row.attempt_count ≤ row.max_attempts
  idle : row.state = .failed ∨ row.state = .succeeded → row.processing = none
  failed : row.state = .failed → ∀ a ∈ attempts, a.effect = row.id → a.Refused
  pending : row.state = .pending → ∀ p ∈ row.processing, ∀ a ∈ attempts, a.effect = row.id →
    a.token = p.token ∨ a.Refused
  looked : row.state = .ambiguous → ∀ p ∈ row.processing, ∀ a ∈ attempts, a.token ≠ p.token
  quarantined : row.quarantine_reason.isSome → row.attempt_count = 0 ∧ row.processing = none ∧
    row.state = .pending

/-- What the stage of a call says about the attempt that it claimed. -/
def Held (attempts : List Attempt) (k : Nat) : Stage → Prop
  | .create effect token => ⟨effect.id, token, k, none⟩ ∈ attempts
  | .created effect token result => ⟨effect.id, token, k, some result⟩ ∈ attempts
  | _ => True

structure Sound (s : State) : Prop where
  tokens : Table.Keyed Attempt.token s.attempts
  order : s.attempts.Pairwise fun earlier later => earlier.effect = later.effect → earlier.Refused
  row : ∀ row ∈ s.row, RowSound s.attempts row
  stages : ∀ k stage, s.calls[k]? = some stage → Held s.attempts k stage

variable {s : State} {k : Nat} {id : String} {row : WorkflowEffect} {stage : Stage}

/-- A call goes on; the attempts and the row stay. -/
theorem Sound.goTo (sound : Sound s) (here : Held s.attempts k stage) : Sound (s.goTo k stage) := by
  refine ⟨sound.tokens, sound.order, sound.row, fun j stage' at' => ?_⟩
  rcases Machine.set_cases at' with ⟨rfl, rfl⟩ | ⟨_, at'⟩
  · exact here
  · exact sound.stages j stage' at'

theorem Sound.leave (sound : Sound s) : Sound (s.goTo k .returned) := sound.goTo True.intro

/-- A call writes the row and claims nothing. -/
theorem Sound.write (sound : Sound s) (here : Held s.attempts k stage)
    (kept : RowSound s.attempts row) : Sound (s.write k stage row) :=
  ⟨sound.tokens, sound.order, fun _ same => Option.some.inj same ▸ kept, (sound.goTo here).stages⟩

/-- A claim is made while every earlier attempt is refused. -/
theorem Sound.claim (sound : Sound s) (refused : ∀ a ∈ s.attempts, a.effect = row.id → a.Refused)
    (unknown : ∀ a ∈ s.attempts, a.token ≠ token) (pending : row.state = .pending)
    (processing : row.processing = some ⟨token, now⟩)
    (counted : s.attempts.countP (·.effect = row.id) + 1 = row.attempt_count)
    (bounded : row.attempt_count ≤ row.max_attempts) (free : row.quarantine_reason = none) :
    Sound (s.claim k row token) := by
  refine ⟨?_, ?_, ?_, fun j stage' at' => ?_⟩
  · refine sound.tokens.append (List.pairwise_singleton _ _) fun a member b new => ?_
    exact List.mem_singleton.mp new ▸ unknown a member
  · refine List.pairwise_append.mpr ⟨sound.order, List.pairwise_singleton _ _, ?_⟩
    intro a member b new same
    rw [List.mem_singleton.mp new] at same
    exact refused a member same
  · intro _ same
    cases same
    refine ⟨?_, bounded, ?_, ?_, ?_, ?_, ?_⟩
    · simp [State.claim, ← counted]
    · simp [pending]
    · simp [pending]
    · intro _ p here a member same
      rw [processing] at here
      cases here
      rcases List.mem_append.mp member with old | new
      · exact .inr (refused a old same)
      · exact .inl (List.mem_singleton.mp new ▸ rfl)
    · simp [pending]
    · simp [free]
  · rcases Machine.set_cases at' with ⟨rfl, rfl⟩ | ⟨_, at'⟩
    · exact List.mem_append_right _ List.mem_cons_self
    · have before := sound.stages j stage' at'
      cases stage' with
      | create | created => exact List.mem_append_left _ before
      | _ => trivial

/-- The provider answers an attempt. -/
theorem Sound.answer (sound : Sound s) (at' : s.calls[k]? = some (.create effect token)) :
    Sound ((s.answer token result).goTo k (.created effect token result)) := by
  have here : ⟨effect.id, token, k, none⟩ ∈ s.attempts := sound.stages k _ at'
  let answered (a : Attempt) := if a.token = token then { a with answer := some result } else a
  have same : ∀ a, (answered a).effect = a.effect ∧ (answered a).token = a.token := by
    intro a
    by_cases own : a.token = token <;> simp [answered, own]
  have others : ∀ a ∈ s.attempts, a ≠ ⟨effect.id, token, k, none⟩ → answered a = a := by
    intro a member other
    exact if_neg fun own => other (sound.tokens.eq member here own)
  have refused : ∀ a ∈ s.attempts, a.Refused → (answered a).Refused := by
    intro a member before
    rwa [others a member]
    rintro rfl
    obtain ⟨_, none⟩ := before
    cases none
  refine ⟨sound.tokens.update fun _ => rfl, ?_, fun row here => ?_, fun j stage' at' => ?_⟩
  · refine List.pairwise_map.mpr (sound.order.imp_of_mem fun {a b} first _ before own => ?_)
    exact refused a first (before ((same a).1.symm.trans (own.trans (same b).1)))
  · have before := sound.row row here
    refine ⟨?_, before.bounded, before.idle, ?_, ?_, ?_, before.quarantined⟩
    · rw [← before.counted, State.goTo, State.answer, Table.update, List.countP_map]
      exact List.countP_congr fun a _ => by rw [Function.comp_apply, (same a).1]
    · intro failed
      refine List.forall_mem_map.mpr fun a member own => ?_
      exact refused a member (before.failed failed a member ((same a).1.symm.trans own))
    · intro pending p processing
      refine List.forall_mem_map.mpr fun a member own => ?_
      rw [(same a).1] at own
      rw [(same a).2]
      exact (before.pending pending p processing a member own).imp_right (refused a member)
    · intro ambiguous p processing
      refine List.forall_mem_map.mpr fun a member => ?_
      rw [(same a).2]
      exact before.looked ambiguous p processing a member
  · rcases Machine.set_cases at' with ⟨rfl, rfl⟩ | ⟨other, at'⟩
    · exact List.mem_map.mpr ⟨_, here, if_pos rfl⟩
    · have before := sound.stages j stage' at'
      -- the attempt of another call has another caller
      cases stage' with
      | create | created =>
        have kept := others _ before fun same => other (congrArg Attempt.caller same)
        exact List.mem_map.mpr ⟨_, before, kept⟩
      | _ => trivial

/-! ## Statements of a call -/

/-- The columns that no end of an attempt writes. -/
def Keeps (values : WorkflowEffect → WorkflowEffect) : Prop :=
  ∀ row, (values row).id = row.id ∧ (values row).attempt_count = row.attempt_count ∧
    (values row).max_attempts = row.max_attempts ∧
    (values row).quarantine_reason = row.quarantine_reason

/-- The holder of the token ends its attempt. -/
theorem Sound.finish (sound : Sound s) (here : s.row = some row) (keeps : Keeps values)
    (ended : state ≠ .pending)
    (failed : state = .failed → ∃ a ∈ s.attempts, a.token = token ∧ a.Refused)
    (ok : finishWithToken row token state now values = some next) :
    Sound (s.write k .returned next) := by
  have before := sound.row row here
  obtain ⟨named, count, most, reason⟩ := keeps row
  unfold finishWithToken at ok
  split at ok
  case isFalse => cases ok
  rename_i holds
  obtain ⟨p, processing, holds⟩ := (Option.any_eq_true _ _).mp holds
  cases ok
  refine sound.write True.intro
    ⟨?_, ?_, fun _ => rfl, ?_, fun pending => absurd pending ended, ?_, ?_⟩
  · exact (named ▸ count ▸ before.counted :)
  · exact (count ▸ most ▸ before.bounded :)
  · intro isFailed x member own
    obtain ⟨a, mine, holder, refused⟩ := failed isFailed
    have same : a.token = p.token := holder.trans (of_decide_eq_true holds).symm
    cases at' : row.state with
    | pending =>
      rcases before.pending at' p processing x member (own.trans named) with last | earlier
      · exact sound.tokens.eq member mine (last.trans same.symm) ▸ refused
      · exact earlier
    | ambiguous => exact absurd same (before.looked at' p processing a mine)
    | failed => exact absurd (processing.symm.trans (before.idle (.inl at'))) nofun
    | succeeded => exact absurd (processing.symm.trans (before.idle (.inr at'))) nofun
  · exact nofun
  · intro quarantined
    have idle := (before.quarantined (reason ▸ quarantined)).2.1
    exact absurd (processing.symm.trans idle) nofun

theorem persistCreate_cases (effect row : WorkflowEffect) (token : String) (now : Int)
    (result : CreateResult) : ∃ state values,
      persistCreate effect row token now result = finishWithToken row token state now values ∧
        Keeps values ∧ state ≠ .pending ∧
          (state = .failed → ∃ error, result = .definite_failure error) := by
  unfold persistCreate markWorkflowEffectSucceeded
  cases result with
  | succeeded id => exact ⟨_, _, rfl, fun _ => ⟨rfl, rfl, rfl, rfl⟩, nofun, nofun⟩
  | definite_failure error =>
    exact ⟨_, _, rfl, fun _ => ⟨rfl, rfl, rfl, rfl⟩, nofun, fun _ => ⟨error, rfl⟩⟩
  | ambiguous error => exact ⟨_, _, rfl, fun _ => ⟨rfl, rfl, rfl, rfl⟩, nofun, nofun⟩

theorem persistLookup_cases (row : WorkflowEffect) (token : String) (now : Int)
    (result : LookupResult) : ∃ state values,
      persistLookup row token now result = finishWithToken row token state now values ∧
        Keeps values ∧ state ≠ .pending ∧ state ≠ .failed := by
  unfold persistLookup markWorkflowEffectSucceeded releaseWorkflowEffectLookup
  cases result with
  | found | missing | threw => exact ⟨_, _, rfl, fun _ => ⟨rfl, rfl, rfl, rfl⟩, nofun, nofun⟩

/-- An update changes the stored row, or the call returns. -/
theorem Sound.updating (sound : Sound s)
    (goes : ∀ row, s.row = some row → ∀ next, update row = some next → Sound (go next)) :
    Sound (s.updating k id update go) := by
  unfold State.updating
  split
  · next found =>
    obtain ⟨row, named, updated⟩ := Option.bind_eq_some_iff.mp found
    exact goes row (Option.filter_eq_some_iff.mp named).1 _ updated
  · exact sound.leave

/-- A row is inserted where there is none, by a request that the table takes. -/
theorem reserved_row {input : ReserveWorkflowEffectInput} {tick : Tick}
    (reserved : reserveWorkflowEffect stored input tick = .ok (some row)) :
    stored = none ∧ row = newEffect input tick ∧ input.max_attempts ≠ some 0 ∧
      input.quarantine_reason ≠ some "" := by
  unfold reserveWorkflowEffect at reserved
  split at reserved
  · cases reserved
  split at reserved
  · cases reserved
  · next taken =>
    split at reserved
    · split at reserved <;> cases reserved
    · cases reserved
      exact ⟨rfl, rfl, not_or.mp taken⟩

theorem followUp_held (attempts : List Attempt) (k : Nat) (effect : WorkflowEffect) :
    Held attempts k (followUp effect) := by
  unfold followUp
  split <;> trivial

/-- A row comes in, quarantined or claimed. -/
theorem Sound.insert {tick : Tick} {input : ReserveWorkflowEffectInput} (sound : Sound s)
    (fresh : ∀ a ∈ s.attempts, a.effect ≠ tick.id ∧ a.token ≠ tick.token)
    (most : input.max_attempts ≠ some 0) (reason : input.quarantine_reason ≠ some "") :
    Sound (if (newEffect input tick).processing.isNone
      then s.write k .returned (newEffect input tick) else s.claim k (newEffect input tick)
        tick.token) := by
  have uncounted : s.attempts.countP (·.effect = tick.id) = 0 :=
    List.countP_eq_zero.mpr fun a member => by simp [(fresh a member).1]
  cases given : input.quarantine_reason with
  | some text =>
    have quarantined : input.quarantine_reason.any (· ≠ "") = true := by simpa [given] using reason
    simp only [newEffect, quarantined]
    exact sound.write True.intro
      ⟨uncounted, Nat.zero_le _, nofun, nofun, nofun, nofun, fun _ => ⟨rfl, rfl, rfl⟩⟩
  | none =>
    have bounded : 1 ≤ input.max_attempts.getD 3 := by
      cases limit : input.max_attempts with
      | none => decide
      | some n => exact Nat.pos_of_ne_zero fun zero => most (limit.trans (congrArg some zero))
    simp only [newEffect, given]
    exact sound.claim (fun a member own => absurd own (fresh a member).1)
      (fun a member => (fresh a member).2) rfl rfl (congrArg (· + 1) uncounted) bounded rfl

theorem Sound.act {tick : Tick} (sound : Sound s)
    (fresh : ∀ a ∈ s.attempts, a.effect ≠ tick.id ∧ a.token ≠ tick.token)
    (at' : s.calls[k]? = some stage) : Sound (s.act k tick stage) := by
  cases stage with
  | reserve input =>
    simp only [State.act]
    split
    · exact sound.leave
    · refine sound.goTo ?_
      cases s.row with
      | none => trivial
      | some effect => exact followUp_held _ _ effect
    · next reserved =>
      obtain ⟨_, rfl, most, reason⟩ := reserved_row reserved
      exact sound.insert fresh most reason
  | claimFailed id =>
    refine sound.updating fun row here next claimed => ?_
    have before := sound.row row here
    obtain ⟨⟨failed, _, fewer, _⟩, ⟨⟩⟩ := Option.ite_none_right_eq_some.mp claimed
    have unknown : ∀ a ∈ s.attempts, a.token ≠ tick.token := fun a member => (fresh a member).2
    refine sound.claim (before.failed failed) unknown rfl rfl ?_ fewer ?_
    · exact congrArg (· + 1) before.counted
    · cases reason : row.quarantine_reason with
      | none => rfl
      | some _ =>
        have pending := (before.quarantined (reason ▸ rfl)).2.2
        exact absurd (failed.symm.trans pending) nofun
  | stalePending id =>
    refine sound.updating fun row here next marked => ?_
    have before := sound.row row here
    obtain ⟨⟨_, _, free⟩, ⟨⟩⟩ := Option.ite_none_right_eq_some.mp marked
    refine sound.write True.intro
      ⟨before.counted, before.bounded, fun _ => rfl, nofun, nofun, nofun, ?_⟩
    simp [Option.isNone_iff_eq_none.mp free]
  | claimAmbiguous id =>
    refine sound.updating fun row here next claimed => ?_
    have before := sound.row row here
    obtain ⟨⟨ambiguous, free, _⟩, ⟨⟩⟩ := Option.ite_none_right_eq_some.mp claimed
    refine sound.write True.intro ⟨before.counted, before.bounded, ?_, ?_, ?_, ?_, ?_⟩
    · simp [ambiguous]
    · simp [ambiguous]
    · simp [ambiguous]
    · rintro _ p ⟨⟩
      exact fun a member => (fresh a member).2
    · simp [Option.isNone_iff_eq_none.mp free]
  | created effect token result =>
    have mine := sound.stages k _ at'
    refine sound.updating fun row here next wrote => ?_
    obtain ⟨state, values, equal, keeps, ended, failed⟩ :=
      persistCreate_cases effect row token tick.now result
    refine sound.finish here keeps ended (fun isFailed => ⟨_, mine, rfl, ?_⟩) (equal ▸ wrote)
    obtain ⟨error, rfl⟩ := failed isFailed
    exact ⟨error, rfl⟩
  | lookedUp id token result =>
    refine sound.updating fun row here next wrote => ?_
    obtain ⟨state, values, equal, keeps, ended, unfailed⟩ :=
      persistLookup_cases row token tick.now result
    exact sound.finish here keeps ended (fun failed => absurd failed unfailed) (equal ▸ wrote)
  | create | lookup | returned => exact sound

/-! ## Runs -/

theorem sound_initial : Sound initial :=
  ⟨List.nodup_nil, List.Pairwise.nil, fun _ none => (Option.not_mem_none _ none).elim,
    fun _ _ none => by cases none⟩

/-- A call comes in; nothing is held by it yet. -/
theorem Sound.join (sound : Sound s) (here : ∀ k, Held s.attempts k stage) :
    Sound { s with calls := s.calls ++ [stage] } := by
  refine ⟨sound.tokens, sound.order, sound.row, fun j stage' at' => ?_⟩
  rcases Machine.append_cases at' with ⟨_, rfl⟩ | at'
  · exact here j
  · exact sound.stages j stage' at'

theorem reconcile_held (attempts : List Attempt) (k : Nat) (effect : WorkflowEffect) :
    Held attempts k (reconcile effect) := by
  unfold reconcile
  split
  · trivial
  · exact followUp_held attempts k effect

theorem Sound.step (sound : Sound s) (input : Input) : Sound (step s input) := by
  cases input with
  | submit input => exact sound.join fun _ => True.intro
  | reconcile effect => exact sound.join fun k => reconcile_held _ k effect
  | go k tick =>
    simp only [WorkflowEffects.step]
    split
    · exact sound
    · next at' =>
      split
      · exact sound
      · next fresh =>
        refine sound.act (fun a member => ?_) at'
        simpa using fun known => fresh (List.any_eq_true.mpr ⟨a, member, known⟩)
  | created k result =>
    simp only [WorkflowEffects.step]
    split
    · next at' => exact sound.answer at'
    · exact sound
  | lookedUp k result =>
    simp only [WorkflowEffects.step]
    split
    · exact sound.goTo True.intro
    · exact sound
  | fail k error =>
    simp only [WorkflowEffects.step]
    split
    · exact sound.goTo True.intro
    · exact sound.goTo True.intro
    · exact sound.leave
  | prune settledBefore =>
    refine ⟨sound.tokens, sound.order, fun row same => ?_, sound.stages⟩
    exact sound.row row (Option.filter_eq_some_iff.mp same).1

theorem sound_states (inputs : Nat → Input) (n : Nat) :
    Sound (Machine.states step initial inputs n) :=
  Machine.invariant sound_initial (fun _ sound => sound.step _) n

/-- Whatever the order of steps, a review is not asked for twice: an effect is created again
only when the provider has definitely refused all its attempts, and the attempts of the stored
effect are those that it counts, a quarantined one none. -/
theorem review_created_once (inputs : Nat → Input) (n : Nat) :
    let s := Machine.states step initial inputs n
    (s.attempts.Pairwise fun earlier later => earlier.effect = later.effect →
      ∃ error, earlier.answer = some (.definite_failure error)) ∧
    ∀ row ∈ s.row, s.attempts.countP (·.effect = row.id) = row.attempt_count ∧
      row.attempt_count ≤ row.max_attempts ∧
      (row.quarantine_reason.isSome → row.attempt_count = 0) := by
  intro s
  have sound : Sound s := sound_states inputs n
  refine ⟨sound.order, fun row here => ?_⟩
  have kept := sound.row row here
  exact ⟨kept.counted, kept.bounded, fun quarantined => (kept.quarantined quarantined).1⟩

/-! ## A succeeded effect -/

theorem updating_row (here : s.row = some row) (nothing : update row = none) :
    (s.updating k id update go).row = some row := by
  unfold State.updating
  split
  · next found =>
    obtain ⟨_, named, updated⟩ := Option.bind_eq_some_iff.mp found
    cases here.symm.trans (Option.filter_eq_some_iff.mp named).1
    exact absurd (nothing.symm.trans updated) nofun
  · exact here

/-- No statement changes a row that has succeeded. -/
theorem Sound.act_row {tick : Tick} (sound : Sound s) (here : s.row = some row)
    (done : row.state = .succeeded) (stage : Stage) : (s.act k tick stage).row = some row := by
  have unfinished : ∀ {token state now values},
      finishWithToken row token state now values = none := by
    intros
    rw [finishWithToken, (sound.row row here).idle (.inr done)]
    exact if_neg nofun
  cases stage with
  | reserve input =>
    simp only [State.act]
    split
    · exact here
    · exact here
    · next reserved => exact absurd (here.symm.trans (reserved_row reserved).1) nofun
  | claimFailed | stalePending | claimAmbiguous =>
    exact updating_row here (if_neg (by simp [done]))
  | created effect token result =>
    obtain ⟨_, _, equal, _⟩ := persistCreate_cases effect row token tick.now result
    exact updating_row here (equal.trans unfinished)
  | lookedUp id token result =>
    obtain ⟨_, _, equal, _⟩ := persistLookup_cases row token tick.now result
    exact updating_row here (equal.trans unfinished)
  | create | lookup | returned => exact here

theorem Sound.step_row (sound : Sound s) (here : s.row = some row) (done : row.state = .succeeded)
    (input : Input) : (WorkflowEffects.step s input).row = some row ∨
      ∃ settledBefore, input = .prune settledBefore ∧ settled row settledBefore = true := by
  cases input with
  | submit | reconcile => exact .inl here
  | go k tick =>
    simp only [WorkflowEffects.step]
    split
    · exact .inl here
    · split
      · exact .inl here
      · exact .inl (sound.act_row here done _)
  | created | lookedUp | fail =>
    simp only [WorkflowEffects.step]
    split <;> exact .inl here
  | prune settledBefore =>
    cases gone : settled row settledBefore with
    | true => exact .inr ⟨_, rfl, gone⟩
    | false => exact .inl (Option.filter_eq_some_iff.mpr ⟨here, by rw [gone]; rfl⟩)

/-- A review that was found or made is the result of every later call with the key: a late
answer, a lookup, a retry and another request leave its row as it is, until a sweep finds it
settled. -/
theorem succeeded_review_stays (inputs : Nat → Input) (le : n ≤ m)
    (here : (Machine.states step initial inputs n).row = some row)
    (done : row.state = .succeeded) :
    (Machine.states step initial inputs m).row = some row ∨
      ∃ j, n ≤ j ∧ j < m ∧ ∃ settledBefore, inputs j = .prune settledBefore ∧
        settled row settledBefore = true := by
  induction le with
  | refl => exact .inl here
  | @step j le ih =>
    rcases ih with stays | ⟨i, after, before, pruned⟩
    · rcases (sound_states inputs j).step_row stays done (inputs j) with stays | pruned
      · exact .inl stays
      · exact .inr ⟨j, le, Nat.lt_succ_self j, pruned⟩
    · exact .inr ⟨i, after, Nat.lt_succ_of_lt before, pruned⟩

/-- A reviewer whose verdict the provider takes. -/
def reviewed : Nat → Input :=
  Machine.finitely [.submit ⟨"task", "body", none, none⟩, .go 0 ⟨0, true, "effect", "token"⟩,
    .created 0 (.succeeded "review"), .go 0 ⟨5, true, "effect-2", "token-2"⟩] (.prune 4)

theorem reviewed_stays :
    let s := Machine.states step initial reviewed
    ∃ row, (s 4).row = some row ∧ row.state = .succeeded ∧ ((s 6).row = some row ∨
      ∃ j, 4 ≤ j ∧ j < 6 ∧ ∃ settledBefore, reviewed j = .prune settledBefore ∧
        settled row settledBefore = true) :=
  ⟨_, rfl, rfl, succeeded_review_stays reviewed (by decide) rfl rfl⟩

end LetAgents.Tasks.WorkflowEffects

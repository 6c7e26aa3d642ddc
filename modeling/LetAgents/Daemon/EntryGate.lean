import Mathlib.Data.List.Pairwise
import Mathlib.Logic.Function.Basic
import LetAgents.Lib.Replay

/-!
# The lane of one entry

Source: apps/desktop/daemon/entry-concurrency-gate.ts:22-187.

Every call waits for the tail that was in `entryTicks` when it came and leaves its own
there. A tail is a promise: it resolves once its predecessor's tail has and its own call
has released it. The steps below are the points where the event loop takes up one of the
calls; what a promise has settled may be taken up at any later time.

Modelling boundary: an operation is what lies between `enter` and `finish`, and whether it
succeeds is nobody's concern here; the control epochs are left out.
-/
namespace LetAgents.Daemon.EntryGate

open Lib

/-! ## Calls -/

/-- Where a call of `run` stands. `moving`: a room move's own operation is running. -/
inductive CallPhase where
  | waiting
  | running (moving : Bool)
  | finished
  /-- Aborted, and its entry in `entryTicks` still to be cleaned up. -/
  | left
  | cleaned
  deriving DecidableEq

/-- The call has released its tail. -/
def CallPhase.settled : CallPhase → Bool
  | .finished | .left | .cleaned => true
  | _ => false

/-- The call had its turn. -/
def CallPhase.entered : CallPhase → Bool
  | .running _ | .finished => true
  | _ => false

/-- `previous`: the call whose tail was in `entryTicks`; `signal`: it can be aborted;
`callerReleased`: a room move's caller was woken while the work stays in the lane. -/
structure Call where
  roomMove : Bool
  signal : Bool
  previous : Option Nat
  phase : CallPhase
  aborted : Bool
  callerReleased : Bool

/-- The calls that joined the lane, in their order, and the gate's state. `log` and
`drained` are history: the calls that had their turn, and whether room moves were drained
with the handoff scheduled ever since. -/
structure GateState where
  count : Nat
  call : Nat → Call
  entryTick : Option Nat
  lifecycle : Bool
  turnControl : Bool
  handoff : Bool
  activeRoomMove : Option Nat
  log : List Nat
  drained : Bool

def initial : GateState where
  count := 0
  call _ := ⟨false, false, none, .waiting, false, false⟩
  entryTick := none
  lifecycle := false
  turnControl := false
  handoff := false
  activeRoomMove := none
  log := []
  drained := false

/-- The tail of a call has resolved; the fuel bounds the length of the chain. -/
def tailResolvedWithin (s : GateState) : Nat → Nat → Bool
  | 0, _ => false
  | fuel + 1, i => (s.call i).phase.settled && match (s.call i).previous with
    | none => true
    | some j => tailResolvedWithin s fuel j

def tailResolved (s : GateState) (i : Nat) : Bool := tailResolvedWithin s (i + 1) i

/-- What a call waits for has resolved. -/
def previousResolved (s : GateState) (i : Nat) : Bool :=
  (s.call i).previous.all (tailResolved s)

/-- A new call at the end of the lane. -/
def GateState.join (s : GateState) (roomMove signal : Bool) : GateState :=
  { s with
    count := s.count + 1
    call := Function.update s.call s.count ⟨roomMove, signal, s.entryTick, .waiting, false, false⟩
    entryTick := some s.count }

def GateState.setPhase (s : GateState) (i : Nat) (phase : CallPhase) : GateState :=
  { s with call := Function.update s.call i { s.call i with phase } }

/-- `if (this.entryTicks.get(entryId) === tail) this.entryTicks.delete(entryId)`. -/
def GateState.deleteTick (s : GateState) (i : Nat) : GateState :=
  { s with entryTick := if s.entryTick = some i then none else s.entryTick }

/-- `wakeRoomMoveWaiters`. -/
def GateState.wake (s : GateState) : GateState :=
  { s with call := fun i =>
      if (s.call i).roomMove && !(s.call i).phase.settled then { s.call i with callerReleased := true }
      else s.call i }

/-- A handoff is scheduled or a lifecycle action is active. -/
def GateState.excludes (s : GateState) : Bool := s.handoff || s.lifecycle

inductive GateStep where
  /-- `run`; the signal, if any, by whether it is aborted already. -/
  | run (signal : Option Bool)
  | runRoomMove
  | abort (i : Nat)
  /-- An aborted call throws. -/
  | giveUp (i : Nat)
  | enter (i : Nat)
  /-- A room move's operation settles. -/
  | settleMove (i : Nat)
  | finish (i : Nat)
  /-- `tail.then` of a call that gave up. -/
  | cleanup (i : Nat)
  | beginLifecycle
  | endLifecycle
  | beginTurnControl
  | endTurnControl
  | scheduleHandoff (scheduled : Bool)
  | wakeRoomMoveWaiters
  /-- `fenceAndDrainRoomMoves` finds no active room move. -/
  | drainReturns

def notReady : String := "not at this step"

/-- One step, or what the caller sees thrown. -/
def gateStep (s : GateState) : GateStep → Except String GateState
  | .run (some true) => .error "aborted"
  | .run signal => .ok (s.join false signal.isSome)
  | .runRoomMove => if s.excludes then .error "excluded" else .ok (s.join true false)
  | .abort i =>
    if i < s.count ∧ (s.call i).signal = true ∧ (s.call i).phase = .waiting then
      .ok { s with call := Function.update s.call i { s.call i with aborted := true } }
    else .error notReady
  | .giveUp i =>
    if i < s.count ∧ (s.call i).phase = .waiting ∧ (s.call i).aborted = true then
      .ok (s.setPhase i .left)
    else .error notReady
  | .enter i =>
    if i < s.count ∧ (s.call i).phase = .waiting ∧ (s.call i).aborted = false ∧
        previousResolved s i = true then
      if (s.call i).roomMove && !s.excludes && s.activeRoomMove.isNone then
        .ok { s.setPhase i (.running true) with activeRoomMove := some i, log := s.log ++ [i] }
      else .ok { s.setPhase i (.running false) with log := s.log ++ [i] }
    else .error notReady
  | .settleMove i =>
    if i < s.count ∧ (s.call i).phase = .running true then
      .ok { s.setPhase i (.running false) with
        activeRoomMove := if s.activeRoomMove = some i then none else s.activeRoomMove }
    else .error notReady
  | .finish i =>
    if i < s.count ∧ (s.call i).phase = .running false then
      .ok ((s.setPhase i .finished).deleteTick i)
    else .error notReady
  | .cleanup i =>
    if i < s.count ∧ (s.call i).phase = .left ∧ tailResolved s i = true then
      .ok ((s.setPhase i .cleaned).deleteTick i)
    else .error notReady
  | .beginLifecycle =>
    if s.handoff then .error "Agent lifecycle admission is paused for an update."
    else if s.lifecycle || s.turnControl then
      .error "This supervised entry already has an in-flight lifecycle or turn-control action."
    else .ok { s.wake with lifecycle := true }
  | .endLifecycle => .ok { s with lifecycle := false }
  | .beginTurnControl =>
    if s.handoff then .error "Turn-control admission is paused for an update."
    else if s.lifecycle then
      .error "Turn control is unavailable while a lifecycle action is in flight for this supervised entry."
    else if s.turnControl then
      .error "A turn-control action is already in flight for this exact supervised entry."
    else .ok { s with turnControl := true }
  | .endTurnControl => .ok { s with turnControl := false }
  | .scheduleHandoff scheduled =>
    .ok { s with handoff := scheduled, drained := s.drained && scheduled }
  | .wakeRoomMoveWaiters => .ok s.wake
  | .drainReturns =>
    if s.activeRoomMove.isNone then .ok { s with drained := s.drained || s.handoff }
    else .error notReady

/-! ## The chain of tails -/

/-- A call waits for the call just before it, or found every call before it over. -/
structure Linked (s : GateState) : Prop where
  before : ∀ i < s.count, ∀ j, (s.call i).previous = some j → j + 1 = i
  free : ∀ i < s.count, (s.call i).previous = none → ∀ k < i, (s.call k).phase.settled = true

variable {s : GateState} {i : Nat} {phase : CallPhase}

theorem resolvedWithin_over (linked : Linked s) (fuel : Nat) :
    ∀ i < s.count, tailResolvedWithin s fuel i = true → ∀ k ≤ i, (s.call k).phase.settled = true := by
  induction fuel with
  | zero => exact fun _ _ => nofun
  | succ fuel ih =>
    intro i inLane resolved k bound
    simp only [tailResolvedWithin, Bool.and_eq_true] at resolved
    by_cases same : k = i
    · rw [same]
      exact resolved.1
    · cases previous : (s.call i).previous with
      | none => exact linked.free i inLane previous k (by omega)
      | some j =>
        have next := linked.before i inLane j previous
        rw [previous] at resolved
        exact ih j (by omega) resolved.2 k (by omega)

theorem resolvedWithin_of_over (linked : Linked s) (fuel : Nat) :
    ∀ i < s.count, i < fuel → (∀ k ≤ i, (s.call k).phase.settled = true) →
      tailResolvedWithin s fuel i = true := by
  induction fuel with
  | zero => exact fun _ _ absurd' => absurd absurd' (Nat.not_lt_zero _)
  | succ fuel ih =>
    intro i inLane enough settled
    simp only [tailResolvedWithin, settled i (Nat.le_refl i)]
    cases previous : (s.call i).previous with
    | none => rfl
    | some j =>
      have next := linked.before i inLane j previous
      exact ih j (by omega) (by omega) fun k bound => settled k (by omega)

/-- A tail has resolved when its call and all calls before it are over. -/
theorem tailResolved_iff (linked : Linked s) (inLane : i < s.count) :
    tailResolved s i = true ↔ ∀ k ≤ i, (s.call k).phase.settled = true :=
  ⟨resolvedWithin_over linked (i + 1) i inLane,
    resolvedWithin_of_over linked (i + 1) i inLane (Nat.lt_succ_self i)⟩

/-- A call's turn has come when all calls before it are over. -/
theorem previousResolved_iff (linked : Linked s) (inLane : i < s.count) :
    previousResolved s i = true ↔ ∀ k < i, (s.call k).phase.settled = true := by
  unfold previousResolved
  cases previous : (s.call i).previous with
  | none =>
    simp only [Option.all_none, true_iff]
    exact linked.free i inLane previous
  | some j =>
    have next := linked.before i inLane j previous
    rw [Option.all_some, tailResolved_iff linked (by omega)]
    exact ⟨fun settled k bound => settled k (by omega), fun settled k bound => settled k (by omega)⟩

/-! ## The invariant -/

structure GateSound (s : GateState) : Prop where
  linked : Linked s
  /-- A call that had its turn found all calls before it over. -/
  front : ∀ i < s.count, (s.call i).phase.entered = true → ∀ k < i, (s.call k).phase.settled = true
  absent : s.entryTick = none → ∀ k < s.count, (s.call k).phase.settled = true
  newest : ∀ j, s.entryTick = some j → j + 1 = s.count ∧ (s.call j).phase ≠ .finished ∧
    (s.call j).phase ≠ .cleaned
  ordered : s.log.Pairwise (· < ·)
  logged : ∀ i, i ∈ s.log ↔ i < s.count ∧ (s.call i).phase.entered = true
  aborted : ∀ i < s.count, (s.call i).aborted = true → (s.call i).phase.entered = false
  active : ∀ i < s.count, (s.call i).phase = .running true → s.activeRoomMove = some i
  drained : s.drained = true → s.handoff = true ∧ s.activeRoomMove = none

theorem initial_sound : GateSound initial := by
  refine ⟨⟨?_, ?_⟩, ?_, ?_, nofun, List.Pairwise.nil, ?_, ?_, ?_, nofun⟩
  · exact fun i inLane => absurd inLane (Nat.not_lt_zero i)
  · exact fun i inLane => absurd inLane (Nat.not_lt_zero i)
  · exact fun i inLane => absurd inLane (Nat.not_lt_zero i)
  · exact fun _ i inLane => absurd inLane (Nat.not_lt_zero i)
  · intro i
    constructor
    · exact nofun
    · exact fun inLane => absurd inLane.1 (Nat.not_lt_zero i)
  · exact fun i inLane => absurd inLane (Nat.not_lt_zero i)
  · exact fun i inLane => absurd inLane (Nat.not_lt_zero i)

theorem setPhase_call (s : GateState) (i k : Nat) (phase : CallPhase) :
    (s.setPhase i phase).call k = if k = i then { s.call i with phase } else s.call k := by
  simp only [GateState.setPhase, Function.update_apply]

@[simp] theorem setPhase_previous (s : GateState) (i k : Nat) (phase : CallPhase) :
    ((s.setPhase i phase).call k).previous = (s.call k).previous := by
  rw [setPhase_call]
  split
  · rename_i same
    rw [same]
  · rfl

@[simp] theorem setPhase_aborted (s : GateState) (i k : Nat) (phase : CallPhase) :
    ((s.setPhase i phase).call k).aborted = (s.call k).aborted := by
  rw [setPhase_call]
  split
  · rename_i same
    rw [same]
  · rfl

theorem setPhase_phase (s : GateState) (i k : Nat) (phase : CallPhase) :
    ((s.setPhase i phase).call k).phase = if k = i then phase else (s.call k).phase := by
  rw [setPhase_call]
  split
  · rfl
  · rfl

/-- A call that is over stays over while one call moves on. -/
theorem setPhase_over (keeps : (s.call i).phase.settled = true → phase.settled = true)
    (settled : (s.call k).phase.settled = true) :
    ((s.setPhase i phase).call k).phase.settled = true := by
  rw [setPhase_phase]
  split
  · rename_i same
    rw [same] at settled
    exact keeps settled
  · exact settled

theorem Linked.setPhase (linked : Linked s)
    (keeps : (s.call i).phase.settled = true → phase.settled = true) :
    Linked (s.setPhase i phase) := by
  refine ⟨fun k inLane j previous => ?_, fun k inLane previous j bound => ?_⟩
  · rw [setPhase_previous] at previous
    exact linked.before k inLane j previous
  · rw [setPhase_previous] at previous
    exact setPhase_over keeps (linked.free k inLane previous j bound)

theorem front_setPhase (sound : GateSound s)
    (keeps : (s.call i).phase.settled = true → phase.settled = true)
    (turn : phase.entered = true → ∀ k < i, (s.call k).phase.settled = true) :
    ∀ j < s.count, ((s.setPhase i phase).call j).phase.entered = true →
      ∀ k < j, ((s.setPhase i phase).call k).phase.settled = true := by
  intro j inLane entered k bound
  rw [setPhase_phase] at entered
  split at entered
  · rename_i same
    rw [same] at bound
    exact setPhase_over keeps (turn entered k bound)
  · exact setPhase_over keeps (sound.front j inLane entered k bound)

/-- A waiting call whose turn has come is ahead of no call that had its turn. -/
theorem GateSound.behind (sound : GateSound s) (waiting : (s.call i).phase = .waiting) :
    ∀ k ∈ s.log, k < i := by
  intro k member
  obtain ⟨kInLane, entered⟩ := (sound.logged k).mp member
  by_contra ahead
  by_cases same : k = i
  · rw [same, waiting] at entered
    cases entered
  · have settled := sound.front k kInLane entered i (by omega)
    rw [waiting] at settled
    cases settled

section

variable (before : GateSound s)
include before

theorem enter_sound (inLane : i < s.count) (waiting : (s.call i).phase = .waiting)
    (unaborted : (s.call i).aborted = false) (turn : previousResolved s i = true)
    (others : ∀ k < s.count, k ≠ i → (s.call k).phase = .running true → activeRoomMove = some k)
    (own : moving = true → activeRoomMove = some i)
    (drained : s.drained = true → activeRoomMove = none) :
    GateSound { s.setPhase i (.running moving) with activeRoomMove, log := s.log ++ [i] } := by
  have keeps : (s.call i).phase.settled = true → (CallPhase.running moving).settled = true := by
    rw [waiting]
    exact nofun
  have free := (previousResolved_iff before.linked inLane).mp turn
  refine ⟨⟨(before.linked.setPhase keeps).before, (before.linked.setPhase keeps).free⟩,
    front_setPhase before keeps fun _ => free, fun absent => ?_, fun j tick => ?_, ?_, fun k => ?_,
    fun k kInLane aborted => ?_, fun k kInLane running => ?_, fun was => ?_⟩
  · have settled := before.absent absent i inLane
    rw [waiting] at settled
    cases settled
  · obtain ⟨last, notFinished, notCleaned⟩ := before.newest j tick
    refine ⟨last, ?_, ?_⟩
    · change ((s.setPhase i _).call j).phase ≠ _
      rw [setPhase_phase]
      split
      · exact nofun
      · exact notFinished
    · change ((s.setPhase i _).call j).phase ≠ _
      rw [setPhase_phase]
      split
      · exact nofun
      · exact notCleaned
  · refine List.pairwise_append.mpr ⟨before.ordered, List.pairwise_singleton _ _, ?_⟩
    intro k member last lastMember
    rw [List.mem_singleton] at lastMember
    rw [lastMember]
    exact before.behind waiting k member
  · change k ∈ s.log ++ [i] ↔ k < s.count ∧ ((s.setPhase i _).call k).phase.entered = true
    rw [setPhase_phase, List.mem_append, List.mem_singleton, before.logged]
    split
    · rename_i same
      rw [same]
      simp [CallPhase.entered, inLane]
    · rename_i different
      simp [different]
  · change ((s.setPhase i _).call k).aborted = true at aborted
    rw [setPhase_aborted] at aborted
    rw [setPhase_phase]
    split
    · rename_i same
      rw [same, unaborted] at aborted
      cases aborted
    · exact before.aborted k kInLane aborted
  · change ((s.setPhase i _).call k).phase = .running true at running
    rw [setPhase_phase] at running
    split at running
    · rename_i same
      rw [same]
      exact own (by simpa using running)
    · rename_i different
      exact others k kInLane different running
  · exact ⟨(before.drained was).1, drained was⟩

/-- A call moves on without having its turn now. -/
theorem move_sound (keeps : (s.call i).phase.settled = true → phase.settled = true)
    (turn : phase.entered = (s.call i).phase.entered) (notMoving : phase ≠ .running true)
    (absent : entryTick = none → ∀ k < s.count, ((s.setPhase i phase).call k).phase.settled = true)
    (kept : ∀ j, entryTick = some j → s.entryTick = some j ∧ (j = i → phase ≠ .finished ∧ phase ≠ .cleaned))
    (others : ∀ k < s.count, k ≠ i → (s.call k).phase = .running true → activeRoomMove = some k)
    (drained : s.drained = true → activeRoomMove = none) :
    GateSound { s.setPhase i phase with entryTick, activeRoomMove } := by
  have entered (k : Nat) : ((s.setPhase i phase).call k).phase.entered = (s.call k).phase.entered := by
    rw [setPhase_phase]
    split
    · rename_i same
      rw [same, turn]
    · rfl
  refine ⟨⟨(before.linked.setPhase keeps).before, (before.linked.setPhase keeps).free⟩, ?_, absent,
    fun j tick => ?_, before.ordered, fun k => ?_, fun k inLane aborted => ?_,
    fun k inLane running => ?_, fun was => ⟨(before.drained was).1, drained was⟩⟩
  · intro j inLane had k bound
    rw [entered] at had
    exact setPhase_over keeps (before.front j inLane had k bound)
  · obtain ⟨was, own⟩ := kept j tick
    obtain ⟨last, notFinished, notCleaned⟩ := before.newest j was
    have stays : ((s.setPhase i phase).call j).phase ≠ .finished ∧
        ((s.setPhase i phase).call j).phase ≠ .cleaned := by
      rw [setPhase_phase]
      split
      · rename_i same
        exact own same
      · exact ⟨notFinished, notCleaned⟩
    exact ⟨last, stays.1, stays.2⟩
  · change k ∈ s.log ↔ k < s.count ∧ ((s.setPhase i phase).call k).phase.entered = true
    rw [entered]
    exact before.logged k
  · change ((s.setPhase i phase).call k).aborted = true at aborted
    rw [setPhase_aborted] at aborted
    rw [entered]
    exact before.aborted k inLane aborted
  · change ((s.setPhase i phase).call k).phase = .running true at running
    rw [setPhase_phase] at running
    split at running
    · exact absurd running notMoving
    · rename_i different
      exact others k inLane different running

/-- The newest call is over, and so are all before it: `entryTicks` can be emptied. -/
theorem delete_sound (keeps : (s.call i).phase.settled = true → phase.settled = true)
    (turn : phase.entered = (s.call i).phase.entered) (settled : phase.settled = true)
    (free : ∀ k < i, (s.call k).phase.settled = true)
    (notMoving : (s.call i).phase ≠ .running true) :
    GateSound ((s.setPhase i phase).deleteTick i) := by
  refine move_sound before keeps turn ?_ (fun none' k inLane => ?_) (fun j tick => ?_) ?_
    fun was => (before.drained was).2
  · rintro rfl
    cases settled
  · change (if s.entryTick = some i then none else s.entryTick) = none at none'
    split at none'
    · rename_i tick
      have last := (before.newest i tick).1
      by_cases same : k = i
      · rw [setPhase_phase, if_pos same]
        exact settled
      · exact setPhase_over keeps (free k (by omega))
    · exact setPhase_over keeps (before.absent none' k inLane)
  · change (if s.entryTick = some i then none else s.entryTick) = some j at tick
    split at tick
    · cases tick
    · rename_i other
      refine ⟨tick, ?_⟩
      rintro rfl
      exact absurd tick other
  · intro k inLane _ running
    exact before.active k inLane running

theorem join_sound (roomMove signal : Bool) : GateSound (s.join roomMove signal) := by
  have old {k : Nat} (inLane : k < s.count) : (s.join roomMove signal).call k = s.call k :=
    Function.update_of_ne (Nat.ne_of_lt inLane) _ _
  have new : (s.join roomMove signal).call s.count =
      ⟨roomMove, signal, s.entryTick, .waiting, false, false⟩ := Function.update_self _ _ _
  have split' {k : Nat} (inLane : k < s.count + 1) : k < s.count ∨ k = s.count := by omega
  refine ⟨⟨fun i inLane j previous => ?_, fun i inLane previous k bound => ?_⟩,
    fun i inLane entered k bound => ?_, nofun, fun j tick => ?_, before.ordered, fun i => ?_,
    fun i inLane aborted => ?_, fun i inLane running => ?_, before.drained⟩
  · rcases split' inLane with earlier | rfl
    · rw [old earlier] at previous
      exact before.linked.before i earlier j previous
    · rw [new] at previous
      exact (before.newest j previous).1
  · rcases split' inLane with earlier | rfl
    · rw [old earlier] at previous
      rw [old (by omega)]
      exact before.linked.free i earlier previous k bound
    · rw [new] at previous
      rw [old bound]
      exact before.absent previous k bound
  · rcases split' inLane with earlier | rfl
    · rw [old earlier] at entered
      rw [old (by omega)]
      exact before.front i earlier entered k bound
    · rw [new] at entered
      cases entered
  · change some s.count = some j at tick
    cases tick
    rw [new]
    exact ⟨rfl, nofun, nofun⟩
  · change i ∈ s.log ↔ i < s.count + 1 ∧ ((s.join roomMove signal).call i).phase.entered = true
    rw [before.logged]
    constructor
    · rintro ⟨inLane, entered⟩
      rw [old inLane]
      exact ⟨by omega, entered⟩
    · rintro ⟨inLane, entered⟩
      rcases split' inLane with earlier | rfl
      · rw [old earlier] at entered
        exact ⟨earlier, entered⟩
      · rw [new] at entered
        cases entered
  · rcases split' inLane with earlier | rfl
    · rw [old earlier] at aborted ⊢
      exact before.aborted i earlier aborted
    · rw [new]
      rfl
  · rcases split' inLane with earlier | rfl
    · rw [old earlier] at running
      exact before.active i earlier running
    · rw [new] at running
      cases running

/-- A change that leaves each call's place in the lane alone. -/
theorem relabel_sound (previous : ∀ k, (call k).previous = (s.call k).previous)
    (phase : ∀ k, (call k).phase = (s.call k).phase)
    (aborted : ∀ k < s.count, (call k).aborted = true → (s.call k).phase.entered = false)
    (lifecycle turnControl : Bool) : GateSound { s with call, lifecycle, turnControl } := by
  refine ⟨⟨fun i inLane j was => ?_, fun i inLane was k bound => ?_⟩,
    fun i inLane entered k bound => ?_, fun tick k inLane => ?_, fun j tick => ?_, before.ordered,
    fun i => ?_, fun i inLane was => ?_, fun i inLane running => ?_, before.drained⟩
  · rw [previous] at was
    exact before.linked.before i inLane j was
  · rw [previous] at was
    rw [phase]
    exact before.linked.free i inLane was k bound
  · rw [phase] at entered ⊢
    exact before.front i inLane entered k bound
  · rw [phase]
    exact before.absent tick k inLane
  · rw [phase]
    exact before.newest j tick
  · rw [phase]
    exact before.logged i
  · rw [phase]
    exact aborted i inLane was
  · rw [phase] at running
    exact before.active i inLane running

theorem wake_sound (lifecycle : Bool) : GateSound { s.wake with lifecycle } := by
  refine relabel_sound before (fun k => ?_) (fun k => ?_) (fun k inLane aborted => ?_) _ _
  · simp only [GateState.wake]
    split
    · rfl
    · rfl
  · simp only [GateState.wake]
    split
    · rfl
    · rfl
  · refine before.aborted k inLane ?_
    simp only [GateState.wake] at aborted
    split at aborted
    · exact aborted
    · exact aborted

end

theorem gateStep_sound (s : GateState) (step : GateStep) (next : GateState) (before : GateSound s)
    (ok : gateStep s step = .ok next) : GateSound next := by
  cases step with
  | run signal =>
    match signal with
    | some false | none =>
      cases ok
      exact join_sound before _ _
  | runRoomMove =>
    simp only [gateStep] at ok
    split at ok
    · cases ok
    · cases ok
      exact join_sound before _ _
  | abort i =>
    simp only [gateStep] at ok
    split at ok
    · rename_i can
      cases ok
      refine relabel_sound before (fun k => ?_) (fun k => ?_) (fun k inLane aborted => ?_) _ _
      · simp only [Function.update_apply]
        split
        · rename_i same
          rw [same]
        · rfl
      · simp only [Function.update_apply]
        split
        · rename_i same
          rw [same]
        · rfl
      · rw [Function.update_apply] at aborted
        split at aborted
        · rename_i same
          rw [same, can.2.2]
          rfl
        · exact before.aborted k inLane aborted
    · cases ok
  | giveUp i =>
    simp only [gateStep] at ok
    split at ok
    · rename_i can
      cases ok
      have keeps : (s.call i).phase.settled = true → CallPhase.left.settled = true := fun _ => rfl
      refine move_sound before keeps ?_ nofun (fun tick k inLane => ?_)
        (fun j tick => ⟨tick, fun _ => ⟨nofun, nofun⟩⟩) ?_ fun was => (before.drained was).2
      · rw [can.2.1]
        rfl
      · exact setPhase_over keeps (before.absent tick k inLane)
      · exact fun k inLane _ running => before.active k inLane running
    · cases ok
  | enter i =>
    simp only [gateStep] at ok
    split at ok
    · rename_i can
      split at ok
      · rename_i moves
        cases ok
        simp only [Bool.and_eq_true, Option.isNone_iff_eq_none] at moves
        refine enter_sound before can.1 can.2.1 can.2.2.1 can.2.2.2 (fun k inLane _ running => ?_)
          (fun _ => rfl) fun was => ?_
        · have active := before.active k inLane running
          rw [moves.2] at active
          cases active
        · have excluded := moves.1.2
          rw [GateState.excludes, (before.drained was).1] at excluded
          cases excluded
      · cases ok
        exact enter_sound before can.1 can.2.1 can.2.2.1 can.2.2.2
          (fun k inLane _ running => before.active k inLane running) nofun
          fun was => (before.drained was).2
    · cases ok
  | settleMove i =>
    simp only [gateStep] at ok
    split at ok
    · rename_i can
      cases ok
      have keeps : (s.call i).phase.settled = true → (CallPhase.running false).settled = true := by
        rw [can.2]
        exact nofun
      refine move_sound before keeps ?_ nofun (fun tick k inLane => ?_)
        (fun j tick => ⟨tick, fun _ => ⟨nofun, nofun⟩⟩) (fun k inLane different running => ?_)
        fun was => ?_
      · rw [can.2]
        rfl
      · exact setPhase_over keeps (before.absent tick k inLane)
      · have active := before.active k inLane running
        rw [active, if_neg fun same => different (Option.some.inj same)]
      · rw [(before.drained was).2]
        rfl
    · cases ok
  | finish i =>
    simp only [gateStep] at ok
    split at ok
    · rename_i can
      cases ok
      refine delete_sound before (fun _ => rfl) ?_ rfl (before.front i can.1 ?_) ?_
      · rw [can.2]
        rfl
      · rw [can.2]
        rfl
      · rw [can.2]
        exact nofun
    · cases ok
  | cleanup i =>
    simp only [gateStep] at ok
    split at ok
    · rename_i can
      cases ok
      have resolved := (tailResolved_iff before.linked can.1).mp can.2.2
      refine delete_sound before (fun _ => rfl) ?_ rfl (fun k bound => resolved k (by omega)) ?_
      · rw [can.2.1]
        rfl
      · rw [can.2.1]
        exact nofun
    · cases ok
  | beginLifecycle =>
    simp only [gateStep] at ok
    split at ok
    · cases ok
    · split at ok
      · cases ok
      · cases ok
        exact wake_sound before true
  | beginTurnControl =>
    simp only [gateStep] at ok
    split at ok
    · cases ok
    · split at ok
      · cases ok
      · split at ok
        · cases ok
        · cases ok
          exact relabel_sound before (fun _ => rfl) (fun _ => rfl) before.aborted _ _
  | endLifecycle | endTurnControl =>
    cases ok
    exact relabel_sound before (fun _ => rfl) (fun _ => rfl) before.aborted _ _
  | wakeRoomMoveWaiters =>
    cases ok
    exact wake_sound before s.lifecycle
  | scheduleHandoff scheduled =>
    cases ok
    refine ⟨⟨before.linked.before, before.linked.free⟩, before.front, before.absent,
      before.newest, before.ordered, before.logged, before.aborted, before.active, fun was => ?_⟩
    rw [Bool.and_eq_true] at was
    exact ⟨was.2, (before.drained was.1).2⟩
  | drainReturns =>
    simp only [gateStep] at ok
    split at ok
    · rename_i none'
      cases ok
      refine ⟨⟨before.linked.before, before.linked.free⟩, before.front, before.absent,
        before.newest, before.ordered, before.logged, before.aborted, before.active, fun was => ?_⟩
      refine ⟨?_, Option.isNone_iff_eq_none.mp none'⟩
      rcases Bool.or_eq_true_iff.mp was with earlier | now
      · exact (before.drained earlier).1
      · exact now
    · cases ok

/-! ## The lane -/

/-- Every call of the lane is over. -/
def Quiet (s : GateState) : Prop := ∀ k < s.count, (s.call k).phase.settled = true

/-- What the gate promises of one entry's lane. -/
structure LaneExclusive (s : GateState) : Prop where
  exclusive : ∀ i < s.count, ∀ k < s.count, ∀ first second, (s.call i).phase = .running first →
    (s.call k).phase = .running second → i = k
  ordered : s.log.Pairwise (· < ·)
  aborted : ∀ i < s.count, (s.call i).aborted = true → i ∉ s.log
  notOvertaken : ∀ i ∈ s.log, ∀ k < i, (s.call k).phase.settled = true
  enabled : ∀ i < s.count, (s.call i).phase = .waiting → (s.call i).aborted = false →
    (∀ k < i, (s.call k).phase.settled = true) → ∃ next, gateStep s (.enter i) = .ok next
  leaves : ∀ i < s.count, (s.call i).phase = .waiting → (s.call i).aborted = true →
    ∃ next, gateStep s (.giveUp i) = .ok next
  /-- Once every call is over, what is left in `entryTicks` is a cleanup that can run. -/
  emptied : Quiet s → s.entryTick = none ∨ ∃ i, s.entryTick = some i ∧ (s.call i).phase = .left ∧
    ∃ next, gateStep s (.cleanup i) = .ok next
  cleaned : Quiet s → (∀ k < s.count, (s.call k).phase ≠ .left) → s.entryTick = none
  excluded : s.excludes = true → ∀ i next, gateStep s (.enter i) = .ok next →
    (next.call i).phase = .running false ∧ next.activeRoomMove = s.activeRoomMove
  drained : s.drained = true → s.handoff = true ∧ ∀ i < s.count, (s.call i).phase ≠ .running true

theorem GateSound.lane (sound : GateSound s) : LaneExclusive s := by
  have cleanable : Quiet s → ∀ i, s.entryTick = some i → (s.call i).phase = .left := by
    intro quiet i tick
    obtain ⟨last, notFinished, notCleaned⟩ := sound.newest i tick
    have settled := quiet i (by omega)
    cases phase : (s.call i).phase with
    | left => rfl
    | finished => exact absurd phase notFinished
    | cleaned => exact absurd phase notCleaned
    | waiting | running =>
      rw [phase] at settled
      cases settled
  refine ⟨fun i inLane k kInLane first second running other => ?_, sound.ordered,
    fun i inLane aborted member => ?_, fun i member => ?_, fun i inLane waiting unaborted free => ?_,
    fun i inLane waiting aborted => ?_, fun quiet => ?_, fun quiet none' => ?_,
    fun excludes i next entered => ?_, fun was => ?_⟩
  · have apart (i k : Nat) (inLane : i < s.count) (first second : Bool)
        (running : (s.call i).phase = .running first)
        (other : (s.call k).phase = .running second) : ¬ k < i := by
      intro earlier
      have settled := sound.front i inLane (by rw [running]; rfl) k earlier
      rw [other] at settled
      cases settled
    have notBefore := apart i k inLane first second running other
    have notAfter := apart k i kInLane second first other running
    omega
  · have had := ((sound.logged i).mp member).2
    rw [sound.aborted i inLane aborted] at had
    cases had
  · obtain ⟨inLane, entered⟩ := (sound.logged i).mp member
    exact sound.front i inLane entered
  · have turn := (previousResolved_iff sound.linked inLane).mpr free
    simp only [gateStep, if_pos (And.intro inLane (And.intro waiting (And.intro unaborted turn)))]
    split
    · exact ⟨_, rfl⟩
    · exact ⟨_, rfl⟩
  · simp only [gateStep, if_pos (And.intro inLane (And.intro waiting aborted))]
    exact ⟨_, rfl⟩
  · cases tick : s.entryTick with
    | none => exact .inl rfl
    | some i =>
      have left := cleanable quiet i tick
      have inLane : i < s.count := by
        have last := (sound.newest i tick).1
        omega
      have resolved := (tailResolved_iff sound.linked inLane).mpr fun k bound =>
        quiet k (by omega)
      refine .inr ⟨i, rfl, left, ?_⟩
      simp only [gateStep, if_pos (And.intro inLane (And.intro left resolved))]
      exact ⟨_, rfl⟩
  · cases tick : s.entryTick with
    | none => rfl
    | some i =>
      have last := (sound.newest i tick).1
      exact absurd (cleanable quiet i tick) (none' i (by omega))
  · simp only [gateStep, excludes, Bool.not_true, Bool.and_false, Bool.false_and,
      Bool.false_eq_true, if_false] at entered
    split at entered
    · cases entered
      refine ⟨?_, rfl⟩
      rw [setPhase_phase, if_pos rfl]
    · cases entered
  · obtain ⟨handoff, none'⟩ := sound.drained was
    refine ⟨handoff, fun i inLane running => ?_⟩
    have active := sound.active i inLane running
    rw [none'] at active
    cases active

theorem gate_sound (steps : List GateStep) : GateSound (Replay.replay gateStep initial steps) :=
  Replay.replay_preserves (fun _ _ => True) GateSound
    (fun s step next before _ ok => gateStep_sound s step next before ok)
    (Replay.meets_of_forall (fun _ _ => trivial) _ _) initial_sound

theorem lane_exclusive (steps : List GateStep) :
    LaneExclusive (Replay.replay gateStep initial steps) :=
  (gate_sound steps).lane

/-- A waiter that was aborted behind a running call is cleaned up after that call is done:
in between `entryTicks` still has its tail. -/
theorem aborted_tail_lingers :
    ¬ ∀ steps, Quiet (Replay.replay gateStep initial steps) →
      (Replay.replay gateStep initial steps).entryTick = none := by
  intro emptied
  let steps : List GateStep :=
    [.run none, .enter 0, .run (some false), .abort 1, .giveUp 1, .finish 0]
  have quiet : Quiet (Replay.replay gateStep initial steps) := by
    have count : (Replay.replay gateStep initial steps).count = 2 := by decide +kernel
    intro k inLane
    rw [count] at inLane
    match k with
    | 0 => decide +kernel
    | 1 => decide +kernel
    | k + 2 => omega
  have lingers : (Replay.replay gateStep initial steps).entryTick = some 1 := by decide +kernel
  have none' := emptied steps quiet
  rw [lingers] at none'
  cases none'

end LetAgents.Daemon.EntryGate

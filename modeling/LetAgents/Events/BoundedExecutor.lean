import LetAgents.Lib.Machine
import Mathlib.Logic.Function.Basic

/-!
# The bounded executor

Source: src/api/bounded-async.ts:15-103. Calls are numbered in their order. A drain loop is
within a `run()` of the caller until `run()` has returned, and may be called again from there.

Modelling boundary: a function that throws settles while its `run()` is still going on. The
handlers of a settled promise, and timers, run when no drain loop does.
-/
namespace LetAgents.Events.BoundedExecutor

structure Options where
  maxConcurrent : Nat
  maxQueued : Nat

/-- How far the function of a call is. -/
inductive Run where
  | idle
  | pending
  | settled (ok : Bool)
  /-- The handlers of `result.then` have run. -/
  | handled
  /-- `finally` has. -/
  | finished
deriving DecidableEq

structure QueuedWork where
  /-- The timer is neither cleared nor has it fired. -/
  timeout : Bool
  started : Bool
  consumerSettled : Bool
  run : Run

inductive Outcome where
  /-- `BoundedWorkRejectedError` -/
  | capacity
  /-- `BoundedWorkTimeoutError` -/
  | deadline
  | result (ok : Bool)

inductive Happening where
  | started (k : Nat)
  /-- The function has settled. -/
  | done (k : Nat)
  /-- The promise that the call returned has settled. -/
  | settled (k : Nat) (how : Outcome)
  | freed (k : Nat)

/-- The call that it is about. -/
def Happening.call : Happening → Nat
  | .started k | .done k | .settled k _ | .freed k => k

def Happening.start : Happening → Option Nat
  | .started k => some k
  | _ => none

def Happening.answer : Happening → Option Nat
  | .settled k _ => some k
  | _ => none

def Happening.free : Happening → Option Nat
  | .freed k => some k
  | _ => none

structure Executor where
  active : Nat
  queue : List Nat
  /-- The drain loops that wait for a `run()` to return. -/
  loops : Nat
  calls : Nat
  works : Nat → QueuedWork
  /-- The newest first. -/
  history : List Happening

namespace Executor

/-- A call that has not been made. -/
def uncalled : QueuedWork := ⟨false, false, false, .idle⟩

def initial : Executor := ⟨0, [], 0, 0, fun _ => uncalled, []⟩

def setWork (s : Executor) (k : Nat) (work : QueuedWork) : Executor :=
  { s with works := Function.update s.works k work }

def log (s : Executor) (happening : Happening) : Executor := { s with history := happening :: s.history }

/-- The loop of `drain`, up to the next `run()` or to its end. -/
def drainFrom (options : Options) (s : Executor) : List Nat → Executor
  | [] => { s with queue := [], loops := s.loops - 1 }
  | k :: rest =>
    if s.active < options.maxConcurrent then
      if (s.works k).consumerSettled then drainFrom options s rest
      else
        ({ s with queue := rest, active := s.active + 1 }.setWork k
          { s.works k with started := true, run := .pending }).log (.started k)
    else { s with queue := k :: rest, loops := s.loops - 1 }

def drain (options : Options) (s : Executor) : Executor :=
  drainFrom options { s with loops := s.loops + 1 } s.queue

def runBounded (options : Options) (s : Executor) : Executor :=
  let k := s.calls
  if options.maxConcurrent ≤ s.active ∧ options.maxQueued ≤ s.queue.length then
    ({ s with calls := k + 1 }.setWork k ⟨false, false, true, .idle⟩).log (.settled k .capacity)
  else
    ({ s with calls := k + 1, queue := s.queue ++ [k] }.setWork k ⟨true, false, false, .idle⟩).drain options

/-- The handlers of `result.then`. -/
def handle (s : Executor) (k : Nat) (ok : Bool) : Executor :=
  let work := s.works k
  if work.consumerSettled then s.setWork k { work with run := .handled }
  else
    (s.setWork k { work with run := .handled, consumerSettled := true, timeout := false }).log
      (.settled k (.result ok))

/-- The handler of `finally`. -/
def finish (options : Options) (s : Executor) (k : Nat) : Executor :=
  (({ s with active := s.active - 1 }.setWork k
    { s.works k with run := .finished, consumerSettled := true, timeout := false }).log (.freed k)).drain options

def expire (s : Executor) (k : Nat) : Executor :=
  let work := s.works k
  let fired := s.setWork k { work with timeout := false }
  if work.consumerSettled then fired
  else
    let late := (fired.setWork k { work with timeout := false, consumerSettled := true }).log (.settled k .deadline)
    if work.started then late else { late with queue := s.queue.erase k }

end Executor

inductive Input where
  | call
  /-- The innermost `run()` returns. -/
  | returns
  | settles (k : Nat) (ok : Bool)
  | handles (k : Nat)
  | finishes (k : Nat)
  | fires (k : Nat)

def step (options : Options) (s : Executor) : Input → Executor
  | .call => s.runBounded options
  | .returns => if s.loops = 0 then s else s.drainFrom options s.queue
  | .settles k ok =>
    if (s.works k).run = .pending then
      (s.setWork k { s.works k with run := .settled ok }).log (.done k)
    else s
  | .handles k =>
    match (s.works k).run with
    | .settled ok => if s.loops = 0 then s.handle k ok else s
    | _ => s
  | .finishes k => if (s.works k).run = .handled ∧ s.loops = 0 then s.finish options k else s
  | .fires k => if (s.works k).timeout ∧ s.loops = 0 then s.expire k else s

/-! ## The property -/

def Executor.starts (s : Executor) : List Nat := s.history.filterMap Happening.start

def Executor.frees (s : Executor) : List Nat := s.history.filterMap Happening.free

/-- The calls whose promises have settled. -/
def Executor.answered (s : Executor) : List Nat := s.history.filterMap Happening.answer

/-- The promise was rejected, and not by the function. -/
def Executor.Rejected (s : Executor) (k : Nat) : Prop :=
  .settled k .capacity ∈ s.history ∨ .settled k .deadline ∈ s.history

/-- A start that is not behind a settlement. -/
def Timely (newer older : Happening) : Prop := ∀ k how, newer = .started k → older ≠ .settled k how

structure Bounded (options : Options) (s : Executor) : Prop where
  active : s.active ≤ options.maxConcurrent
  waiting : s.queue.length ≤ options.maxQueued
  /-- Functions start in the order of the calls, and at most once. -/
  ordered : s.starts.Pairwise (· > ·)
  passed : ∀ k ∈ s.starts, ∀ j < k, j ∈ s.starts ∨ s.Rejected j
  /-- Nothing starts behind its settlement. -/
  late : s.history.Pairwise Timely
  once : s.answered.Nodup
  /-- A promise that has not settled has its timer. -/
  armed : ∀ k < s.calls, k ∈ s.answered ∨ (s.works k).timeout = true
  /-- The slots are held by what has started and has not been freed. -/
  slots : s.active + s.frees.length = s.starts.length
  freed : s.frees.Nodup ∧ ∀ k ∈ s.frees, k ∈ s.starts ∧ .done k ∈ s.history
  /-- No work waits for a slot that is free. -/
  drained : s.loops = 0 → s.active < options.maxConcurrent → s.queue = []

/-- What the next steps of a state do. -/
structure Lively (options : Options) (s : Executor) : Prop where
  kept : ∀ input, s.history <:+ (step options s input).history
  /-- The timer rejects a promise that has not settled. -/
  deadline : s.loops = 0 → ∀ k < s.calls, k ∉ s.answered →
    .settled k .deadline ∈ (step options s (.fires k)).history
  /-- Its function settles one. -/
  result : s.loops = 0 → ∀ k ok, (s.works k).run = .settled ok → k ∉ s.answered →
    .settled k (.result ok) ∈ (step options s (.handles k)).history
  /-- A function that has settled frees its slot, whether or not the promise was rejected. -/
  slot : s.loops = 0 → ∀ k, .done k ∈ s.history →
    .freed k ∈ (step options (step options s (.handles k)) (.finishes k)).history

end LetAgents.Events.BoundedExecutor

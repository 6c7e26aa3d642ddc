import LetAgents.Lib.Machine
import LetAgents.Lib.OrderedMap

/-!
# Execution fences

Source: apps/desktop/daemon/durability-store.ts:230-334, 361-380 and 801-858. The calls and the collectors of
one process move from one `await` to the next, in any order; `ok` says whether what is awaited succeeds.

Modelling boundary: `acquireWorkspaceFence` and `release` are each one step, as their lock makes them, and
one that fails changes nothing; all attempts are of one repository.
-/
namespace LetAgents.Durability.Fences

open Lib

inductive Mode where
  | shared
  | exclusive
  deriving DecidableEq

/-- A fence that was acquired: `serial` is the identity of the handle. -/
structure Handle where
  serial : Nat
  workAttemptId : String
  mode : Mode
  deriving DecidableEq

inductive Operation where
  | startGeneration
  | recoverExecutionFence
  /-- `held`: what `executionFences` has when the call is made. -/
  | releaseTerminalExecutionFence (held : Option Handle)
  | concludeAttempt
  deriving DecidableEq

/-- Where a call stands. -/
inductive Phase where
  /-- Behind the calls on the same attempt that came before it. -/
  | waiting
  /-- In `getAttempt`. -/
  | reading
  /-- In `acquireWorkspaceFence`. -/
  | acquiring
  /-- Behind `ensureExecutionFence`: in the transaction of the call. -/
  | fenced
  /-- Before `releaseExecutionFence`. -/
  | letting
  | releasing (handle : Handle)
  | done
  deriving DecidableEq

structure Call where
  workAttemptId : String
  operation : Operation
  phase : Phase

def Call.underWay (call : Call) : Bool := call.phase ≠ .waiting ∧ call.phase ≠ .done

/-- Where a collector stands; `held` are the fences that it found and that are to be restored. -/
inductive Stage where
  | next
  /-- In the callback that quiesces the attempts. -/
  | quiescing (candidate : String) (held : List (String × Handle))
  | releasing (candidate : String) (held todo : List (String × Handle))
  /-- In `acquireWorkspaceFence`, for the exclusive fence. -/
  | acquiring (candidate : String) (held : List (String × Handle))
  /-- With the exclusive fence. -/
  | deleting (fence : Handle) (held : List (String × Handle))
  | restoring (todo : List String) (held : List (String × Handle))
  /-- In `acquireWorkspaceFence`, for a fence that was released. -/
  | reacquiring (workAttemptId : String) (todo : List String) (held : List (String × Handle))
  | resuming (held : List (String × Handle))
  | ended
  deriving DecidableEq

def Stage.held : Stage → List (String × Handle)
  | .next => []
  | .quiescing _ held => held
  | .releasing _ held _ => held
  | .acquiring _ held => held
  | .deleting _ held => held
  | .restoring _ held => held
  | .reacquiring _ _ held => held
  | .resuming held => held
  | .ended => []

/-- `garbageCollect`: the attempts that it reserved, and for each whether it is ephemeral. -/
structure Collector where
  reserved : List (String × Bool)
  stage : Stage

/-- The attempts whose fences the collector is to restore. -/
def Collector.quiesced (collector : Collector) : List String := collector.stage.held.map Prod.fst

structure System where
  /-- `executionFences` -/
  fences : OrderedMap String Handle
  /-- The fences that were acquired and not released. -/
  records : List Handle
  nextSerial : Nat
  /-- The attempts with a live generation. -/
  live : List String
  concluded : List String
  calls : List Call
  collectors : List Collector
  /-- The attempts whose live generation this process started or recovered. -/
  mine : List String
  /-- The attempts that a collection could not give their fence back. -/
  unrestored : List String

namespace System

/-- What another process has left; this one holds nothing. -/
def initial (live concluded : List String) : System where
  fences := .empty
  records := []
  nextSerial := 0
  live
  concluded
  calls := []
  collectors := []
  mine := []
  unrestored := []

/-- No record conflicts with a new shared fence. -/
def admitsShared (sys : System) : Bool := sys.records.all fun handle => handle.mode = .shared

/-- A shared fence is acquired and stored. -/
def acquire (sys : System) (workAttemptId : String) : System :=
  let handle : Handle := ⟨sys.nextSerial, workAttemptId, .shared⟩
  { sys with
    fences := sys.fences.set workAttemptId handle
    records := handle :: sys.records
    nextSerial := sys.nextSerial + 1
    unrestored := sys.unrestored.filter (· ≠ workAttemptId) }

def drop (sys : System) (handle : Handle) : System :=
  { sys with records := sys.records.filter (· ≠ handle) }

def delete (sys : System) (workAttemptId : String) : System :=
  { sys with fences := sys.fences.delete workAttemptId }

/-! ## Calls -/

/-- The calls on the attempt that came before are done. -/
def isTurn (sys : System) (k : Nat) (workAttemptId : String) : Bool :=
  (sys.calls.take k).all fun call => call.workAttemptId ≠ workAttemptId ∨ call.phase = .done

def setPhase (sys : System) (k : Nat) (call : Call) (phase : Phase) : System :=
  { sys with calls := sys.calls.set k { call with phase := phase } }

/-- `ensureExecutionFence` finds a fence, or goes on to acquire one. -/
def ensuring (sys : System) (workAttemptId : String) : Phase :=
  if (sys.fences.get workAttemptId).isSome then .fenced else .acquiring

/-- Behind `getAttempt`. -/
def afterRead (sys : System) (call : Call) : Phase :=
  match call.operation with
  | .startGeneration => sys.ensuring call.workAttemptId
  | .recoverExecutionFence =>
    if call.workAttemptId ∈ sys.live then sys.ensuring call.workAttemptId else .done
  | .releaseTerminalExecutionFence _ => if call.workAttemptId ∈ sys.live then .done else .letting
  | .concludeAttempt =>
    if call.workAttemptId ∈ sys.live then .done else sys.ensuring call.workAttemptId

/-- What the call was fenced for. -/
def transact (sys : System) (k : Nat) (call : Call) (ok : Bool) : System :=
  match call.operation with
  | .startGeneration =>
    if ok ∧ call.workAttemptId ∉ sys.live ∧ call.workAttemptId ∉ sys.concluded then
      { sys.setPhase k call .done with
        live := call.workAttemptId :: sys.live
        mine := call.workAttemptId :: sys.mine }
    else sys.setPhase k call .letting
  | .recoverExecutionFence =>
    { sys.setPhase k call .done with mine := call.workAttemptId :: sys.mine }
  | .releaseTerminalExecutionFence _ => sys.setPhase k call .done
  | .concludeAttempt =>
    if ok ∧ call.workAttemptId ∉ sys.live ∧ call.workAttemptId ∉ sys.concluded then
      { sys.setPhase k call .letting with concluded := call.workAttemptId :: sys.concluded }
    else sys.setPhase k call .letting

/-- The fence that a terminal release expects is the one that is stored. -/
def stillHeld (sys : System) (call : Call) : Bool :=
  match call.operation with
  | .releaseTerminalExecutionFence held => sys.fences.get call.workAttemptId = held
  | _ => true

def move (sys : System) (k : Nat) (call : Call) (ok : Bool) : System :=
  match call.phase with
  | .waiting => if sys.isTurn k call.workAttemptId then sys.setPhase k call .reading else sys
  | .reading => sys.setPhase k call (if ok then sys.afterRead call else .done)
  | .acquiring =>
    if ok ∧ sys.admitsShared then (sys.acquire call.workAttemptId).setPhase k call .fenced
    else sys.setPhase k call .done
  | .fenced => sys.transact k call ok
  | .letting =>
    match if sys.stillHeld call then sys.fences.get call.workAttemptId else none with
    | some handle => sys.setPhase k call (.releasing handle)
    | none => sys.setPhase k call .done
  | .releasing handle =>
    if ok then
      let left := (sys.drop handle).setPhase k call .done
      if sys.fences.get call.workAttemptId = some handle then left.delete call.workAttemptId else left
    else sys.setPhase k call .done
  | .done => sys

/-! ## Collections -/

def setStage (sys : System) (k : Nat) (collector : Collector) (stage : Stage) : System :=
  { sys with collectors := sys.collectors.set k { collector with stage := stage } }

/-- An error: what is not restored stays so. -/
def giveUp (sys : System) (k : Nat) (collector : Collector) : System :=
  { sys.setStage k collector .next with
    unrestored := (collector.stage.held.map Prod.fst).filter (fun id => sys.fences.get id = none) ++
      sys.unrestored }

/-- Behind the operation of a collection: what was released is acquired again. -/
def restore (held : List (String × Handle)) : Stage :=
  if held = [] then .next else .restoring (held.map Prod.fst) held

def collect (sys : System) (k : Nat) (collector : Collector) (ok : Bool) : System :=
  match collector.stage with
  | .next =>
    match collector.reserved with
    | [] => sys.setStage k collector .ended
    | (candidate, ephemeral) :: rest =>
      let held := if ephemeral then [] else sys.fences.entries
      sys.setStage k { collector with reserved := rest }
        (if ok = false then .next
        else if held = [] then .acquiring candidate [] else .quiescing candidate held)
  | .quiescing candidate held =>
    sys.setStage k collector (if ok then .releasing candidate held held else .next)
  | .releasing candidate held [] => sys.setStage k collector (.acquiring candidate held)
  | .releasing candidate held ((workAttemptId, handle) :: todo) =>
    if ok then
      ((sys.drop handle).delete workAttemptId).setStage k collector (.releasing candidate held todo)
    else sys.giveUp k collector
  | .acquiring candidate held =>
    if ok ∧ sys.records = [] then
      let fence : Handle := ⟨sys.nextSerial, candidate, .exclusive⟩
      { sys.setStage k collector (.deleting fence held) with
        records := [fence]
        nextSerial := sys.nextSerial + 1 }
    else sys.setStage k collector (restore held)
  | .deleting fence held =>
    (if ok then sys.drop fence else sys).setStage k collector (restore held)
  | .restoring [] held => sys.setStage k collector (.resuming held)
  | .restoring (workAttemptId :: todo) held =>
    if ok then
      sys.setStage k collector
        (if (sys.fences.get workAttemptId).isSome then .restoring todo held
        else .reacquiring workAttemptId todo held)
    else sys.giveUp k collector
  | .reacquiring workAttemptId todo held =>
    if ok ∧ sys.admitsShared then
      (sys.acquire workAttemptId).setStage k collector (.restoring todo held)
    else sys.giveUp k collector
  | .resuming _ => sys.setStage k collector .next
  | .ended => sys

end System

/-! ## Steps -/

inductive Input where
  | startGeneration (workAttemptId : String)
  | recoverExecutionFence (workAttemptId : String)
  | releaseTerminalExecutionFence (workAttemptId : String)
  | concludeAttempt (workAttemptId : String)
  | garbageCollect (reserved : List (String × Bool))
  /-- What the call awaits comes back. -/
  | call (k : Nat) (ok : Bool)
  | collector (k : Nat) (ok : Bool)
  | recordTerminal (workAttemptId : String)

namespace System

def begin (sys : System) (workAttemptId : String) (operation : Operation) : System :=
  { sys with calls := sys.calls ++ [⟨workAttemptId, operation, .waiting⟩] }

def step (sys : System) : Input → System
  | .startGeneration workAttemptId => sys.begin workAttemptId .startGeneration
  | .recoverExecutionFence workAttemptId => sys.begin workAttemptId .recoverExecutionFence
  | .releaseTerminalExecutionFence workAttemptId =>
    sys.begin workAttemptId (.releaseTerminalExecutionFence (sys.fences.get workAttemptId))
  | .concludeAttempt workAttemptId => sys.begin workAttemptId .concludeAttempt
  | .garbageCollect reserved =>
    { sys with
      collectors := sys.collectors ++ [⟨reserved.filter (·.1 ∈ sys.concluded), .next⟩] }
  | .call k ok =>
    match sys.calls[k]? with
    | some call => sys.move k call ok
    | none => sys
  | .collector k ok =>
    match sys.collectors[k]? with
    | some collector => sys.collect k collector ok
    | none => sys
  | .recordTerminal workAttemptId =>
    { sys with
      live := sys.live.filter (· ≠ workAttemptId)
      mine := sys.mine.filter (· ≠ workAttemptId) }

end System

end LetAgents.Durability.Fences

import LetAgents.Execution.Protocol
import LetAgents.Lib.Replay
import LetAgents.Lib.JoinMap

/-!
# Execution evidence: the shadow projection

Source: apps/desktop/daemon/execution-reducer.ts:9-121. The projection is a pure
function of the accepted facts. `Map` is a finite map with one entry per key; the
source never depends on its iteration order.

A thrown `ExecutionProtocolError` is an `Except` error. The caller keeps the
previous projection then, so a log of arbitrary values is replayed with the
rejected ones skipped.
-/
namespace LetAgents.Execution.Reducer

open Protocol Lib Lib.Js

inductive OperationState where
  | running | terminal
  deriving DecidableEq

structure OperationProjection where
  operation : OperationKind
  state : OperationState
  startObserved : Bool
  outputBytes : Nat
  sideEffects : SideEffectState
  outcome : Option ExecutionOutcome
  exitCode : Option ExitCode
  signalNumber : Option (SafeInteger 1)

abbrev Operations : Type := AList fun _ : ExecutionIdentity => OperationProjection

structure TurnProjection extends NativeTurnIdentity where
  state : TurnState
  outcome : Option TurnOutcome
  sideEffects : SideEffectState
  operations : Operations

structure ExecutionProjection where
  observerEpoch : Nat
  controlObserverEpoch : Nat
  runtime : RuntimeState
  control : ControlState
  continuation : ContinuationState
  turns : AList fun _ : ExecutionIdentity => TurnProjection

def emptyExecutionProjection : ExecutionProjection where
  observerEpoch := 0
  controlObserverEpoch := 0
  runtime := .starting
  control := .connecting
  continuation := .available
  turns := ∅

def transition {T : Type} [DecidableEq T] (previous next : T) (allowed : T → List T) :
    Except ExecutionProtocolError T :=
  if previous ≠ next ∧ next ∉ allowed previous then .error .invalidTransition
  else .ok next

def runtimeTransitions : RuntimeState → List RuntimeState
  | .starting => [.ready, .stopping, .exited]
  | .ready => [.stopping, .exited]
  | .stopping => [.exited]
  | .exited => []

def controlTransitions : ControlState → List ControlState
  | .connecting => [.responsive, .degraded, .lost, .unprobeable]
  | .responsive => [.degraded, .lost, .unprobeable]
  | .degraded => [.responsive, .lost, .unprobeable]
  | .unprobeable => [.responsive, .degraded, .lost]
  | .lost => []

def continuationTransitions : ContinuationState → List ContinuationState
  | .available => [.repairing, .unavailable]
  | .repairing => [.available, .unavailable]
  | .unavailable => [.repairing]

def turnTransitions : TurnState → List TurnState
  | .none => [.active, .terminal, .lost]
  | .active => [.terminal, .lost]
  | .lost => [.active, .terminal]
  | .terminal => []

def newOperation (fact : ExecutionOperationFact) : OperationProjection where
  operation := fact.operation
  state := .running
  startObserved := false
  outputBytes := 0
  sideEffects := .none
  outcome := none
  exitCode := none
  signalNumber := none

def reduceOperation (previous : Option OperationProjection) (fact : ExecutionOperationFact) :
    Except ExecutionProtocolError OperationProjection :=
  if previous.any fun known => known.operation ≠ fact.operation then .error .identityMismatch
  else
    let operation := previous.getD (newOperation fact)
    if operation.state = .terminal then
      match fact.event with
      | .completed outcome exitCode signalNumber =>
        if operation.outcome = some outcome ∧ operation.exitCode = exitCode ∧
            operation.signalNumber = signalNumber then
          .ok { operation with
            sideEffects := combineSideEffects operation.sideEffects fact.sideEffects }
        else .error .invalidTransition
      | _ => .error .invalidTransition
    else
      let sideEffects := combineSideEffects operation.sideEffects fact.sideEffects
      match fact.event with
      | .started => .ok { operation with startObserved := true, sideEffects }
      | .output outputBytes =>
        if operation.outputBytes + outputBytes.val ≤ maxSafeInteger then
          .ok { operation with
            outputBytes := operation.outputBytes + outputBytes.val, sideEffects }
        else .error .invalidFact
      | .completed outcome exitCode signalNumber =>
        if outcome.beforeStart ∧ (operation.startObserved ∨ 0 < operation.outputBytes ∨
            operation.sideEffects ≠ .none) then .error .invalidTransition
        else .ok { operation with
          state := .terminal, outcome := some outcome, sideEffects, exitCode, signalNumber }

def newTurn (identity : NativeTurnIdentity) : TurnProjection where
  toNativeTurnIdentity := identity
  state := .none
  outcome := none
  sideEffects := .none
  operations := ∅

/-- The turn a turn or execution fact is about, created when it is unknown. -/
def currentTurn (previous : ExecutionProjection) (identity : NativeTurnIdentity) :
    Except ExecutionProtocolError TurnProjection :=
  match previous.turns.lookup identity.turnId with
  | some current =>
    if sameNativeTurn current.toNativeTurnIdentity identity then .ok current
    else .error .identityMismatch
  | none => .ok (newTurn identity)

def reduceTurn (turn : TurnProjection) (state : TurnState) (turnOutcome : Option TurnOutcome) :
    Except ExecutionProtocolError TurnProjection := do
  let state ← transition turn.state state turnTransitions
  if turn.state = .terminal ∧ turn.outcome ≠ turnOutcome then .error .invalidTransition
  else .ok { turn with state, outcome := turnOutcome }

def OperationEvent.isCompleted : OperationEvent → Bool
  | .completed .. => true
  | _ => false

def reduceTurnOperation (turn : TurnProjection) (fact : ExecutionOperationFact) :
    Except ExecutionProtocolError TurnProjection :=
  if (turn.state = .terminal ∨ turn.state = .lost) ∧ ¬ OperationEvent.isCompleted fact.event then
    .error .invalidTransition
  else do
    let operation ← reduceOperation (turn.operations.lookup fact.executionId) fact
    .ok { turn with
      operations := turn.operations.insert fact.executionId operation
      sideEffects := combineSideEffects turn.sideEffects fact.sideEffects }

/-- Only explicit control evidence in a new epoch can reconnect. -/
def reduceControl (previous : ExecutionProjection) (observerEpoch : Nat) (state : ControlState) :
    Except ExecutionProtocolError ExecutionProjection :=
  if state = .connecting ∧ previous.controlObserverEpoch < observerEpoch then
    .ok { previous with control := .connecting, controlObserverEpoch := observerEpoch }
  else do
    let control ← transition previous.control state controlTransitions
    .ok { previous with controlObserverEpoch := observerEpoch, control }

def setTurn (previous : ExecutionProjection) (identity : NativeTurnIdentity)
    (next : TurnProjection) : ExecutionProjection :=
  { previous with turns := previous.turns.insert identity.turnId next }

/-- The `switch` over the fact's domain, after the epoch check. -/
def reduceDomain (previous : ExecutionProjection) :
    ExecutionFact → Except ExecutionProtocolError ExecutionProjection
  | .runtime _ state _ _ => do
    let runtime ← transition previous.runtime state runtimeTransitions
    .ok { previous with runtime }
  | .control envelope state _ _ => reduceControl previous envelope.observerEpoch state
  | .continuation _ state => do
    let continuation ← transition previous.continuation state continuationTransitions
    .ok { previous with continuation }
  | .turn _ identity state turnOutcome _ => do
    let turn ← currentTurn previous identity
    let next ← reduceTurn turn state turnOutcome
    .ok (setTurn previous identity next)
  | .execution fact => do
    let turn ← currentTurn previous fact.nativeTurn
    let next ← reduceTurnOperation turn fact
    .ok (setTurn previous fact.nativeTurn next)

def reduceExecutionFact (previous : ExecutionProjection) (value : JsValue) :
    Except ExecutionProtocolError ExecutionProjection := do
  let fact ← parseExecutionFact value
  let epoch := fact.envelope.observerEpoch.val
  if epoch < previous.observerEpoch then .error .staleObserver
  else if previous.observerEpoch < epoch then
    reduceDomain { previous with observerEpoch := epoch } fact
  else reduceDomain previous fact

/-- The projection after a log of arbitrary values, rejected ones skipped. -/
def replayFacts (log : List JsValue) : ExecutionProjection :=
  Replay.replay reduceExecutionFact emptyExecutionProjection log

end LetAgents.Execution.Reducer

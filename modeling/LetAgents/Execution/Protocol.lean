import Mathlib.Order.Lattice
import Mathlib.Order.BoundedOrder.Basic
import LetAgents.Lib.Js

/-!
# Execution evidence: the structural protocol

Source: apps/desktop/daemon/execution-protocol.ts:11-93, with the fact types of
apps/desktop/shared/execution-protocol.ts. `parseExecutionFact` is total on
arbitrary host values: the seven alternatives of `factSchema` are seven parsers
tried in order, each strict about unknown keys. What a schema refines (lengths,
ranges, which fields accompany which state) is carried by the parsed fact, so a
fact that breaks its schema cannot be built.

Modelling boundary: a host value is seen through its readable properties.
-/
namespace LetAgents.Execution.Protocol

open Lib.Js

/-! ## Schemas -/

/-- `z.strictObject`: an object, and no property outside the shape. -/
def strictObject (shape : List String) : JsValue → Bool
  | .object properties => properties.all fun entry => shape.contains entry.1
  | _ => false

/-- `.optional()`. -/
def optional {α : Type} (schema : JsValue → Option α) : JsValue → Option (Option α)
  | .undefined => some none
  | value => (schema value).map some

/-- `z.enum` and `z.literal`: a string naming one of the members. -/
def enumeration {α : Type} (members : List (String × α)) : JsValue → Option α
  | .string value => members.lookup value
  | _ => none

/-! ## Scalars -/

abbrev SafeInteger (least : Nat) : Type := { n : Nat // least ≤ n ∧ n ≤ maxSafeInteger }

/-- `z.number().int().nonnegative().max(MAX_SAFE_INTEGER)`, then `.min(least)`. -/
def integer (least : Nat) : JsValue → Option (SafeInteger least)
  | .number (.finite value) =>
    if value.den = 1 ∧ 0 ≤ value.num then
      if bounds : least ≤ value.num.toNat ∧ value.num.toNat ≤ maxSafeInteger then
        some ⟨value.num.toNat, bounds⟩
      else none
    else none
  | _ => none

abbrev ExitCode : Type := { code : Int // -2147483648 ≤ code ∧ code ≤ 2147483647 }

def exitCode : JsValue → Option ExitCode
  | .number (.finite value) =>
    if value.den = 1 then
      if bounds : -2147483648 ≤ value.num ∧ value.num ≤ 2147483647 then
        some ⟨value.num, bounds⟩
      else none
    else none
  | _ => none

def identityTail (c : Char) : Bool :=
  c.isAlphanum || ['_', '.', ':', '/', '-'].contains c

/-- One to 512 ASCII letters, digits and `_ . : / -`, starting with a letter or digit. -/
def isExecutionIdentity (value : String) : Bool :=
  match value.toList with
  | [] => false
  | head :: tail => head.isAlphanum && tail.all identityTail && decide (tail.length < 512)

abbrev ExecutionIdentity : Type := { value : String // isExecutionIdentity value = true }

def executionIdentity : JsValue → Option ExecutionIdentity
  | .string value =>
    if valid : isExecutionIdentity value = true then some ⟨value, valid⟩ else none
  | _ => none

/-! ## Enumerations -/

inductive RuntimeState where
  | starting | ready | stopping | exited
  deriving DecidableEq

inductive ControlState where
  | connecting | responsive | degraded | lost | unprobeable
  deriving DecidableEq

inductive ContinuationState where
  | available | repairing | unavailable
  deriving DecidableEq

inductive TurnState where
  | none | active | terminal | lost
  deriving DecidableEq

inductive TurnOutcome where
  | completed | failed | interrupted | unreadable
  deriving DecidableEq

inductive SideEffectState where
  | none | possible | observed
  deriving DecidableEq

inductive ExecutionOutcome where
  | succeeded | failed | deniedBeforeStart | cancelledBeforeStart
  | interruptedAfterStart | lostAfterStart
  deriving DecidableEq

inductive HardControlEvidence where
  | processExit | processBirthChanged | transportRefused | controlEpochGone
  | nativeSessionTerminated
  deriving DecidableEq

inductive OperationKind where
  | command | fileRead | fileChange | network | question | other
  deriving DecidableEq

def runtimeStates : JsValue → Option RuntimeState :=
  enumeration [("starting", .starting), ("ready", .ready), ("stopping", .stopping),
    ("exited", .exited)]

def controlStates : JsValue → Option ControlState :=
  enumeration [("connecting", .connecting), ("responsive", .responsive),
    ("degraded", .degraded), ("lost", .lost), ("unprobeable", .unprobeable)]

def continuationStates : JsValue → Option ContinuationState :=
  enumeration [("available", .available), ("repairing", .repairing),
    ("unavailable", .unavailable)]

def turnStates : JsValue → Option TurnState :=
  enumeration [("none", .none), ("active", .active), ("terminal", .terminal), ("lost", .lost)]

def turnOutcomes : JsValue → Option TurnOutcome :=
  enumeration [("completed", .completed), ("failed", .failed), ("interrupted", .interrupted),
    ("unreadable", .unreadable)]

def sideEffectStates : JsValue → Option SideEffectState :=
  enumeration [("none", .none), ("possible", .possible), ("observed", .observed)]

def executionOutcomes : JsValue → Option ExecutionOutcome :=
  enumeration [("succeeded", .succeeded), ("failed", .failed),
    ("denied_before_start", .deniedBeforeStart),
    ("cancelled_before_start", .cancelledBeforeStart),
    ("interrupted_after_start", .interruptedAfterStart), ("lost_after_start", .lostAfterStart)]

def hardControlEvidence : JsValue → Option HardControlEvidence :=
  enumeration [("process_exit", .processExit), ("process_birth_changed", .processBirthChanged),
    ("transport_refused", .transportRefused), ("control_epoch_gone", .controlEpochGone),
    ("native_session_terminated", .nativeSessionTerminated)]

def operationKinds : JsValue → Option OperationKind :=
  enumeration [("command", .command), ("file_read", .fileRead), ("file_change", .fileChange),
    ("network", .network), ("question", .question), ("other", .other)]

/-- `["denied_before_start", "cancelled_before_start"].includes(outcome)`. -/
def ExecutionOutcome.beforeStart : ExecutionOutcome → Bool
  | .deniedBeforeStart | .cancelledBeforeStart => true
  | _ => false

/-! ## Facts -/

structure Envelope where
  factId : ExecutionIdentity
  agentId : ExecutionIdentity
  executionGenerationId : ExecutionIdentity
  runtimeGenerationId : ExecutionIdentity
  observerEpoch : SafeInteger 1
  sourceSequence : SafeInteger 1
  nativeEventId : Option ExecutionIdentity
  observedAtMs : SafeInteger 0
  deriving DecidableEq

structure NativeTurnIdentity where
  turnId : ExecutionIdentity
  providerContinuationId : ExecutionIdentity
  providerTurnId : ExecutionIdentity
  deriving DecidableEq

inductive OperationEvent where
  | started
  | output (outputBytes : SafeInteger 0)
  | completed (outcome : ExecutionOutcome) (exitCode : Option ExitCode)
      (signalNumber : Option (SafeInteger 1))
  deriving DecidableEq

/-- The refinement of the `completed` alternative: a tool denied or cancelled
before it started reports no effect, exit code or signal. -/
def OperationEvent.refined (sideEffects : SideEffectState) : OperationEvent → Bool
  | .completed outcome exitCode signalNumber =>
    !outcome.beforeStart ||
      (decide (sideEffects = .none) && exitCode.isNone && signalNumber.isNone)
  | _ => true

structure ExecutionOperationFact where
  envelope : Envelope
  nativeTurn : NativeTurnIdentity
  executionId : ExecutionIdentity
  operation : OperationKind
  sideEffects : SideEffectState
  event : OperationEvent
  refined : event.refined sideEffects = true
  deriving DecidableEq

inductive ExecutionFact where
  | runtime (envelope : Envelope) (state : RuntimeState)
      (controlEvidence : Option HardControlEvidence)
      (refined : state = .exited ↔ controlEvidence.isSome)
  | control (envelope : Envelope) (state : ControlState)
      (controlEvidence : Option HardControlEvidence)
      (refined : state = .lost ↔ controlEvidence.isSome)
  | continuation (envelope : Envelope) (state : ContinuationState)
  | turn (envelope : Envelope) (nativeTurn : NativeTurnIdentity) (state : TurnState)
      (turnOutcome : Option TurnOutcome) (refined : state = .terminal ↔ turnOutcome.isSome)
  | execution (fact : ExecutionOperationFact)
  deriving DecidableEq

def ExecutionFact.envelope : ExecutionFact → Envelope
  | .runtime envelope .. => envelope
  | .control envelope .. => envelope
  | .continuation envelope _ => envelope
  | .turn envelope .. => envelope
  | .execution fact => fact.envelope

/-! ## The schema -/

def envelopeKeys : List String :=
  ["factId", "agentId", "executionGenerationId", "runtimeGenerationId", "observerEpoch",
    "sourceSequence", "nativeEventId", "observedAtMs"]

def nativeTurnKeys : List String := ["turnId", "providerContinuationId", "providerTurnId"]

def stateChangeKeys : List String := envelopeKeys ++ ["kind", "sideEffects", "domain", "state"]

def operationKeys : List String :=
  envelopeKeys ++ nativeTurnKeys ++ ["domain", "executionId", "operation", "sideEffects", "kind"]

def literal (expected : String) : JsValue → Option Unit :=
  enumeration [(expected, ())]

def envelope (value : JsValue) : Option Envelope := do
  let factId ← executionIdentity (value.property "factId")
  let agentId ← executionIdentity (value.property "agentId")
  let executionGenerationId ← executionIdentity (value.property "executionGenerationId")
  let runtimeGenerationId ← executionIdentity (value.property "runtimeGenerationId")
  let observerEpoch ← integer 1 (value.property "observerEpoch")
  let sourceSequence ← integer 1 (value.property "sourceSequence")
  let nativeEventId ← optional executionIdentity (value.property "nativeEventId")
  let observedAtMs ← integer 0 (value.property "observedAtMs")
  some { factId, agentId, executionGenerationId, runtimeGenerationId, observerEpoch,
         sourceSequence, nativeEventId, observedAtMs }

def nativeTurn (value : JsValue) : Option NativeTurnIdentity := do
  let turnId ← executionIdentity (value.property "turnId")
  let providerContinuationId ← executionIdentity (value.property "providerContinuationId")
  let providerTurnId ← executionIdentity (value.property "providerTurnId")
  some { turnId, providerContinuationId, providerTurnId }

/-- The fields shared by the four state-change alternatives. -/
def stateChange (domain : String) (extraKeys : List String) (value : JsValue) :
    Option Envelope := do
  guard (strictObject (stateChangeKeys ++ extraKeys) value)
  let shared ← envelope value
  literal "state_changed" (value.property "kind")
  literal "none" (value.property "sideEffects")
  literal domain (value.property "domain")
  some shared

def runtimeFact (value : JsValue) : Option ExecutionFact := do
  let shared ← stateChange "runtime" ["controlEvidence"] value
  let state ← runtimeStates (value.property "state")
  let controlEvidence ← optional hardControlEvidence (value.property "controlEvidence")
  if refined : state = .exited ↔ controlEvidence.isSome then
    some (.runtime shared state controlEvidence refined)
  else none

def controlFact (value : JsValue) : Option ExecutionFact := do
  let shared ← stateChange "control" ["controlEvidence"] value
  let state ← controlStates (value.property "state")
  let controlEvidence ← optional hardControlEvidence (value.property "controlEvidence")
  if refined : state = .lost ↔ controlEvidence.isSome then
    some (.control shared state controlEvidence refined)
  else none

def continuationFact (value : JsValue) : Option ExecutionFact := do
  let shared ← stateChange "continuation" [] value
  let state ← continuationStates (value.property "state")
  some (.continuation shared state)

def turnFact (value : JsValue) : Option ExecutionFact := do
  let shared ← stateChange "turn" (nativeTurnKeys ++ ["turnOutcome"]) value
  let identity ← nativeTurn value
  let state ← turnStates (value.property "state")
  let turnOutcome ← optional turnOutcomes (value.property "turnOutcome")
  if refined : state = .terminal ↔ turnOutcome.isSome then
    some (.turn shared identity state turnOutcome refined)
  else none

/-- The three `operation` alternatives differ in their kind, their own keys and
what they read for the event. -/
def operationFact (kind : String) (extraKeys : List String)
    (event : JsValue → Option OperationEvent) (value : JsValue) : Option ExecutionFact := do
  guard (strictObject (operationKeys ++ extraKeys) value)
  let shared ← envelope value
  let identity ← nativeTurn value
  literal "execution" (value.property "domain")
  let executionId ← executionIdentity (value.property "executionId")
  let operation ← operationKinds (value.property "operation")
  let sideEffects ← sideEffectStates (value.property "sideEffects")
  literal kind (value.property "kind")
  let observed ← event value
  if refined : observed.refined sideEffects = true then
    some (.execution { envelope := shared, nativeTurn := identity, executionId, operation,
                       sideEffects, event := observed, refined })
  else none

def startedFact : JsValue → Option ExecutionFact :=
  operationFact "started" [] fun _ => some .started

def outputFact : JsValue → Option ExecutionFact :=
  operationFact "output" ["outputBytes"] fun value => do
    let outputBytes ← integer 0 (value.property "outputBytes")
    some (.output outputBytes)

def completedFact : JsValue → Option ExecutionFact :=
  operationFact "completed" ["outcome", "exitCode", "signalNumber"] fun value => do
    let outcome ← executionOutcomes (value.property "outcome")
    let code ← optional exitCode (value.property "exitCode")
    let signalNumber ← optional (integer 1) (value.property "signalNumber")
    some (.completed outcome code signalNumber)

/-- `z.union`: the first alternative that accepts. -/
def factSchema (value : JsValue) : Option ExecutionFact :=
  runtimeFact value <|> controlFact value <|> continuationFact value <|> turnFact value <|>
    startedFact value <|> outputFact value <|> completedFact value

inductive ExecutionProtocolError where
  | invalidFact | identityMismatch | staleObserver | sequenceConflict | invalidTransition
  | attemptSettled | sourceUnverified | sourceGap | retentionLimit

def parseExecutionFact (value : JsValue) : Except ExecutionProtocolError ExecutionFact :=
  match factSchema value with
  | some fact => .ok fact
  | none => .error .invalidFact

/-! ## Combining -/

def combineSideEffects (a b : SideEffectState) : SideEffectState :=
  if a = .observed ∨ b = .observed then .observed
  else if a = .possible ∨ b = .possible then .possible
  else .none

def sameNativeTurn (a b : NativeTurnIdentity) : Bool :=
  a.turnId = b.turnId && a.providerContinuationId = b.providerContinuationId &&
    a.providerTurnId = b.providerTurnId

theorem sameNativeTurn_iff (a b : NativeTurnIdentity) : sameNativeTurn a b = true ↔ a = b := by
  cases a
  cases b
  simp [sameNativeTurn, and_assoc]

/-- Position in `none < possible < observed`. -/
def SideEffectState.rank : SideEffectState → Nat
  | .none => 0
  | .possible => 1
  | .observed => 2

instance : SemilatticeSup SideEffectState where
  le a b := a.rank ≤ b.rank
  le_refl _ := Nat.le_refl _
  le_trans _ _ _ := Nat.le_trans
  le_antisymm a b := by cases a <;> cases b <;> simp [SideEffectState.rank]
  sup := combineSideEffects
  le_sup_left a b := by cases a <;> cases b <;> decide
  le_sup_right a b := by cases a <;> cases b <;> decide
  sup_le a b c := by cases a <;> cases b <;> cases c <;> decide

instance : OrderBot SideEffectState where
  bot := .none
  bot_le _ := Nat.zero_le _

theorem combineSideEffects_eq_sup (a b : SideEffectState) : combineSideEffects a b = a ⊔ b := rfl

end LetAgents.Execution.Protocol

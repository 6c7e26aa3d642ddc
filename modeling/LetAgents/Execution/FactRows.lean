import LetAgents.Execution.Reducer
import LetAgents.Lib.Checked

/-!
# The rows of the execution journal

Source: apps/desktop/daemon/execution-shadow-store.ts:51-80, 84-92, 513-525, 867-888. A fact is stored
column by column and read back through the schema; what it costs is counted over the text columns,
once for the row that is written and once by the database.
-/
namespace LetAgents.Execution.FactRows

open Lib.Js Protocol

/-! ## The texts of the enumerations -/

def runtimeText : RuntimeState → String
  | .starting => "starting"
  | .ready => "ready"
  | .stopping => "stopping"
  | .exited => "exited"

def controlText : ControlState → String
  | .connecting => "connecting"
  | .responsive => "responsive"
  | .degraded => "degraded"
  | .lost => "lost"
  | .unprobeable => "unprobeable"

def continuationText : ContinuationState → String
  | .available => "available"
  | .repairing => "repairing"
  | .unavailable => "unavailable"

def turnText : TurnState → String
  | .none => "none"
  | .active => "active"
  | .terminal => "terminal"
  | .lost => "lost"

def turnOutcomeText : TurnOutcome → String
  | .completed => "completed"
  | .failed => "failed"
  | .interrupted => "interrupted"
  | .unreadable => "unreadable"

def sideEffectText : SideEffectState → String
  | .none => "none"
  | .possible => "possible"
  | .observed => "observed"

def outcomeText : ExecutionOutcome → String
  | .succeeded => "succeeded"
  | .failed => "failed"
  | .deniedBeforeStart => "denied_before_start"
  | .cancelledBeforeStart => "cancelled_before_start"
  | .interruptedAfterStart => "interrupted_after_start"
  | .lostAfterStart => "lost_after_start"

def evidenceText : HardControlEvidence → String
  | .processExit => "process_exit"
  | .processBirthChanged => "process_birth_changed"
  | .transportRefused => "transport_refused"
  | .controlEpochGone => "control_epoch_gone"
  | .nativeSessionTerminated => "native_session_terminated"

def operationText : OperationKind → String
  | .command => "command"
  | .fileRead => "file_read"
  | .fileChange => "file_change"
  | .network => "network"
  | .question => "question"
  | .other => "other"

/-! ## Rows -/

structure FactRow where
  sequence : Nat
  factId : String
  agentId : String
  executionGenerationId : String
  runtimeGenerationId : String
  observerEpoch : Nat
  sourceSequence : Nat
  nativeEventId : Option String
  turnId : Option String
  executionId : Option String
  domain : String
  kind : String
  state : Option String
  operation : Option String
  outcome : Option String
  sideEffects : String
  outputBytes : Option Nat
  exitCode : Option Int
  signalNumber : Option Nat
  observedAtMs : Nat
  turnOutcome : Option String
  controlEvidence : Option String

/-- The columns of a fact that has only its envelope. -/
def envelopeRow (sequence : Nat) (envelope : Envelope) (domain : String) : FactRow where
  sequence := sequence
  factId := envelope.factId.val
  agentId := envelope.agentId.val
  executionGenerationId := envelope.executionGenerationId.val
  runtimeGenerationId := envelope.runtimeGenerationId.val
  observerEpoch := envelope.observerEpoch.val
  sourceSequence := envelope.sourceSequence.val
  nativeEventId := envelope.nativeEventId.map (·.val)
  turnId := none
  executionId := none
  domain := domain
  kind := "state_changed"
  state := none
  operation := none
  outcome := none
  sideEffects := "none"
  outputBytes := none
  exitCode := none
  signalNumber := none
  observedAtMs := envelope.observedAtMs.val
  turnOutcome := none
  controlEvidence := none

/-- The row of the operation's event. -/
def eventRow (row : FactRow) : OperationEvent → FactRow
  | .started => { row with kind := "started" }
  | .output outputBytes => { row with kind := "output", outputBytes := some outputBytes.val }
  | .completed outcome exitCode signalNumber =>
    { row with
      kind := "completed"
      outcome := some (outcomeText outcome)
      exitCode := exitCode.map (·.val)
      signalNumber := signalNumber.map (·.val) }

/-- `stored`, with the sequence that the insert gives it. -/
def stored (sequence : Nat) : ExecutionFact → FactRow
  | .runtime envelope state controlEvidence _ =>
    { envelopeRow sequence envelope "runtime" with
      state := some (runtimeText state)
      controlEvidence := controlEvidence.map evidenceText }
  | .control envelope state controlEvidence _ =>
    { envelopeRow sequence envelope "control" with
      state := some (controlText state)
      controlEvidence := controlEvidence.map evidenceText }
  | .continuation envelope state =>
    { envelopeRow sequence envelope "continuation" with state := some (continuationText state) }
  | .turn envelope nativeTurn state turnOutcome _ =>
    { envelopeRow sequence envelope "turn" with
      turnId := some nativeTurn.turnId.val
      state := some (turnText state)
      turnOutcome := turnOutcome.map turnOutcomeText }
  | .execution fact =>
    eventRow
      { envelopeRow sequence fact.envelope "execution" with
        turnId := some fact.nativeTurn.turnId.val
        executionId := some fact.executionId.val
        operation := some (operationText fact.operation)
        sideEffects := sideEffectText fact.sideEffects }
      fact.event

/-! ## What a row costs -/

def FACT_BOOKKEEPING_BYTES : Nat := 256

def FACT_TEXT_COLUMNS : List (FactRow → Option String) :=
  [fun row => some row.factId, fun row => some row.agentId,
    fun row => some row.executionGenerationId, fun row => some row.runtimeGenerationId,
    FactRow.nativeEventId, FactRow.turnId, FactRow.executionId, fun row => some row.domain,
    fun row => some row.kind, FactRow.state, FactRow.operation, FactRow.outcome,
    fun row => some row.sideEffects, FactRow.turnOutcome, FactRow.controlEvidence]

def factBytes (row : FactRow) : Nat :=
  FACT_BOOKKEEPING_BYTES +
    FACT_TEXT_COLUMNS.foldl (fun bytes column => bytes + ((column row).getD "").utf8ByteSize) 0

/-- `FACT_BYTE_COST_SQL`: each text is cast to its bytes. -/
def factByteCost (row : FactRow) : Nat :=
  FACT_TEXT_COLUMNS.foldl (fun cost column => cost + ((column row).getD "").toUTF8.size)
    FACT_BOOKKEEPING_BYTES

theorem factByteCost_eq (row : FactRow) : factByteCost row = factBytes row := by
  have shift : ∀ (columns : List (FactRow → Option String)) (start bytes : Nat),
      columns.foldl (fun cost column => cost + ((column row).getD "").toUTF8.size) (start + bytes) =
        start + columns.foldl (fun bytes column => bytes + ((column row).getD "").utf8ByteSize)
          bytes := by
    intro columns
    induction columns with
    | nil => exact fun _ _ => rfl
    | cons column rest ih =>
      intro start bytes
      rw [List.foldl_cons, List.foldl_cons, Nat.add_assoc]
      exact ih start _
  exact shift FACT_TEXT_COLUMNS FACT_BOOKKEEPING_BYTES 0

/-- The order in which a row was written does not change what it costs. -/
theorem factBytes_sequence (row : FactRow) (sequence : Nat) :
    factBytes { row with sequence } = factBytes row := rfl

/-! ## Reading a row back -/

def columnText (column : Option String) : JsValue := column.elim .null .string

def columnNumber (n : Nat) : JsValue := .number (.finite n)

/-- The provider's ids of a turn, as the join finds them. -/
structure ProviderIds where
  continuationId : String
  turnId : String

/-- The properties that `decodeFact` puts together. -/
def rowValue (row : FactRow) (provider : Option ProviderIds) : JsValue :=
  .object <|
    [("factId", .string row.factId), ("agentId", .string row.agentId),
      ("executionGenerationId", .string row.executionGenerationId),
      ("runtimeGenerationId", .string row.runtimeGenerationId),
      ("observerEpoch", columnNumber row.observerEpoch),
      ("sourceSequence", columnNumber row.sourceSequence),
      ("observedAtMs", columnNumber row.observedAtMs)] ++
    (row.nativeEventId.map fun id => ("nativeEventId", JsValue.string id)).toList ++
    [("domain", .string row.domain), ("kind", .string row.kind),
      ("sideEffects", .string row.sideEffects)] ++
    (if row.domain = "turn" ∨ row.domain = "execution" then
      [("turnId", columnText row.turnId),
        ("providerContinuationId", columnText (provider.map ProviderIds.continuationId)),
        ("providerTurnId", columnText (provider.map ProviderIds.turnId))]
    else []) ++
    (if row.domain = "execution" then
      [("executionId", columnText row.executionId), ("operation", columnText row.operation)] ++
      (if row.kind = "output" then [("outputBytes", row.outputBytes.elim .null columnNumber)] else []) ++
      (if row.kind = "completed" then
        [("outcome", columnText row.outcome)] ++
        (row.exitCode.map fun code => ("exitCode", JsValue.number (.finite code))).toList ++
        (row.signalNumber.map fun signal => ("signalNumber", columnNumber signal)).toList
      else [])
    else
      [("state", columnText row.state)] ++
      (row.turnOutcome.map fun outcome => ("turnOutcome", JsValue.string outcome)).toList ++
      (row.controlEvidence.map fun evidence => ("controlEvidence", JsValue.string evidence)).toList)

def decodeFact (row : FactRow) (provider : Option ProviderIds) :
    Except ExecutionProtocolError ExecutionFact :=
  parseExecutionFact (rowValue row provider)

/-- A fact's own turn, as far as the join knows it. -/
def nativeTurnOf : ExecutionFact → Option NativeTurnIdentity
  | .turn _ nativeTurn .. => some nativeTurn
  | .execution fact => some fact.nativeTurn
  | _ => none

def ProviderIds.of (turn : NativeTurnIdentity) : ProviderIds :=
  ⟨turn.providerContinuationId.val, turn.providerTurnId.val⟩

theorem executionIdentity_val (id : ExecutionIdentity) : executionIdentity (.string id.val) = some id := by
  simp [executionIdentity, id.property]

theorem integer_val (n : SafeInteger least) : integer least (columnNumber n.val) = some n := by
  have whole : ((n.val : Rat)).num = n.val ∧ ((n.val : Rat)).den = 1 := ⟨Rat.num_natCast _, Rat.den_natCast _⟩
  unfold columnNumber integer
  dsimp only
  rw [if_pos ⟨whole.2, by rw [whole.1]; exact Int.natCast_nonneg _⟩]
  have back : ((n.val : Rat)).num.toNat = n.val := by rw [whole.1, Int.toNat_natCast]
  simp only [back, n.property, and_self, dif_pos]

theorem exitCode_val (code : ExitCode) : exitCode (.number (.finite code.val)) = some code := by
  have whole : ((code.val : Rat)).num = code.val ∧ ((code.val : Rat)).den = 1 :=
    ⟨Rat.num_intCast _, Rat.den_intCast _⟩
  unfold exitCode
  dsimp only
  rw [if_pos whole.2]
  simp only [whole.1, code.property, and_self, dif_pos]

theorem runtimeStates_text (state : RuntimeState) : runtimeStates (.string (runtimeText state)) = some state := by
  cases state <;> rfl

theorem controlStates_text (state : ControlState) : controlStates (.string (controlText state)) = some state := by
  cases state <;> rfl

theorem continuationStates_text (state : ContinuationState) :
    continuationStates (.string (continuationText state)) = some state := by cases state <;> rfl

theorem turnStates_text (state : TurnState) : turnStates (.string (turnText state)) = some state := by
  cases state <;> rfl

theorem turnOutcomes_text (outcome : TurnOutcome) :
    turnOutcomes (.string (turnOutcomeText outcome)) = some outcome := by cases outcome <;> rfl

theorem sideEffectStates_text (state : SideEffectState) :
    sideEffectStates (.string (sideEffectText state)) = some state := by cases state <;> rfl

theorem executionOutcomes_text (outcome : ExecutionOutcome) :
    executionOutcomes (.string (outcomeText outcome)) = some outcome := by cases outcome <;> rfl

theorem hardControlEvidence_text (evidence : HardControlEvidence) :
    hardControlEvidence (.string (evidenceText evidence)) = some evidence := by cases evidence <;> rfl

theorem operationKinds_text (operation : OperationKind) :
    operationKinds (.string (operationText operation)) = some operation := by cases operation <;> rfl

/-! ## The schema reads what was stored -/

variable {keys : List String} {fact : ExecutionOperationFact} {value : JsValue}

section Schema

variable {value : JsValue}

/-- The properties of an envelope. -/
structure HasEnvelope (value : JsValue) (e : Envelope) : Prop where
  factId : value.property "factId" = .string e.factId.val
  agentId : value.property "agentId" = .string e.agentId.val
  executionGenerationId :
    value.property "executionGenerationId" = .string e.executionGenerationId.val
  runtimeGenerationId : value.property "runtimeGenerationId" = .string e.runtimeGenerationId.val
  observerEpoch : value.property "observerEpoch" = columnNumber e.observerEpoch.val
  sourceSequence : value.property "sourceSequence" = columnNumber e.sourceSequence.val
  nativeEventId :
    value.property "nativeEventId" = e.nativeEventId.elim .undefined fun id => .string id.val
  observedAtMs : value.property "observedAtMs" = columnNumber e.observedAtMs.val

theorem optional_of (back : ∀ a, schema (write a) = some a) (present : ∀ a, write a ≠ .undefined) :
    Protocol.optional schema (column.elim .undefined write) = some column := by
  cases column with
  | none => rfl
  | some a =>
    have written := present a
    unfold Protocol.optional
    dsimp only [Option.elim_some]
    split
    · rename_i missing
      exact absurd missing written
    · rw [back]
      rfl

theorem HasEnvelope.envelope (has : HasEnvelope value e) : envelope value = some e := by
  unfold Protocol.envelope
  rw [has.factId, has.agentId, has.executionGenerationId, has.runtimeGenerationId, has.observerEpoch,
    has.sourceSequence, has.nativeEventId, has.observedAtMs]
  rw [optional_of executionIdentity_val (fun _ => by rintro ⟨⟩)]
  simp only [executionIdentity_val, integer_val]
  rfl

structure HasTurn (value : JsValue) (turn : NativeTurnIdentity) : Prop where
  turnId : value.property "turnId" = .string turn.turnId.val
  providerContinuationId :
    value.property "providerContinuationId" = .string turn.providerContinuationId.val
  providerTurnId : value.property "providerTurnId" = .string turn.providerTurnId.val

theorem HasTurn.nativeTurn (has : HasTurn value turn) : nativeTurn value = some turn := by
  unfold Protocol.nativeTurn
  rw [has.turnId, has.providerContinuationId, has.providerTurnId]
  simp only [executionIdentity_val]
  rfl

theorem stateChange_of (strict : strictObject (stateChangeKeys ++ keys) value = true)
    (has : HasEnvelope value e) (kind : value.property "kind" = .string "state_changed")
    (sideEffects : value.property "sideEffects" = .string "none")
    (own : literal domain (value.property "domain") = some ()) :
    stateChange domain keys value = some e := by
  unfold stateChange
  rw [strict, has.envelope, kind, sideEffects, own]
  rfl

/-- A value of another domain is no such change. -/
theorem stateChange_other (other : literal domain (value.property "domain") = none) :
    stateChange domain keys value = none := by
  unfold stateChange
  rw [other]
  cases strictObject (stateChangeKeys ++ keys) value with
  | false => rfl
  | true =>
    cases envelope value with
    | none => rfl
    | some e =>
      cases literal "state_changed" (value.property "kind") <;>
        cases literal "none" (value.property "sideEffects") <;> rfl

theorem operationFact_of (kind : String) (keys : List String)
    (event : JsValue → Option OperationEvent)
    (strict : strictObject (operationKeys ++ keys) value = true)
    (has : HasEnvelope value fact.envelope) (turn : HasTurn value fact.nativeTurn)
    (domain : value.property "domain" = .string "execution")
    (executionId : value.property "executionId" = .string fact.executionId.val)
    (operation : value.property "operation" = .string (operationText fact.operation))
    (sideEffects : value.property "sideEffects" = .string (sideEffectText fact.sideEffects))
    (own : literal kind (value.property "kind") = some ())
    (observed : event value = some fact.event) :
    operationFact kind keys event value = some (.execution fact) := by
  unfold operationFact
  rw [strict, has.envelope, turn.nativeTurn, domain, executionId, operation, sideEffects, own, observed]
  simp only [executionIdentity_val, operationKinds_text, sideEffectStates_text]
  change (if refined : fact.event.refined fact.sideEffects = true then _ else _) = _
  rw [dif_pos fact.refined]

/-- A value of another kind, or of another domain, is no such operation. -/
theorem operationFact_other
    (other : literal "execution" (value.property "domain") = none ∨ literal kind (value.property "kind") = none) :
    operationFact kind keys event value = none := by
  unfold operationFact
  cases strictObject (operationKeys ++ keys) value with
  | false => rfl
  | true =>
    cases envelope value with
    | none => rfl
    | some e =>
      cases nativeTurn value with
      | none => rfl
      | some turn =>
        cases domain : literal "execution" (value.property "domain") with
        | none => rfl
        | some _ =>
          have kinds := other.resolve_left (by rw [domain]; rintro ⟨⟩)
          rw [kinds]
          cases executionIdentity (value.property "executionId") <;>
            cases operationKinds (value.property "operation") <;>
              cases sideEffectStates (value.property "sideEffects") <;> rfl

/-! A value that names another domain is left to the next alternative. -/

theorem runtimeFact_other (other : literal "runtime" (value.property "domain") = none) :
    runtimeFact value = none := by
  rw [runtimeFact, stateChange_other other]
  rfl

theorem controlFact_other (other : literal "control" (value.property "domain") = none) :
    controlFact value = none := by
  rw [controlFact, stateChange_other other]
  rfl

theorem continuationFact_other (other : literal "continuation" (value.property "domain") = none) :
    continuationFact value = none := by
  rw [continuationFact, stateChange_other other]
  rfl

theorem turnFact_other (other : literal "turn" (value.property "domain") = none) :
    turnFact value = none := by
  rw [turnFact, stateChange_other other]
  rfl

end Schema

section Stored

variable (sequence : Nat)

theorem decode_runtime (e : Envelope) (state : RuntimeState) (evidence : Option HardControlEvidence)
    (refined : state = .exited ↔ evidence.isSome) :
    factSchema (rowValue (stored sequence (.runtime e state evidence refined)) none) =
      some (.runtime e state evidence refined) := by
  have read : (rowValue (stored sequence (.runtime e state evidence refined)) none).property "state" =
        .string (runtimeText state) ∧
      (rowValue (stored sequence (.runtime e state evidence refined)) none).property
        "controlEvidence" = evidence.elim .undefined fun evidence => .string (evidenceText evidence) := by
    obtain ⟨_, _, _, _, _, _, native, _⟩ := e
    cases native <;> cases evidence <;> exact ⟨rfl, rfl⟩
  have shared : stateChange "runtime" ["controlEvidence"]
      (rowValue (stored sequence (.runtime e state evidence refined)) none) = some e := by
    obtain ⟨_, _, _, _, _, _, native, _⟩ := e
    refine stateChange_of ?_ ?_ ?_ ?_ ?_
    · cases native <;> cases evidence <;> rfl
    · constructor <;> cases native <;> cases evidence <;> rfl
    all_goals cases native <;> cases evidence <;> rfl
  have own : runtimeFact (rowValue (stored sequence (.runtime e state evidence refined)) none) =
      some (.runtime e state evidence refined) := by
    unfold runtimeFact
    rw [shared, read.1, read.2, runtimeStates_text,
      optional_of hardControlEvidence_text (fun _ => by rintro ⟨⟩)]
    exact dif_pos refined
  rw [factSchema, own]
  rfl

theorem decode_control (e : Envelope) (state : ControlState) (evidence : Option HardControlEvidence)
    (refined : state = .lost ↔ evidence.isSome) :
    factSchema (rowValue (stored sequence (.control e state evidence refined)) none) =
      some (.control e state evidence refined) := by
  have read : (rowValue (stored sequence (.control e state evidence refined)) none).property "state" =
        .string (controlText state) ∧
      (rowValue (stored sequence (.control e state evidence refined)) none).property
        "controlEvidence" = (evidence.elim .undefined fun evidence => .string (evidenceText evidence)) ∧
      (rowValue (stored sequence (.control e state evidence refined)) none).property "domain" =
        .string "control" := by
    obtain ⟨_, _, _, _, _, _, native, _⟩ := e
    cases native <;> cases evidence <;> exact ⟨rfl, rfl, rfl⟩
  have shared : stateChange "control" ["controlEvidence"]
      (rowValue (stored sequence (.control e state evidence refined)) none) = some e := by
    obtain ⟨_, _, _, _, _, _, native, _⟩ := e
    refine stateChange_of ?_ ?_ ?_ ?_ ?_
    · cases native <;> cases evidence <;> rfl
    · constructor <;> cases native <;> cases evidence <;> rfl
    all_goals cases native <;> cases evidence <;> rfl
  have own : controlFact (rowValue (stored sequence (.control e state evidence refined)) none) =
      some (.control e state evidence refined) := by
    unfold controlFact
    rw [shared, read.1, read.2.1, controlStates_text,
      optional_of hardControlEvidence_text (fun _ => by rintro ⟨⟩)]
    exact dif_pos refined
  rw [factSchema, runtimeFact_other (by rw [read.2.2]; rfl), own]
  rfl

theorem decode_continuation (e : Envelope) (state : ContinuationState) :
    factSchema (rowValue (stored sequence (.continuation e state)) none) =
      some (.continuation e state) := by
  have read : (rowValue (stored sequence (.continuation e state)) none).property "state" =
        .string (continuationText state) ∧
      (rowValue (stored sequence (.continuation e state)) none).property "domain" =
        .string "continuation" := by
    obtain ⟨_, _, _, _, _, _, native, _⟩ := e
    cases native <;> exact ⟨rfl, rfl⟩
  have shared : stateChange "continuation" []
      (rowValue (stored sequence (.continuation e state)) none) = some e := by
    obtain ⟨_, _, _, _, _, _, native, _⟩ := e
    refine stateChange_of ?_ ?_ ?_ ?_ ?_
    · cases native <;> rfl
    · constructor <;> cases native <;> rfl
    all_goals cases native <;> rfl
  have own : continuationFact (rowValue (stored sequence (.continuation e state)) none) =
      some (.continuation e state) := by
    rw [continuationFact, shared, read.1, continuationStates_text]
    rfl
  rw [factSchema, runtimeFact_other (by rw [read.2]; rfl), controlFact_other (by rw [read.2]; rfl), own]
  rfl

theorem decode_turn (e : Envelope) (turn : NativeTurnIdentity) (state : TurnState)
    (outcome : Option TurnOutcome) (refined : state = .terminal ↔ outcome.isSome) :
    factSchema (rowValue (stored sequence (.turn e turn state outcome refined))
      (some (ProviderIds.of turn))) = some (.turn e turn state outcome refined) := by
  generalize shown : rowValue (stored sequence (.turn e turn state outcome refined))
    (some (ProviderIds.of turn)) = value
  have read : value.property "state" = .string (turnText state) ∧
      value.property "turnOutcome" =
        (outcome.elim .undefined fun outcome => .string (turnOutcomeText outcome)) ∧
      value.property "domain" = .string "turn" := by
    obtain ⟨_, _, _, _, _, _, native, _⟩ := e
    subst shown
    cases native <;> cases outcome <;> exact ⟨rfl, rfl, rfl⟩
  have identity : nativeTurn value = some turn := by
    refine HasTurn.nativeTurn ?_
    obtain ⟨_, _, _, _, _, _, native, _⟩ := e
    subst shown
    constructor <;> cases native <;> cases outcome <;> rfl
  have shared : stateChange "turn" (nativeTurnKeys ++ ["turnOutcome"]) value = some e := by
    obtain ⟨_, _, _, _, _, _, native, _⟩ := e
    subst shown
    refine stateChange_of ?_ ?_ ?_ ?_ ?_
    · cases native <;> cases outcome <;> rfl
    · constructor <;> cases native <;> cases outcome <;> rfl
    all_goals cases native <;> cases outcome <;> rfl
  have own : turnFact value = some (.turn e turn state outcome refined) := by
    unfold turnFact
    rw [shared, identity, read.1, read.2.1, turnStates_text,
      optional_of turnOutcomes_text (fun _ => by rintro ⟨⟩)]
    exact dif_pos refined
  rw [factSchema, runtimeFact_other (by rw [read.2.2]; rfl), controlFact_other (by rw [read.2.2]; rfl),
    continuationFact_other (by rw [read.2.2]; rfl), own]
  rfl

/-- What an operation's object has beside its own keys. -/
structure HasOperation (value : JsValue) (fact : ExecutionOperationFact) : Prop where
  envelope : HasEnvelope value fact.envelope
  turn : HasTurn value fact.nativeTurn
  domain : value.property "domain" = .string "execution"
  executionId : value.property "executionId" = .string fact.executionId.val
  operation : value.property "operation" = .string (operationText fact.operation)
  sideEffects : value.property "sideEffects" = .string (sideEffectText fact.sideEffects)

theorem hasOperation_stored (fact : ExecutionOperationFact) :
    HasOperation (rowValue (stored sequence (.execution fact)) (some (ProviderIds.of fact.nativeTurn)))
      fact := by
  obtain ⟨⟨_, _, _, _, _, _, native, _⟩, turn, executionId, operation, effects, event, refined⟩ := fact
  rcases event with _ | bytes | ⟨outcome, code, signal⟩
  · constructor
    · constructor <;> cases native <;> rfl
    · constructor <;> cases native <;> rfl
    all_goals cases native <;> rfl
  · constructor
    · constructor <;> cases native <;> rfl
    · constructor <;> cases native <;> rfl
    all_goals cases native <;> rfl
  · constructor
    · constructor <;> cases native <;> cases code <;> cases signal <;> rfl
    · constructor <;> cases native <;> cases code <;> cases signal <;> rfl
    all_goals cases native <;> cases code <;> cases signal <;> rfl

section

variable (has : HasOperation value fact)
include has

theorem HasOperation.changes :
    runtimeFact value = none ∧ controlFact value = none ∧ continuationFact value = none ∧
      turnFact value = none :=
  ⟨runtimeFact_other (by rw [has.domain]; rfl), controlFact_other (by rw [has.domain]; rfl),
    continuationFact_other (by rw [has.domain]; rfl), turnFact_other (by rw [has.domain]; rfl)⟩

theorem decode_started (strict : strictObject operationKeys value = true)
    (kind : value.property "kind" = .string "started") (event : fact.event = .started) :
    factSchema value = some (.execution fact) := by
  obtain ⟨runtime, control, continuation, turn⟩ := has.changes
  have own : startedFact value = some (.execution fact) :=
    operationFact_of "started" [] _ strict has.envelope has.turn has.domain has.executionId
      has.operation has.sideEffects (by rw [kind]; rfl) (by rw [event])
  rw [factSchema, runtime, control, continuation, turn, own]
  rfl

theorem decode_output (strict : strictObject (operationKeys ++ ["outputBytes"]) value = true)
    (kind : value.property "kind" = .string "output")
    (written : value.property "outputBytes" = columnNumber bytes.val)
    (event : fact.event = .output bytes) : factSchema value = some (.execution fact) := by
  obtain ⟨runtime, control, continuation, turn⟩ := has.changes
  have started : startedFact value = none := operationFact_other (.inr (by rw [kind]; rfl))
  have own : outputFact value = some (.execution fact) :=
    operationFact_of "output" ["outputBytes"] _ strict has.envelope has.turn has.domain
      has.executionId has.operation has.sideEffects (by rw [kind]; rfl)
      (by rw [written, integer_val, event]; rfl)
  rw [factSchema, runtime, control, continuation, turn, started, own]
  rfl

theorem decode_completed
    (strict : strictObject (operationKeys ++ ["outcome", "exitCode", "signalNumber"]) value = true)
    (kind : value.property "kind" = .string "completed")
    (ended : value.property "outcome" = .string (outcomeText outcome))
    (exited : value.property "exitCode" = code.elim .undefined fun code => .number (.finite code.val))
    (signalled : value.property "signalNumber" = signal.elim .undefined fun signal => columnNumber signal.val)
    (event : fact.event = .completed outcome code signal) :
    factSchema value = some (.execution fact) := by
  obtain ⟨runtime, control, continuation, turn⟩ := has.changes
  have started : startedFact value = none := operationFact_other (.inr (by rw [kind]; rfl))
  have output : outputFact value = none := operationFact_other (.inr (by rw [kind]; rfl))
  have own : completedFact value = some (.execution fact) :=
    operationFact_of "completed" ["outcome", "exitCode", "signalNumber"] _ strict has.envelope has.turn
      has.domain has.executionId has.operation has.sideEffects (by rw [kind]; rfl) (by
        rw [ended, exited, signalled, executionOutcomes_text,
          optional_of exitCode_val (fun _ => by rintro ⟨⟩), optional_of integer_val (fun _ => by rintro ⟨⟩),
          event]
        rfl)
  rw [factSchema, runtime, control, continuation, turn, started, output, own]
  rfl

end

theorem decode_execution (fact : ExecutionOperationFact) :
    factSchema (rowValue (stored sequence (.execution fact)) (some (ProviderIds.of fact.nativeTurn))) =
      some (.execution fact) := by
  have has := hasOperation_stored sequence fact
  obtain ⟨⟨_, _, _, _, _, _, native, _⟩, turn, executionId, operation, effects, event, refined⟩ := fact
  rcases event with _ | bytes | ⟨outcome, code, signal⟩
  · exact decode_started has (by cases native <;> rfl) (by cases native <;> rfl) rfl
  · exact decode_output has (by cases native <;> rfl) (by cases native <;> rfl)
      (by cases native <;> rfl) rfl
  · exact decode_completed has (by cases native <;> cases code <;> cases signal <;> rfl)
      (by cases native <;> cases code <;> cases signal <;> rfl)
      (by cases native <;> cases code <;> cases signal <;> rfl)
      (by cases native <;> cases code <;> cases signal <;> rfl)
      (by cases native <;> cases code <;> cases signal <;> rfl) rfl

end Stored

/-- Reading back what was stored gives the fact. -/
theorem decodeFact_stored (sequence : Nat) (fact : ExecutionFact) :
    decodeFact (stored sequence fact) ((nativeTurnOf fact).map ProviderIds.of) = .ok fact := by
  have schema : factSchema (rowValue (stored sequence fact) ((nativeTurnOf fact).map ProviderIds.of)) =
      some fact := by
    cases fact with
    | runtime e state evidence refined => exact decode_runtime sequence e state evidence refined
    | control e state evidence refined => exact decode_control sequence e state evidence refined
    | continuation e state => exact decode_continuation sequence e state
    | turn e turn state outcome refined => exact decode_turn sequence e turn state outcome refined
    | execution fact => exact decode_execution sequence fact
  rw [decodeFact, parseExecutionFact, schema]

end LetAgents.Execution.FactRows

import Mathlib.Logic.Function.Basic
import LetAgents.Lib.Js

/-!
# Usage ingest for one rental session

Source: src/api/rental/usage-ingest.ts:187-416 and the table of
src/api/db/schema/rentals/usage-meters.ts:19-76.

`ingestUsage` is cut at its database statements: each step below is one
statement of one call (or the pure code between two statements, which runs with
the one before it), so any interleaving of any number of calls is a list of
steps. `BEGIN` fixes `now()`, the default of `created_at`; the advisory lock is
granted later. A transaction's insert becomes visible to the other calls when it
commits. Any call may fail between two statements.

Modelling boundary: the columns that no accounting reads (native quota text,
credits, usd, adapter payload, timestamps other than `created_at`) and the
random row id are left out. Numbers are exact: integer columns refuse anything
outside 32 bits, where JavaScript addition is still exact.
-/
namespace LetAgents.Rental.UsageIngest

open Lib.Js

/-! ## Reports -/

inductive IngestConfidence where
  | officialExact | localExact | derived | calibrated | estimated | weakEstimate | unknown
  deriving DecidableEq

def ingestConfidenceValues : List (String × IngestConfidence) :=
  [("official_exact", .officialExact), ("local_exact", .localExact), ("derived", .derived),
    ("calibrated", .calibrated), ("estimated", .estimated), ("weak_estimate", .weakEstimate),
    ("unknown", .unknown)]

inductive IngestSource where
  | adapter | tool | selfReported | system
  deriving DecidableEq

structure IngestUsageDelta where
  inputTokens : Option JsNumber
  outputTokens : Option JsNumber
  cacheCreationTokens : Option JsNumber
  cacheReadTokens : Option JsNumber
  reasoningTokens : Option JsNumber
  requests : Option JsNumber
  toolCalls : Option JsNumber
  commandRuns : Option JsNumber
  filesExposed : Option JsNumber
  heartbeats : Option JsNumber

/-- A report as the caller sends it; `none` where a field has not the type the
service checks for. -/
structure IngestUsageReport where
  source : IngestSource
  provider : Option String
  model : Option String
  delta : IngestUsageDelta
  lrtUsed : Option JsNumber
  confidence : Option String
  idempotencyKey : String

/-- A report that passed the checks at the head of `ingestUsage`. -/
structure ValidReport where
  source : IngestSource
  provider : String
  model : Option String
  delta : IngestUsageDelta
  lrtUsed : Rat
  confidence : IngestConfidence
  idempotencyKey : String
  keyed : isBlank idempotencyKey = false

inductive UsageIngestErrorCode where
  | sessionNotFound | providerModelMismatch | invalidInput

structure UsageIngestError where
  message : String
  code : UsageIngestErrorCode
  status : Nat

def validateReport (report : IngestUsageReport) : Except UsageIngestError ValidReport :=
  if keyed : isBlank report.idempotencyKey = false then
    match report.provider with
    | none => .error ⟨"snapshot.provider is required", .invalidInput, 400⟩
    | some provider =>
      match report.lrtUsed with
      | some (.finite lrtUsed) =>
        match report.confidence.bind fun name => ingestConfidenceValues.lookup name with
        | none => .error ⟨"lrt.confidence must be a valid confidence value", .invalidInput, 400⟩
        | some confidence =>
          .ok { source := report.source, provider, model := report.model,
                delta := report.delta, lrtUsed, confidence,
                idempotencyKey := report.idempotencyKey, keyed }
      | _ => .error ⟨"lrt.lrtUsed must be a finite number", .invalidInput, 400⟩
  else .error ⟨"idempotencyKey is required", .invalidInput, 400⟩

/-- The columns of `rental_sessions` that `loadSession` reads. -/
structure SessionLane where
  renterLaneProvider : Option String
  renterLaneModel : Option String

/-- A nullable text that is neither null nor empty. -/
def truthy (text : Option String) : Option String := text.filter fun value => value ≠ ""

def checkSession (session : Option SessionLane) (report : ValidReport) :
    Except UsageIngestError Unit :=
  match session with
  | none => .error ⟨"session not found", .sessionNotFound, 404⟩
  | some lane =>
    match truthy lane.renterLaneProvider with
    | some provider =>
      if provider ≠ report.provider then
        .error ⟨"snapshot provider " ++ report.provider ++ " does not match session lane " ++
          provider, .providerModelMismatch, 409⟩
      else checkModel lane
    | none => checkModel lane
where
  checkModel (lane : SessionLane) : Except UsageIngestError Unit :=
    match truthy lane.renterLaneModel, truthy report.model with
    | some model, some reported =>
      if model ≠ reported then
        .error ⟨"snapshot model " ++ reported ++ " does not match session lane " ++ model,
          .providerModelMismatch, 409⟩
      else .ok ()
    | _, _ => .ok ()

/-! ## Meter rows -/

structure MeterRow where
  source : IngestSource
  inputTokens : Int
  outputTokens : Int
  cacheCreationTokens : Int
  cacheReadTokens : Int
  reasoningTokens : Int
  requestsUsed : Int
  lrtDelta : Int
  lrtTotal : Int
  confidence : IngestConfidence
  toolCallCount : Int
  commandRunCount : Int
  filesExposedCount : Int
  heartbeatCount : Int
  idempotencyKey : String
  createdAt : Nat
  deriving DecidableEq

/-- A committed row, with the report its insert accounted for. The report is
history: no statement reads it back. -/
structure StoredMeter where
  row : MeterRow
  report : ValidReport

def numberOr (value : Option JsNumber) (fallback : Rat) : Rat :=
  match value with
  | some (.finite number) => if 0 ≤ number then number else fallback
  | _ => fallback

/-- `Math.round(numberOr(value, 0))`. -/
def count (value : Option JsNumber) : Int := mathRound (numberOr value 0)

def lrtDelta (report : ValidReport) : Int :=
  max 0 (mathRound (numberOr (some (.finite report.lrtUsed)) 0))

/-- The running totals that a row carries forward from the latest one. -/
inductive Counter where
  | lrt | toolCalls | commandRuns | filesExposed | heartbeats

def MeterRow.carried (row : MeterRow) : Counter → Int
  | .lrt => row.lrtTotal
  | .toolCalls => row.toolCallCount
  | .commandRuns => row.commandRunCount
  | .filesExposed => row.filesExposedCount
  | .heartbeats => row.heartbeatCount

/-- What one report adds to a running total. -/
def contribution (counter : Counter) (report : ValidReport) : Int :=
  match counter with
  | .lrt => lrtDelta report
  | .toolCalls => count report.delta.toolCalls
  | .commandRuns => count report.delta.commandRuns
  | .filesExposed => count report.delta.filesExposed
  | .heartbeats => count report.delta.heartbeats

/-- `(previous?.counter ?? 0) + contribution`. -/
def carryForward (previous : Option MeterRow) (counter : Counter) (report : ValidReport) : Int :=
  (previous.map fun row => row.carried counter).getD 0 + contribution counter report

def buildRow (report : ValidReport) (previous : Option MeterRow) (startedAt : Nat) : MeterRow where
  source := report.source
  inputTokens := count report.delta.inputTokens
  outputTokens := count report.delta.outputTokens
  cacheCreationTokens := count report.delta.cacheCreationTokens
  cacheReadTokens := count report.delta.cacheReadTokens
  reasoningTokens := count report.delta.reasoningTokens
  requestsUsed := count report.delta.requests
  lrtDelta := lrtDelta report
  lrtTotal := carryForward previous .lrt report
  confidence := report.confidence
  toolCallCount := carryForward previous .toolCalls report
  commandRunCount := carryForward previous .commandRuns report
  filesExposedCount := carryForward previous .filesExposed report
  heartbeatCount := carryForward previous .heartbeats report
  idempotencyKey := report.idempotencyKey
  createdAt := startedAt

def MeterRow.integerColumns (row : MeterRow) : List Int :=
  [row.inputTokens, row.outputTokens, row.cacheCreationTokens, row.cacheReadTokens,
    row.reasoningTokens, row.requestsUsed, row.lrtDelta, row.lrtTotal, row.toolCallCount,
    row.commandRunCount, row.filesExposedCount, row.heartbeatCount]

/-- PostgreSQL `integer` columns hold 32 bits. -/
def MeterRow.storable (row : MeterRow) : Bool :=
  row.integerColumns.all fun value => decide (-2147483648 ≤ value ∧ value ≤ 2147483647)

/-! ## Calls -/

/-- Where a call stands between two statements. -/
inductive Phase where
  | idle
  | validated (report : ValidReport)
  | unknownKey (report : ValidReport)
  | admitted (report : ValidReport)
  | waiting (report : ValidReport) (startedAt : Nat)
  | locked (report : ValidReport) (startedAt : Nat)
  | freshKey (report : ValidReport) (startedAt : Nat)
  | loaded (report : ValidReport) (startedAt : Nat) (previous : Option MeterRow)
  | replying (report : ValidReport) (row : MeterRow)
  | inserted (report : ValidReport) (row : MeterRow)
  | returned (report : ValidReport) (row : MeterRow)
  | failed

/-- The call's transaction holds the session's advisory lock. -/
def Phase.holdsLock : Phase → Bool
  | .locked .. | .freshKey .. | .loaded .. | .replying .. | .inserted .. => true
  | _ => false

structure IngestState where
  session : Option SessionLane
  meters : List StoredMeter
  lockHolder : Option Nat
  phase : Nat → Phase

def IngestState.enter (s : IngestState) (call : Nat) (next : Phase) : IngestState :=
  { s with phase := Function.update s.phase call next }

def initial (session : Option SessionLane) : IngestState where
  session := session
  meters := []
  lockHolder := none
  phase _ := .idle

def loadByIdempotency (meters : List StoredMeter) (key : String) : Option MeterRow :=
  (meters.map StoredMeter.row).find? fun row => row.idempotencyKey = key

/-- A row that `ORDER BY created_at DESC LIMIT 1` may return. -/
def isLatest (meters : List StoredMeter) : Option MeterRow → Bool
  | none => meters.isEmpty
  | some row => meters.any (fun stored => stored.row = row) &&
      meters.all fun stored => decide (stored.row.createdAt ≤ row.createdAt)

inductive IngestStep where
  | start (call : Nat) (report : IngestUsageReport)
  | readEarly (call : Nat)
  | readSession (call : Nat)
  | begin (call : Nat) (now : Nat)
  | acquireLock (call : Nat)
  | readLocked (call : Nat)
  | readLatest (call : Nat) (previous : Option MeterRow)
  | insert (call : Nat)
  | commit (call : Nat)
  | fail (call : Nat)
  | changeSession (session : Option SessionLane)

/-- A rolled-back or broken-off call gives the lock back. -/
def IngestState.giveUp (s : IngestState) (call : Nat) : IngestState :=
  { s.enter call .failed with
    lockHolder := if (s.phase call).holdsLock then none else s.lockHolder }

/-- One statement; `error` when the call is not at that statement. -/
def ingestStep (s : IngestState) : IngestStep → Except Unit IngestState
  | .start call report =>
    match s.phase call with
    | .idle =>
      match validateReport report with
      | .ok valid => .ok (s.enter call (.validated valid))
      | .error _ => .ok (s.enter call .failed)
    | _ => .error ()
  | .readEarly call =>
    match s.phase call with
    | .validated report =>
      match loadByIdempotency s.meters report.idempotencyKey with
      | some existing => .ok (s.enter call (.returned report existing))
      | none => .ok (s.enter call (.unknownKey report))
    | _ => .error ()
  | .readSession call =>
    match s.phase call with
    | .unknownKey report =>
      match checkSession s.session report with
      | .ok _ => .ok (s.enter call (.admitted report))
      | .error _ => .ok (s.enter call .failed)
    | _ => .error ()
  | .begin call now =>
    match s.phase call with
    | .admitted report => .ok (s.enter call (.waiting report now))
    | _ => .error ()
  | .acquireLock call =>
    match s.phase call, s.lockHolder with
    | .waiting report startedAt, none =>
      .ok { s.enter call (.locked report startedAt) with lockHolder := some call }
    | _, _ => .error ()
  | .readLocked call =>
    match s.phase call with
    | .locked report startedAt =>
      match loadByIdempotency s.meters report.idempotencyKey with
      | some existing => .ok (s.enter call (.replying report existing))
      | none => .ok (s.enter call (.freshKey report startedAt))
    | _ => .error ()
  | .readLatest call previous =>
    match s.phase call with
    | .freshKey report startedAt =>
      if isLatest s.meters previous then
        .ok (s.enter call (.loaded report startedAt previous))
      else .error ()
    | _ => .error ()
  | .insert call =>
    match s.phase call with
    | .loaded report startedAt previous =>
      let row := buildRow report previous startedAt
      -- A unique violation aborts the transaction, so the recovery read fails too.
      if (loadByIdempotency s.meters report.idempotencyKey).isSome ∨ row.storable = false then
        .ok (s.giveUp call)
      else .ok (s.enter call (.inserted report row))
    | _ => .error ()
  | .commit call =>
    match s.phase call with
    | .replying report row =>
      .ok { s.enter call (.returned report row) with lockHolder := none }
    | .inserted report row =>
      .ok { s.enter call (.returned report row) with
        lockHolder := none
        meters := s.meters ++ [⟨row, report⟩] }
    | _ => .error ()
  | .fail call =>
    match s.phase call with
    | .returned .. => .error ()
    | _ => .ok (s.giveUp call)
  | .changeSession session => .ok { s with session }

end LetAgents.Rental.UsageIngest

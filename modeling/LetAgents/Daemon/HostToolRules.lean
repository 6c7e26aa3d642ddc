import LetAgents.Lib.Table
import LetAgents.Lib.Replay
import LetAgents.Daemon.ToolScope

/-!
# Saved tool permissions

Source: apps/desktop/daemon/host-tool-rules.ts:128-270, the transactions of
manifest-store.ts:659-692 around them, and the rows that execution-approval-journal.ts:124-170
and 311-333 read and write.

A rule is saved with a decision to allow once and reused by later decisions. Each decision is
bound to the rule and its revision, in the transaction that selects it; a revoked rule's unsent
decisions are withdrawn.

Modelling boundary: the tables exist (schema version 44). The other transactions of the
approval journal are one step that writes its tables within the triggers on them; no code
deletes from them. Whether the turn may still be answered is the host's answer.
-/
namespace LetAgents.Daemon.HostToolRules

open Lib Lib.Checked

/-! ## Tables -/

inductive RuleState where
  | active
  | revoked
  deriving DecidableEq

structure HostToolRuleRow where
  ruleId : String
  ownerId : String
  agentId : String
  scope : HostToolScope
  scopeSha256 : String
  revision : Nat
  state : RuleState
  createdAtMs : Int
  revokedAtMs : Option Int

structure RuleDecision where
  decisionId : String
  ruleId : String
  ruleRevision : Nat

structure Withdrawal where
  decisionId : String
  requestId : String
  requestVersion : Nat
  requestSha256 : String
  ruleId : String
  ruleRevision : Nat
  dispatchId : Option String
  withdrawnAtMs : Int

inductive NativeRequestId where
  | text (value : String)
  | number (value : Nat)
  deriving DecidableEq

structure ApprovalReference where
  requestId : String
  requestVersion : Nat
  requestSha256 : String
  agentId : String
  roomId : String
  executionGenerationId : String
  runtimeGenerationId : String
  turnId : String
  providerContinuationId : String
  providerTurnId : String
  connectionId : String
  nativeRequestId : NativeRequestId
  deriving DecidableEq

inductive ApprovalState where
  | requested
  | decisionRecorded
  | dispatching
  | resolved
  | superseded
  | lost
  deriving DecidableEq

inductive Certainty where
  | impossible
  | unknown
  deriving DecidableEq

structure RequestRow where
  reference : ApprovalReference
  state : ApprovalState
  applicationCertainty : Option Certainty
  createdAtMs : Int
  expiresAtMs : Int

def RequestRow.key (row : RequestRow) : String × Nat :=
  (row.reference.requestId, row.reference.requestVersion)

inductive Choice where
  | allowOnce
  | deny
  deriving DecidableEq

inductive DecisionSource where
  | host
  | delegate
  deriving DecidableEq

inductive DispatchState where
  | notDispatched
  | dispatching
  | uncertain
  | acknowledged
  | lost
  deriving DecidableEq

structure DecisionRow where
  decisionId : String
  requestId : String
  requestVersion : Nat
  decision : Choice
  source : DecisionSource
  actorId : String
  projectionSha256 : Option String
  dispatchState : DispatchState
  dispatchId : Option String
  applicationCertainty : Option Certainty
  decidedAtMs : Int
  dispatchStartedAtMs : Option Int
  resolvedAtMs : Option Int

def DecisionRow.requestKey (row : DecisionRow) : String × Nat := (row.requestId, row.requestVersion)

structure RequestClosure where
  requestId : String
  requestVersion : Nat
  observedAtMs : Int

def RequestClosure.key (row : RequestClosure) : String × Nat := (row.requestId, row.requestVersion)

structure Db where
  rules : List HostToolRuleRow
  bindings : List RuleDecision
  withdrawals : List Withdrawal
  requests : List RequestRow
  decisions : List DecisionRow
  closures : List RequestClosure

def Db.empty : Db := ⟨[], [], [], [], [], []⟩

def Db.rule (db : Db) (ruleId : String) : Option HostToolRuleRow :=
  Table.find HostToolRuleRow.ruleId ruleId db.rules

def Db.bound (db : Db) (decisionId : String) : Option RuleDecision :=
  Table.find RuleDecision.decisionId decisionId db.bindings

def Db.receipt (db : Db) (decisionId : String) : Option Withdrawal :=
  Table.find Withdrawal.decisionId decisionId db.withdrawals

def Db.request (db : Db) (key : String × Nat) : Option RequestRow :=
  Table.find RequestRow.key key db.requests

def Db.decisionOf (db : Db) (key : String × Nat) : Option DecisionRow :=
  Table.find DecisionRow.requestKey key db.decisions

/-! ## Rules -/

section Rules

variable (digests : Digests)

def identityInvalid : String := "Saved tool permission identity is invalid."

def ruleFromRow (row : HostToolRuleRow) : Except String HostToolRuleRow := do
  require (row.agentId = row.scope.1.agentId ∧ row.scopeSha256 = digests.scope row.scope)
    identityInvalid
  .ok row

/-- `ORDER BY created_at_ms DESC LIMIT 1`. -/
def newest : List HostToolRuleRow → Option HostToolRuleRow
  | [] => none
  | row :: rest =>
    match newest rest with
    | none => some row
    | some later => some (if row.createdAtMs < later.createdAtMs then later else row)

def sameScope (ownerId agentId scopeSha256 : String) (row : HostToolRuleRow) : Bool :=
  row.ownerId = ownerId && row.agentId = agentId && row.scopeSha256 = scopeSha256 &&
    row.state = .active

def findHostToolRule (db : Db) (ownerId : String) (scope : HostToolScope) :
    Except String (Option HostToolRuleRow) := do
  require (isId ownerId = true) "Invalid input"
  match newest (db.rules.filter (sameScope ownerId scope.1.agentId (digests.scope scope))) with
  | none => .ok none
  | some row => (ruleFromRow digests row).map some

/-- `INSERT INTO host_tool_rules` under its primary key, its index on active scopes and its
checks. -/
def insertRule (db : Db) (ruleId ownerId : String) (scope : HostToolScope) (atMs : Int) :
    Except String Db := do
  require (isId ownerId = true) "Invalid input"
  require (0 ≤ atMs) "CHECK constraint failed: created_at_ms >= 0"
  require (db.rule ruleId = none) "UNIQUE constraint failed: host_tool_rules.rule_id"
  require (¬ db.rules.any (sameScope ownerId scope.1.agentId (digests.scope scope)) = true)
    "UNIQUE constraint failed: host_tool_rules_active_scope"
  .ok { db with rules := db.rules ++
    [⟨ruleId, ownerId, scope.1.agentId, scope, digests.scope scope, 1, .active, atMs, none⟩] }

structure RuleChoice where
  scope : ScopeFields
  create : Bool
  rule : Option (String × Nat)

structure BindHostToolRule extends RuleChoice where
  decisionId : String
  ownerId : String
  atMs : Int

/-- The rule that is to be bound; an empty id counts as none. -/
def chosenRule (input : BindHostToolRule) (prior : Option RuleDecision)
    (existing : Option HostToolRuleRow) : Option String :=
  (if input.create then
    some ((prior.map RuleDecision.ruleId).getD
      ((existing.map HostToolRuleRow.ruleId).getD ("rule-" ++ input.decisionId)))
  else input.rule.map Prod.fst).filter (· ≠ "")

def existingRule (db : Db) (input : BindHostToolRule) (scope : HostToolScope)
    (prior : Option RuleDecision) : Except String (Option HostToolRuleRow) :=
  if input.create && prior.isNone then findHostToolRule digests db input.ownerId scope
  else .ok none

def createRule (db : Db) (input : BindHostToolRule) (scope : HostToolScope) (ruleId : String)
    (prior : Option RuleDecision) (existing : Option HostToolRuleRow) : Except String Db :=
  if input.create && prior.isNone && existing.isNone then
    insertRule digests db ruleId input.ownerId scope input.atMs
  else .ok db

/-- `INSERT INTO host_tool_rule_decisions`; both references are foreign keys. -/
def insertBinding (db : Db) (decisionId : String) (rule : HostToolRuleRow)
    (prior : Option RuleDecision) : Except String Db :=
  match prior with
  | some _ => .ok db
  | none => do
    require (db.decisions.any (fun row => row.decisionId = decisionId) = true)
      "FOREIGN KEY constraint failed"
    .ok { db with bindings := db.bindings ++ [⟨decisionId, rule.ruleId, rule.revision⟩] }

def bindHostToolRule (db : Db) (input : BindHostToolRule) (host : Host) : Except String Db := do
  let scope ← parseScope input.scope
  let _ ← assertHostToolScope digests host scope
  let prior := db.bound input.decisionId
  let existing ← existingRule digests db input scope prior
  let ruleId ← found (chosenRule input prior existing) "A saved tool permission is required."
  -- a repeated creation id can never revive a revoked rule
  let created ← createRule digests db input scope ruleId prior existing
  let row ← found ((created.rule ruleId).filter fun row => row.state = .active)
    "This saved tool permission was revoked."
  let rule ← ruleFromRow digests row
  require (rule.ownerId = input.ownerId ∧ digests.scope rule.scope = digests.scope scope ∧
    (input.create = false → some rule.revision = input.rule.map Prod.snd) ∧
    ∀ bound ∈ prior, bound.ruleId = ruleId ∧ bound.ruleRevision = rule.revision)
    "The saved tool permission changed."
  insertBinding created input.decisionId rule prior

/-- Why a decision of a rule may not be sent. -/
inductive RuleError where
  | revoked (ruleId : String) (ruleRevision : Nat)
  | message (text : String)

def assertDecisionToolRule (db : Db) (decisionId : String) (host : Host) :
    Except RuleError Unit :=
  match db.bound decisionId with
  | none => .ok ()
  | some bound => do
    let row ← found ((db.rule bound.ruleId).filter fun row =>
      row.state = .active && row.revision = bound.ruleRevision)
      (.revoked bound.ruleId bound.ruleRevision)
    let rule ← (ruleFromRow digests row).mapError RuleError.message
    (assertHostToolScope digests host rule.scope).mapError RuleError.message

/-- The revocation: no statement sets a rule active again. -/
def HostToolRuleRow.revoke (row : HostToolRuleRow) (atMs : Int) : HostToolRuleRow :=
  { row with state := .revoked, revision := row.revision + 1, revokedAtMs := some atMs }

def revokeHostToolRule (db : Db) (ownerId agentId ruleId : String) (revision : Nat) (atMs : Int) :
    Except String Db := do
  require (isId ruleId = true ∧ isId ownerId = true ∧ isId agentId = true) "Invalid input"
  let row ← found ((db.rule ruleId).filter fun row => row.ownerId = ownerId && row.agentId = agentId)
    "Saved tool permission not found."
  if row.state = .revoked then .ok db
  else if row.revision ≠ revision then
    .error "The saved tool permission changed. Refresh Permissions."
  else .ok { db with rules := Table.put HostToolRuleRow.ruleId (row.revoke atMs) db.rules }

end Rules

/-! ## Withdrawals -/

def evidenceInvalid : String := "Unsent tool decision evidence is invalid."

/-- What a receipt must agree with. -/
def Evidence (receipt : Withdrawal) (bound : RuleDecision) (rule : HostToolRuleRow)
    (decision : DecisionRow) (request : RequestRow) : Prop :=
  rule.state = .revoked ∧ bound.ruleRevision < rule.revision ∧
  receipt.ruleId = bound.ruleId ∧ receipt.ruleRevision = bound.ruleRevision ∧
  receipt.requestId = request.reference.requestId ∧
  receipt.requestVersion = request.reference.requestVersion ∧
  receipt.requestSha256 = request.reference.requestSha256 ∧
  receipt.dispatchId = decision.dispatchId ∧
  decision.source = .host ∧ decision.actorId = rule.ownerId ∧ decision.decision = .allowOnce ∧
  decision.dispatchState = .lost ∧ decision.applicationCertainty = some .impossible ∧
  request.state = .lost ∧ request.applicationCertainty = some .impossible ∧
  decision.decidedAtMs ≤ receipt.withdrawnAtMs ∧
  decision.dispatchStartedAtMs.all (· ≤ receipt.withdrawnAtMs) = true ∧
  decision.resolvedAtMs = some receipt.withdrawnAtMs

instance (receipt : Withdrawal) (bound : RuleDecision) (rule : HostToolRuleRow)
    (decision : DecisionRow) (request : RequestRow) :
    Decidable (Evidence receipt bound rule decision request) :=
  inferInstanceAs (Decidable (_ ∧ _))

def hostToolDecisionWasWithdrawn (db : Db) (decision : DecisionRow) (request : RequestRow) :
    Except String Bool :=
  match db.receipt decision.decisionId with
  | none => .ok false
  | some receipt => do
    let bound ← found (db.bound decision.decisionId) evidenceInvalid
    let rule ← found (db.rule bound.ruleId) evidenceInvalid
    require (Evidence receipt bound rule decision request) evidenceInvalid
    .ok true

structure ExecutionApprovalRecord where
  request : RequestRow
  closedAtMs : Option Int
  decision : Option DecisionRow
  withdrawnBeforeSend : Bool

/-- `read`: a decision with a receipt must agree with it. -/
def readApproval (db : Db) (key : String × Nat) : Except String (Option ExecutionApprovalRecord) :=
  match db.request key with
  | none => .ok none
  | some request =>
    let closedAtMs := (Table.find RequestClosure.key key db.closures).map
      RequestClosure.observedAtMs
    match db.decisionOf key with
    | none => .ok (some ⟨request, closedAtMs, none, false⟩)
    | some decision =>
      (hostToolDecisionWasWithdrawn db decision request).map fun withdrawn =>
        some ⟨request, closedAtMs, some decision, withdrawn⟩

def identityMismatch : String := "Approval journal rejected: identity_mismatch."

def ApprovalReference.key (reference : ApprovalReference) : String × Nat :=
  (reference.requestId, reference.requestVersion)

def exact (db : Db) (expected : ApprovalReference) : Except String ExecutionApprovalRecord := do
  let read ← readApproval db expected.key
  let record ← found read identityMismatch
  require (record.request.reference = expected) identityMismatch
  .ok record

structure WithdrawHostToolApproval where
  expected : ApprovalReference
  decisionId : String
  ruleId : String
  ruleRevision : Nat
  dispatchId : Option String
  atMs : Int

def notEstablished : String := "The unsent tool decision could not be established."

/-- The receipt, and what it writes to the decision and to its request. -/
def Db.withdraw (db : Db) (input : WithdrawHostToolApproval) : Db :=
  { db with
    withdrawals := db.withdrawals ++ [⟨input.decisionId, input.expected.requestId,
      input.expected.requestVersion, input.expected.requestSha256, input.ruleId,
      input.ruleRevision, input.dispatchId, input.atMs⟩]
    decisions := db.decisions.map fun row =>
      if row.decisionId = input.decisionId then
        { row with dispatchState := .lost, applicationCertainty := some .impossible
                   resolvedAtMs := some input.atMs }
      else row
    requests := db.requests.map fun row =>
      if row.key = input.expected.key then
        { row with state := .lost, applicationCertainty := some .impossible }
      else row }

def writeWithdrawal (db : Db) (input : WithdrawHostToolApproval) (request : RequestRow)
    (decision : DecisionRow) : Except String Db :=
  match db.receipt input.decisionId with
  | some existing => do
    require (existing.requestId = input.expected.requestId ∧
      existing.requestVersion = input.expected.requestVersion ∧
      existing.requestSha256 = input.expected.requestSha256 ∧
      existing.dispatchId = input.dispatchId) "Withdrawal identity changed."
    .ok db
  | none => do
    require ((request.state = .decisionRecorded ∨ request.state = .dispatching) ∧
      (decision.dispatchState = .notDispatched ∨ decision.dispatchState = .dispatching))
      "The decision may already have been sent."
    .ok (db.withdraw input)

/-- `withdrawHostToolApproval`, on the record its transaction has read. -/
def withdrawHostToolApproval (db : Db) (input : WithdrawHostToolApproval) : Except String Db := do
  let read ← readApproval db input.expected.key
  let _ ← found read "Approval request is unavailable."
  let record ← exact db input.expected
  let decision ← found record.decision notEstablished
  let bound ← found (db.bound input.decisionId) notEstablished
  let rule ← found (db.rule bound.ruleId) notEstablished
  require (decision.decisionId = input.decisionId ∧ decision.decision = .allowOnce ∧
    decision.dispatchId = input.dispatchId ∧ bound.ruleId = input.ruleId ∧
    bound.ruleRevision = input.ruleRevision ∧ rule.state = .revoked ∧
    input.ruleRevision < rule.revision ∧ decision.decidedAtMs ≤ input.atMs ∧
    decision.dispatchStartedAtMs.all (· ≤ input.atMs) = true) notEstablished
  writeWithdrawal db input record.request decision

/-! ## Selecting an approval with a rule -/

structure SelectHostApproval where
  expected : ApprovalReference
  decisionId : String
  actorId : String
  decision : Choice
  projectionSha256 : String
  atMs : Int

/-- The row of a new decision. -/
def SelectHostApproval.row (input : SelectHostApproval) : DecisionRow where
  decisionId := input.decisionId
  requestId := input.expected.requestId
  requestVersion := input.expected.requestVersion
  decision := input.decision
  source := .host
  actorId := input.actorId
  projectionSha256 := some input.projectionSha256
  dispatchState := .notDispatched
  dispatchId := none
  applicationCertainty := none
  decidedAtMs := input.atMs
  dispatchStartedAtMs := none
  resolvedAtMs := none

def recordDecision (db : Db) (input : SelectHostApproval) : Db :=
  { db with
    decisions := db.decisions ++ [input.row]
    requests := db.requests.map fun row =>
      if row.key = input.expected.key then { row with state := .decisionRecorded } else row }

/-- `selectHostApproval`; `eligible` is what the host says of the turn. -/
def selectHostApproval (db : Db) (input : SelectHostApproval) (eligible : Except String Unit) :
    Except String Db := do
  let current ← exact db input.expected
  match current.decision with
  | some old => do
    require (old.decisionId = input.decisionId ∧ old.actorId = input.actorId ∧
      old.decision = input.decision ∧ old.projectionSha256 = some input.projectionSha256)
      "Approval journal rejected: decision_conflict."
    .ok db
  | none => do
    require (current.closedAtMs = none ∧ current.request.state = .requested)
      "Approval journal rejected: invalid_transition."
    require (current.request.createdAtMs ≤ input.atMs) "Approval journal rejected: invalid_input."
    require (input.atMs < current.request.expiresAtMs) "Approval journal rejected: expired."
    let _ ← eligible
    require (¬ db.decisions.any (fun row => row.decisionId = input.decisionId) = true)
      "UNIQUE constraint failed: execution_approval_decisions.decision_id"
    .ok (recordDecision db input)

def selectHostToolApproval (digests : Digests) (db : Db) (input : SelectHostApproval)
    (rule : RuleChoice) (eligible : Except String Unit) (host : Host) : Except String Db := do
  require (input.decision = .allowOnce) "A tool rule can only select allow once."
  let read ← readApproval db input.expected.key
  let prior ← read.elim (.ok none) fun _ => (exact db input.expected).map some
  require (∀ record ∈ prior, record.closedAtMs = none) "This approval request has closed."
  require (∀ record ∈ prior, record.decision.isSome → (db.bound input.decisionId).isSome)
    "The existing decision did not create a saved tool permission."
  let selected ← selectHostApproval db input eligible
  bindHostToolRule digests selected
    { toRuleChoice := rule, decisionId := input.decisionId, ownerId := input.actorId
      atMs := input.atMs } host

/-! ## The steps of the store -/

/-- A decision keeps the columns that its trigger protects. -/
def DecisionRow.keeps (old new : DecisionRow) : Bool :=
  new.decisionId = old.decisionId && new.requestKey = old.requestKey &&
    new.decision = old.decision && new.source = old.source && new.actorId = old.actorId &&
    new.decidedAtMs = old.decidedAtMs

/-- The tables of the journal after one of its other transactions: keys stay unique, rows
stay, and the protected columns of a row never change. -/
def JournalWrite (db : Db) (requests : List RequestRow) (decisions : List DecisionRow) : Prop :=
  Table.Keyed RequestRow.key requests ∧ Table.Keyed DecisionRow.decisionId decisions ∧
    Table.Keyed DecisionRow.requestKey decisions ∧
    db.decisions.all (fun old => decisions.any fun new => old.keeps new) = true

instance (db : Db) (requests : List RequestRow) (decisions : List DecisionRow) :
    Decidable (JournalWrite db requests decisions) :=
  inferInstanceAs (Decidable ((requests.map RequestRow.key).Nodup ∧
    (decisions.map DecisionRow.decisionId).Nodup ∧ (decisions.map DecisionRow.requestKey).Nodup ∧
    db.decisions.all (fun old => decisions.any fun new => old.keeps new) = true))

inductive HostStep where
  | selectHostToolApproval (input : SelectHostApproval) (rule : RuleChoice)
      (eligible : Except String Unit) (host : Host)
  | revokeHostToolRule (ownerId agentId ruleId : String) (revision : Nat) (atMs : Int)
  | assertDecisionToolRule (decisionId : String) (host : Host)
  | withdrawHostToolApproval (input : WithdrawHostToolApproval)
  | journal (requests : List RequestRow) (decisions : List DecisionRow)
      (closures : List RequestClosure)

def hostStep (digests : Digests) (db : Db) : HostStep → Except String Db
  | .selectHostToolApproval input rule eligible host =>
    HostToolRules.selectHostToolApproval digests db input rule eligible host
  | .revokeHostToolRule ownerId agentId ruleId revision atMs =>
    HostToolRules.revokeHostToolRule db ownerId agentId ruleId revision atMs
  | .assertDecisionToolRule decisionId host =>
    match HostToolRules.assertDecisionToolRule digests db decisionId host with
    | .ok _ => .ok db
    | .error _ => .error "not allowed"
  | .withdrawHostToolApproval input => HostToolRules.withdrawHostToolApproval db input
  | .journal requests decisions closures => do
    require (JournalWrite db requests decisions) "constraint failed"
    .ok { db with requests := requests, decisions := decisions, closures := closures }

/-! ## The invariant -/

variable {before after db next : Db} {ruleId : String} {rule : HostToolRuleRow}
  {input : WithdrawHostToolApproval} {decision : DecisionRow}

section Invariant

variable {digests : Digests}

/-- The rule of a binding is its decision's: a host's choice to allow once, by the owner. -/
def Decided (db : Db) (rule : HostToolRuleRow) (decisionId : String) : Prop :=
  ∃ row ∈ db.decisions, row.decisionId = decisionId ∧ row.source = .host ∧
    row.decision = .allowOnce ∧ row.actorId = rule.ownerId

structure Saved (digests : Digests) (db : Db) : Prop where
  rules : Table.Keyed HostToolRuleRow.ruleId db.rules
  bindings : Table.Keyed RuleDecision.decisionId db.bindings
  withdrawals : Table.Keyed Withdrawal.decisionId db.withdrawals
  requests : Table.Keyed RequestRow.key db.requests
  decisions : Table.Keyed DecisionRow.decisionId db.decisions
  oneDecision : Table.Keyed DecisionRow.requestKey db.decisions
  oneActive : ∀ a ∈ db.rules, ∀ b ∈ db.rules, a.state = .active → b.state = .active →
    a.ownerId = b.ownerId → a.agentId = b.agentId → a.scopeSha256 = b.scopeSha256 → a = b
  identity : ∀ rule ∈ db.rules, rule.agentId = rule.scope.1.agentId ∧
    rule.scopeSha256 = digests.scope rule.scope
  bound : ∀ bound ∈ db.bindings, ∃ rule ∈ db.rules, rule.ruleId = bound.ruleId ∧
    Decided db rule bound.decisionId

/-- What no step undoes. -/
structure Later (before after : Db) : Prop where
  revoked : ∀ rule ∈ before.rules, rule.state = .revoked → rule ∈ after.rules
  unbound : ∀ bound ∈ after.bindings, bound ∈ before.bindings ∨
    ∀ rule ∈ before.rules, rule.ruleId = bound.ruleId → rule.state ≠ .revoked
  bindings : before.bindings ⊆ after.bindings
  withdrawals : before.withdrawals ⊆ after.withdrawals

theorem empty_saved : Saved digests Db.empty := by
  constructor
  all_goals first
    | exact List.nodup_nil
    | exact nofun

theorem Later.refl (db : Db) : Later db db :=
  ⟨fun _ member _ => member, fun _ member => .inl member, fun _ member => member,
    fun _ member => member⟩

theorem Later.trans (first : Later a b) (second : Later b c) : Later a c := by
  constructor
  · intro rule member revoked
    exact second.revoked rule (first.revoked rule member revoked) revoked
  · intro bound member
    rcases second.unbound bound member with middle | fresh
    · exact first.unbound bound middle
    · refine .inr fun rule inRules same revoked => ?_
      exact fresh rule (first.revoked rule inRules revoked) same revoked
  · exact fun _ member => second.bindings (first.bindings member)
  · exact fun _ member => second.withdrawals (first.withdrawals member)

/-- A step that leaves the rules and the bindings alone. -/
theorem Later.of_same (rules : after.rules = before.rules)
    (bindings : after.bindings = before.bindings)
    (withdrawals : before.withdrawals ⊆ after.withdrawals) : Later before after := by
  constructor
  · intro rule member _
    rw [rules]
    exact member
  · intro bound member
    rw [bindings] at member
    exact .inl member
  · rw [bindings]
    exact fun _ member => member
  · exact withdrawals

/-- The decisions may change where no binding looks. -/
theorem Saved.of_decisions (saved : Saved digests before) (rules : after.rules = before.rules)
    (bindings : after.bindings = before.bindings)
    (withdrawals : Table.Keyed Withdrawal.decisionId after.withdrawals)
    (requests : Table.Keyed RequestRow.key after.requests)
    (decisions : Table.Keyed DecisionRow.decisionId after.decisions)
    (oneDecision : Table.Keyed DecisionRow.requestKey after.decisions)
    (keeps : ∀ old ∈ before.decisions, ∃ new ∈ after.decisions, old.keeps new = true) :
    Saved digests after := by
  refine ⟨?_, ?_, withdrawals, requests, decisions, oneDecision, ?_, ?_, ?_⟩
  · rw [rules]
    exact saved.rules
  · rw [bindings]
    exact saved.bindings
  · rw [rules]
    exact saved.oneActive
  · rw [rules]
    exact saved.identity
  · intro bound member
    rw [bindings] at member
    obtain ⟨rule, inRules, same, old, inDecisions, decided⟩ := saved.bound bound member
    obtain ⟨new, inAfter, kept⟩ := keeps old inDecisions
    simp only [DecisionRow.keeps, Bool.and_eq_true, decide_eq_true_eq] at kept
    rw [← rules] at inRules
    refine ⟨rule, inRules, same, new, inAfter, ?_⟩
    rw [kept.1.1.1.1.1, kept.1.1.1.2, kept.1.1.2, kept.1.2]
    exact decided

theorem keeps_refl (row : DecisionRow) : row.keeps row = true := by
  simp [DecisionRow.keeps]

/-! ### Rules -/

theorem rule_mem (present : db.rule ruleId = some rule) : rule ∈ db.rules ∧ rule.ruleId = ruleId :=
  Table.mem_of_find present

theorem absent_of_none [DecidableEq κ] {key : α → κ} (absent : Table.find key k rows = none) :
    ∀ row ∈ rows, key row ≠ k := by
  intro row member same
  have differs := List.find?_eq_none.mp absent row member
  simp [same] at differs

section

variable (saved : Saved digests db)
include saved

theorem insertRule_sound (ok : insertRule digests db ruleId ownerId scope atMs = .ok next) :
    Saved digests next ∧ Later db next ∧ next.bindings = db.bindings ∧
      next.decisions = db.decisions := by
  obtain ⟨_, ok⟩ := require_bind_ok ok
  obtain ⟨_, ok⟩ := require_bind_ok ok
  obtain ⟨absent, ok⟩ := require_bind_ok ok
  obtain ⟨alone, ok⟩ := require_bind_ok ok
  cases ok
  have fresh := absent_of_none absent
  have apart : ∀ rule ∈ db.rules, rule.state = .active → rule.ownerId = ownerId →
      rule.agentId = scope.1.agentId → rule.scopeSha256 ≠ digests.scope scope := by
    intro rule member active owner agent digest
    apply alone
    rw [List.any_eq_true]
    exact ⟨rule, member, by simp [sameScope, active, owner, agent, digest]⟩
  refine ⟨?_, ?_, rfl, rfl⟩
  · refine ⟨?_, saved.bindings, saved.withdrawals, saved.requests, saved.decisions,
      saved.oneDecision, ?_, ?_, ?_⟩
    · refine saved.rules.append (List.nodup_singleton _) fun rule member other new => ?_
      rw [List.mem_singleton] at new
      rw [new]
      exact fresh rule member
    · intro a aMember b bMember aActive bActive owner agent digest
      rcases List.mem_append.mp aMember with aOld | aNew
      · rcases List.mem_append.mp bMember with bOld | bNew
        · exact saved.oneActive a aOld b bOld aActive bActive owner agent digest
        · rw [List.mem_singleton] at bNew
          subst bNew
          exact absurd digest (apart a aOld aActive owner agent)
      · rw [List.mem_singleton] at aNew
        subst aNew
        rcases List.mem_append.mp bMember with bOld | bNew
        · exact absurd digest.symm (apart b bOld bActive owner.symm agent.symm)
        · rw [List.mem_singleton] at bNew
          exact bNew.symm
    · intro rule member
      rcases List.mem_append.mp member with old | new
      · exact saved.identity rule old
      · rw [List.mem_singleton] at new
        rw [new]
        exact ⟨rfl, rfl⟩
    · intro bound member
      obtain ⟨rule, inRules, same, decided⟩ := saved.bound bound member
      exact ⟨rule, List.mem_append_left _ inRules, same, decided⟩
  · constructor
    · exact fun rule member _ => List.mem_append_left _ member
    · exact fun bound member => .inl member
    · exact fun _ member => member
    · exact fun _ member => member

theorem createRule_sound {input : BindHostToolRule}
    (ok : createRule digests db input scope ruleId prior existing = .ok next) :
    Saved digests next ∧ Later db next ∧ next.bindings = db.bindings ∧
      next.decisions = db.decisions := by
  unfold createRule at ok
  split at ok
  · exact insertRule_sound saved ok
  · cases ok
    exact ⟨saved, Later.refl db, rfl, rfl⟩

/-- A decision is bound to an active rule of its own actor. -/
theorem insertBinding_sound (member : rule ∈ db.rules) (active : rule.state = .active)
    (decided : db.bound decisionId = none → Decided db rule decisionId)
    (ok : insertBinding db decisionId rule (db.bound decisionId) = .ok next) :
    Saved digests next ∧ Later db next := by
  cases prior : db.bound decisionId with
  | some bound =>
    rw [prior] at ok
    cases ok
    exact ⟨saved, Later.refl db⟩
  | none =>
    rw [prior] at ok
    obtain ⟨_, ok⟩ := require_bind_ok ok
    cases ok
    refine ⟨⟨saved.rules, ?_, saved.withdrawals, saved.requests, saved.decisions,
      saved.oneDecision, saved.oneActive, saved.identity, ?_⟩, ?_⟩
    · refine saved.bindings.append (List.nodup_singleton _) fun old inBindings other new => ?_
      rw [List.mem_singleton] at new
      rw [new]
      exact absent_of_none prior old inBindings
    · intro bound inBindings
      rcases List.mem_append.mp inBindings with old | new
      · exact saved.bound bound old
      · rw [List.mem_singleton] at new
        rw [new]
        exact ⟨rule, member, rfl, decided prior⟩
    · constructor
      · exact fun _ inRules _ => inRules
      · intro bound inBindings
        rcases List.mem_append.mp inBindings with old | new
        · exact .inl old
        · rw [List.mem_singleton] at new
          refine .inr fun other inRules same => ?_
          rw [new] at same
          rw [saved.rules.eq inRules member same, active]
          exact nofun
      · exact fun _ inBindings => List.mem_append_left _ inBindings
      · exact fun _ inWithdrawals => inWithdrawals

theorem bindHostToolRule_sound {input : BindHostToolRule}
    (decided : db.bound input.decisionId = none → ∃ row ∈ db.decisions, row.decisionId = input.decisionId ∧ row.source = .host ∧ row.decision = .allowOnce ∧ row.actorId = input.ownerId)
    (ok : bindHostToolRule digests db input host = .ok next) :
    Saved digests next ∧ Later db next := by
  obtain ⟨scope, _, ok⟩ := bind_ok ok
  obtain ⟨_, _, ok⟩ := bind_ok ok
  obtain ⟨existing, _, ok⟩ := bind_ok ok
  obtain ⟨ruleId, _, ok⟩ := found_bind_ok ok
  obtain ⟨created, creation, ok⟩ := bind_ok ok
  obtain ⟨row, present, ok⟩ := found_bind_ok ok
  obtain ⟨rule, read, ok⟩ := bind_ok ok
  obtain ⟨unchanged, ok⟩ := require_bind_ok ok
  obtain ⟨_, read⟩ := require_bind_ok read
  cases read
  obtain ⟨still, later, bindings, decisions⟩ := createRule_sound saved creation
  rw [Option.filter_eq_some_iff, decide_eq_true_eq] at present
  have same : db.bound input.decisionId = created.bound input.decisionId := by
    unfold Db.bound
    rw [bindings]
  rw [same] at ok decided
  have written := insertBinding_sound still (rule_mem present.1).1 present.2
    (fun none' => ?_) ok
  · exact ⟨written.1, later.trans written.2⟩
  · obtain ⟨old, member, identity, source, choice, actor⟩ := decided none'
    rw [← decisions] at member
    exact ⟨old, member, identity, source, choice, actor.trans unchanged.1.symm⟩

theorem revokeHostToolRule_sound
    (ok : revokeHostToolRule db ownerId agentId ruleId revision atMs = .ok next) :
    Saved digests next ∧ Later db next := by
  obtain ⟨_, ok⟩ := require_bind_ok ok
  obtain ⟨row, present, ok⟩ := found_bind_ok ok
  rw [Option.filter_eq_some_iff] at present
  have member := (rule_mem present.1).1
  by_cases done : row.state = .revoked
  · rw [if_pos done] at ok
    cases ok
    exact ⟨saved, Later.refl db⟩
  · rw [if_neg done] at ok
    by_cases changed : row.revision ≠ revision
    · rw [if_pos changed] at ok
      cases ok
    · rw [if_neg changed] at ok
      cases ok
      -- the row that is written is not active, all others are as before
      have old : ∀ rule ∈ Table.put HostToolRuleRow.ruleId (row.revoke atMs) db.rules,
          rule.state = .active → rule ∈ db.rules := by
        intro rule inRules active
        rcases Table.mem_put inRules with ⟨rfl, _⟩ | ⟨before, _⟩
        · cases active
        · exact before
      refine ⟨⟨saved.rules.put _, saved.bindings, saved.withdrawals, saved.requests,
        saved.decisions, saved.oneDecision, ?_, ?_, ?_⟩, ?_⟩
      · intro a aMember b bMember aActive bActive
        exact saved.oneActive a (old a aMember aActive) b (old b bMember bActive) aActive bActive
      · intro rule inRules
        rcases Table.mem_put inRules with ⟨rfl, _⟩ | ⟨before, _⟩
        · exact saved.identity row member
        · exact saved.identity rule before
      · intro bound inBindings
        obtain ⟨rule, inRules, same, decided⟩ := saved.bound bound inBindings
        by_cases written : rule.ruleId = row.ruleId
        · have itself := saved.rules.eq inRules member written
          rw [itself] at same decided
          exact ⟨row.revoke atMs, Table.put_mem member rfl, same, decided⟩
        · exact ⟨rule, Table.mem_put_of_ne inRules written, same, decided⟩
      · constructor
        · intro rule inRules revoked
          refine Table.mem_put_of_ne inRules fun same => done ?_
          rw [← saved.rules.eq inRules member same]
          exact revoked
        · exact fun bound inBindings => .inl inBindings
        · exact fun _ inBindings => inBindings
        · exact fun _ inWithdrawals => inWithdrawals

end

/-! ### Decisions and withdrawals -/

theorem exact_ok (ok : exact db expected = .ok record) :
    db.request expected.key = some record.request ∧ record.request.reference = expected ∧
      record.decision = db.decisionOf expected.key ∧
      ∀ decision, record.decision = some decision →
        ∃ withdrawn, hostToolDecisionWasWithdrawn db decision record.request = .ok withdrawn := by
  obtain ⟨read, reading, ok⟩ := bind_ok ok
  obtain ⟨record', present, ok⟩ := found_bind_ok ok
  obtain ⟨same, ok⟩ := require_bind_ok ok
  cases ok
  rw [present] at reading
  unfold readApproval at reading
  split at reading
  · cases reading
  · rename_i request inRequests
    split at reading
    · rename_i undecided
      cases reading
      refine ⟨inRequests, same, undecided.symm, fun decision present => ?_⟩
      exact absurd present.symm (Option.some_ne_none decision)
    · rename_i decision inDecisions
      obtain ⟨withdrawn, evidence, reading⟩ := map_ok reading
      cases reading
      refine ⟨inRequests, same, inDecisions.symm, fun decision' present => ?_⟩
      rw [← Option.some.inj present]
      exact ⟨withdrawn, evidence⟩

section

variable (saved : Saved digests db)
include saved

theorem recordDecision_sound {input : SelectHostApproval}
    (undecided : db.decisionOf input.expected.key = none)
    (fresh : ¬ db.decisions.any (fun row => row.decisionId = input.decisionId) = true) :
    Saved digests (recordDecision db input) ∧ Later db (recordDecision db input) := by
  constructor
  · apply saved.of_decisions
    · rfl
    · rfl
    · exact saved.withdrawals
    · refine saved.requests.map fun row _ => ?_
      split <;> rfl
    · refine saved.decisions.append (List.nodup_singleton _) fun old member other new same => ?_
      rw [List.mem_singleton] at new
      rw [new] at same
      exact fresh (List.any_eq_true.mpr ⟨old, member, decide_eq_true same⟩)
    · refine saved.oneDecision.append (List.nodup_singleton _) fun old member other new => ?_
      rw [List.mem_singleton] at new
      rw [new]
      exact absent_of_none undecided old member
    · exact fun old member => ⟨old, List.mem_append_left _ member, keeps_refl old⟩
  · exact Later.of_same rfl rfl fun _ member => member

/-- A selection records the host's decision, unless the same one is recorded. -/
theorem selectHostApproval_sound {input : SelectHostApproval}
    (ok : selectHostApproval db input eligible = .ok next) :
    Saved digests next ∧ Later db next ∧ next.bindings = db.bindings ∧
      ((∃ record, exact db input.expected = .ok record ∧ record.decision.isSome = true) ∨
        input.row ∈ next.decisions) := by
  obtain ⟨record, reading, ok⟩ := bind_ok ok
  obtain ⟨_, _, decision, _⟩ := exact_ok reading
  split at ok
  · rename_i old present
    obtain ⟨_, ok⟩ := require_bind_ok ok
    cases ok
    refine ⟨saved, Later.refl db, rfl, .inl ⟨record, reading, ?_⟩⟩
    rw [present, Option.isSome_some]
  · rename_i undecided
    obtain ⟨_, ok⟩ := require_bind_ok ok
    obtain ⟨_, ok⟩ := require_bind_ok ok
    obtain ⟨_, ok⟩ := require_bind_ok ok
    obtain ⟨_, _, ok⟩ := bind_ok ok
    obtain ⟨fresh, ok⟩ := require_bind_ok ok
    cases ok
    have recorded := recordDecision_sound saved (decision.symm.trans undecided) fresh
    exact ⟨recorded.1, recorded.2, rfl,
      .inr (List.mem_append_right _ (List.mem_singleton.mpr rfl))⟩

theorem selectHostToolApproval_sound {input : SelectHostApproval} {rule : RuleChoice}
    (ok : selectHostToolApproval digests db input rule eligible host = .ok next) :
    Saved digests next ∧ Later db next := by
  obtain ⟨allowed, ok⟩ := require_bind_ok ok
  obtain ⟨read, reading, ok⟩ := bind_ok ok
  obtain ⟨prior, priorRead, ok⟩ := bind_ok ok
  obtain ⟨_, ok⟩ := require_bind_ok ok
  obtain ⟨boundBefore, ok⟩ := require_bind_ok ok
  obtain ⟨selected, selection, ok⟩ := bind_ok ok
  obtain ⟨still, later, bindings, recorded⟩ := selectHostApproval_sound saved selection
  have written := bindHostToolRule_sound still (fun none' => ?_) ok
  · exact ⟨written.1, later.trans written.2⟩
  · rcases recorded with ⟨record, present, decided⟩ | member
    · -- the decision was there, so it is bound to its rule already
      cases read with
      | none =>
        obtain ⟨_, missing, _⟩ := bind_ok present
        rw [missing] at reading
        cases reading
        obtain ⟨_, absurd', _⟩ := found_bind_ok ‹_›
        cases absurd'
      | some old =>
        obtain ⟨record', same, priorRead⟩ := map_ok priorRead
        rw [present] at same
        cases same
        have known := boundBefore record priorRead.symm decided
        unfold Db.bound at none' known
        rw [bindings] at none'
        rw [none'] at known
        cases known
    · exact ⟨input.row, member, rfl, rfl, allowed, rfl⟩

theorem withdraw_sound (first : db.receipt input.decisionId = none) :
    Saved digests (db.withdraw input) ∧ Later db (db.withdraw input) := by
  constructor
  · apply saved.of_decisions
    · rfl
    · rfl
    · refine saved.withdrawals.append (List.nodup_singleton _) fun old member other new => ?_
      rw [List.mem_singleton] at new
      rw [new]
      exact absent_of_none first old member
    · refine saved.requests.map fun row _ => ?_
      split <;> rfl
    · refine saved.decisions.map fun row _ => ?_
      split <;> rfl
    · refine saved.oneDecision.map fun row _ => ?_
      split <;> rfl
    · intro old member
      refine ⟨_, List.mem_map_of_mem member, ?_⟩
      split
      · simp [DecisionRow.keeps, DecisionRow.requestKey]
      · exact keeps_refl old
  · exact Later.of_same rfl rfl fun _ member => List.mem_append_left _ member

theorem withdrawHostToolApproval_sound (ok : withdrawHostToolApproval db input = .ok next) :
    Saved digests next ∧ Later db next := by
  obtain ⟨_, _, ok⟩ := bind_ok ok
  obtain ⟨_, _, ok⟩ := found_bind_ok ok
  obtain ⟨record, _, ok⟩ := bind_ok ok
  obtain ⟨decision, _, ok⟩ := found_bind_ok ok
  obtain ⟨bound, _, ok⟩ := found_bind_ok ok
  obtain ⟨rule, _, ok⟩ := found_bind_ok ok
  obtain ⟨_, ok⟩ := require_bind_ok ok
  unfold writeWithdrawal at ok
  split at ok
  · obtain ⟨_, ok⟩ := require_bind_ok ok
    cases ok
    exact ⟨saved, Later.refl db⟩
  · rename_i first
    obtain ⟨_, ok⟩ := require_bind_ok ok
    cases ok
    exact withdraw_sound saved first

end

/-! ### Steps and runs -/

theorem hostStep_sound (saved : Saved digests db) (ok : hostStep digests db step = .ok next) :
    Saved digests next ∧ Later db next := by
  cases step with
  | selectHostToolApproval input rule eligible host =>
    exact selectHostToolApproval_sound saved ok
  | revokeHostToolRule ownerId agentId ruleId revision atMs =>
    exact revokeHostToolRule_sound saved ok
  | assertDecisionToolRule decisionId host =>
    simp only [hostStep] at ok
    split at ok
    · cases ok
      exact ⟨saved, Later.refl db⟩
    · cases ok
  | withdrawHostToolApproval input => exact withdrawHostToolApproval_sound saved ok
  | journal requests decisions closures =>
    obtain ⟨write, ok⟩ := require_bind_ok ok
    cases ok
    refine ⟨saved.of_decisions rfl rfl saved.withdrawals write.1 write.2.1 write.2.2.1 ?_,
      Later.of_same rfl rfl fun _ member => member⟩
    intro old member
    have kept := List.all_eq_true.mp write.2.2.2 old member
    simpa only [List.any_eq_true] using kept

theorem replay_saved (saved : Saved digests db) (steps : List HostStep) :
    Saved digests (Replay.replay (hostStep digests) db steps) :=
  Replay.replay_preserves (fun _ _ => True) (Saved digests)
    (fun _ _ _ before _ ok => (hostStep_sound before ok).1)
    (Replay.meets_of_forall (fun _ _ => trivial) _ _) saved

theorem replay_later (saved : Saved digests db) (steps : List HostStep) :
    Later db (Replay.replay (hostStep digests) db steps) :=
  Replay.replay_relates (fun _ _ => True) (Saved digests) Later
    (fun _ _ _ before _ ok => (hostStep_sound before ok).1) Later.refl Later.trans
    (fun _ _ _ before _ ok => (hostStep_sound before ok).2)
    (Replay.meets_of_forall (fun _ _ => trivial) _ _) saved

/-! ## What the permissions promise -/

theorem find_later [DecidableEq κ] {key : α → κ} {before after : List α}
    (keyed : Table.Keyed key after) (subset : before ⊆ after)
    (present : Table.find key k before = some row) : Table.find key k after = some row := by
  obtain ⟨member, same⟩ := Table.mem_of_find present
  rw [← same]
  exact keyed.find (subset member)

theorem wasWithdrawn_of (receipted : db.receipt decision.decisionId = some receipt)
    (isBound : db.bound decision.decisionId = some bound)
    (isRule : db.rule bound.ruleId = some rule)
    (agrees : Evidence receipt bound rule decision request) :
    hostToolDecisionWasWithdrawn db decision request = .ok true := by
  simp only [hostToolDecisionWasWithdrawn, receipted, isBound, isRule, found_some, ok_bind,
    require_of agrees]

/-- Evidence of a withdrawal stays. -/
theorem wasWithdrawn_later (saved : Saved digests after) (later : Later before after)
    (evidence : hostToolDecisionWasWithdrawn before decision request = .ok true) :
    hostToolDecisionWasWithdrawn after decision request = .ok true := by
  unfold hostToolDecisionWasWithdrawn at evidence
  split at evidence
  · cases evidence
  · rename_i receipt receipted
    obtain ⟨bound, isBound, evidence⟩ := found_bind_ok evidence
    obtain ⟨rule, isRule, evidence⟩ := found_bind_ok evidence
    obtain ⟨agrees, _⟩ := require_bind_ok evidence
    obtain ⟨inRules, ruleId⟩ := rule_mem isRule
    have receipted' : after.receipt decision.decisionId = some receipt :=
      find_later saved.withdrawals later.withdrawals receipted
    have isBound' : after.bound decision.decisionId = some bound :=
      find_later saved.bindings later.bindings isBound
    have isRule' : after.rule bound.ruleId = some rule := by
      rw [← ruleId]
      exact saved.rules.find (later.revoked rule inRules agrees.1)
    exact wasWithdrawn_of receipted' isBound' isRule' agrees

/-- For each owner, agent and scope at most one rule is active. -/
def OneActive (db : Db) : Prop :=
  ∀ a ∈ db.rules, ∀ b ∈ db.rules, a.state = .active → b.state = .active →
    a.ownerId = b.ownerId → a.scope = b.scope → a = b

/-- A revoked rule is as it was, and what is bound to it was bound before. -/
def RevokedStays (before after : Db) : Prop :=
  ∀ rule ∈ before.rules, rule.state = .revoked →
    (∀ row ∈ after.rules, row.ruleId = rule.ruleId → row = rule) ∧ rule ∈ after.rules ∧
      ∀ bound ∈ after.bindings, bound.ruleId = rule.ruleId → bound ∈ before.bindings

/-- A decision that is bound passes only with its rule active at the bound revision. -/
def AcceptsActive (digests : Digests) (db : Db) : Prop :=
  ∀ decisionId host bound, db.bound decisionId = some bound →
    assertDecisionToolRule digests db decisionId host = .ok () →
      ∃ rule ∈ db.rules, rule.ruleId = bound.ruleId ∧ rule.state = .active ∧
        rule.revision = bound.ruleRevision

/-- The decision and the request of a withdrawal are found, and give evidence of it for as long
as they are as the withdrawal left them. -/
def WithdrawalProven (digests : Digests) (input : WithdrawHostToolApproval) (db : Db) : Prop :=
  ∃ decision request, db.decisionOf input.expected.key = some decision ∧
    decision.decisionId = input.decisionId ∧ db.request input.expected.key = some request ∧
    ∀ steps, let later := Replay.replay (hostStep digests) db steps
      later.decisionOf input.expected.key = some decision →
      later.request input.expected.key = some request →
        hostToolDecisionWasWithdrawn later decision request = .ok true

theorem oneActive (saved : Saved digests db) : OneActive db := by
  intro a aMember b bMember aActive bActive owner scope
  apply saved.oneActive a aMember b bMember aActive bActive owner
  · rw [(saved.identity a aMember).1, (saved.identity b bMember).1, scope]
  · rw [(saved.identity a aMember).2, (saved.identity b bMember).2, scope]

theorem revokedStays (saved : Saved digests after) (later : Later before after) :
    RevokedStays before after := by
  intro rule member revoked
  have stays := later.revoked rule member revoked
  refine ⟨fun row inRules same => saved.rules.eq inRules stays same, stays, ?_⟩
  intro bound inBindings same
  rcases later.unbound bound inBindings with old | fresh
  · exact old
  · exact absurd revoked (fresh rule member same.symm)

theorem acceptsActive (digests : Digests) (db : Db) : AcceptsActive digests db := by
  intro decisionId host bound isBound ok
  unfold assertDecisionToolRule at ok
  rw [isBound] at ok
  obtain ⟨row, present, _⟩ := found_bind_ok ok
  rw [Option.filter_eq_some_iff, Bool.and_eq_true, decide_eq_true_eq, decide_eq_true_eq] at present
  obtain ⟨member, same⟩ := rule_mem present.1
  exact ⟨row, member, same, present.2.1, present.2.2⟩

/-- A bound decision is a host's choice to allow once, by the owner of its rule. -/
theorem Saved.decided (saved : Saved digests db) (member : decision ∈ db.decisions)
    {bound : RuleDecision} (isBound : db.bound decision.decisionId = some bound)
    (isRule : db.rule bound.ruleId = some rule) :
    decision.source = .host ∧ decision.actorId = rule.ownerId := by
  obtain ⟨inBindings, sameDecision⟩ := Table.mem_of_find isBound
  obtain ⟨inRules, sameRule⟩ := rule_mem isRule
  obtain ⟨other, otherMember, same, row, inDecisions, identity, source, _, actor⟩ :=
    saved.bound bound inBindings
  have itself : other = rule := saved.rules.eq otherMember inRules (same.trans sameRule.symm)
  have decided : row = decision :=
    saved.decisions.eq inDecisions member (identity.trans sameDecision)
  rw [itself, decided] at actor
  rw [decided] at source
  exact ⟨source, actor⟩

/-- A withdrawal leaves the evidence that is read later. -/
theorem withdraw_evidence (saved : Saved digests db)
    (ok : withdrawHostToolApproval db input = .ok next) :
    ∃ decision request, next.decisionOf input.expected.key = some decision ∧
      decision.decisionId = input.decisionId ∧
      next.request input.expected.key = some request ∧
      hostToolDecisionWasWithdrawn next decision request = .ok true := by
  have after := (withdrawHostToolApproval_sound saved ok).1
  obtain ⟨_, _, ok⟩ := bind_ok ok
  obtain ⟨_, _, ok⟩ := found_bind_ok ok
  obtain ⟨record, reading, ok⟩ := bind_ok ok
  obtain ⟨decision, decided, ok⟩ := found_bind_ok ok
  obtain ⟨bound, isBound, ok⟩ := found_bind_ok ok
  obtain ⟨rule, isRule, ok⟩ := found_bind_ok ok
  obtain ⟨established, ok⟩ := require_bind_ok ok
  obtain ⟨inRequests, reference, inDecisions, evidence⟩ := exact_ok reading
  rw [decided] at inDecisions
  have known := Table.mem_of_find inDecisions.symm
  have asked := Table.mem_of_find inRequests
  unfold writeWithdrawal at ok
  split at ok
  · -- the receipt is there: the record was read with its evidence
    rename_i existing receipted
    obtain ⟨_, ok⟩ := require_bind_ok ok
    cases ok
    refine ⟨decision, record.request, inDecisions.symm, established.1, inRequests, ?_⟩
    obtain ⟨withdrawn, evidence⟩ := evidence decision decided
    rw [← established.1] at receipted
    unfold hostToolDecisionWasWithdrawn at evidence ⊢
    rw [receipted] at evidence ⊢
    obtain ⟨_, isBound, evidence⟩ := found_bind_ok evidence
    obtain ⟨_, isRule, evidence⟩ := found_bind_ok evidence
    obtain ⟨agrees, _⟩ := require_bind_ok evidence
    simp only [isBound, isRule, found_some, ok_bind, require_of agrees]
  · obtain ⟨_, ok⟩ := require_bind_ok ok
    cases ok
    have owned := saved.decided known.1 (established.1 ▸ isBound) isRule
    let lost : DecisionRow := { decision with
      dispatchState := .lost, applicationCertainty := some .impossible
      resolvedAtMs := some input.atMs }
    let closed : RequestRow := { record.request with
      state := .lost, applicationCertainty := some .impossible }
    let receipt : Withdrawal := ⟨input.decisionId, input.expected.requestId,
      input.expected.requestVersion, input.expected.requestSha256, input.ruleId,
      input.ruleRevision, input.dispatchId, input.atMs⟩
    have lostMember : lost ∈ (db.withdraw input).decisions :=
      List.mem_map.mpr ⟨decision, known.1, if_pos established.1⟩
    have closedMember : closed ∈ (db.withdraw input).requests :=
      List.mem_map.mpr ⟨record.request, asked.1, if_pos asked.2⟩
    have receiptMember : receipt ∈ (db.withdraw input).withdrawals :=
      List.mem_append_right _ (List.mem_singleton.mpr rfl)
    have receipted : (db.withdraw input).receipt lost.decisionId = some receipt := by
      have found := after.withdrawals.find receiptMember
      exact established.1 ▸ found
    refine ⟨lost, closed, ?_, established.1, ?_, ?_⟩
    · have found := after.oneDecision.find lostMember
      exact known.2 ▸ found
    · have found := after.requests.find closedMember
      exact asked.2 ▸ found
    · refine wasWithdrawn_of receipted (established.1 ▸ isBound) isRule ?_
      obtain ⟨_, allowed, dispatch, ruleId, revision, revoked, newer, decidedAt, startedAt⟩ :=
        established
      refine ⟨revoked, ?_, ruleId.symm, revision.symm, ?_, ?_, ?_, dispatch.symm, owned.1, owned.2,
        allowed, rfl, rfl, rfl, rfl, decidedAt, startedAt, rfl⟩
      · rw [revision]
        exact newer
      · exact (congrArg ApprovalReference.requestId reference).symm
      · exact (congrArg ApprovalReference.requestVersion reference).symm
      · exact (congrArg ApprovalReference.requestSha256 reference).symm

theorem withdrawalProven (saved : Saved digests db)
    (ok : withdrawHostToolApproval db input = .ok next) :
    WithdrawalProven digests input next := by
  have after := (withdrawHostToolApproval_sound saved ok).1
  obtain ⟨decision, request, inDecisions, same, inRequests, evidence⟩ :=
    withdraw_evidence saved ok
  refine ⟨decision, request, inDecisions, same, inRequests, fun steps _ _ => ?_⟩
  exact wasWithdrawn_later (replay_saved after steps) (replay_later after steps) evidence

end Invariant

end LetAgents.Daemon.HostToolRules

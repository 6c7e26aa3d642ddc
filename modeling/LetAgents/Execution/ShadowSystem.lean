import LetAgents.Execution.ShadowIngest
import LetAgents.Lib.Machine
import Mathlib.Logic.Function.Basic

/-!
# Stores of one database

Any number of stores work on one database, each over a connection that it may share with
others. A transaction holds the writer's lock from its start to its end, so it is one step; what
commits through one connection is seen by the others in their `data_version`. `bindings` and
`ingested` are history: the sources that were bound, with their epochs, and the facts that were
given a row.
-/
namespace LetAgents.Execution.ShadowStore

open Lib.Js Lib.Checked Protocol

structure Binding where
  agentId : ExecutionIdentity
  epoch : Nat
  sourceId : ExecutionIdentity
  deriving DecidableEq

structure System where
  db : Database
  /-- The stamp that a connection sees. -/
  connections : Nat → Stamp
  stores : Nat → Store
  bindings : List Binding
  ingested : List (Nat × ExecutionFact)

namespace System

def initial : System := ⟨.empty, fun _ => ⟨0, 0⟩, fun _ => .initial, [], []⟩

end System

inductive Call where
  | registerRuntime (input : RuntimeInput)
  | trackMessage (input : AttemptInput) (fresh : ExecutionIdentity)
  | trackNativeTurn (input : TurnInput)
  | bindObserver (input : ObserverInput)
  /-- `seen`: the database at the first read, before the transaction. -/
  | observeSourcePosition (seen : Database) (sourceId : ExecutionIdentity) (token : ShadowObserver)
      (latestSequence : Nat)
  | ingest (sourceId : ExecutionIdentity) (token : ShadowObserver) (value : JsValue)

/-- What a committed body leaves: the transaction, the store, and what it adds to the history. -/
structure Done where
  store : Store
  transaction : Transaction
  /-- What is remembered after the commit. -/
  committed : Option (ExecutionIdentity × ExecutionIdentity × Committed)
  bound : Option (ShadowObserver × Binding)
  ingested : Option (Nat × ExecutionFact)
  result : Option ShadowIngestion

def Done.of (s : Store) (t : Transaction) : Done := ⟨s, t, none, none, none, none⟩

/-- `observeSourcePosition` before its transaction: whether there is one. -/
def observesPosition (seen : Database) (s : Store) (sourceId : ExecutionIdentity)
    (token : ShadowObserver) (latestSequence : Nat) : Except ExecutionProtocolError Bool := do
  let observed ← currentObserver seen s.observers sourceId token
  require (observed.lastSourceSequence ≤ latestSequence) .sourceGap
  .ok (decide (observed.maxObservedSequence < latestSequence))

/-- What `ingest` leaves when its body is done. -/
def Done.ofIngest (fact : ExecutionFact)
    (out : Store × Transaction × ShadowIngestion × Option Committed) : Done where
  store := out.1
  transaction := out.2.1
  committed := out.2.2.2.map fun committed =>
    (fact.envelope.runtimeGenerationId, fact.envelope.agentId, committed)
  bound := none
  ingested := out.2.2.2.map fun committed => (committed.value.lastJournalSequence, fact)
  result := some out.2.2.1

/-- The body of a call's transaction. The caches are compared with the database first. -/
def Call.body (s : Store) (version : Nat) (t : Transaction) (call : Call) :
    Except ExecutionProtocolError Done :=
  let s := s.synchronizeCaches ⟨t.changes, version⟩
  match call with
  | .registerRuntime input => do
    let out ← materializeRuntime t input
    .ok (.of s out.1)
  | .trackMessage input fresh => do
    let out ← ShadowStore.trackMessage t input fresh
    .ok (.of s out.1)
  | .trackNativeTurn input => do
    let out ← ShadowStore.trackNativeTurn t input
    .ok (.of s out)
  | .bindObserver input => do
    let out ← ShadowStore.bindObserver t input
    .ok { Done.of s out.1 with
      bound := some (out.2, ⟨input.agentId, out.2.epoch, input.sourceId⟩) }
  | .observeSourcePosition _ sourceId token latestSequence => do
    let out ← recordPosition t s.observers sourceId token latestSequence
    .ok (.of s out)
  | .ingest sourceId token value => do
    let fact ← parseExecutionFact value
    let out ← ShadowStore.ingest s version t sourceId token fact
    .ok (.ofIngest fact out)

/-- Whether the call comes to its transaction. -/
def Call.begins (s : Store) : Call → Bool
  | .observeSourcePosition seen sourceId token latestSequence =>
    match observesPosition seen s sourceId token latestSequence with
    | .ok begins => begins
    | .error _ => false
  | .ingest sourceId token value =>
    match parseExecutionFact value with
    | .ok _ => token ∈ s.observers ∧ sourceId = token.sourceId
    | .error _ => false
  | _ => true

/-- The store after its commit: the stamp is the one before it. -/
def Done.remember (done : Done) (stamp : Stamp) : Store :=
  let s := { done.store with projectionStamp := some stamp }
  let s :=
    match done.committed with
    | some (runtimeId, agentId, committed) =>
      (s.rememberProjection runtimeId committed.value).rememberBudget agentId committed.budget
    | none => s
  match done.bound with
  | some (token, _) => { s with observers := token :: s.observers }
  | none => s

/-- `projectRuntime`, from the caches, in a read transaction of its own. -/
def projectRuntime (s : Store) (stamp : Stamp) (db : Database) (runtimeId : ExecutionIdentity) :
    Except ExecutionProtocolError (Store × RuntimeProjection) := do
  let out ← s.cachedProjection stamp db runtimeId
  .ok ({ out.1 with projectionStamp := some stamp }, out.2)

inductive Input where
  /-- `commits`: the commit succeeds. `undone`: the rows that a transaction changes before it is
  rolled back. -/
  | call (store : Nat) (call : Call) (commits : Bool) (undone : Nat)
  | projectRuntime (store : Nat) (runtimeId : ExecutionIdentity)
  /-- A read that drops the caches: `retainedMessageExecution`, `roomWorkSummary`. -/
  | clear (store : Nat)
  /-- A recovery is recorded, by whatever connection. -/
  | recover (recoveries : List RuntimeRecovery)

namespace System

variable (connection : Nat → Nat)

/-- Another connection sees that something was committed, if rows were changed. -/
def publish (connections : Nat → Stamp) (own : Nat) (before after : Nat) : Nat → Stamp := fun other =>
  if other = own then { connections other with changes := after }
  else if before = after then connections other
  else { connections other with version := (connections other).version + 1 }

def setStore (sys : System) (store : Nat) (s : Store) : System :=
  { sys with stores := Function.update sys.stores store s }

/-- The transaction is rolled back: the rows that it changed stay counted. -/
def rollback (sys : System) (store : Nat) (undone : Nat) : System :=
  let own := connection store
  let stamp := sys.connections own
  { sys.setStore store (sys.stores store).clearProjections with
    connections := Function.update sys.connections own { stamp with changes := stamp.changes + undone } }

def commit (sys : System) (store : Nat) (done : Done) : System :=
  let own := connection store
  let stamp := sys.connections own
  { db := done.transaction.db
    connections := publish sys.connections own stamp.changes done.transaction.changes
    stores := Function.update sys.stores store
      (done.remember ⟨done.transaction.changes, stamp.version⟩)
    bindings := sys.bindings ++ (done.bound.map Prod.snd).toList
    ingested := sys.ingested ++ done.ingested.toList }

def body (sys : System) (store : Nat) (call : Call) : Except ExecutionProtocolError Done :=
  let stamp := sys.connections (connection store)
  call.body (sys.stores store) stamp.version ⟨sys.db, stamp.changes⟩

def step (sys : System) : Input → System
  | .call store call commits undone =>
    if call.begins (sys.stores store) then
      match sys.body connection store call with
      | .ok done => if commits then sys.commit connection store done
          else sys.rollback connection store undone
      | .error _ => sys.rollback connection store undone
    else sys
  | .projectRuntime store runtimeId =>
    match ShadowStore.projectRuntime (sys.stores store) (sys.connections (connection store)) sys.db
        runtimeId with
    | .ok (s, _) => sys.setStore store s
    | .error _ => sys.setStore store (sys.stores store).clearProjections
  | .clear store => sys.setStore store (sys.stores store).clearProjections
  | .recover recoveries =>
    { sys with
      db := { sys.db with recoveries := recoveries }
      connections := fun other =>
        { sys.connections other with version := (sys.connections other).version + 1 } }

end System

end LetAgents.Execution.ShadowStore

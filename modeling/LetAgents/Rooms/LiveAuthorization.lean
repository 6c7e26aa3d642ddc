import LetAgents.Lib.Replay
import Mathlib.Logic.Function.Basic

/-!
# Live room authorization

Source: src/api/rooms/live-authorization.ts.

The connections of one credential in one room share a lease with the last answer of
`authorize`; events invalidate it, and a check that finds no fresh answer starts a flight of
at most two calls or joins the one that is under way. The steps below are what runs between
two turns of the event loop. A flight ends in three of them: its function returns, `finally`
clears `inFlight`, and the promise that the checks wait for resolves.

Modelling boundary: the credential's key and fingerprint and the lower-case names come with
the request; an event visits the leases of the map one after the other, each visit a step of
its own, since the handlers it calls may check. `clock` and the lists of calls, events and
answers are history.
-/
namespace LetAgents.Rooms.LiveAuthorization

def AUTHORIZATION_LEASE_MS : Int := 60000
def MAX_AUTHORIZATION_CHECKS_PER_FLIGHT : Nat := 2

structure SharedAuthorizationLease where
  key : String
  roomId : String
  roomName : String
  login : Option String
  allowed : Bool
  checkedAt : Int
  invalidated : Bool
  credentialFingerprint : Option String
  credentialRetired : Bool
  invalidationGeneration : Nat
  inFlight : Option Nat
  refs : Nat

/-- Where a flight stands; a call that throws settles without a value. -/
inductive FlightPhase where
  | waiting
  | settled (outcome : Option Bool)
  | returned (value : Bool)
  | cleared (value : Bool)
  | resolved
  deriving DecidableEq

/-- `pending`, and when its call was started, its function returned, and it was joined. -/
structure Flight where
  lease : Nat
  attempt : Nat
  checkedGeneration : Nat
  phase : FlightPhase
  started : Nat
  returned : Nat
  joined : List Nat

structure Handle where
  lease : Nat
  released : Bool

/-- A call of `authorize` that has settled. -/
structure AuthorizeCall where
  flight : Nat
  lease : Nat
  started : Nat
  settled : Nat
  outcome : Option Bool
  deriving DecidableEq

/-- An event that was applied to a lease. -/
structure Invalidation where
  lease : Nat
  time : Nat
  retires : Bool
  deriving DecidableEq

/-- What a check resolved to: when it was called, when its answer was decided, and when its
promise resolved. -/
structure Answer where
  lease : Nat
  called : Nat
  answered : Nat
  resolved : Nat
  value : Bool
  deriving DecidableEq

structure State where
  clock : Nat
  count : Nat
  lease : Nat → SharedAuthorizationLease
  leases : String → Option Nat
  handles : List Handle
  flights : Nat
  flight : Nat → Flight
  calls : List AuthorizeCall
  invalidations : List Invalidation
  answers : List Answer

structure AcquireInput where
  roomId : String
  credentialKey : String
  roomName : String
  login : Option String
  credentialFingerprint : Option String
  initiallyAllowed : Bool

def AcquireInput.key (input : AcquireInput) : String :=
  input.roomId ++ "\n" ++ input.credentialKey ++ "\n" ++ input.credentialFingerprint.getD "shared"

inductive Step where
  | acquire (input : AcquireInput) (now : Int)
  | check (handle : Nat) (force : Bool) (now : Int)
  | release (handle : Nat)
  /-- `invalidateAuthorizationLeases` visits a lease. -/
  | invalidate (roomName login : Option String) (lease : Nat)
  /-- The credential's invalidation visits a lease. -/
  | retire (roomId : String) (fingerprints : List String) (lease : Nat)
  /-- The promise of `authorize` settles. -/
  | settle (flight : Nat) (outcome : Option Bool)
  | resume (flight : Nat) (now : Int)
  /-- `finally`. -/
  | clear (flight : Nat)
  | resolve (flight : Nat)

def noLease : SharedAuthorizationLease :=
  ⟨"", "", "", none, false, 0, true, none, false, 1, none, 0⟩

def initial : State where
  clock := 0
  count := 0
  lease _ := noLease
  leases _ := none
  handles := []
  flights := 0
  flight _ := ⟨0, 0, 0, .resolved, 0, 0, []⟩
  calls := []
  invalidations := []
  answers := []

def notReady : String := "not at this step"

namespace State

def setLease (s : State) (l : Nat) (lease : SharedAuthorizationLease) : State :=
  { s with lease := Function.update s.lease l lease }

def setFlight (s : State) (f : Nat) (flight : Flight) : State :=
  { s with flight := Function.update s.flight f flight }

def acquire (s : State) (input : AcquireInput) (now : Int) : State :=
  let key := input.key
  match s.leases key with
  | some l =>
    { s.setLease l { s.lease l with refs := (s.lease l).refs + 1 } with
      handles := s.handles ++ [⟨l, false⟩] }
  | none =>
    { s.setLease s.count
        { key
          roomId := input.roomId
          roomName := input.roomName
          login := input.login.filter (· ≠ "")
          allowed := input.initiallyAllowed
          checkedAt := now
          invalidated := true
          credentialFingerprint := input.credentialFingerprint
          credentialRetired := false
          invalidationGeneration := 1
          inFlight := none
          refs := 1 } with
      leases := Function.update s.leases key (some s.count)
      count := s.count + 1
      handles := s.handles ++ [⟨s.count, false⟩] }

/-- A check that is answered as it is called. -/
def answer (s : State) (l : Nat) (value : Bool) : State :=
  { s with answers := s.answers ++ [⟨l, s.clock, s.clock, s.clock, value⟩] }

def join (s : State) (f : Nat) : State :=
  s.setFlight f { s.flight f with joined := (s.flight f).joined ++ [s.clock] }

/-- A new flight, and its first call of `authorize`. -/
def launch (s : State) (l : Nat) : State :=
  { (s.setLease l { s.lease l with inFlight := some s.flights }).setFlight s.flights
      ⟨l, 0, (s.lease l).invalidationGeneration, .waiting, s.clock, 0, [s.clock]⟩ with
    flights := s.flights + 1 }

def check (s : State) (l : Nat) (force : Bool) (now : Int) : State :=
  let lease := s.lease l
  if lease.credentialRetired then s.answer l false
  else if !force && !lease.invalidated && now - lease.checkedAt < AUTHORIZATION_LEASE_MS then
    s.answer l lease.allowed
  else
    match lease.inFlight with
    | some f => s.join f
    | none => s.launch l

def release (s : State) (h : Nat) (l : Nat) : State :=
  let lease := { s.lease l with refs := (s.lease l).refs - 1 }
  { s.setLease l lease with
    handles := s.handles.set h ⟨l, true⟩
    leases := if lease.refs = 0 ∧ s.leases lease.key = some l then
        Function.update s.leases lease.key none
      else s.leases }

/-- The lease is one of `leases.values()`. -/
def mapped (s : State) (l : Nat) : Bool := l < s.count && s.leases (s.lease l).key = some l

/-- A filter of an event that is `null` or empty passes every lease. -/
def passes (filter : Option String) (value : Option String) : Bool :=
  filter.all fun text => text = "" || value = some text

def invalidate (s : State) (l : Nat) (retires : Bool) : State :=
  { s.setLease l
      { s.lease l with
        credentialRetired := (s.lease l).credentialRetired || retires
        invalidated := true
        invalidationGeneration := (s.lease l).invalidationGeneration + 1 } with
    invalidations := s.invalidations ++ [⟨l, s.clock, retires⟩] }

def settle (s : State) (f : Nat) (outcome : Option Bool) : State :=
  { s.setFlight f { s.flight f with phase := .settled outcome } with
    calls := s.calls ++ [⟨f, (s.flight f).lease, (s.flight f).started, s.clock, outcome⟩] }

/-- The function of the flight returns. -/
def returns (s : State) (f : Nat) (value : Bool) : State :=
  s.setFlight f { s.flight f with phase := .returned value, returned := s.clock }

/-- The loop goes on, if there is another attempt. -/
def retry (s : State) (f : Nat) : State :=
  let attempt := (s.flight f).attempt + 1
  if attempt < MAX_AUTHORIZATION_CHECKS_PER_FLIGHT then
    s.setFlight f { s.flight f with
      attempt
      checkedGeneration := (s.lease (s.flight f).lease).invalidationGeneration
      phase := .waiting
      started := s.clock }
  else s.returns f false

/-- What follows `await lease.authorize()`. -/
def resume (s : State) (f : Nat) (outcome : Option Bool) (now : Int) : State :=
  let l := (s.flight f).lease
  let lease := s.lease l
  match outcome with
  | none => (s.setLease l { lease with checkedAt := now, invalidated := true }).returns f false
  | some allowed =>
    if lease.credentialRetired then s.returns f false
    else if (s.flight f).checkedGeneration ≠ lease.invalidationGeneration then s.retry f
    else (s.setLease l { lease with allowed, checkedAt := now, invalidated := false }).returns f allowed

def clear (s : State) (f : Nat) (value : Bool) : State :=
  let l := (s.flight f).lease
  (s.setLease l { s.lease l with
    inFlight := if (s.lease l).inFlight = some f then none else (s.lease l).inFlight }).setFlight f
      { s.flight f with phase := .cleared value }

/-- The promise resolves, and with it every check that joined the flight. -/
def resolve (s : State) (f : Nat) (value : Bool) : State :=
  let flight := s.flight f
  { s.setFlight f { flight with phase := .resolved } with
    answers := s.answers ++ flight.joined.map fun called =>
      ⟨flight.lease, called, max called flight.returned, s.clock, value⟩ }

end State

/-- A step without the clock; one that cannot happen now changes nothing. -/
def move (s : State) : Step → Except String State
  | .acquire input now => .ok (s.acquire input now)
  | .check h force now =>
    match s.handles[h]? with
    | some handle => .ok (s.check handle.lease force now)
    | none => .error notReady
  | .release h =>
    match s.handles[h]? with
    | some ⟨l, false⟩ => .ok (s.release h l)
    | _ => .error notReady
  | .invalidate roomName login l =>
    if s.mapped l && State.passes roomName (some (s.lease l).roomName) &&
        State.passes login (s.lease l).login then .ok (s.invalidate l false)
    else .error notReady
  | .retire roomId fingerprints l =>
    if s.mapped l && roomId ≠ "" && (s.lease l).roomId = roomId &&
        (s.lease l).credentialFingerprint.any (fun print => print ≠ "" && fingerprints.contains print)
      then .ok (s.invalidate l true)
    else .error notReady
  | .settle f outcome =>
    match (s.flight f).phase with
    | .waiting => .ok (s.settle f outcome)
    | _ => .error notReady
  | .resume f now =>
    match (s.flight f).phase with
    | .settled outcome => .ok (s.resume f outcome now)
    | _ => .error notReady
  | .clear f =>
    match (s.flight f).phase with
    | .returned value => .ok (s.clear f value)
    | _ => .error notReady
  | .resolve f =>
    match (s.flight f).phase with
    | .cleared value => .ok (s.resolve f value)
    | _ => .error notReady

def liveStep (s : State) (a : Step) : Except String State :=
  (move s a).map fun next => { next with clock := s.clock + 1 }

end LetAgents.Rooms.LiveAuthorization

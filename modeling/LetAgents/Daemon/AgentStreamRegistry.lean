import LetAgents.Lib.Machine
import Mathlib.Data.List.Basic

/-!
# The live feed of an agent

Source: src/apps/desktop/daemon/agent-stream-registry.ts:8-188, for one entry. The consumer
asks again when its watch has returned, with the cursor that it returned; other watches come
and go. What follows an `await` is a step of its own.
-/
namespace LetAgents.Daemon.AgentStreamRegistry

open Lib

structure Options where
  bufferLimit : Nat
  maxBatch : Nat
  holds : 1 ≤ bufferLimit
  delivers : 1 ≤ maxBatch

def DEFAULT_WAIT_MS : Int := 25000

def MAX_WAIT_MS : Int := 30000

structure DaemonActivityEvent (Payload : Type) where
  observed_at : String
  kind : String
  method : String
  summary : String
  payload : Payload

structure DaemonAgentStreamEvent (Payload : Type) where
  sequence : Nat
  observed_at : String
  kind : String
  method : String
  summary : Option String
  payload : Payload

structure AgentStreamBuffer (Payload : Type) where
  sequence : Nat
  generation : Nat
  generationStartSequence : Nat
  events : List (DaemonAgentStreamEvent Payload)
  ended : Bool

structure AgentStreamWatchResult (Payload : Type) where
  sequence : Nat
  stream_generation : Nat
  dropped_events : Nat
  events : List (DaemonAgentStreamEvent Payload)
  ended : Bool

/-- Where a watch stands. -/
inductive Phase where
  | waiting
  /-- Its promise is resolved. -/
  | woken
  | returned
deriving DecidableEq

structure Watch where
  afterSequence : Nat
  phase : Phase

variable {Payload : Type}

structure Registry (Payload : Type) where
  buffer : Option (AgentStreamBuffer Payload)
  /-- The watch of the consumer, and its cursor. -/
  consumer : Phase
  cursor : Nat
  others : List Watch
  /-- Every event, with its generation; the newest first. -/
  pushed : List (Nat × DaemonAgentStreamEvent Payload)
  /-- What the consumer got, with the cursor that it passed; the newest first. -/
  answers : List (Nat × AgentStreamWatchResult Payload)

def initial : Registry Payload := ⟨none, .returned, 0, [], [], []⟩

def DaemonActivityEvent.stream (event : DaemonActivityEvent Payload) (sequence : Nat) :
    DaemonAgentStreamEvent Payload where
  sequence := sequence
  observed_at := event.observed_at
  kind := event.kind
  method := event.method
  summary := if event.summary = "" then none else some event.summary
  payload := event.payload

def Phase.notify : Phase → Phase
  | .waiting => .woken
  | phase => phase

def Registry.notifyWaiters (s : Registry Payload) : Registry Payload :=
  { s with
    consumer := s.consumer.notify
    others := s.others.map fun watch => { watch with phase := watch.phase.notify } }

def AgentStreamBuffer.append (options : Options) (buffer : AgentStreamBuffer Payload)
    (event : DaemonAgentStreamEvent Payload) : AgentStreamBuffer Payload :=
  let events := buffer.events ++ [event]
  { buffer with
    sequence := event.sequence
    events := if options.bufferLimit < events.length then events.drop (events.length - options.bufferLimit) else events }

def Registry.push (options : Options) (s : Registry Payload) (event : DaemonActivityEvent Payload) : Registry Payload :=
  let buffer := s.buffer.getD ⟨0, 1, 1, [], false⟩
  if buffer.ended then s
  else
    let next := event.stream (buffer.sequence + 1)
    { s with
      buffer := some (buffer.append options next)
      pushed := (buffer.generation, next) :: s.pushed }.notifyWaiters

def Registry.reset (s : Registry Payload) : Registry Payload :=
  let buffer := s.buffer.getD ⟨0, 0, 1, [], false⟩
  { s with
    buffer := some
      { buffer with
        generation := buffer.generation + 1
        generationStartSequence := buffer.sequence + 1
        events := []
        ended := false } }.notifyWaiters

def Registry.close (s : Registry Payload) : Registry Payload :=
  match s.buffer with
  | none => s
  | some buffer =>
    if buffer.ended then s else { s with buffer := some { buffer with ended := true } }.notifyWaiters

def snapshot (options : Options) (buffer : Option (AgentStreamBuffer Payload)) (afterSequence : Nat) :
    AgentStreamWatchResult Payload :=
  match buffer with
  | none => ⟨afterSequence, 0, 0, [], false⟩
  | some buffer =>
    let effectiveAfter := max afterSequence (buffer.generationStartSequence - 1)
    let events := (buffer.events.filter fun event => effectiveAfter < event.sequence).take options.maxBatch
    let sequence := (events.getLast?.map (·.sequence)).getD effectiveAfter
    let oldestRetained := (buffer.events.head?.map (·.sequence)).getD (buffer.sequence + 1)
    ⟨sequence, buffer.generation, oldestRetained - effectiveAfter - 1, events,
      buffer.ended && decide (buffer.sequence ≤ sequence)⟩

/-- A wait that is not finite is the default. -/
def waitMs (input : Option Rat) : Int :=
  match input with
  | some ms => max 0 (min MAX_WAIT_MS ms.floor)
  | none => DEFAULT_WAIT_MS

/-- The watch waits. -/
def pends (current : AgentStreamWatchResult Payload) (wait : Option Rat) (isHandoffScheduled : Bool) : Bool :=
  !isHandoffScheduled && current.events.isEmpty && !current.ended && decide (0 < waitMs wait)

/-- The consumer's watch returns. -/
def Registry.answer (options : Options) (s : Registry Payload) : Registry Payload :=
  let result := snapshot options s.buffer s.cursor
  { s with
    consumer := .returned
    cursor := result.sequence
    answers := (s.cursor, result) :: s.answers }

inductive Input (Payload : Type) where
  | push (event : DaemonActivityEvent Payload)
  | reset
  | finish
  /-- The next watch of the consumer. -/
  | next (wait : Option Rat) (isHandoffScheduled : Bool)
  | watch (afterSequence : Nat) (wait : Option Rat) (isHandoffScheduled : Bool)
  /-- A timer fires, of the consumer's watch or of another. -/
  | timer (other : Option Nat)
  | resume (other : Option Nat)

def Watch.move (before after : Phase) (watch : Watch) : Watch :=
  if watch.phase = before then { watch with phase := after } else watch

def step (options : Options) (s : Registry Payload) : Input Payload → Registry Payload
  | .push event => s.push options event
  | .reset => s.reset
  | .finish => s.close
  | .next wait handoff =>
    if s.consumer = .returned then
      if pends (snapshot options s.buffer s.cursor) wait handoff then { s.notifyWaiters with consumer := .waiting }
      else s.answer options
    else s
  | .watch afterSequence wait handoff =>
    if pends (snapshot options s.buffer afterSequence) wait handoff then
      { s.notifyWaiters with others := s.notifyWaiters.others ++ [⟨afterSequence, .waiting⟩] }
    else { s with others := s.others ++ [⟨afterSequence, .returned⟩] }
  | .timer none => if s.consumer = .waiting then { s with consumer := .woken } else s
  | .timer (some k) => { s with others := s.others.modify k (Watch.move .waiting .woken) }
  | .resume none => if s.consumer = .woken then s.answer options else s
  | .resume (some k) => { s with others := s.others.modify k (Watch.move .woken .returned) }

/-! ## The property -/

def Registry.delivered (s : Registry Payload) : List (DaemonAgentStreamEvent Payload) :=
  s.answers.reverse.flatMap fun answer => answer.2.events

def Registry.retained (s : Registry Payload) : List (DaemonAgentStreamEvent Payload) :=
  (s.buffer.map fun buffer => buffer.events).getD []

/-- The events that a cursor is still to get. -/
def Registry.undelivered (s : Registry Payload) (cursor : Nat) : List (DaemonAgentStreamEvent Payload) :=
  s.retained.filter fun event => cursor < event.sequence

def Registry.isEnded (s : Registry Payload) : Bool := (s.buffer.map fun buffer => buffer.ended).getD false

/-- A push between a cursor and an event, of a generation. -/
def between (generation cursor sequence : Nat) (push : Nat × DaemonAgentStreamEvent Payload) : Bool :=
  push.1 = generation && cursor < push.2.sequence && push.2.sequence < sequence

structure Accounted (s : Registry Payload) : Prop where
  /-- Behind the cursor, no retained event is lost. -/
  complete : ∀ event ∈ s.retained, event.sequence ≤ s.cursor → event ∈ s.delivered
  increasing : s.delivered.Pairwise fun earlier later => earlier.sequence < later.sequence
  own : ∀ answer ∈ s.answers, ∀ event ∈ answer.2.events, (answer.2.stream_generation, event) ∈ s.pushed
  dropped : ∀ answer ∈ s.answers, ∀ first rest, answer.2.events = first :: rest →
    answer.2.dropped_events = s.pushed.countP (between answer.2.stream_generation answer.1 first.sequence)

structure Lively (options : Options) (s : Registry Payload) : Prop where
  ended : ∀ input answer, (step options s input).answers = answer :: s.answers → answer.2.ended = true →
    (step options s input).undelivered answer.2.sequence = []
  /-- A watch does not wait while there is something for it. -/
  prompt : ∀ wait handoff, s.consumer = .returned → s.undelivered s.cursor ≠ [] →
    ∃ answer, (step options s (.next wait handoff)).answers = (s.cursor, answer) :: s.answers ∧
      answer.events = (s.undelivered s.cursor).take options.maxBatch
  others : ∀ afterSequence wait handoff, s.undelivered afterSequence ≠ [] →
    (step options s (.watch afterSequence wait handoff)).others = s.others ++ [⟨afterSequence, .returned⟩]
  /-- A push wakes every watch. -/
  woken : ∀ event, s.isEnded = false → (step options s (.push event)).consumer ≠ .waiting ∧
    ∀ watch ∈ (step options s (.push event)).others, watch.phase ≠ .waiting
  /-- Watches deliver what the buffer has, a batch at a time. -/
  drains : s.consumer = .returned → ∀ watches : List (Option Rat × Bool),
    (watches.foldl (fun s watch => step options s (.next watch.1 watch.2)) s).delivered =
      s.delivered ++ (s.undelivered s.cursor).take (watches.length * options.maxBatch)

/-- The states of a run. -/
abbrev feed (options : Options) (inputs : Nat → Input Payload) (n : Nat) : Registry Payload :=
  Machine.states (step options) initial inputs n

/-- The consumer goes on, and what is resolved resumes. -/
def Fair (options : Options) (inputs : Nat → Input Payload) : Prop :=
  Machine.Fair (step options) initial inputs (fun s => s.consumer = .returned)
      (fun input => ∃ wait handoff, input = .next wait handoff) ∧
    Machine.Fair (step options) initial inputs (fun s => s.consumer = .woken) (fun input => input = .resume none)

end LetAgents.Daemon.AgentStreamRegistry

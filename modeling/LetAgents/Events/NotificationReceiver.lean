import LetAgents.Lib.Machine
import LetAgents.Lib.OrderedMap

/-!
# The ordered receiver of notifications

Source: src/api/server/event-bridge/ordered-notification-receiver.ts:5-179.

A notification is queued in the lane of its room and waits, once it is the first there, for
the promises that it has captured: the tail of its origin and the last room-less
notification, or all tails when it is room-less itself. The steps are what the event loop
takes up: a call of the receiver, a drain whose promises have resolved, a run that settles.

Modelling boundary: a promise is the number of the notification that resolves it;
`lane.running` says that the drain of the lane is suspended; the branch of the outer
`finally` that drains a lane again is left out, since only an `onLoss` or a clock that throws
leaves a queue behind in an open receiver.
-/
namespace LetAgents.Events

open Lib

/-! ## Notifications -/

/-- `completion`: the number of the notification, in the order of acceptance. -/
structure OrderedNotificationWork where
  origin : String
  roomId : Option String
  queuedAt : Int
  generation : Nat
  previousOrigin : Option Nat
  previousGlobalBarrier : List Nat
  completion : Nat
  deriving DecidableEq

/-- Where the drain of a lane is suspended. -/
inductive Awaiting where
  | predecessors
  | run
  deriving DecidableEq

def MAX_NOTIFICATION_ORIGINS : Nat := 1024
def MAX_QUEUED_NOTIFICATIONS_PER_ORIGIN : Nat := 128
def MAX_OUTSTANDING_NOTIFICATIONS : Nat := 1024
def NOTIFICATION_QUEUE_DEADLINE_MS : Nat := 10000

/-- `now`: what the clock gives at its readings, one after the other. -/
structure ReceiverOptions where
  maxOrigins : Option Nat
  maxQueuedPerOrigin : Option Nat
  maxOutstanding : Option Nat
  deadlineMs : Option Nat
  now : Nat → Int

namespace ReceiverOptions

variable (options : ReceiverOptions)

def origins : Nat := max 1 (options.maxOrigins.getD MAX_NOTIFICATION_ORIGINS)

def queuedPerOrigin : Nat :=
  max 1 (options.maxQueuedPerOrigin.getD MAX_QUEUED_NOTIFICATIONS_PER_ORIGIN)

def outstanding : Nat := max 1 (options.maxOutstanding.getD MAX_OUTSTANDING_NOTIFICATIONS)

def deadline : Nat := max 1 (options.deadlineMs.getD NOTIFICATION_QUEUE_DEADLINE_MS)

end ReceiverOptions

/-- The receiver; `accepted`, `started`, `finished`, `ran` (finished with a run that settled
while the receiver was open) and `losses` (the calls of `onLoss`) are history. -/
structure Receiver where
  lanes : OrderedMap String (List OrderedNotificationWork)
  originTails : OrderedMap String Nat
  globalBarrierTail : Option Nat
  closed : Bool
  generation : Nat
  outstanding : Nat
  drains : String → Option (OrderedNotificationWork × Awaiting)
  readings : Nat
  accepted : List OrderedNotificationWork
  started : List Nat
  finished : List Nat
  ran : List Nat
  losses : List (String × Option String)

namespace Receiver

def initial : Receiver where
  lanes := .empty
  originTails := .empty
  globalBarrierTail := none
  closed := false
  generation := 0
  outstanding := 0
  drains _ := none
  readings := 0
  accepted := []
  started := []
  finished := []
  ran := []
  losses := []

def laneKey (origin : String) : Option String → String
  | some roomId => if roomId = "" then "origin:" ++ origin else "room:" ++ roomId
  | none => "origin:" ++ origin

def queue (s : Receiver) (key : String) : List OrderedNotificationWork :=
  (s.lanes.get key).getD []

def read (s : Receiver) : Receiver := { s with readings := s.readings + 1 }

def onLoss (s : Receiver) (reason : String) (roomId : Option String) : Receiver :=
  { s with losses := s.losses ++ [(reason, roomId)] }

def resolved (s : Receiver) (promise : Nat) : Bool := promise ∈ s.finished

/-- `Promise.all([work.previousOrigin, work.previousGlobalBarrier])` has resolved. -/
def free (s : Receiver) (work : OrderedNotificationWork) : Bool :=
  work.previousOrigin.all s.resolved && work.previousGlobalBarrier.all s.resolved

/-- The next reading of the clock is past the notification's deadline. -/
def overdue (options : ReceiverOptions) (s : Receiver) (work : OrderedNotificationWork) : Bool :=
  options.deadline ≤ options.now s.readings - work.queuedAt

def isCurrent (s : Receiver) (work : OrderedNotificationWork) : Bool :=
  !s.closed && work.generation = s.generation

/-- The `finally` of a notification. -/
def complete (s : Receiver) (work : OrderedNotificationWork) : Receiver :=
  { s with
    finished := s.finished ++ [work.completion]
    originTails :=
      if s.originTails.get work.origin = some work.completion then s.originTails.delete work.origin
      else s.originTails
    outstanding := s.outstanding - 1 }

/-- The deadline drops the notification. -/
def expire (s : Receiver) (work : OrderedNotificationWork) : Receiver :=
  (s.onLoss "notification_queue_deadline" work.roomId).complete work

/-- The `finally` of a drain. -/
def leave (s : Receiver) (key : String) : Receiver :=
  { s with lanes := s.lanes.delete key, drains := Function.update s.drains key none }

/-! ## Drains -/

/-- The loop of `drain` over the queue of its lane, up to the next `await`. -/
def drainQueue (options : ReceiverOptions) (key : String) :
    List OrderedNotificationWork → Receiver → Receiver
  | [], s => s.leave key
  | work :: rest, s =>
    if s.overdue options work then
      drainQueue options key rest (s.read.expire work)
    else
      { s.read with
        lanes := s.lanes.set key rest
        drains := Function.update s.drains key (some (work, .predecessors)) }

/-- The loop goes on: `while (!closed)`. -/
def goOn (options : ReceiverOptions) (s : Receiver) (key : String) : Receiver :=
  if s.closed then s.leave key else drainQueue options key (s.queue key) s

def drain (options : ReceiverOptions) (s : Receiver) (key : String) : Receiver :=
  if (s.drains key).isSome then s else s.goOn options key

/-- What the notification waited for has resolved. -/
def proceed (options : ReceiverOptions) (s : Receiver) (key : String) : Receiver :=
  match s.drains key with
  | some (work, .predecessors) =>
    if s.free work then
      if s.overdue options work then (s.read.expire work).goOn options key
      else
        { s.read with
          drains := Function.update s.drains key (some (work, .run))
          started := s.started ++ [work.completion] }
    else s
  | _ => s

/-- What is noted of a run that settles. -/
def note (s : Receiver) (work : OrderedNotificationWork) (fulfilled : Bool) : Receiver :=
  if fulfilled then
    if s.isCurrent work then { s with ran := s.ran ++ [work.completion] }
    else s.onLoss "notification_receiver_retired" work.roomId
  else s.onLoss "notification_handler_failed" work.roomId

/-- The run of a notification settles. -/
def settle (options : ReceiverOptions) (s : Receiver) (key : String) (fulfilled : Bool) :
    Receiver :=
  match s.drains key with
  | some (work, .run) => ((s.note work fulfilled).complete work).goOn options key
  | _ => s

/-! ## Calls -/

/-- The promises that a new notification waits for besides the tail of its origin. -/
def barrier (s : Receiver) (roomId : Option String) : List Nat :=
  match roomId with
  | none => s.globalBarrierTail.toList ++ s.originTails.values
  | some _ => s.globalBarrierTail.toList

def newWork (options : ReceiverOptions) (s : Receiver) (origin : String) (roomId : Option String) :
    OrderedNotificationWork where
  origin := origin
  roomId := roomId
  queuedAt := options.now s.readings
  generation := s.generation
  previousOrigin := s.originTails.get origin
  previousGlobalBarrier := s.barrier roomId
  completion := s.accepted.length

/-- The notification goes to the end of its lane. -/
def push (s : Receiver) (work : OrderedNotificationWork) : Receiver :=
  { s.read with
    originTails := s.originTails.set work.origin work.completion
    globalBarrierTail := if work.roomId = none then some work.completion else s.globalBarrierTail
    lanes := s.lanes.set (laneKey work.origin work.roomId)
      (s.queue (laneKey work.origin work.roomId) ++ [work])
    outstanding := s.outstanding + 1
    accepted := s.accepted ++ [work] }

/-- Why a notification is not accepted. -/
def refusal (options : ReceiverOptions) (s : Receiver) (origin : String) (roomId : Option String) :
    Option String :=
  if s.closed then some "notification_receiver_closed"
  else if options.outstanding ≤ s.outstanding then some "notification_total_overflow"
  else if (s.lanes.get (laneKey origin roomId)).isNone && options.origins ≤ s.lanes.size then
    some "notification_origin_overflow"
  else if options.queuedPerOrigin ≤ (s.queue (laneKey origin roomId)).length then
    some "notification_queue_overflow"
  else none

def enqueue (options : ReceiverOptions) (s : Receiver) (origin : String)
    (roomId : Option String) : Receiver :=
  match s.refusal options origin roomId with
  | some reason => s.onLoss reason roomId
  | none => (s.push (s.newWork options origin roomId)).drain options (laneKey origin roomId)

/-- What waits in the lanes behind their drains. -/
def queued (s : Receiver) : List OrderedNotificationWork := s.lanes.values.flatten

def close (s : Receiver) : Receiver :=
  if s.closed then s
  else
    { s with
      closed := true
      generation := s.generation + 1
      finished := s.finished ++ s.queued.map (·.completion)
      outstanding := s.outstanding - s.queued.length
      lanes := .empty
      originTails := .empty
      losses := s.losses ++ (s.queued.map (·.roomId)).eraseDups.map
        fun roomId => ("notification_receiver_closed", roomId) }

theorem close_of_closed {s : Receiver} (closed : s.closed = true) : s.close = s := if_pos closed

end Receiver

inductive ReceiverInput where
  | enqueue (origin : String) (roomId : Option String)
  | proceed (key : String)
  | settle (key : String) (fulfilled : Bool)
  | close
  deriving DecidableEq

def receive (options : ReceiverOptions) (s : Receiver) : ReceiverInput → Receiver
  | .enqueue origin roomId => s.enqueue options origin roomId
  | .proceed key => s.proceed options key
  | .settle key fulfilled => s.settle options key fulfilled
  | .close => s.close

end LetAgents.Events

import LetAgents.Mcp.SseCuts
import LetAgents.Lib.Machine

/-!
# A session with a server

The server numbers its events, and every cursor stands for the first event after it. What a
connection gives is a part of the bytes of what the server sends from some event on. `told`
is what came of it, next to the client's own state: the items that came whole, and the
frames that the client gave up with a gap.
-/
namespace LetAgents.Mcp

open Lib Lib.Js

inductive SseSent where
  | event (n : Nat)
  /-- `position`: the event that comes next. -/
  | sync (sync : SseSync) (position : Nat)
  | comment (texts : List Text)
  deriving DecidableEq

structure SseServer (parse : Text → Option JsValue) where
  event : Nat → SseEvent
  /-- The first event after the cursor. -/
  resume : Text → Nat
  valid : ∀ n, (SseItem.event (event n)).Valid parse
  resume_id : ∀ n, resume (event n).id = n + 1

def SseSync.cursor (parse : Text → Option JsValue) (s : SseSync) : Option Text :=
  syncCursor (s.payload parse) (s.idField.bind nonblank)

variable {parse : Text → Option JsValue} (server : SseServer parse)

namespace SseServer

def item : SseSent → SseItem
  | .event n => .event (server.event n)
  | .sync s _ => .sync s
  | .comment texts => .comment texts

/-- The event that comes next. -/
def next (position : Nat) : SseSent → Nat
  | .event n => n + 1
  | .sync _ position => position
  | .comment _ => position

/-- What the server sends from an event on: the events in their order. Where a `room_sync`
leaves events out it announces a gap, and its cursor stands for the event that comes next. -/
def Serves : Nat → List SseSent → Prop
  | _, [] => True
  | position, sent :: rest =>
    (server.item sent).Valid parse ∧
      (match sent with
        | .event n => n = position
        | .sync s next =>
          position ≤ next ∧ (announcesGap (s.payload parse) = false → next = position) ∧
            ∀ cursor ∈ s.cursor parse, cursor ≠ [] → server.resume cursor = next
        | .comment _ => True) ∧
      Serves (next position sent) rest

def bytes (sent : List SseSent) : List UInt8 := (sent.map server.item).flatMap SseItem.bytes

/-- How many items came whole. -/
def count (sent : List SseSent) (bytes : List UInt8) : Nat :=
  (SseItem.whole (sent.map server.item) bytes).1.length

/-- What came of the next item. -/
def left (sent : List SseSent) (bytes : List UInt8) : List UInt8 :=
  (SseItem.whole (sent.map server.item) bytes).2

/-- The event after the items of which something came. -/
def begun (position : Nat) (sent : List SseSent) (bytes : List UInt8) : Nat :=
  (sent.take (server.count sent bytes + if server.left sent bytes = [] then 0 else 1)).foldl
    next position

/-- Nothing but line ends is missing of the next item. -/
def Ends (sent : List SseSent) (bytes : List UInt8) : Prop :=
  ∃ item ∈ sent[server.count sent bytes]?,
    server.left sent bytes = TextDecoder.encode (server.item item).body ∨
      server.left sent bytes = TextDecoder.encode ((server.item item).body ++ ['\n'])

instance (sent : List SseSent) (bytes : List UInt8) : Decidable (server.Ends sent bytes) := by
  unfold Ends
  infer_instance

/-- The text that is left at the end of the body. -/
def trailing (sent : List SseSent) (bytes : List UInt8) : Text :=
  (TextDecoder.idle.decode (server.left sent bytes)).2 ++
    (TextDecoder.idle.decode (server.left sent bytes)).1.flush

end SseServer

structure SseConnection where
  /-- The first event of the connection. -/
  start : Nat
  sent : List SseSent
  /-- What was read. -/
  chunks : List (List UInt8)
  ended : Bool

inductive SseTurn where
  | connection (connection : SseConnection)
  | refused
  | resubscribe
  | evict

def SseTurn.input : SseTurn → SseInput
  | .connection c => .opened c.chunks c.ended
  | .refused => .refused
  | .resubscribe => .resubscribe
  | .evict => .evict

inductive SseTold where
  | read (sent : SseSent)
  /-- The client gave its connection up; the server had come to this event. -/
  | lost (position : Nat)
  deriving DecidableEq

/-- What came of a connection that ended with this failure. -/
def SseConnection.told (c : SseConnection) : Option SseFailure → List SseTold
  | some .overflow =>
    (c.sent.take (server.count c.sent c.chunks.dropLast.flatten)).map .read ++
      [.lost (server.begun c.start c.sent c.chunks.flatten)]
  | some .malformed =>
    (c.sent.take (server.count c.sent c.chunks.flatten)).map .read ++
      [.lost (server.begun c.start c.sent c.chunks.flatten)]
  | none =>
    (c.sent.take (server.count c.sent c.chunks.flatten +
      if c.ended ∧ server.Ends c.sent c.chunks.flatten then 1 else 0)).map .read

structure SseSession where
  client : SseClient
  told : List SseTold

namespace SseSession

variable (roomId : String)

def initial : SseSession := ⟨.initial, []⟩

def step (s : SseSession) (turn : SseTurn) : SseSession :=
  { client := s.client.step parse roomId turn.input
    told := s.told ++
      match turn with
      | .connection c =>
        c.told server (s.client.openStream parse roomId c.chunks c.ended).failure
      | _ => [] }

/-- What the server and the network may do. The client reads nothing after it has failed. -/
def Answers (s : SseSession) : SseTurn → Prop
  | .connection c =>
    server.Serves c.start c.sent ∧ c.chunks.flatten <+: server.bytes c.sent ∧
      (∀ cursor ∈ s.client.header, c.start = server.resume cursor) ∧
      (s.client.read parse roomId c.chunks.dropLast).room.failure = none
  | _ => True

end SseSession

/-! ## What must hold -/

namespace SseTold

/-- The callbacks for what came. -/
def calls (roomId : String) : SseTold → List SseCallback
  | .read sent => (server.item sent).calls parse
  | .lost _ => [lostBoundary roomId]

/-- The events before this one were announced as lost, or had been passed. -/
def gap (parse : Text → Option JsValue) : SseTold → Option Nat
  | .read (.sync s position) => if announcesGap (s.payload parse) then some position else none
  | .lost position => some position
  | _ => none

end SseTold

/-- The event was passed, or a gap was announced when the server had gone past it. -/
def Accounted (parse : Text → Option JsValue) (told : List SseTold) (n : Nat) : Prop :=
  .read (.event n) ∈ told ∨ ∃ t ∈ told, ∃ position ∈ t.gap parse, n < position

/-- No event from `base` on is missing before this one. -/
def Clear (parse : Text → Option JsValue) (base : Nat) (told : List SseTold) (position : Nat) : Prop :=
  ∀ n, base ≤ n → n < position → Accounted parse told n

/-- The id of an event that was passed, or the cursor of a `room_sync`. -/
def Names (told : List SseTold) (cursor : Text) : Prop :=
  (∃ n, .read (.event n) ∈ told ∧ cursor = (server.event n).id) ∨
    ∃ s position, .read (.sync s position) ∈ told ∧ s.cursor parse = some cursor

/-- No event is skipped silently. -/
structure NeverSkips (roomId : String) (base : Nat) (s : SseSession) : Prop where
  calls : s.client.calls = s.told.flatMap (SseTold.calls server roomId)
  inOrder : ∀ before n after, s.told = before ++ .read (.event n) :: after →
    Clear parse base before n
  remembered : ∀ cursor ∈ s.client.remembered, Names server s.told cursor

/-- The callbacks of a connection depend on its bytes only, where no chunk takes the bytes
that are held over the bound. -/
def ChunksDoNotMatter (parse : Text → Option JsValue) (roomId : String) (client : SseClient) : Prop :=
  ∀ chunks chunks' ended, chunks.flatten = chunks'.flatten →
    Fits parse roomId client.connected chunks → Fits parse roomId client.connected chunks' →
      client.openStream parse roomId chunks ended = client.openStream parse roomId chunks' ended

/-! ## When the code meets it -/

/-- The text has neither an id nor data, or its data is not JSON. -/
def Unread (parse : Text → Option JsValue) (rawEvent : Text) : Prop :=
  let lines := (rawEvent.filter (· ≠ '\r')).splitOn '\n'
  match dataOf lines with
  | [] => fieldOf "id:" lines = none
  | dataLines => parse ("\n".toList.intercalate dataLines) = none

/-- A connection without a `Last-Event-ID` starts where nothing is missing, and what is left
at the end of a body is a whole item, or is not read. -/
def SseSession.Meets (base : Nat) (s : SseSession) : SseTurn → Prop
  | .connection c =>
    (s.client.header = none → Clear parse base s.told c.start) ∧
      (c.ended = true → (server.trailing c.sent c.chunks.flatten).trim = [] ∨
        Unread parse (server.trailing c.sent c.chunks.flatten) ∨
        server.Ends c.sent c.chunks.flatten)
  | _ => True

end LetAgents.Mcp

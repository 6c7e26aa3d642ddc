import LetAgents.Lib.Js
import LetAgents.Lib.TextDecoder

/-!
# The event stream client

Source: src/mcp/sse-client.ts:3, 108-363. A room's stream is opened again and again, each
time with the cursor that the last one left, and its frames are handed to `onMessage`, or to
`onGap` where something was lost.

Modelling boundary: `JSON.parse` is a parameter. The callbacks cannot fail here (what they
throw is only logged), the waiting between two connections and the routes of a room take no
part in it, and what other rooms do to `eventCursors` is that they may drive this room's entry out.
-/
namespace LetAgents.Mcp

open Lib Lib.Js

def MAX_SSE_FRAME_BYTES : Nat := 1024 * 1024

abbrev Text : Type := List Char

namespace Text

def trimStart (text : Text) : Text := text.dropWhile isWhitespace

def trim (text : Text) : Text := (trimStart (trimStart text).reverse).reverse

/-- `text.startsWith(start) ? text.slice(start.length) : none`. -/
def after? (start : String) (text : Text) : Option Text :=
  if start.toList.isPrefixOf text then some (text.drop start.toList.length) else none

/-- The bytes of `new TextEncoder().encode(text)`. -/
def bytes (text : Text) : Nat := (text.map Char.utf8Size).sum

end Text

inductive SseCallback where
  | message (payload : JsValue)
  | gap (payload : JsValue)

inductive SseFailure where
  | overflow
  | malformed

variable (parse : Text → Option JsValue)

/-! ## Frames -/

/-- The first line that starts so, without it and trimmed; `none` where that leaves nothing. -/
def fieldOf (start : String) (lines : List Text) : Option Text :=
  ((lines.findSome? (Text.after? start)).map Text.trim).filter (· ≠ [])

/-- The `data:` lines. -/
def dataOf (lines : List Text) : List Text :=
  (lines.filterMap (Text.after? "data:")).map Text.trimStart

/-- The cursor that a `room_sync` leaves: its own, where it has one. -/
def syncCursor (payload : JsValue) (otherwise : Option Text) : Option Text :=
  match payload with
  | .object properties =>
    match properties.lookup "event_cursor" with
    | some (.string cursor) => some cursor.toList
    | some _ => none
    | none => otherwise
  | _ => otherwise

/-- `payload.gap === true`. -/
def announcesGap (payload : JsValue) : Bool :=
  match payload.property "gap" with
  | .boolean gap => gap
  | _ => false

/-- `handleEvent`: the cursor and the callbacks, or `none` where it throws. -/
def handleEvent (rawEvent : Text) (lastEventId : Option Text) :
    Option (Option Text × List SseCallback) :=
  let lines := (rawEvent.filter (· ≠ '\r')).splitOn '\n'
  let eventName := (fieldOf "event:" lines).getD "message".toList
  let frameId := fieldOf "id:" lines
  match dataOf lines with
  | [] => some (frameId.or lastEventId, [])
  | dataLines =>
    match parse ("\n".toList.intercalate dataLines) with
    | none => none
    | some payload =>
      if eventName = "room_sync".toList then
        match payload with
        | .null => none
        | payload =>
          some (syncCursor payload (frameId.or lastEventId),
            if announcesGap payload then [.gap payload] else [])
      else some (frameId.or lastEventId, [.message payload])

/-- The texts before each of the blank lines, and what is left. -/
def frames (current : Text) : Text → List Text × Text
  | '\n' :: '\n' :: rest => (current :: (frames [] rest).1, (frames [] rest).2)
  | c :: rest => frames (current ++ [c]) rest
  | [] => ([], current)

variable (roomId : String)

/-- The gap that the client itself announces. -/
def lostBoundary : SseCallback :=
  .gap (.object [("room_id", .string roomId), ("event_cursor", .null), ("gap", .boolean true)])

/-- `rememberEventCursor`. -/
def rememberEventCursor (cursor : Option Text) : Option Text := cursor.filter (· ≠ [])

/-! ## One connection -/

/-- The cursors of a room and the callbacks made for it, while it is read. -/
structure RoomStream where
  lastEventId : Option Text
  /-- `eventCursors.get(roomId)`. -/
  remembered : Option Text
  /-- The callbacks made so far. -/
  calls : List SseCallback
  failure : Option SseFailure

namespace RoomStream

/-- The frame is lost, and the cursor with it. -/
def fail (failure : SseFailure) (s : RoomStream) : RoomStream :=
  { s with
    remembered := none
    calls := s.calls ++ [lostBoundary roomId]
    failure := some failure }

def handleFrame (s : RoomStream) (rawEvent : Text) : RoomStream :=
  if s.failure.isSome then s
  else
    match handleEvent parse rawEvent s.lastEventId with
    | none => s.fail roomId .malformed
    | some (lastEventId, calls) =>
      { s with
        lastEventId := lastEventId
        remembered := rememberEventCursor lastEventId
        calls := s.calls ++ calls }

end RoomStream

structure SseStream where
  decoder : TextDecoder
  started : Bool
  buffer : Text
  bufferBytes : Nat
  /-- All bytes that were read. -/
  received : List UInt8
  room : RoomStream

namespace SseStream

/-- What `reader.read()` gives. -/
def receive (s : SseStream) (value : List UInt8) : SseStream :=
  if s.room.failure.isSome then s
  else
    let decoded := s.decoder.decode value
    let text := TextDecoder.strip s.started decoded.2
    let buffer := s.buffer ++ text.2
    let bufferBytes := s.bufferBytes + value.length
    let received := s.received ++ value
    if MAX_SSE_FRAME_BYTES < bufferBytes then
      ⟨decoded.1, text.1, buffer, bufferBytes, received, s.room.fail roomId .overflow⟩
    else
      let found := frames [] buffer
      ⟨decoded.1, text.1, found.2, if found.1 = [] then bufferBytes else found.2.bytes, received,
        found.1.foldl (RoomStream.handleFrame parse roomId) s.room⟩

/-- The text that is left when the body has ended. -/
def trailing (s : SseStream) : Text := s.buffer ++ s.decoder.flush

/-- The room when the body has ended. -/
def finish (s : SseStream) : RoomStream :=
  if s.room.failure.isSome ∨ s.trailing.trim = [] then s.room
  else s.room.handleFrame parse roomId s.trailing

end SseStream

/-! ## The subscription -/

structure SseClient where
  /-- `lastEventId` of `consumeStream`. -/
  lastEventId : Option Text
  remembered : Option Text
  calls : List SseCallback

namespace SseClient

def initial : SseClient := ⟨none, none, []⟩

/-- The `Last-Event-ID` header. -/
def header (s : SseClient) : Option Text := s.lastEventId.filter (· ≠ [])

/-- A connection before its first byte. -/
def connected (s : SseClient) : SseStream :=
  ⟨.idle, false, [], 0, [], ⟨s.lastEventId, s.remembered, s.calls, none⟩⟩

/-- The stream after the chunks that were read. -/
def read (s : SseClient) (chunks : List (List UInt8)) : SseStream :=
  chunks.foldl (SseStream.receive parse roomId) s.connected

/-- The room after a connection that gave these bytes; `ended`: its body came to its end. -/
def openStream (s : SseClient) (chunks : List (List UInt8)) (ended : Bool) : RoomStream :=
  if ended then (s.read parse roomId chunks).finish parse roomId else (s.read parse roomId chunks).room

end SseClient

inductive SseInput where
  | opened (chunks : List (List UInt8)) (ended : Bool)
  /-- The request fails. -/
  | refused
  /-- `unsubscribe`, and `subscribe` for the same room. -/
  | resubscribe
  /-- The cursors of 32 other rooms drive this one out. -/
  | evict

/-- A connection that throws leaves `lastEventId` as it was, or `null`. -/
def SseClient.step (s : SseClient) : SseInput → SseClient
  | .opened chunks ended =>
    let room := s.openStream parse roomId chunks ended
    { lastEventId :=
        if room.failure.isSome then none else if ended then room.lastEventId else s.lastEventId
      remembered := room.remembered
      calls := room.calls }
  | .refused => s
  | .resubscribe => { s with lastEventId := s.remembered }
  | .evict => { s with remembered := none }

end LetAgents.Mcp

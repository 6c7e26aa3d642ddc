import LetAgents.Mcp.SseClient

/-!
# Frames do not depend on the chunks

What is left after the last blank line is read again with the next chunk, so a text gives the
same frames however it arrives. A connection that never holds too many bytes at once makes
the callbacks that its bytes as a whole make.
-/
namespace LetAgents.Mcp

open Lib Lib.Js

/-! ## Blank lines -/

theorem frames_append_of_settled (more : Text) : ∀ text current : Text,
    frames [] (current ++ (text ++ more)) = frames current (text ++ more) →
      frames current (text ++ more) =
        ((frames current text).1 ++ (frames [] ((frames current text).2 ++ more)).1,
          (frames [] ((frames current text).2 ++ more)).2)
  | [], current, settled => by
    simp only [List.nil_append] at settled
    simp only [frames, List.nil_append, settled]
  | [c], current, settled => by
    have alone : frames current [c] = ([], current ++ [c]) := by
      by_cases blank : c = '\n' <;> simp [frames]
    rw [alone, ← settled, List.append_assoc]
    rfl
  | c :: d :: rest, current, settled => by
    by_cases blank : c = '\n' ∧ d = '\n'
    · obtain ⟨rfl, rfl⟩ := blank
      simp only [List.cons_append, frames]
      rw [frames_append_of_settled more rest [] rfl]
    · have next : ∀ tail, frames current (c :: d :: tail) = frames (current ++ [c]) (d :: tail) := by
        intro tail
        rw [frames.eq_def]
        split
        · rename_i same
          simp only [List.cons.injEq] at same
          exact absurd ⟨same.1, same.2.1⟩ blank
        · rename_i same
          cases same
          rfl
        · rename_i same
          cases same
      simp only [List.cons_append] at settled ⊢
      rw [next, next] at *
      refine frames_append_of_settled more (d :: rest) (current ++ [c]) ?_
      rw [List.append_assoc]
      exact settled

theorem frames_append (text more : Text) :
    frames [] (text ++ more) =
      ((frames [] text).1 ++ (frames [] ((frames [] text).2 ++ more)).1,
        (frames [] ((frames [] text).2 ++ more)).2) :=
  frames_append_of_settled more text [] rfl

/-! ## What a connection has read -/

/-- The text of the bytes of a connection. -/
def textOf (bytes : List UInt8) : Text := (TextDecoder.strip false (TextDecoder.idle.decode bytes).2).2

variable (parse : Text → Option JsValue) (roomId : String)

/-- The room after the frames of these bytes. -/
def roomAfter (room : RoomStream) (bytes : List UInt8) : RoomStream :=
  (frames [] (textOf bytes)).1.foldl (RoomStream.handleFrame parse roomId) room

/-- The room after these bytes and the end of the body. -/
def roomAtEnd (room : RoomStream) (bytes : List UInt8) : RoomStream :=
  let room := roomAfter parse roomId room bytes
  let trailing := (frames [] (textOf bytes)).2 ++ (TextDecoder.idle.decode bytes).1.flush
  if room.failure.isSome ∨ trailing.trim = [] then room else room.handleFrame parse roomId trailing

variable {parse roomId} {room : RoomStream} {s : SseStream}

theorem RoomStream.handleFrame_of_failed (failed : room.failure.isSome = true) (rawEvent : Text) :
    room.handleFrame parse roomId rawEvent = room := if_pos failed

theorem RoomStream.foldl_of_failed (failed : room.failure.isSome = true) (raws : List Text) :
    raws.foldl (RoomStream.handleFrame parse roomId) room = room := by
  induction raws with
  | nil => rfl
  | cons raw rest ih => rw [List.foldl_cons, handleFrame_of_failed failed, ih]

theorem RoomStream.handleFrame_failure (unfailed : room.failure ≠ some .overflow) (rawEvent : Text) :
    (room.handleFrame parse roomId rawEvent).failure ≠ some .overflow := by
  unfold handleFrame
  split
  · exact unfailed
  · split
    · simp [fail]
    · exact unfailed

theorem RoomStream.foldl_failure (raws : List Text) :
    ∀ room : RoomStream, room.failure ≠ some .overflow →
      (raws.foldl (RoomStream.handleFrame parse roomId) room).failure ≠ some .overflow := by
  induction raws with
  | nil => exact fun room unfailed => unfailed
  | cons raw rest ih => exact fun room unfailed => ih _ (handleFrame_failure unfailed raw)

/-- The stream is what its bytes make of it. -/
structure ReadAs (parse : Text → Option JsValue) (roomId : String) (room : RoomStream)
    (s : SseStream) : Prop where
  decoder : s.decoder = (TextDecoder.idle.decode s.received).1
  started : s.started = (TextDecoder.strip false (TextDecoder.idle.decode s.received).2).1
  buffer : s.buffer = (frames [] (textOf s.received)).2
  room : s.room = roomAfter parse roomId room s.received
  unfailed : s.room.failure ≠ some .overflow

theorem textOf_append (bytes more : List UInt8) :
    textOf (bytes ++ more) = textOf bytes ++
      (TextDecoder.strip (TextDecoder.strip false (TextDecoder.idle.decode bytes).2).1
        ((TextDecoder.idle.decode bytes).1.decode more).2).2 := by
  unfold textOf
  rw [TextDecoder.decode_append, TextDecoder.strip_append]

/-- The bytes of one chunk more. -/
theorem roomAfter_append (bytes more : List UInt8) :
    roomAfter parse roomId room (bytes ++ more) =
      (frames [] ((frames [] (textOf bytes)).2 ++
        (TextDecoder.strip (TextDecoder.strip false (TextDecoder.idle.decode bytes).2).1
          ((TextDecoder.idle.decode bytes).1.decode more).2).2)).1.foldl
            (RoomStream.handleFrame parse roomId) (roomAfter parse roomId room bytes) := by
  unfold roomAfter
  rw [textOf_append, frames_append, List.foldl_append]

theorem ReadAs.receive (reads : ReadAs parse roomId room s) (working : s.room.failure = none)
    (short : s.bufferBytes + value.length ≤ MAX_SSE_FRAME_BYTES) :
    ReadAs parse roomId room (s.receive parse roomId value) ∧
      (s.receive parse roomId value).received = s.received ++ value := by
  have open_ : s.room.failure.isSome = false := by rw [working]; rfl
  unfold SseStream.receive
  simp only [open_, Bool.false_eq_true, if_false, if_neg (Nat.not_lt.mpr short), and_true]
  constructor <;> dsimp only
  case decoder => rw [TextDecoder.decode_append, reads.decoder]
  case started => rw [TextDecoder.decode_append, TextDecoder.strip_append, reads.started, reads.decoder]
  case buffer =>
    rw [textOf_append, frames_append (textOf s.received), ← reads.buffer, ← reads.started,
      ← reads.decoder]
  case room => rw [roomAfter_append, reads.buffer, reads.started, reads.decoder, reads.room]
  case unfailed => exact RoomStream.foldl_failure _ _ (by rw [working]; simp)

/-- No chunk takes the bytes that are held over the bound. -/
def Fits (parse : Text → Option JsValue) (roomId : String) (s : SseStream) :
    List (List UInt8) → Prop
  | [] => True
  | value :: rest =>
    (s.room.failure = none → s.bufferBytes + value.length ≤ MAX_SSE_FRAME_BYTES) ∧
      Fits parse roomId (s.receive parse roomId value) rest

theorem receive_of_failed (failed : s.room.failure.isSome = true) (chunks : List (List UInt8)) :
    chunks.foldl (SseStream.receive parse roomId) s = s := by
  induction chunks with
  | nil => rfl
  | cons value rest ih =>
    have same : s.receive parse roomId value = s := if_pos failed
    rw [List.foldl_cons, same, ih]

/-- Where the room has failed, the bytes that follow change nothing. -/
theorem ReadAs.foldl (chunks : List (List UInt8)) :
    ∀ s : SseStream, ReadAs parse roomId room s → Fits parse roomId s chunks →
      ReadAs parse roomId room (chunks.foldl (SseStream.receive parse roomId) s) ∧
        (chunks.foldl (SseStream.receive parse roomId) s).room =
          roomAfter parse roomId room (s.received ++ chunks.flatten) ∧
        ((chunks.foldl (SseStream.receive parse roomId) s).room.failure = none →
          (chunks.foldl (SseStream.receive parse roomId) s).received =
            s.received ++ chunks.flatten) := by
  induction chunks with
  | nil =>
    intro s reads _
    simp only [List.foldl_nil, List.flatten_nil, List.append_nil, implies_true, and_true]
    exact ⟨reads, reads.room⟩
  | cons value rest ih =>
    intro s reads fits
    cases working : s.room.failure with
    | some failure =>
      have failed : s.room.failure.isSome = true := by rw [working]; rfl
      rw [receive_of_failed failed]
      refine ⟨reads, ?_, fun open_ => absurd (open_.symm.trans working) (by simp)⟩
      rw [roomAfter_append, ← reads.room, RoomStream.foldl_of_failed failed]
    | none =>
      obtain ⟨next, received⟩ := reads.receive working (fits.1 working)
      obtain ⟨reads', room', bytes⟩ := ih _ next fits.2
      rw [received, List.append_assoc, ← List.flatten_cons] at room' bytes
      exact ⟨reads', room', bytes⟩

theorem readAs_connected (client : SseClient) :
    ReadAs parse roomId client.connected.room client.connected :=
  ⟨rfl, rfl, rfl, rfl, by simp [SseClient.connected]⟩

/-- What a connection makes of its chunks is what its bytes make. -/
theorem ReadAs.openStream {client : SseClient}
    (reads : ReadAs parse roomId client.connected.room (client.read parse roomId chunks))
    (room : (client.read parse roomId chunks).room =
      roomAfter parse roomId client.connected.room chunks.flatten)
    (bytes : (client.read parse roomId chunks).room.failure = none →
      (client.read parse roomId chunks).received = chunks.flatten) (ended : Bool) :
    client.openStream parse roomId chunks ended =
      if ended then roomAtEnd parse roomId client.connected.room chunks.flatten
      else roomAfter parse roomId client.connected.room chunks.flatten := by
  cases ended with
  | false => exact room
  | true =>
    change (client.read parse roomId chunks).finish parse roomId = roomAtEnd _ _ _ _
    cases working : (roomAfter parse roomId client.connected.room chunks.flatten).failure with
    | some failure =>
      rw [SseStream.finish, roomAtEnd, if_pos (.inl (by rw [room, working]; rfl)),
        if_pos (.inl (by rw [working]; rfl)), room]
    | none =>
      have trailing : (client.read parse roomId chunks).trailing =
          (frames [] (textOf chunks.flatten)).2 ++
            (TextDecoder.idle.decode chunks.flatten).1.flush := by
        rw [SseStream.trailing, reads.buffer, reads.decoder, bytes (room.symm ▸ working)]
      rw [SseStream.finish, roomAtEnd, trailing]
      by_cases blank : Text.trim ((frames [] (textOf chunks.flatten)).2 ++
          (TextDecoder.idle.decode chunks.flatten).1.flush) = []
      · rw [if_pos (.inr blank), if_pos (.inr blank), room]
      · rw [if_neg (by simp [room, working, blank]), if_neg (by simp [working, blank]), room]

theorem openStream_eq (client : SseClient) (fits : Fits parse roomId client.connected chunks)
    (ended : Bool) :
    client.openStream parse roomId chunks ended =
      if ended then roomAtEnd parse roomId client.connected.room chunks.flatten
      else roomAfter parse roomId client.connected.room chunks.flatten := by
  obtain ⟨reads, room, bytes⟩ := ReadAs.foldl chunks _ (readAs_connected client) fits
  exact ReadAs.openStream reads room bytes ended

/-! ## Where the client gives up -/

theorem receive_overflow (working : s.room.failure = none)
    (long : MAX_SSE_FRAME_BYTES < s.bufferBytes + value.length) :
    (s.receive parse roomId value).room = s.room.fail roomId .overflow := by
  have open_ : s.room.failure.isSome = false := by rw [working]; rfl
  unfold SseStream.receive
  simp only [open_, Bool.false_eq_true, if_false, if_pos long]

/-- A client that has not failed has read all bytes. -/
theorem readAs_of_unfailed (client : SseClient) (chunks : List (List UInt8)) :
    (client.read parse roomId chunks).room.failure = none →
      ReadAs parse roomId client.connected.room (client.read parse roomId chunks) ∧
        (client.read parse roomId chunks).received = chunks.flatten := by
  induction chunks using List.reverseRecOn with
  | nil => exact fun _ => ⟨readAs_connected client, rfl⟩
  | append_singleton chunks value ih =>
    intro unfailed
    have last : client.read parse roomId (chunks ++ [value]) =
        (client.read parse roomId chunks).receive parse roomId value := List.foldl_concat _ _ _ _
    rw [last] at unfailed ⊢
    cases working : (client.read parse roomId chunks).room.failure with
    | some failure =>
      have same : (client.read parse roomId chunks).receive parse roomId value = _ :=
        if_pos (by rw [working]; rfl)
      rw [same, working] at unfailed
      cases unfailed
    | none =>
      obtain ⟨reads, received⟩ := ih working
      by_cases short : (client.read parse roomId chunks).bufferBytes + value.length ≤
          MAX_SSE_FRAME_BYTES
      · obtain ⟨next, all⟩ := reads.receive working short
        refine ⟨next, ?_⟩
        rw [all, received]
        simp
      · rw [receive_overflow working (Nat.lt_of_not_le short)] at unfailed
        cases unfailed

/-- The last chunk is read like the others, or takes the bytes over the bound. -/
theorem read_cases {client : SseClient}
    (working : (client.read parse roomId chunks.dropLast).room.failure = none) :
    (ReadAs parse roomId client.connected.room (client.read parse roomId chunks) ∧
        (client.read parse roomId chunks).received = chunks.flatten) ∨
      (client.read parse roomId chunks).room =
        (roomAfter parse roomId client.connected.room chunks.dropLast.flatten).fail roomId .overflow := by
  obtain ⟨reads, received⟩ := readAs_of_unfailed client _ working
  rcases List.eq_nil_or_concat chunks with rfl | ⟨init, value, rfl⟩
  · exact .inl ⟨reads, received⟩
  · rw [List.concat_eq_append] at *
    rw [List.dropLast_concat] at *
    have last : client.read parse roomId (init ++ [value]) =
        (client.read parse roomId init).receive parse roomId value := List.foldl_concat _ _ _ _
    rw [last]
    by_cases short : (client.read parse roomId init).bufferBytes + value.length ≤ MAX_SSE_FRAME_BYTES
    · obtain ⟨next, all⟩ := reads.receive working short
      refine .inl ⟨next, ?_⟩
      rw [all, received]
      simp
    · right
      rw [receive_overflow working (Nat.lt_of_not_le short), reads.room, received]

end LetAgents.Mcp

import LetAgents.Mcp.SseSession

/-!
# No event is skipped silently

What a connection tells is read item by item: an event that is passed is the next one, and
the cursor that it leaves stands for the event after it. The text that is left when a body
ends is read as well, so a frame that is cut behind its `id:` moves the cursor past an event
that was never passed.
-/
namespace LetAgents.Mcp

open Lib Lib.Js

variable {parse : Text → Option JsValue} {server : SseServer parse} {roomId : String} {base : Nat}

/-! ## What was told stays told -/

section Mono

variable {told more : List SseTold} {n : Nat} {cursor : Text}

theorem Accounted.mono (sub : told ⊆ more) (here : Accounted parse told n) : Accounted parse more n := by
  rcases here with passed | ⟨t, member, gap⟩
  · exact .inl (sub passed)
  · exact .inr ⟨t, sub member, gap⟩

theorem Clear.mono (sub : told ⊆ more) (clear : Clear parse base told n) : Clear parse base more n :=
  fun m low high => (clear m low high).mono sub

theorem Names.mono (sub : told ⊆ more) (named : Names server told cursor) :
    Names server more cursor := by
  rcases named with ⟨n, passed, id⟩ | ⟨s, position, read, own⟩
  · exact .inl ⟨n, sub passed, id⟩
  · exact .inr ⟨s, position, sub read, own⟩

/-- A cursor that can be resumed from. -/
def Good (server : SseServer parse) (base : Nat) (told : List SseTold) (cursor : Option Text) : Prop :=
  ∀ c ∈ cursor, c ≠ [] → Names server told c ∧ Clear parse base told (server.resume c)

theorem Good.mono (sub : told ⊆ more) {cursor : Option Text} (good : Good server base told cursor) :
    Good server base more cursor :=
  fun c here some => ⟨(good c here some).1.mono sub, (good c here some).2.mono sub⟩

theorem Good.remember {cursor : Option Text} (good : Good server base told cursor) :
    Good server base told (rememberEventCursor cursor) :=
  fun c here some => good c (Option.mem_filter_iff.mp here).1 some

theorem good_none : Good server base told none := nofun

end Mono

/-! ## One item -/

/-- What holds while a connection is read. -/
structure Reading (server : SseServer parse) (roomId : String) (base : Nat) (told : List SseTold)
    (room : RoomStream) : Prop where
  calls : room.calls = told.flatMap (SseTold.calls server roomId)
  inOrder : ∀ before n after, told = before ++ .read (.event n) :: after → Clear parse base before n
  lastEventId : Good server base told room.lastEventId
  remembered : Good server base told room.remembered
  named : ∀ c ∈ room.remembered, c ≠ []

variable {told : List SseTold} {room : RoomStream} {position : Nat}

theorem inOrder_concat
    (inOrder : ∀ before n after, told = before ++ .read (.event n) :: after → Clear parse base before n)
    (last : ∀ n, t = .read (.event n) → Clear parse base told n) :
    ∀ before n after, told ++ [t] = before ++ .read (.event n) :: after →
      Clear parse base before n := by
  intro before n after shape
  rcases List.eq_nil_or_concat after with rfl | ⟨rest, t', rfl⟩
  · obtain ⟨rfl, same⟩ := List.append_inj' shape rfl
    exact last n (List.head_eq_of_cons_eq same)
  · rw [List.concat_eq_append, ← List.cons_append, ← List.append_assoc] at shape
    exact inOrder before n rest (List.append_inj' shape rfl).1

theorem syncCursor_or (payload : JsValue) (id lastEventId : Option Text) :
    syncCursor payload (id.or lastEventId) = syncCursor payload id ∨
      syncCursor payload id = none ∧ syncCursor payload (id.or lastEventId) = lastEventId := by
  cases id with
  | some text => exact .inl rfl
  | none =>
    unfold syncCursor
    split
    · split
      · exact .inl rfl
      · exact .inl rfl
      · exact .inr ⟨rfl, rfl⟩
    · exact .inr ⟨rfl, rfl⟩

section

variable (reading : Reading server roomId base told room)
include reading

/-- What follows from one item that came whole. -/
theorem Reading.item (clear : Clear parse base told position)
    (serves : server.Serves position (sent :: rest)) :
    Reading server roomId base (told ++ [.read sent])
        { room with
          lastEventId := (server.item sent).cursor parse room.lastEventId
          remembered := rememberEventCursor ((server.item sent).cursor parse room.lastEventId)
          calls := room.calls ++ (server.item sent).calls parse } ∧
      Clear parse base (told ++ [.read sent]) (SseServer.next position sent) := by
  have sub : told ⊆ told ++ [.read sent] := List.subset_append_left _ _
  have here : SseTold.read sent ∈ told ++ [.read sent] := List.mem_append_right _ List.mem_cons_self
  obtain ⟨-, served, -⟩ := serves
  have next : Clear parse base (told ++ [.read sent]) (SseServer.next position sent) := by
    intro n low high
    cases sent with
    | event m =>
      obtain rfl : m = position := served
      rcases Nat.lt_succ_iff_lt_or_eq.mp high with before | rfl
      · exact (clear n low before).mono sub
      · exact .inl here
    | comment texts => exact (clear n low high).mono sub
    | sync s after =>
      obtain ⟨-, still, -⟩ := served
      cases gap : announcesGap (s.payload parse) with
      | false =>
        obtain rfl := still gap
        exact (clear n low high).mono sub
      | true => exact .inr ⟨_, here, after, by rw [SseTold.gap, gap]; rfl, high⟩
  have cursor : Good server base (told ++ [.read sent])
      ((server.item sent).cursor parse room.lastEventId) := by
    cases sent with
    | event n =>
      rintro c ⟨⟩ -
      refine ⟨.inl ⟨n, here, rfl⟩, ?_⟩
      rw [server.resume_id]
      exact next
    | comment texts => exact reading.lastEventId.mono sub
    | sync s after =>
      obtain ⟨-, -, resumes⟩ := served
      change Good server base _ (syncCursor (s.payload parse) ((s.idField.bind nonblank).or _))
      rcases syncCursor_or (s.payload parse) (s.idField.bind nonblank) room.lastEventId with
        own | ⟨-, kept⟩
      · rw [own]
        intro c named some
        refine ⟨.inr ⟨s, after, here, named⟩, ?_⟩
        rw [resumes c named some]
        exact next
      · rw [kept]
        exact reading.lastEventId.mono sub
  refine ⟨⟨?_, ?_, cursor, cursor.remember, ?_⟩, next⟩
  · change room.calls ++ _ = _
    rw [List.flatMap_append, reading.calls, List.flatMap_singleton]
    rfl
  · refine inOrder_concat reading.inOrder ?_
    rintro n same
    cases same
    obtain rfl : n = position := served
    exact clear
  · intro c here
    simpa using (Option.mem_filter_iff.mp here).2

/-- A frame that the client gives up. -/
theorem Reading.lost (failure : SseFailure) (position : Nat) :
    Reading server roomId base (told ++ [.lost position]) (room.fail roomId failure) := by
  have sub : told ⊆ told ++ [.lost position] := List.subset_append_left _ _
  refine ⟨?_, ?_, reading.lastEventId.mono sub, good_none, nofun⟩
  · change room.calls ++ _ = _
    rw [List.flatMap_append, reading.calls, List.flatMap_singleton]
    rfl
  · exact inOrder_concat reading.inOrder (by rintro n ⟨⟩)

/-- A frame that leaves the cursor where it is. -/
theorem Reading.unmoved :
    Reading server roomId base told { room with remembered := rememberEventCursor room.lastEventId } :=
  ⟨reading.calls, reading.inOrder, reading.lastEventId, reading.lastEventId.remember, by
    intro c here
    simpa using (Option.mem_filter_iff.mp here).2⟩

end

/-! ## One connection -/

theorem SseServer.Serves.valid (serves : server.Serves position sent) :
    ∀ item ∈ sent.map server.item, item.Valid parse := by
  induction sent generalizing position with
  | nil => exact nofun
  | cons first rest ih =>
    intro item member
    rcases List.mem_cons.mp member with rfl | later
    · exact serves.1
    · exact ih serves.2.2 item later

/-- The frame of an item that came whole, whether or not its blank line did. -/
theorem handleFrame_item {item : SseItem} (valid : item.Valid parse) (open_ : room.failure = none)
    (ends : rawEvent = item.body ∨ rawEvent = item.body ++ ['\n']) :
    room.handleFrame parse roomId rawEvent =
      { room with
        lastEventId := item.cursor parse room.lastEventId
        remembered := rememberEventCursor (item.cursor parse room.lastEventId)
        calls := room.calls ++ item.calls parse } := by
  obtain ⟨blanks, lines⟩ := SseItem.splitOn_ends valid ends
  unfold RoomStream.handleFrame
  rw [if_neg (by rw [open_]; decide), handleEvent_item valid lines]

theorem Reading.items (rest : List SseSent) : ∀ (sent : List SseSent) (position : Nat)
    (told : List SseTold) (room : RoomStream), Reading server roomId base told room →
      room.failure = none → Clear parse base told position → server.Serves position (sent ++ rest) →
      let after := (sent.map fun s => (server.item s).body).foldl
        (RoomStream.handleFrame parse roomId) room
      Reading server roomId base (told ++ sent.map .read) after ∧ after.failure = none ∧
        Clear parse base (told ++ sent.map .read) (sent.foldl SseServer.next position) ∧
        server.Serves (sent.foldl SseServer.next position) rest
  | [], position, told, room, reading, open_, clear, serves => by
    simp only [List.map_nil, List.append_nil, List.foldl_nil]
    exact ⟨reading, open_, clear, serves⟩
  | sent :: more, position, told, room, reading, open_, clear, serves => by
    dsimp only
    rw [List.map_cons, List.map_cons, List.foldl_cons, List.foldl_cons,
      handleFrame_item serves.1 open_ (.inl rfl), ← List.singleton_append (l := more.map _),
      ← List.append_assoc]
    obtain ⟨next, clear'⟩ := reading.item clear serves
    exact Reading.items rest more _ _ _ next open_ clear' serves.2.2

section Connection

variable {sent : List SseSent} {bytes : List UInt8}

theorem SseServer.cuts (part : bytes <+: server.bytes sent) :
    SseItem.Cuts (sent.map server.item) bytes ((sent.take (server.count sent bytes)).map server.item)
      (server.left sent bytes) := by
  have cuts := SseItem.whole_cuts _ _ part
  have told : (SseItem.whole (sent.map server.item) bytes).1 =
      (sent.take (server.count sent bytes)).map server.item := by
    have begins : (SseItem.whole (sent.map server.item) bytes).1 <+: sent.map server.item := by
      rcases cuts.rest with ⟨-, begins⟩ | ⟨next, more, all, -⟩
      · exact begins
      · exact ⟨next :: more, all.symm⟩
    rw [List.map_take]
    exact List.prefix_iff_eq_take.mp begins
  rw [← told]
  exact cuts

/-- What the frames of the bytes make of the room. -/
theorem Reading.came (reading : Reading server roomId base told room) (open_ : room.failure = none)
    (clear : Clear parse base told position) (serves : server.Serves position sent)
    (part : bytes <+: server.bytes sent) :
    let came := sent.take (server.count sent bytes)
    Reading server roomId base (told ++ came.map .read) (roomAfter parse roomId room bytes) ∧
      (roomAfter parse roomId room bytes).failure = none ∧
      Clear parse base (told ++ came.map .read) (came.foldl SseServer.next position) ∧
      server.Serves (came.foldl SseServer.next position) (sent.drop (server.count sent bytes)) := by
  intro came
  have frames := (SseServer.cuts part).frames serves.valid
  rw [← List.take_append_drop (server.count sent bytes) sent] at serves
  have items := Reading.items _ came position told room reading open_ clear serves
  unfold roomAfter
  rw [frames, List.map_map]
  exact items

/-- The text that is left when the body ends. -/
theorem trailing_eq (serves : server.Serves position sent) (part : bytes <+: server.bytes sent) :
    (frames [] (textOf bytes)).2 ++ (TextDecoder.idle.decode bytes).1.flush =
      server.trailing sent bytes := by
  have cuts := SseServer.cuts part
  rw [cuts.frames serves.valid, (cuts.textOf serves.valid).1]
  rfl

theorem trailing_of_encode (left : server.left sent bytes = TextDecoder.encode text) :
    server.trailing sent bytes = text := by
  rw [SseServer.trailing, left, TextDecoder.decode_encode]
  exact List.append_nil text

/-- What a text that is not read leaves. -/
theorem handleEvent_unread (unread : Unread parse rawEvent) (lastEventId : Option Text) :
    handleEvent parse rawEvent lastEventId = none ∨
      handleEvent parse rawEvent lastEventId = some (lastEventId, []) := by
  unfold Unread at unread
  unfold handleEvent
  dsimp only at unread ⊢
  cases data : dataOf ((rawEvent.filter (· ≠ '\r')).splitOn '\n') with
  | nil =>
    right
    rw [data] at unread
    rw [unread, Option.none_or]
  | cons line rest =>
    left
    rw [data] at unread
    dsimp only at unread ⊢
    rw [unread]

theorem take_ends (here : sent[server.count sent bytes]? = some item) :
    sent.take (server.count sent bytes + 1) = sent.take (server.count sent bytes) ++ [item] ∧
      sent.drop (server.count sent bytes) = item :: sent.drop (server.count sent bytes + 1) := by
  obtain ⟨short, rfl⟩ := List.getElem?_eq_some_iff.mp here
  exact ⟨List.take_succ_eq_append_getElem short, List.drop_eq_getElem_cons short⟩

/-- What the end of the body makes of the room. -/
theorem Reading.atEnd (reading : Reading server roomId base told room) (open_ : room.failure = none)
    (clear : Clear parse base told position) (serves : server.Serves position sent)
    (part : bytes <+: server.bytes sent)
    (harmless : (server.trailing sent bytes).trim = [] ∨ Unread parse (server.trailing sent bytes) ∨
      server.Ends sent bytes) :
    ((roomAtEnd parse roomId room bytes).failure = none ∧
        Reading server roomId base (told ++ (sent.take (server.count sent bytes +
          if server.Ends sent bytes then 1 else 0)).map .read) (roomAtEnd parse roomId room bytes)) ∨
      ((roomAtEnd parse roomId room bytes).failure = some .malformed ∧
        ∀ position, Reading server roomId base
          (told ++ ((sent.take (server.count sent bytes)).map .read ++ [.lost position]))
          (roomAtEnd parse roomId room bytes)) := by
  obtain ⟨came, working, clear', serves'⟩ := reading.came open_ clear serves part
  have unfailed : (roomAfter parse roomId room bytes).failure.isSome = false := by rw [working]; rfl
  unfold roomAtEnd
  rw [trailing_eq serves part]
  by_cases ends : server.Ends sent bytes
  · left
    obtain ⟨item, here, left⟩ := ends
    obtain ⟨taken, dropped⟩ := take_ends here
    rw [dropped] at serves'
    have text : server.trailing sent bytes = (server.item item).body ∨
        server.trailing sent bytes = (server.item item).body ++ ['\n'] :=
      left.imp trailing_of_encode trailing_of_encode
    have ink : (server.trailing sent bytes).trim ≠ [] := by
      obtain ⟨c, rest, shown, inked⟩ := SseItem.body_head serves'.1
      rcases text with text | text <;> rw [text, shown] <;> exact SseItem.trim_ne_nil inked
    rw [if_neg (by simp [unfailed, ink]), handleFrame_item serves'.1 working text,
      if_pos ⟨item, here, left⟩, taken, List.map_append, ← List.append_assoc]
    exact ⟨working, (came.item clear' serves').1⟩
  · rw [if_neg ends, Nat.add_zero]
    by_cases blank : (server.trailing sent bytes).trim = []
    · rw [if_pos (.inr blank)]
      exact .inl ⟨working, came⟩
    · rw [if_neg (by simp [unfailed, blank])]
      unfold RoomStream.handleFrame
      rw [if_neg (by rw [unfailed]; decide)]
      rcases handleEvent_unread ((harmless.resolve_left blank).resolve_right ends)
        (roomAfter parse roomId room bytes).lastEventId with throws | unmoved
      · rw [throws]
        refine .inr ⟨rfl, fun position => ?_⟩
        rw [← List.append_assoc]
        exact came.lost .malformed position
      · rw [unmoved]
        left
        dsimp only
        rw [List.append_nil]
        exact ⟨working, came.unmoved⟩

end Connection

/-! ## Every turn -/

namespace SseSession

variable {s : SseSession}

/-- What holds between two connections. -/
def Sound (server : SseServer parse) (roomId : String) (base : Nat) (s : SseSession) : Prop :=
  Reading server roomId base s.told s.client.connected.room

section

variable (sound : Sound server roomId base s)
include sound

theorem Sound.neverSkips : NeverSkips server roomId base s :=
  ⟨sound.calls, sound.inOrder, fun cursor here =>
    (sound.remembered cursor here (sound.named cursor here)).1⟩

/-- A connection starts where nothing is missing. -/
theorem Sound.start (answers : s.Answers server roomId (.connection c))
    (meets : s.Meets server base (.connection c)) : Clear parse base s.told c.start := by
  obtain ⟨-, -, resumes, -⟩ := answers
  cases header : s.client.header with
  | none => exact meets.1 header
  | some cursor =>
    obtain ⟨here, some⟩ := Option.mem_filter_iff.mp header
    rw [resumes cursor header]
    exact (sound.lastEventId cursor here (by simpa using some)).2

theorem Sound.opened (answers : s.Answers server roomId (.connection c))
    (meets : s.Meets server base (.connection c)) : Reading server roomId base
      (s.told ++ c.told server (s.client.openStream parse roomId c.chunks c.ended).failure)
      (s.client.openStream parse roomId c.chunks c.ended) := by
  have clear := sound.start answers meets
  obtain ⟨serves, part, -, working⟩ := answers
  rcases read_cases working with ⟨reads, received⟩ | overflow
  · rw [ReadAs.openStream reads (received ▸ reads.room) fun _ => received]
    cases ended : c.ended with
    | false =>
      obtain ⟨came, open_, -⟩ := Reading.came sound rfl clear serves part
      rw [if_neg Bool.false_ne_true, open_, SseConnection.told, ended, if_neg (by simp), Nat.add_zero]
      exact came
    | true =>
      rw [if_pos rfl]
      rcases Reading.atEnd sound rfl clear serves part (meets.2 ended) with
        ⟨open_, came⟩ | ⟨malformed, came⟩
      · rw [open_, SseConnection.told, ended]
        simpa only [true_and] using came
      · rw [malformed, SseConnection.told]
        exact came _
  · have cut : c.chunks.dropLast.flatten <+: server.bytes c.sent := by
      refine List.IsPrefix.trans ?_ part
      rcases List.eq_nil_or_concat c.chunks with none | ⟨init, value, some⟩
      · rw [none]
        exact List.prefix_refl _
      · rw [some, List.concat_eq_append, List.dropLast_concat, List.flatten_append]
        exact List.prefix_append _ _
    have same : s.client.openStream parse roomId c.chunks c.ended =
        (s.client.read parse roomId c.chunks).room := by
      unfold SseClient.openStream
      split
      · exact if_pos (.inl (by rw [overflow]; rfl))
      · rfl
    rw [same, overflow]
    obtain ⟨came, -, -⟩ := Reading.came sound rfl clear serves cut
    change Reading server roomId base (s.told ++ (_ ++ [_])) _
    rw [← List.append_assoc]
    exact came.lost .overflow _

/-- Every turn keeps what was told in order. -/
theorem Sound.step (answers : s.Answers server roomId turn) (meets : s.Meets server base turn) :
    Sound server roomId base (s.step server roomId turn) := by
  cases turn with
  | connection c =>
    have after := sound.opened answers meets
    refine ⟨after.calls, after.inOrder, ?_, after.remembered, after.named⟩
    change Good server base _ (if _ then none else if _ then _ else s.client.lastEventId)
    split
    · exact good_none
    · split
      · exact after.lastEventId
      · exact sound.lastEventId.mono (List.subset_append_left _ _)
  | refused =>
    change Reading server roomId base (s.told ++ []) _
    rw [List.append_nil]
    exact sound
  | resubscribe =>
    change Reading server roomId base (s.told ++ []) _
    rw [List.append_nil]
    exact ⟨sound.calls, sound.inOrder, sound.remembered, sound.remembered, sound.named⟩
  | evict =>
    change Reading server roomId base (s.told ++ []) _
    rw [List.append_nil]
    exact ⟨sound.calls, sound.inOrder, sound.lastEventId, good_none,
      nofun⟩

end

theorem sound_initial : Sound server roomId base SseSession.initial :=
  ⟨rfl, fun before _ after shape => absurd shape (by simp [SseSession.initial]), good_none, good_none,
    nofun⟩

end SseSession

/-- In a run whose connections start where nothing is missing, and end with a text that is a
whole item or is not read, no event is skipped silently and the chunks do not matter. -/
theorem events_never_skipped (server : SseServer parse) (roomId : String) (base : Nat)
    (turns : Nat → SseTurn)
    (answers : ∀ n, (Machine.states (SseSession.step server roomId) .initial turns n).Answers server
      roomId (turns n))
    (meets : ∀ n, (Machine.states (SseSession.step server roomId) .initial turns n).Meets server
      base (turns n)) (n : Nat) :
    NeverSkips server roomId base (Machine.states (SseSession.step server roomId) .initial turns n) ∧
      ChunksDoNotMatter parse roomId
        (Machine.states (SseSession.step server roomId) .initial turns n).client := by
  have sound := Machine.invariant (n := n) (P := SseSession.Sound server roomId base)
    SseSession.sound_initial fun n sound => sound.step (answers n) (meets n)
  refine ⟨sound.neverSkips, fun chunks chunks' ended same fits fits' => ?_⟩
  rw [openStream_eq _ fits, openStream_eq _ fits', same]

/-! ## Runs -/

/-- `JSON.parse`, for the texts of the server below. -/
def parseEmpty (text : Text) : Option JsValue := if text = "{}".toList then some (.object []) else none

/-- The event with `n` before it has an id of `n + 1` letters. -/
def letters (n : Nat) : SseEvent := ⟨List.replicate (n + 1) 'a', none, ["{}".toList]⟩

theorem letters_id (n : Nat) : (letters n).id = List.replicate (n + 1) 'a' := by
  have start : ∀ m, Text.trimStart (List.replicate (m + 1) 'a') = List.replicate (m + 1) 'a' :=
    fun m => List.dropWhile_cons_of_neg (by decide)
  rw [SseEvent.id, letters, Text.trim, start, List.reverse_replicate, start, List.reverse_replicate]

def letterServer : SseServer parseEmpty where
  event := letters
  resume cursor := cursor.length
  valid n := by
    refine ⟨?_, by rw [letters_id]; exact List.cons_ne_nil _ _, fun _ here => absurd here (Option.not_mem_none _),
      List.cons_ne_nil _ _, ?_, rfl⟩
    · constructor <;> exact fun member => absurd (List.eq_of_mem_replicate member) (by decide)
    · intro data member
      rw [List.mem_singleton.mp member]
      decide
  resume_id n := by rw [letters_id, List.length_replicate]

theorem letterServer_serves (n m : Nat) :
    letterServer.Serves n ((List.range' n m).map .event) := by
  induction m generalizing n with
  | zero => trivial
  | succ m ih => exact ⟨letterServer.valid n, rfl, ih (n + 1)⟩

/-- The body ends behind the id of the first event, and the next connection goes on from there. -/
def cutBehindId : List SseTurn :=
  [.connection ⟨0, [.event 0], [TextDecoder.encode "id:a\n".toList], true⟩,
    .connection ⟨1, [.event 1], [TextDecoder.encode "id:aa\ndata:\x7b\x7d\n\n".toList], false⟩]

theorem cutBehindId_skips :
    ¬∀ (parse : Text → Option JsValue) (server : SseServer parse) (roomId : String) (base : Nat)
      (turns : Nat → SseTurn),
      (∀ n, (Machine.states (SseSession.step server roomId) .initial turns n).Answers server roomId
        (turns n)) →
      ∀ n, NeverSkips server roomId base
        (Machine.states (SseSession.step server roomId) .initial turns n) := by
  intro never
  have header : (Machine.states (SseSession.step letterServer "room") .initial
      (Machine.finitely cutBehindId .refused) 1).client.header = some ['a'] := by decide +kernel
  have skips := never parseEmpty letterServer "room" 0 (Machine.finitely cutBehindId .refused) (by
    rintro (_ | _ | n)
    · exact ⟨letterServer_serves 0 1, by decide +kernel,
        fun _ here => absurd here (Option.not_mem_none _), rfl⟩
    · refine ⟨letterServer_serves 1 1, by decide +kernel, ?_, by decide +kernel⟩
      rw [header]
      rintro _ ⟨⟩
      rfl
    · trivial) 2
  have told : (Machine.states (SseSession.step letterServer "room") .initial
      (Machine.finitely cutBehindId .refused) 2).told = [.read (.event 1)] := by decide +kernel
  rcases skips.inOrder [] 1 [] told 0 (Nat.le_refl 0) Nat.one_pos with passed | ⟨_, gap, -⟩
  · cases passed
  · cases gap

/-- The first event comes in two chunks, and the body ends within the data of the second one:
the client announces a gap, and the third event comes on a new connection. -/
def cutInData : List SseTurn :=
  [.connection ⟨0, [.event 0, .event 1], [TextDecoder.encode "id:a\nda".toList,
      TextDecoder.encode "ta:\x7b\x7d\n\nid:aa\ndata:\x7b".toList], true⟩,
    .connection ⟨2, [.event 2], [TextDecoder.encode "id:aaa\ndata:\x7b\x7d\n\n".toList], false⟩]

theorem cutInData_clear (low : n < 2) : Accounted parseEmpty [.read (.event 0), .lost 2] n :=
  .inr ⟨.lost 2, List.mem_cons_of_mem _ List.mem_cons_self, 2, rfl, low⟩

theorem cutInData_neverSkips :
    (Machine.states (SseSession.step letterServer "room") .initial
        (Machine.finitely cutInData .refused) 2).told =
      [.read (.event 0), .lost 2, .read (.event 2)] ∧
    NeverSkips letterServer "room" 0 (Machine.states (SseSession.step letterServer "room") .initial
        (Machine.finitely cutInData .refused) 2) ∧
    ChunksDoNotMatter parseEmpty "room" (Machine.states (SseSession.step letterServer "room") .initial
        (Machine.finitely cutInData .refused) 2).client := by
  have header : (Machine.states (SseSession.step letterServer "room") .initial
      (Machine.finitely cutInData .refused) 1).client.header = none := by decide +kernel
  have told : (Machine.states (SseSession.step letterServer "room") .initial
      (Machine.finitely cutInData .refused) 1).told = [.read (.event 0), .lost 2] := by decide +kernel
  refine ⟨by decide +kernel, events_never_skipped letterServer "room" 0
    (Machine.finitely cutInData .refused) ?_ ?_ 2⟩
  · rintro (_ | _ | n)
    · exact ⟨letterServer_serves 0 2, by decide +kernel,
        fun _ here => absurd here (Option.not_mem_none _), by decide +kernel⟩
    · refine ⟨letterServer_serves 2 1, by decide +kernel, ?_, by decide +kernel⟩
      rw [header]
      exact fun _ here => absurd here (Option.not_mem_none _)
    · trivial
  · rintro (_ | _ | n)
    · refine ⟨fun _ m _ high => absurd high (Nat.not_lt_zero m), fun _ => .inr (.inl ?_)⟩
      have text : letterServer.trailing [.event 0, .event 1] _ = "id:aa\ndata:\x7b".toList :=
        show letterServer.trailing [.event 0, .event 1] (List.flatten
          [TextDecoder.encode "id:a\nda".toList,
            TextDecoder.encode "ta:\x7b\x7d\n\nid:aa\ndata:\x7b".toList]) = _ by decide +kernel
      rw [text]
      exact (rfl : parseEmpty ['{'] = none)
    · refine ⟨fun _ m _ high => ?_, by rintro ⟨⟩⟩
      rw [told]
      exact cutInData_clear high
    · trivial

end LetAgents.Mcp

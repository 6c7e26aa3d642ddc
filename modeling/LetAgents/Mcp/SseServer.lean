import LetAgents.Mcp.SseFrames
import Mathlib.Data.List.Chain

/-!
# The frames of the server

Source: src/api/routes/rooms/messages/stream.ts:133-330 and live-controller.ts:156-158. An
event is a line `id:`, one `event:` where it has a name, its `data:` lines and a blank line.
Between the events come comments and `room_sync` frames. What the client reads in each of
them is what the server wrote.
-/
namespace LetAgents.Mcp

open Lib.Js

/-- A text for one line. -/
def Plain (text : Text) : Prop := '\n' ∉ text ∧ '\r' ∉ text

instance (text : Text) : Decidable (Plain text) := inferInstanceAs (Decidable (_ ∧ _))

structure SseEvent where
  idField : Text
  eventField : Option Text
  dataFields : List Text

structure SseSync where
  idField : Option Text
  dataFields : List Text
  deriving DecidableEq

inductive SseItem where
  | event (event : SseEvent)
  | sync (sync : SseSync)
  | comment (texts : List Text)

def SseEvent.id (event : SseEvent) : Text := event.idField.trim

/-- What `data:` lines give to `JSON.parse`. -/
def dataText (dataFields : List Text) : Text := "\n".toList.intercalate (dataFields.map Text.trimStart)

def line (field : String) (text : Text) : Text := field.toList ++ text

namespace SseItem

def lines : SseItem → List Text
  | .event e =>
    line "id:" e.idField :: ((e.eventField.map (line "event:")).toList ++
      e.dataFields.map (line "data:"))
  | .sync s =>
    (s.idField.map (line "id:")).toList ++
      line "event:" " room_sync".toList :: s.dataFields.map (line "data:")
  | .comment texts => texts.map (line ":")

def body (item : SseItem) : Text := "\n".toList.intercalate item.lines

def text (item : SseItem) : Text := item.body ++ "\n\n".toList

/-- What the server may write. -/
def Valid (parse : Text → Option JsValue) : SseItem → Prop
  | .event e =>
    Plain e.idField ∧ e.id ≠ [] ∧
      (∀ name ∈ e.eventField, Plain name ∧ name.trim ≠ "room_sync".toList) ∧
      e.dataFields ≠ [] ∧ (∀ data ∈ e.dataFields, Plain data) ∧
      (parse (dataText e.dataFields)).isSome = true
  | .sync s =>
    (∀ id ∈ s.idField, Plain id) ∧ s.dataFields ≠ [] ∧
      (∀ data ∈ s.dataFields, Plain data) ∧
      ∃ payload, parse (dataText s.dataFields) = some payload ∧ payload ≠ .null
  | .comment texts => texts ≠ [] ∧ ∀ text ∈ texts, Plain text

variable {parse : Text → Option JsValue} {item : SseItem}

theorem lines_ne_nil (valid : item.Valid parse) : item.lines ≠ [] := by
  cases item with
  | event e => exact List.cons_ne_nil _ _
  | sync s => simp [lines]
  | comment texts => simpa [lines] using valid.1

/-- A line has no line end, and is not empty. -/
theorem plain_of_mem_lines (valid : item.Valid parse) (member : l ∈ item.lines) :
    Plain l ∧ l ≠ [] := by
  have field : ∀ (start : String) (text : Text), '\n' ∉ start.toList → '\r' ∉ start.toList →
      start.toList ≠ [] → Plain text → Plain (line start text) ∧ line start text ≠ [] := by
    intro start text newline feed named plain
    simp only [Plain, line, List.mem_append, not_or]
    exact ⟨⟨⟨newline, plain.1⟩, feed, plain.2⟩, by simp [named]⟩
  cases item with
  | event e =>
    obtain ⟨id, -, name, -, data, -⟩ := valid
    rcases List.mem_cons.mp member with rfl | member
    · exact field "id:" _ (by decide) (by decide) (by decide) id
    · rcases List.mem_append.mp member with named | written
      · obtain ⟨text, has, rfl⟩ := Option.map_eq_some_iff.mp (Option.mem_toList.mp named)
        exact field "event:" _ (by decide) (by decide) (by decide) (name text has).1
      · obtain ⟨text, has, rfl⟩ := List.mem_map.mp written
        exact field "data:" _ (by decide) (by decide) (by decide) (data text has)
  | sync s =>
    obtain ⟨id, -, data, -⟩ := valid
    rcases List.mem_append.mp member with named | member
    · obtain ⟨text, has, rfl⟩ := Option.map_eq_some_iff.mp (Option.mem_toList.mp named)
      exact field "id:" _ (by decide) (by decide) (by decide) (id text has)
    · rcases List.mem_cons.mp member with rfl | written
      · exact field "event:" _ (by decide) (by decide) (by decide) (by decide)
      · obtain ⟨text, has, rfl⟩ := List.mem_map.mp written
        exact field "data:" _ (by decide) (by decide) (by decide) (data text has)
  | comment texts =>
    obtain ⟨text, has, rfl⟩ := List.mem_map.mp member
    exact field ":" _ (by decide) (by decide) (by decide) (valid.2 text has)

end SseItem

/-! ## A body is one frame -/

/-- No line of the text is empty, as far as two line ends show it. -/
def NoBlankLine (text : Text) : Prop := text.IsChain fun a b => ¬(a = '\n' ∧ b = '\n')

theorem frames_of_noBlankLine : ∀ text current : Text, NoBlankLine text →
    frames current text = ([], current ++ text)
  | [], current, _ => by simp [frames]
  | [c], current, _ => by by_cases blank : c = '\n' <;> simp [frames, blank]
  | c :: d :: rest, current, chain => by
    obtain ⟨apart, chain⟩ := List.isChain_cons_cons.mp chain
    have next : frames current (c :: d :: rest) = frames (current ++ [c]) (d :: rest) := by
      rw [frames.eq_def]
      split
      · rename_i same
        simp only [List.cons.injEq] at same
        exact absurd ⟨same.1, same.2.1⟩ apart
      · rename_i same
        cases same
        rfl
      · rename_i same
        cases same
    rw [next, frames_of_noBlankLine (d :: rest) _ chain]
    simp

/-- A text for a frame: no blank line, and no line end at its end. -/
structure Solid (text : Text) : Prop where
  noBlankLine : NoBlankLine text
  closed : ∀ c ∈ text.getLast?, c ≠ '\n'

theorem frames_solid_append (rest : Text) : ∀ text current : Text, Solid text →
    frames current (text ++ '\n' :: '\n' :: rest) =
      ((current ++ text) :: (frames [] rest).1, (frames [] rest).2)
  | [], current, _ => by simp [frames]
  | [c], current, solid => by
    have open_ : c ≠ '\n' := solid.closed c rfl
    have next : frames current ([c] ++ '\n' :: '\n' :: rest) =
        frames (current ++ [c]) ('\n' :: '\n' :: rest) := by simp [frames, open_]
    rw [next, frames]
  | c :: d :: more, current, solid => by
    obtain ⟨apart, chain⟩ := List.isChain_cons_cons.mp solid.noBlankLine
    have next : frames current (c :: d :: more ++ '\n' :: '\n' :: rest) =
        frames (current ++ [c]) (d :: more ++ '\n' :: '\n' :: rest) := by
      rw [List.cons_append, List.cons_append, frames.eq_def]
      split
      · rename_i same
        simp only [List.cons.injEq] at same
        exact absurd ⟨same.1, same.2.1⟩ apart
      · rename_i same
        cases same
        rfl
      · rename_i same
        cases same
    rw [next, frames_solid_append rest (d :: more) _ ⟨chain, fun e last => solid.closed e ?_⟩]
    · simp
    · rwa [List.getLast?_cons_cons]

theorem noBlankLine_of_not_mem : ∀ text : Text, '\n' ∉ text → NoBlankLine text
  | [], _ => List.isChain_nil
  | [_], _ => List.isChain_singleton _
  | c :: d :: rest, absent => by
    obtain ⟨first, others⟩ := not_or.mp (mt List.mem_cons.mpr absent)
    exact List.isChain_cons_cons.mpr ⟨fun both => first both.1.symm,
      noBlankLine_of_not_mem (d :: rest) others⟩

/-- Lines that are not empty make a frame. -/
theorem solid_intercalate : ∀ lines : List Text, lines ≠ [] → (∀ l ∈ lines, '\n' ∉ l ∧ l ≠ []) →
    Solid (['\n'].intercalate lines)
  | [], nonempty, _ => absurd rfl nonempty
  | [l], _, plain => by
    obtain ⟨none, -⟩ := plain l List.mem_cons_self
    rw [List.intercalate_singleton]
    refine ⟨noBlankLine_of_not_mem l none, fun c last newline => ?_⟩
    exact none (newline ▸ List.mem_of_getLast? last)
  | l :: l' :: rest, _, plain => by
    obtain ⟨none, some⟩ := plain l List.mem_cons_self
    obtain ⟨chain, closed⟩ := solid_intercalate (l' :: rest) (List.cons_ne_nil _ _)
      fun l member => plain l (.tail _ member)
    obtain ⟨none', some'⟩ := plain l' (List.mem_cons_of_mem _ List.mem_cons_self)
    obtain ⟨c, l', rfl⟩ := List.exists_cons_of_ne_nil some'
    have head : ∃ more, ['\n'].intercalate ((c :: l') :: rest) = c :: more := by
      cases rest with
      | nil => exact ⟨l', List.intercalate_singleton⟩
      | cons next rest => exact ⟨_, by rw [List.intercalate_cons_cons, List.cons_append, List.cons_append]⟩
    obtain ⟨more, opens⟩ := head
    rw [opens] at chain closed
    rw [List.intercalate_cons_cons, opens]
    have other : c ≠ '\n' := fun newline => none' (newline ▸ .head _)
    constructor
    · rw [List.append_assoc]
      refine List.IsChain.append (noBlankLine_of_not_mem l none) ?_ ?_
      · exact List.isChain_cons_cons.mpr ⟨fun both => other both.2, chain⟩
      · rintro x last y first ⟨rfl, -⟩
        exact none (List.mem_of_getLast? last)
    · intro d last
      rw [List.getLast?_append_of_ne_nil _ (List.cons_ne_nil _ _)] at last
      exact closed d last

namespace SseItem

variable {parse : Text → Option JsValue} {item : SseItem}

theorem body_solid (valid : item.Valid parse) : Solid item.body :=
  solid_intercalate item.lines (lines_ne_nil valid) fun _ member =>
    ⟨(plain_of_mem_lines valid member).1.1, (plain_of_mem_lines valid member).2⟩

theorem feedless_body (valid : item.Valid parse) : item.body.filter (· ≠ '\r') = item.body := by
  have none : ∀ lines : List Text, (∀ l ∈ lines, '\r' ∉ l) → '\r' ∉ ['\n'].intercalate lines := by
    intro lines
    induction lines with
    | nil => simp
    | cons l rest ih =>
      intro plain
      have mine := plain l List.mem_cons_self
      cases rest with
      | nil => simpa using mine
      | cons next rest =>
        have others := ih fun l member => plain l (.tail _ member)
        simp [mine, others]
  rw [List.filter_eq_self]
  intro c member
  have other : c ≠ '\r' := by
    rintro rfl
    exact none item.lines (fun l here => (plain_of_mem_lines valid here).1.2) member
  simpa using other

/-- The lines that the client reads. -/
theorem splitOn_body (valid : item.Valid parse) :
    (item.body.filter (· ≠ '\r')).splitOn '\n' = item.lines := by
  rw [feedless_body valid]
  exact List.splitOn_intercalate '\n' (fun l here => (plain_of_mem_lines valid here).1.1)
    (lines_ne_nil valid)

end SseItem

/-! ## What the client reads -/

theorem after?_line (field : String) (text : Text) : Text.after? field (line field text) = some text := by
  simp [Text.after?, line]

section

variable (text : Text)
include text

theorem find_id : Text.after? "id:" (line "id:" text) = some text := after?_line _ _

theorem event_of_id : Text.after? "event:" (line "id:" text) = none := rfl

theorem data_of_id : Text.after? "data:" (line "id:" text) = none := rfl

theorem id_of_event : Text.after? "id:" (line "event:" text) = none := rfl

theorem data_of_event : Text.after? "data:" (line "event:" text) = none := rfl

theorem id_of_data : Text.after? "id:" (line "data:" text) = none := rfl

theorem event_of_data : Text.after? "event:" (line "data:" text) = none := rfl

theorem id_of_comment : Text.after? "id:" (line ":" text) = none := rfl

theorem data_of_comment : Text.after? "data:" (line ":" text) = none := rfl

end

/-- The lines of a field of their own give nothing else. -/
theorem findSome?_map (apart : ∀ text, Text.after? field (line other text) = none)
    (texts : List Text) : (texts.map (line other)).findSome? (Text.after? field) = none := by
  rw [List.findSome?_eq_none_iff]
  intro l member
  obtain ⟨text, -, rfl⟩ := List.mem_map.mp member
  exact apart text

theorem filterMap_map (apart : ∀ text, Text.after? field (line other text) = none)
    (texts : List Text) : (texts.map (line other)).filterMap (Text.after? field) = [] := by
  rw [List.filterMap_eq_nil_iff]
  intro l member
  obtain ⟨text, -, rfl⟩ := List.mem_map.mp member
  exact apart text

theorem filterMap_data (texts : List Text) :
    (texts.map (line "data:")).filterMap (Text.after? "data:") = texts := by
  rw [List.filterMap_map]
  have each : Text.after? "data:" ∘ line "data:" = some := funext (after?_line "data:")
  rw [each, List.filterMap_some]

variable {parse : Text → Option JsValue}

/-- The id that a line gives, where it is not blank. -/
def nonblank (text : Text) : Option Text := (some text.trim).filter (· ≠ [])

def SseEvent.payload (parse : Text → Option JsValue) (event : SseEvent) : JsValue :=
  (parse (dataText event.dataFields)).getD .null

def SseSync.payload (parse : Text → Option JsValue) (sync : SseSync) : JsValue :=
  (parse (dataText sync.dataFields)).getD .null

namespace SseItem

/-- The cursor after the item. -/
def cursor (parse : Text → Option JsValue) (item : SseItem) (lastEventId : Option Text) : Option Text :=
  match item with
  | .event e => some e.id
  | .sync s => syncCursor (s.payload parse) ((s.idField.bind nonblank).or lastEventId)
  | .comment _ => lastEventId

/-- The callbacks for the item. -/
def calls (parse : Text → Option JsValue) : SseItem → List SseCallback
  | .event e => [.message (e.payload parse)]
  | .sync s => if announcesGap (s.payload parse) then [.gap (s.payload parse)] else []
  | .comment _ => []

end SseItem

theorem fieldOf_event_id (e : SseEvent) (id : e.id ≠ []) :
    fieldOf "id:" (SseItem.event e).lines = some e.id := by
  unfold fieldOf SseItem.lines
  exact Option.filter_some_pos (decide_eq_true id)

theorem dataOf_event (e : SseEvent) :
    dataOf (SseItem.event e).lines = e.dataFields.map Text.trimStart := by
  unfold dataOf SseItem.lines
  rw [List.filterMap_cons_none (data_of_id _), List.filterMap_append, filterMap_data]
  cases e.eventField with
  | none | some name => rfl

theorem fieldOf_event_event (e : SseEvent) :
    fieldOf "event:" (SseItem.event e).lines = e.eventField.bind nonblank := by
  unfold fieldOf SseItem.lines
  rw [List.findSome?_cons, event_of_id]
  cases e.eventField with
  | none => 
    dsimp only [Option.map_none, Option.toList_none, List.nil_append]
    rw [findSome?_map event_of_data]
    rfl
  | some name =>
    dsimp only [Option.map_some, Option.toList_some, List.singleton_append]
    rfl

theorem fieldOf_sync_id (s : SseSync) :
    fieldOf "id:" (SseItem.sync s).lines = s.idField.bind nonblank := by
  unfold fieldOf SseItem.lines
  dsimp only
  cases s.idField with
  | none =>
    dsimp only [Option.map_none, Option.toList_none, List.nil_append]
    rw [List.findSome?_cons, id_of_event]
    rw [findSome?_map id_of_data]
    rfl
  | some id =>
    dsimp only [Option.map_some, Option.toList_some, List.singleton_append]
    rfl

theorem dataOf_sync (s : SseSync) :
    dataOf (SseItem.sync s).lines = s.dataFields.map Text.trimStart := by
  unfold dataOf SseItem.lines
  rw [List.filterMap_append, List.filterMap_cons_none (data_of_event _), filterMap_data]
  cases s.idField with
  | none | some id => rfl

theorem fieldOf_sync_event (s : SseSync) :
    fieldOf "event:" (SseItem.sync s).lines = some "room_sync".toList := by
  unfold fieldOf SseItem.lines
  rw [List.findSome?_append, List.findSome?_cons, after?_line]
  cases s.idField with
  | none | some id => rfl

/-! A frame may end in a line end of its own: the line that this adds is blank. -/

theorem fieldOf_blank (named : start.toList ≠ []) (lines : List Text) (blanks : Nat) :
    fieldOf start (lines ++ List.replicate blanks []) = fieldOf start lines := by
  have none_ : (List.replicate blanks ([] : Text)).findSome? (Text.after? start) = none := by
    rw [List.findSome?_eq_none_iff]
    intro l member
    rw [List.eq_of_mem_replicate member]
    cases shown : start.toList with
    | nil => exact absurd shown named
    | cons c rest => simp [Text.after?, shown]
  unfold fieldOf
  rw [List.findSome?_append, none_, Option.or_none]

theorem dataOf_blank (lines : List Text) (blanks : Nat) :
    dataOf (lines ++ List.replicate blanks []) = dataOf lines := by
  have nil : (List.replicate blanks ([] : Text)).filterMap (Text.after? "data:") = [] := by
    rw [List.filterMap_eq_nil_iff]
    intro l member
    rw [List.eq_of_mem_replicate member]
    rfl
  unfold dataOf
  rw [List.filterMap_append, nil, List.append_nil]

/-- What the client makes of the lines of an item. -/
theorem handleEvent_item {item : SseItem} (valid : item.Valid parse)
    (lines : (rawEvent.filter (· ≠ '\r')).splitOn '\n' = item.lines ++ List.replicate blanks [])
    (lastEventId : Option Text) : handleEvent parse rawEvent lastEventId =
      some (item.cursor parse lastEventId, item.calls parse) := by
  unfold handleEvent
  simp only [lines, fieldOf_blank (show "event:".toList ≠ [] by decide),
    fieldOf_blank (show "id:".toList ≠ [] by decide), dataOf_blank]
  cases item with
  | event e =>
    obtain ⟨-, id, name, written, -, parses⟩ := valid
    obtain ⟨payload, parsed⟩ := Option.isSome_iff_exists.mp parses
    have names : (fieldOf "event:" (SseItem.event e).lines).getD "message".toList ≠
        "room_sync".toList := by
      rw [fieldOf_event_event]
      cases named : e.eventField with
      | none => decide
      | some text =>
        rw [Option.bind_some, nonblank, Option.filter_some]
        split
        · exact (name text named).2
        · decide
    rw [fieldOf_event_id e id, dataOf_event]
    obtain ⟨first, rest, shown⟩ := List.exists_cons_of_ne_nil
      (List.map_eq_nil_iff.not.mpr written : e.dataFields.map Text.trimStart ≠ [])
    have joined : parse ("\n".toList.intercalate (first :: rest)) = some payload := shown ▸ parsed
    have own : e.payload parse = payload := by rw [SseEvent.payload, parsed]; rfl
    simp only [shown, joined, if_neg names, Option.some_or, SseItem.cursor, SseItem.calls, own]
  | sync s =>
    obtain ⟨-, written, -, payload, parsed, value⟩ := valid
    rw [fieldOf_sync_id, fieldOf_sync_event, dataOf_sync]
    obtain ⟨first, rest, shown⟩ := List.exists_cons_of_ne_nil
      (List.map_eq_nil_iff.not.mpr written : s.dataFields.map Text.trimStart ≠ [])
    have joined : parse ("\n".toList.intercalate (first :: rest)) = some payload := shown ▸ parsed
    have own : s.payload parse = payload := by rw [SseSync.payload, parsed]; rfl
    simp only [shown, joined, Option.getD_some, if_true, SseItem.cursor, SseItem.calls, own]
  | comment texts =>
    have ids : fieldOf "id:" (SseItem.comment texts).lines = none := by
      unfold fieldOf SseItem.lines
      rw [findSome?_map id_of_comment]
      rfl
    have data : dataOf (SseItem.comment texts).lines = [] := by
      unfold dataOf SseItem.lines
      rw [filterMap_map data_of_comment]
      rfl
    rw [ids, data]
    rfl

end LetAgents.Mcp

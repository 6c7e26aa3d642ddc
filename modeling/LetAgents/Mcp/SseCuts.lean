import LetAgents.Mcp.SseServer
import Mathlib.Data.List.TakeWhile

/-!
# A stream that is cut

A connection gives a part of the bytes of its items. The items that came whole make their
frames, and what came of the next one is what is left when the body ends.
-/
namespace LetAgents.Mcp

open Lib Lib.Js

namespace SseItem

variable {parse : Text → Option JsValue}

def bytes (item : SseItem) : List UInt8 := TextDecoder.encode item.text

/-- The items that came whole, and what came of the next one. -/
def whole : List SseItem → List UInt8 → List SseItem × List UInt8
  | [], bytes => ([], bytes)
  | item :: rest, bytes =>
    if item.bytes.isPrefixOf bytes then
      (item :: (whole rest (bytes.drop item.bytes.length)).1,
        (whole rest (bytes.drop item.bytes.length)).2)
    else ([], bytes)

/-- The bytes are those of the items that came whole and a part of the next one. -/
structure Cuts (items : List SseItem) (bytes : List UInt8) (told : List SseItem)
    (left : List UInt8) : Prop where
  bytes : bytes = told.flatMap SseItem.bytes ++ left
  rest : (left = [] ∧ told <+: items) ∨
    ∃ next more, items = told ++ next :: more ∧ left <+: next.bytes ∧ left ≠ next.bytes

theorem whole_cuts : ∀ (items : List SseItem) (bytes : List UInt8),
    bytes <+: items.flatMap SseItem.bytes →
      Cuts items bytes (whole items bytes).1 (whole items bytes).2
  | [], bytes, cut => ⟨rfl, .inl ⟨List.prefix_nil.mp cut, List.prefix_refl _⟩⟩
  | item :: rest, bytes, cut => by
    unfold whole
    rw [List.flatMap_cons] at cut
    split
    · rename_i all
      obtain ⟨more, rfl⟩ := List.isPrefixOf_iff_prefix.mp all
      rw [List.drop_left]
      have ih := whole_cuts rest more ((List.prefix_append_right_inj _).mp cut)
      constructor
      · rw [List.flatMap_cons, List.append_assoc, ← ih.bytes]
      · refine ih.rest.imp (fun none => ⟨none.1, List.cons_prefix_cons.mpr ⟨rfl, none.2⟩⟩) ?_
        rintro ⟨next, more, items, part⟩
        exact ⟨next, more, congrArg (item :: ·) items, part⟩
    · rename_i notAll
      refine ⟨rfl, .inr ⟨item, rest, rfl, ?_⟩⟩
      rcases prefix_append_cases cut with short | ⟨more, rfl, -⟩
      · refine ⟨short, ?_⟩
        rintro rfl
        exact notAll (List.isPrefixOf_iff_prefix.mpr (List.prefix_refl _))
      · exact absurd (List.isPrefixOf_iff_prefix.mpr (List.prefix_append _ _)) notAll

/-! ## The frames of what came -/

theorem frames_texts (rest : Text) : ∀ items : List SseItem, (∀ item ∈ items, item.Valid parse) →
    frames [] (items.flatMap SseItem.text ++ rest) =
      (items.map SseItem.body ++ (frames [] rest).1, (frames [] rest).2)
  | [], _ => rfl
  | item :: more, valid => by
    have solid := body_solid (valid item List.mem_cons_self)
    have text : (item :: more).flatMap SseItem.text ++ rest =
        item.body ++ '\n' :: '\n' :: (more.flatMap SseItem.text ++ rest) := by
      rw [List.flatMap_cons, SseItem.text, List.append_assoc, List.append_assoc]
      rfl
    rw [text, frames_solid_append _ _ _ solid,
      frames_texts rest more fun item member => valid item (.tail _ member)]
    rfl

/-- A part of an item is no frame. -/
theorem frames_cut {item : SseItem} (valid : item.Valid parse) {text : Text}
    (cut : text <+: item.text) (proper : text ≠ item.text) : frames [] text = ([], text) := by
  have solid := body_solid valid
  have short : text <+: item.body ++ ['\n'] := by
    have shape : item.text = (item.body ++ ['\n']) ++ ['\n'] := by
      rw [SseItem.text, List.append_assoc]
      rfl
    rw [shape] at cut proper
    exact (List.prefix_concat_iff.mp cut).resolve_left proper
  have chain : NoBlankLine (item.body ++ ['\n']) := by
    refine List.IsChain.append solid.noBlankLine (List.isChain_singleton _) ?_
    rintro x last y _ ⟨rfl, -⟩
    exact solid.closed _ last rfl
  obtain ⟨more, shape⟩ := short
  have part : NoBlankLine text := by
    rw [← shape] at chain
    exact (List.isChain_append.mp chain).1
  rw [frames_of_noBlankLine text [] part, List.nil_append]

/-- A body starts with a letter or a colon. -/
theorem body_head {item : SseItem} (valid : item.Valid parse) :
    ∃ c rest, item.body = c :: rest ∧ isWhitespace c = false := by
  have first : ∃ field text more, item.lines = line field text :: more ∧
      ∃ c rest, field.toList = c :: rest ∧ isWhitespace c = false := by
    cases item with
    | event e => exact ⟨"id:", _, _, rfl, 'i', _, rfl, by decide⟩
    | sync s =>
      cases id : s.idField with
      | none => exact ⟨"event:", _, _, by rw [lines, id]; rfl, 'e', _, rfl, by decide⟩
      | some text => exact ⟨"id:", _, _, by rw [lines, id]; rfl, 'i', _, rfl, by decide⟩
    | comment texts =>
      obtain ⟨text, more, rfl⟩ := List.exists_cons_of_ne_nil valid.1
      exact ⟨":", _, _, rfl, ':', _, rfl, by decide⟩
  obtain ⟨field, text, more, shown, c, rest, start, ink⟩ := first
  unfold SseItem.body
  rw [shown, line, start]
  cases more with
  | nil => exact ⟨c, _, by rw [List.intercalate_singleton]; rfl, ink⟩
  | cons next more => exact ⟨c, _, by rw [List.intercalate_cons_cons]; rfl, ink⟩

/-- An item does not start with a byte order mark. -/
theorem text_head {item : SseItem} (valid : item.Valid parse) :
    ∃ c rest, item.text = c :: rest ∧ c ≠ TextDecoder.byteOrderMark := by
  obtain ⟨c, rest, body, ink⟩ := body_head valid
  refine ⟨c, rest ++ "\n\n".toList, by rw [SseItem.text, body]; rfl, ?_⟩
  rintro rfl
  cases ink

theorem texts_bytes (items : List SseItem) :
    TextDecoder.encode (items.flatMap SseItem.text) = items.flatMap SseItem.bytes := by
  induction items with
  | nil => rfl
  | cons item rest ih => rw [List.flatMap_cons, List.flatMap_cons, TextDecoder.encode_append, ih]; rfl

/-- The text of what came. -/
theorem Cuts.textOf {bytes left : List UInt8} (cuts : Cuts items bytes told left)
    (valid : ∀ item ∈ items, item.Valid parse) :
    (TextDecoder.idle.decode bytes).1 = (TextDecoder.idle.decode left).1 ∧
      textOf bytes = told.flatMap SseItem.text ++ (TextDecoder.idle.decode left).2 := by
  have decoded : TextDecoder.idle.decode bytes = ((TextDecoder.idle.decode left).1,
      told.flatMap SseItem.text ++ (TextDecoder.idle.decode left).2) := by
    rw [cuts.bytes, ← texts_bytes, TextDecoder.decode_append, TextDecoder.decode_encode]
  refine ⟨by rw [decoded], ?_⟩
  rw [Mcp.textOf, decoded]
  refine TextDecoder.strip_of_ne ?_ false
  intro c head
  cases told with
  | cons item more =>
    obtain ⟨c', tail, text, other⟩ := text_head (valid item (by
      rcases cuts.rest with ⟨-, part⟩ | ⟨next, rest, rfl, -⟩
      · exact part.subset List.mem_cons_self
      · exact List.mem_append_left _ List.mem_cons_self))
    rw [List.flatMap_cons, text] at head
    cases head
    exact other
  | nil =>
    rcases cuts.rest with ⟨rfl, -⟩ | ⟨next, rest, rfl, part, -⟩
    · cases head
    · obtain ⟨c', tail, text, other⟩ := text_head (valid next List.mem_cons_self)
      obtain ⟨more, shape⟩ := TextDecoder.decode_cut part
      rw [text] at shape
      cases shown : (TextDecoder.idle.decode left).2 with
      | nil =>
        rw [shown] at head
        cases head
      | cons d tail' =>
        rw [shown] at head shape
        cases head
        cases shape
        exact other

/-- The frames of what came, and what is left. -/
theorem Cuts.frames {bytes left : List UInt8} (cuts : Cuts items bytes told left)
    (valid : ∀ item ∈ items, item.Valid parse) : Mcp.frames [] (Mcp.textOf bytes) =
      (told.map SseItem.body, (TextDecoder.idle.decode left).2) := by
  have parts : ∀ item ∈ told, item ∈ items := by
    rcases cuts.rest with ⟨-, part⟩ | ⟨next, rest, rfl, -⟩
    · exact fun item member => part.subset member
    · exact fun item member => List.mem_append_left _ member
  have rest : Mcp.frames [] (TextDecoder.idle.decode left).2 =
      ([], (TextDecoder.idle.decode left).2) := by
    rcases cuts.rest with ⟨rfl, -⟩ | ⟨next, more, rfl, part, proper⟩
    · rfl
    · refine frames_cut (valid next (List.mem_append_right _ List.mem_cons_self))
        (TextDecoder.decode_cut part) fun all => proper ?_
      exact TextDecoder.encode_of_decode_cut part all
  rw [(cuts.textOf valid).2, frames_texts _ told fun item member => valid item (parts item member),
    rest, List.append_nil]

/-- The lines of an item from which only line ends are missing. -/
theorem splitOn_ends {item : SseItem} (valid : item.Valid parse) {text : Text}
    (ends : text = item.body ∨ text = item.body ++ ['\n']) :
    ∃ blanks, (text.filter (· ≠ '\r')).splitOn '\n' = item.lines ++ List.replicate blanks [] := by
  rcases ends with rfl | rfl
  · exact ⟨0, by rw [splitOn_body valid]; exact (List.append_nil _).symm⟩
  · refine ⟨1, ?_⟩
    have joined : item.body ++ ['\n'] = ['\n'].intercalate (item.lines ++ [[]]) := by
      have concat : ∀ lines : List Text, lines ≠ [] →
          ['\n'].intercalate lines ++ ['\n'] = ['\n'].intercalate (lines ++ [[]]) := by
        intro lines
        induction lines with
        | nil => exact fun some => absurd rfl some
        | cons l rest ih =>
          intro _
          cases rest with
          | nil =>
            rw [List.intercalate_singleton, List.singleton_append, List.intercalate_cons_cons,
              List.intercalate_singleton, List.append_nil]
          | cons next rest =>
            rw [List.intercalate_cons_cons, List.cons_append, List.cons_append,
              List.intercalate_cons_cons, List.append_assoc, ih (List.cons_ne_nil _ _)]
            rfl
      exact concat item.lines (lines_ne_nil valid)
    rw [List.filter_append, feedless_body valid]
    change (item.body ++ ['\n']).splitOn '\n' = _
    rw [joined]
    refine List.splitOn_intercalate '\n' ?_ (by simp)
    intro l member
    rcases List.mem_append.mp member with here | blank
    · exact (plain_of_mem_lines valid here).1.1
    · rw [List.mem_singleton.mp blank]
      nofun

theorem trim_ne_nil (ink : isWhitespace c = false) : Text.trim (c :: rest) ≠ [] := by
  have start : Text.trimStart (c :: rest) = c :: rest := by simp [Text.trimStart, ink]
  have last : ∀ text : Text, c ∈ text → Text.trimStart text ≠ [] := by
    intro text member none
    have all := List.dropWhile_eq_nil_iff.mp none c member
    rw [ink] at all
    cases all
  unfold Text.trim
  rw [start]
  simpa using last (c :: rest).reverse (List.mem_reverse.mpr List.mem_cons_self)

end SseItem

end LetAgents.Mcp

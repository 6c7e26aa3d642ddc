import LetAgents.Lib.SelfDelimiting
import LetAgents.Rental.PatchProposals

/-!
# The hash of a request

Source: src/src/api/rental/signed-change-journal.ts:116-136, patch-proposal.ts:119.

`stableJson` of a patch request tells the request: JSON strings end at the first quote that no
backslash escapes.
-/
namespace LetAgents.Rental.PatchProposals

open Lib Lib.RegExp PatchGate
open LetAgents.Workspace (jsonString jsonUnits jsonUnit unicodeEscape hexUnit isHighSurrogate isLowSurrogate)

/-! ## The text -/

/-- `stableJson` of a record whose values are printed. -/
def stableRecord (fields : List (String × Text)) : Text :=
  text "\x7b" ++ Text.join (u ',') (fields.map fun field => jsonString (text field.1) ++ text ":" ++ field.2) ++
    text "\x7d"

def stableFile (file : PatchFile) : Text :=
  stableRecord [("content", file.content.elim (text "undefined") jsonString),
    ("diff", file.diff.elim (text "undefined") jsonString),
    ("operation", jsonString file.operation.name), ("path", jsonString file.path)]

/-- `stableJson({ sessionId, idempotencyKey, summary, files })`. -/
def stableRequest (request : PatchProposal) : Text :=
  stableRecord [("files", text "[" ++ Text.join (u ',') (request.files.map stableFile) ++ text "]"),
    ("idempotencyKey", jsonString request.idempotencyKey), ("sessionId", jsonString request.sessionId),
    ("summary", request.summary.elim (text "null") jsonString)]

/-- `stableHash` of the request. -/
def requestHash (sha256 : Text → Text) (request : PatchProposal) : Text := sha256 (stableRequest request)

/-! ## JSON strings -/

/-- The characters behind the backslash of a short escape. -/
def shortEscapes : List (Nat × Nat) :=
  [(u '"', u '"'), (u '\\', u '\\'), (0x08, u 'b'), (0x0C, u 'f'), (0x0A, u 'n'), (0x0D, u 'r'), (0x09, u 't')]

/-- How a unit may stand in a JSON string. -/
inductive Spelled : Nat → Text → Prop where
  | raw {c : Nat} (quote : c ≠ u '"') (backslash : c ≠ u '\\') : Spelled c [c]
  | short {c e : Nat} (pair : (c, e) ∈ shortEscapes) : Spelled c [u '\\', e]
  | long {c : Nat} (small : c < 0x10000) : Spelled c (unicodeEscape c)

theorem unicodeEscape_eq (c : Nat) : unicodeEscape c = u '\\' :: u 'u' ::
    [hexUnit (c / 4096 % 16), hexUnit (c / 256 % 16), hexUnit (c / 16 % 16), hexUnit (c % 16)] := rfl

theorem shortEscapes_facts : (∀ pair ∈ shortEscapes, pair.2 ≠ u 'u') ∧
    ∀ pair ∈ shortEscapes, ∀ pair' ∈ shortEscapes, pair.2 = pair'.2 → pair.1 = pair'.1 := by
  decide

theorem hexUnit_injective {d e : Nat} (small : d < 16) (small' : e < 16) (same : hexUnit d = hexUnit e) :
    d = e := by
  have zero : u '0' = 48 := rfl
  have a : u 'a' = 97 := rfl
  unfold hexUnit at same
  split at same <;> split at same <;> omega

/-- A unit that stands in front is read from the text. -/
theorem Spelled.unique {c d : Nat} {t t' rest rest' : Text} (here : Spelled c t) (there : Spelled d t')
    (same : t ++ rest = t' ++ rest') : c = d ∧ rest = rest' := by
  cases here with
  | raw quote backslash =>
    cases there with
    | raw => exact List.cons.inj same
    | short | long => exact absurd (List.cons.inj same).1 backslash
  | @short e pair =>
    cases there with
    | raw _ backslash => exact absurd (List.cons.inj same).1.symm backslash
    | @short e' pair' =>
      simp only [List.cons_append, List.cons.injEq, true_and] at same
      exact ⟨shortEscapes_facts.2 _ pair _ pair' same.1, same.2⟩
    | long =>
      rw [unicodeEscape_eq] at same
      simp only [List.cons_append, List.cons.injEq, true_and] at same
      exact absurd same.1 (shortEscapes_facts.1 _ pair)
  | long small =>
    cases there with
    | raw _ backslash => exact absurd (List.cons.inj same).1.symm backslash
    | short pair' =>
      rw [unicodeEscape_eq] at same
      simp only [List.cons_append, List.cons.injEq, true_and] at same
      exact absurd same.1.symm (shortEscapes_facts.1 _ pair')
    | long small' =>
      rw [unicodeEscape_eq, unicodeEscape_eq] at same
      simp only [List.cons_append, List.cons.injEq, true_and] at same
      obtain ⟨first, second, third, fourth, tail⟩ := same
      have bound : ∀ n : Nat, n % 16 < 16 := fun n => Nat.mod_lt n (by omega)
      have digits := hexUnit_injective (bound _) (bound _) first
      have digits₂ := hexUnit_injective (bound _) (bound _) second
      have digits₃ := hexUnit_injective (bound _) (bound _) third
      have digits₄ := hexUnit_injective (bound _) (bound _) fourth
      exact ⟨by omega, tail⟩

/-- No unit begins with the quote that ends a string. -/
theorem Spelled.unquoted {c : Nat} {t : Text} (here : Spelled c t) :
    ∃ first rest, t = first :: rest ∧ first ≠ u '"' := by
  cases here with
  | raw quote _ => exact ⟨_, _, rfl, quote⟩
  | short | long => exact ⟨_, _, rfl, by decide⟩

theorem jsonUnit_spelled {c : Nat} : Spelled c (jsonUnit c) := by
  unfold jsonUnit
  split_ifs with quote backslash b f n r t control
  · rw [quote]; exact .short (by decide)
  · rw [backslash]; exact .short (by decide)
  · rw [b]; exact .short (by decide)
  · rw [f]; exact .short (by decide)
  · rw [n]; exact .short (by decide)
  · rw [r]; exact .short (by decide)
  · rw [t]; exact .short (by decide)
  · exact .long (by omega)
  · exact .raw quote backslash

theorem surrogate_facts {c : Nat} (surrogate : isHighSurrogate c = true ∨ isLowSurrogate c = true) :
    c < 0x10000 ∧ c ≠ u '"' ∧ c ≠ u '\\' := by
  have quote : u '"' = 34 := rfl
  have backslash : u '\\' = 92 := rfl
  simp only [isHighSurrogate, isLowSurrogate, Bool.and_eq_true, decide_eq_true_eq] at surrogate
  omega

theorem jsonUnits_spelled (t : Text) :
    ∃ parts : List Text, jsonUnits t = parts.flatten ∧ List.Forall₂ Spelled t parts := by
  induction t using Workspace.jsonUnits.induct with
  | case1 => exact ⟨[], rfl, .nil⟩
  | case2 c lone =>
    rw [jsonUnits, if_pos lone]
    exact ⟨[unicodeEscape c], (List.append_nil _).symm, .cons (.long (surrogate_facts lone).1) .nil⟩
  | case3 c other =>
    rw [jsonUnits, if_neg other]
    exact ⟨[jsonUnit c], (List.append_nil _).symm, .cons jsonUnit_spelled .nil⟩
  | case4 c d rest pair ih =>
    obtain ⟨parts, whole, spelled⟩ := ih
    obtain ⟨-, quote, backslash⟩ := surrogate_facts (.inl pair.1)
    obtain ⟨-, quote', backslash'⟩ := surrogate_facts (.inr pair.2)
    rw [jsonUnits, if_pos pair, whole]
    exact ⟨[c] :: [d] :: parts, rfl, .cons (.raw quote backslash) (.cons (.raw quote' backslash') spelled)⟩
  | case5 c d rest apart lone ih =>
    obtain ⟨parts, whole, spelled⟩ := ih
    rw [jsonUnits, if_neg apart, if_pos lone, whole]
    exact ⟨unicodeEscape c :: parts, rfl, .cons (.long (surrogate_facts lone).1) spelled⟩
  | case6 c d rest apart other ih =>
    obtain ⟨parts, whole, spelled⟩ := ih
    rw [jsonUnits, if_neg apart, if_neg other, whole]
    exact ⟨jsonUnit c :: parts, rfl, .cons jsonUnit_spelled spelled⟩

theorem spelled_unique {a b : Text} {parts parts' : List Text} (here : List.Forall₂ Spelled a parts)
    (there : List.Forall₂ Spelled b parts') {rest rest' : Text}
    (same : parts.flatten ++ u '"' :: rest = parts'.flatten ++ u '"' :: rest') : a = b ∧ rest = rest' := by
  induction here generalizing b parts' with
  | nil =>
    cases there with
    | nil => exact ⟨rfl, (List.cons.inj same).2⟩
    | cons head _ =>
      obtain ⟨first, tail, rfl, other⟩ := head.unquoted
      exact absurd (List.cons.inj same).1.symm other
  | @cons c t a parts head tail ih =>
    cases there with
    | nil =>
      obtain ⟨first, tail, rfl, other⟩ := head.unquoted
      exact absurd (List.cons.inj same).1 other
    | cons head' tail' =>
      rw [List.flatten_cons, List.flatten_cons, List.append_assoc, List.append_assoc] at same
      obtain ⟨rfl, more⟩ := head.unique head' same
      obtain ⟨rfl, last⟩ := ih tail' more
      exact ⟨rfl, last⟩

theorem jsonString_delimits : SelfDelimiting jsonString := by
  intro a b rest rest' same
  obtain ⟨parts, whole, spelled⟩ := jsonUnits_spelled a
  obtain ⟨parts', whole', spelled'⟩ := jsonUnits_spelled b
  unfold jsonString at same
  rw [whole, whole', List.append_assoc, List.append_assoc, List.append_assoc, List.append_assoc] at same
  exact spelled_unique spelled spelled' (List.append_cancel_left same)

/-! ## Requests -/

theorem optional_delimits {word : Text} {first : Nat} {more : Text} (spelled : word = first :: more)
    (unquoted : first ≠ u '"') : SelfDelimiting fun value : Option Text => value.elim word jsonString := by
  rw [spelled]
  exact jsonString_delimits.optional fun _ => ⟨u '"', _, rfl, Ne.symm unquoted⟩

theorem operationName_injective : Function.Injective Operation.name := by
  intro a b same
  have left := patchOperation_name a
  rw [same, patchOperation_name] at left
  exact (Option.some.inj left).symm

theorem stableFile_delimits : SelfDelimiting stableFile := by
  intro a b rest rest' same
  have absent := @optional_delimits (text "undefined") (u 'u') (text "ndefined") (by decide) (by decide)
  simp only [stableFile, stableRecord, List.map, Text.join, List.append_assoc, List.cons_append] at same
  have spelled := List.append_cancel_left (List.append_cancel_left (List.append_cancel_left same))
  obtain ⟨content, more⟩ := absent _ _ _ _ spelled
  have spelled := List.append_cancel_left (List.append_cancel_left (List.cons.inj more).2)
  obtain ⟨diff, more⟩ := absent _ _ _ _ spelled
  have spelled := List.append_cancel_left (List.append_cancel_left (List.cons.inj more).2)
  obtain ⟨operation, more⟩ := jsonString_delimits _ _ _ _ spelled
  have spelled := List.append_cancel_left (List.append_cancel_left (List.cons.inj more).2)
  obtain ⟨path, tail⟩ := jsonString_delimits _ _ _ _ spelled
  refine ⟨?_, List.append_cancel_left tail⟩
  rw [PatchFile.mk.injEq]
  exact ⟨path, operationName_injective operation, content, diff⟩

theorem join_flatMap (separator : Nat) (part : Text) (more : List Text) :
    Text.join separator (part :: more) = part ++ more.flatMap fun next => separator :: next := by
  induction more generalizing part with
  | nil => exact (List.append_nil part).symm
  | cons next more ih =>
    rw [Text.join, ih next]
    · rfl
    · exact List.cons_ne_nil _ _

theorem stableFiles_separated (files : List PatchFile) :
    Text.join (u ',') (files.map stableFile) ++ text "]" = separated stableFile (u ',') (u ']') files := by
  cases files with
  | nil => rfl
  | cons file more =>
    rw [List.map_cons, join_flatMap, List.flatMap_map, List.append_assoc]
    rfl

/-- The text of a request tells the request. -/
theorem stableRequest_injective : Function.Injective stableRequest := by
  intro a b same
  have opens : ∀ file, ∃ first rest, stableFile file = first :: rest ∧ first ≠ u ']' :=
    fun file => ⟨u '\x7b', _, rfl, by decide⟩
  have list := @SelfDelimiting.separated _ _ stableFile stableFile_delimits (u ',') (u ']') (by decide) opens
  have absent := @optional_delimits (text "null") (u 'n') (text "ull") (by decide) (by decide)
  simp only [stableRequest, stableRecord, List.map, Text.join, stableFiles_separated, List.append_assoc,
    List.cons_append] at same
  have spelled := List.append_cancel_left (List.append_cancel_left (List.append_cancel_left
    (List.append_cancel_left same)))
  obtain ⟨files, more⟩ := list _ _ _ _ spelled
  have spelled := List.append_cancel_left (List.append_cancel_left (List.cons.inj more).2)
  obtain ⟨key, more⟩ := jsonString_delimits _ _ _ _ spelled
  have spelled := List.append_cancel_left (List.append_cancel_left (List.cons.inj more).2)
  obtain ⟨session, more⟩ := jsonString_delimits _ _ _ _ spelled
  have spelled := List.append_cancel_left (List.append_cancel_left (List.cons.inj more).2)
  obtain ⟨summary, -⟩ := absent _ _ _ _ spelled
  rw [PatchProposal.mk.injEq]
  exact ⟨session, key, files, summary⟩

end LetAgents.Rental.PatchProposals

import LetAgents.Workspace.DiffIndex

/-!
# Quoted paths

Git writes a path between quotes, with an escape for every byte that is not printable. The
reader of a review knows every escape but the one for the bell.
-/
namespace LetAgents.Workspace

open Lib Lib.RegExp

/-! ## The quoting of git -/

/-- A byte as three octal digits. -/
def octalEscape (b : UInt8) : Text :=
  [u '\\', u '0' + b.toNat / 64, u '0' + b.toNat / 8 % 8, u '0' + b.toNat % 8]

/-- The bytes that git writes with a letter. -/
def escapeLetters : List (UInt8 × Char) :=
  [(0x22, '"'), (0x5C, '\\'), (0x07, 'a'), (0x08, 'b'), (0x09, 't'), (0x0A, 'n'), (0x0B, 'v'),
    (0x0C, 'f'), (0x0D, 'r')]

/-- How git writes a byte of a path between quotes. -/
def quoteByte (b : UInt8) : Text :=
  match escapeLetters.lookup b with
  | some letter => [u '\\', u letter]
  | none => if b < 0x20 ∨ 0x7F ≤ b then octalEscape b else [b.toNat]

/-- The quoted form of a path. -/
def gitQuote (path : List Char) : Text :=
  text "\"" ++ (TextDecoder.encode path).flatMap quoteByte ++ text "\""

/-- The text of a path. -/
def units (path : List Char) : Text := path.flatMap codeUnits

/-! ## What the reader makes of a byte -/

/-- The bell comes back as a letter, every other byte as it was. -/
def readBack (b : UInt8) : UInt8 := if b = 0x07 then 0x61 else b

theorem octal_digit (small : d < 8) : octal (u '0' + d) = true := by
  have zero : u '0' = 48 := by decide
  have seven : u '7' = 55 := by decide
  simp only [octal, Bool.and_eq_true, decide_eq_true_eq]
  omega

theorem octalDigits_escape (b : UInt8) (rest : Text) :
    octalDigits ((octalEscape b).tail ++ rest) = (octalEscape b).tail := by
  have small := b.toNat_lt
  change [u '0' + b.toNat / 64, u '0' + b.toNat / 8 % 8, u '0' + b.toNat % 8].takeWhile octal = _
  rw [List.takeWhile_cons_of_pos (octal_digit (by omega)), List.takeWhile_cons_of_pos (octal_digit (by omega)),
    List.takeWhile_cons_of_pos (octal_digit (by omega))]
  rfl

theorem octalValue_escape (b : UInt8) : octalValue (octalEscape b).tail = b.toNat := by
  change ((0 * 8 + (u '0' + b.toNat / 64 - u '0')) * 8 + (u '0' + b.toNat / 8 % 8 - u '0')) * 8 +
    (u '0' + b.toNat % 8 - u '0') = b.toNat
  omega

theorem encodePoint_ascii : ∀ n < 128, encodePoint n = [UInt8.ofNat n] := by
  decide +kernel

/-- An escape with a letter. -/
theorem unquoteBytes_letter (c fuel : Nat) (rest : Text) (plain : octal c = false) :
    unquoteBytes (fuel + 1) (u '\\' :: c :: rest) = encodePoint (escaped c) ++ unquoteBytes fuel rest := by
  have none : octalDigits (c :: rest) = [] := by
    change (c :: rest.take 2).takeWhile octal = []
    rw [List.takeWhile_cons_of_neg (by rw [plain]; exact Bool.false_ne_true)]
  rw [unquoteBytes, if_pos rfl]
  rw [none, if_neg (fun some => some rfl)]

theorem unquoteBytes_octal (b : UInt8) (fuel : Nat) (rest : Text) :
    unquoteBytes (fuel + 1) (octalEscape b ++ rest) = b :: unquoteBytes fuel rest := by
  change unquoteBytes (fuel + 1) (u '\\' :: ((octalEscape b).tail ++ rest)) = _
  conv_lhs => unfold unquoteBytes
  rw [if_pos rfl]
  have some : (octalEscape b).tail ≠ [] := List.cons_ne_nil _ _
  rw [octalDigits_escape, if_pos some, octalValue_escape, List.drop_left, UInt8.ofNat_toNat]

theorem unquoteBytes_plain (c fuel : Nat) (rest : Text) (ascii : c < 128) (other : c ≠ u '\\') :
    unquoteBytes (fuel + 1) (c :: rest) = UInt8.ofNat c :: unquoteBytes fuel rest := by
  have low : isHighSurrogate c = false := by
    simp only [isHighSurrogate, Bool.and_eq_false_iff, decide_eq_false_iff_not]
    omega
  have same : codePoint c rest = (c, rest) := by
    cases rest with
    | nil => rfl
    | cons d rest => rw [codePoint, low, if_neg (fun both => Bool.false_ne_true both.1)]
  conv_lhs => unfold unquoteBytes
  rw [if_neg other, same, encodePoint_ascii c ascii]
  rfl

theorem escapeLetters_read : ∀ escape ∈ escapeLetters,
    octal (u escape.2) = false ∧ encodePoint (escaped (u escape.2)) = [readBack escape.1] := by
  decide +kernel

/-- One byte is read in one step. -/
theorem unquoteBytes_quote (b : UInt8) (fuel : Nat) (rest : Text) :
    unquoteBytes (fuel + 1) (quoteByte b ++ rest) = readBack b :: unquoteBytes fuel rest := by
  unfold quoteByte
  cases found : escapeLetters.lookup b with
  | some letter =>
    obtain ⟨before, after, split, -⟩ := List.lookup_eq_some_iff.mp found
    obtain ⟨plain, read⟩ := escapeLetters_read (b, letter) (split ▸ List.mem_append_right _ List.mem_cons_self)
    exact (unquoteBytes_letter (u letter) fuel rest plain).trans (by rw [read]; rfl)
  | none =>
    have unnamed := List.lookup_eq_none_iff.mp found
    have same : readBack b = b := if_neg (by simpa using unnamed (0x07, 'a') (by decide))
    have other : b ≠ 0x5C := by simpa using unnamed (0x5C, '\\') (by decide)
    rw [same]
    split_ifs with control
    · exact unquoteBytes_octal b fuel rest
    · rw [not_or, UInt8.not_lt, UInt8.not_le] at control
      have ascii : b.toNat < 128 := by
        have := UInt8.lt_iff_toNat_lt.mp control.2
        exact this.trans (by decide)
      have unit : b.toNat ≠ u '\\' := fun eq => other (UInt8.toNat_inj.mp eq)
      exact (unquoteBytes_plain b.toNat fuel rest ascii unit).trans (by rw [UInt8.ofNat_toNat])

theorem unquoteBytes_quotes (bytes : List UInt8) (enough : bytes.length ≤ fuel) :
    unquoteBytes fuel (bytes.flatMap quoteByte) = bytes.map readBack := by
  induction bytes generalizing fuel with
  | nil =>
    cases fuel <;> rfl
  | cons b rest ih =>
    obtain ⟨fuel, rfl⟩ : ∃ n, fuel = n + 1 := ⟨fuel - 1, by rw [List.length_cons] at enough; omega⟩
    rw [List.flatMap_cons, unquoteBytes_quote, ih (Nat.le_of_succ_le_succ enough), List.map_cons]

theorem quoteByte_length (b : UInt8) : 1 ≤ (quoteByte b).length := by
  unfold quoteByte
  split
  · exact Nat.le_add_left 1 1
  · split_ifs <;> exact Nat.succ_le_succ (Nat.zero_le _)

theorem length_le_quotes (bytes : List UInt8) : bytes.length ≤ (bytes.flatMap quoteByte).length := by
  induction bytes with
  | nil => exact le_rfl
  | cons b rest ih =>
    have := quoteByte_length b
    rw [List.flatMap_cons, List.length_append, List.length_cons]
    omega

/-! ## What the reader makes of a path -/

/-- The path with every bell replaced. -/
def readBackPath (path : List Char) : List Char := path.map fun c => if c = '\x07' then 'a' else c

/-- The byte of the bell is its own. -/
theorem encode_bell (other : c ≠ '\x07') : ∀ b ∈ String.utf8EncodeChar c, b ≠ 0x07 := by
  have differs : c.val.toNat ≠ 7 := fun same => other (Char.ext (UInt32.toNat_inj.mp same))
  have apart {n : Nat} (byte : n < 256) (unequal : n ≠ 7) : UInt8.ofNat n ≠ 0x07 := by
    intro same
    have := congrArg UInt8.toNat same
    rw [TextDecoder.toNat_ofNat_of_lt byte] at this
    exact unequal this
  unfold String.utf8EncodeChar
  dsimp only
  intro b member
  split_ifs at member <;> simp only [List.mem_cons, List.not_mem_nil, or_false] at member
  · rw [member]
    exact apart (by omega) differs
  · rcases member with rfl | rfl <;> exact apart (by omega) (by omega)
  · rcases member with rfl | rfl | rfl <;> exact apart (by omega) (by omega)
  · rcases member with rfl | rfl | rfl | rfl <;> exact apart (by omega) (by omega)

theorem encode_readBackPath (path : List Char) :
    TextDecoder.encode (readBackPath path) = (TextDecoder.encode path).map readBack := by
  induction path with
  | nil => rfl
  | cons c rest ih =>
    have first : String.utf8EncodeChar (if c = '\x07' then 'a' else c) =
        (String.utf8EncodeChar c).map readBack := by
      split_ifs with bell
      · rw [bell]
        decide
      · have kept := (List.map_congr_left fun b member => if_neg (encode_bell bell b member) :
          (String.utf8EncodeChar c).map readBack = (String.utf8EncodeChar c).map id)
        rw [kept, List.map_id]
    change String.utf8EncodeChar _ ++ TextDecoder.encode (readBackPath rest) =
      (String.utf8EncodeChar c ++ TextDecoder.encode rest).map readBack
    rw [first, ih, List.map_append]

theorem unquotePath_gitQuote (path : List Char) :
    unquotePath (gitQuote path) = units (TextDecoder.strip false (readBackPath path)).2 := by
  have opens : Text.startsWith (gitQuote path) (text "\"") = true := rfl
  have closes : Text.endsWith (gitQuote path) (text "\"") = true :=
    List.isSuffixOf_iff_suffix.mpr (List.suffix_append _ _)
  have source : (gitQuote path).tail.dropLast = (TextDecoder.encode path).flatMap quoteByte := by
    change ((TextDecoder.encode path).flatMap quoteByte ++ [u '"']).dropLast = _
    rw [List.dropLast_concat]
  unfold unquotePath
  rw [if_pos ⟨opens, closes⟩]
  dsimp only
  rw [source, unquoteBytes_quotes _ (length_le_quotes _), ← encode_readBackPath, decodeBytes, TextDecoder.decode_encode]
  change ((TextDecoder.strip false (readBackPath path ++ [])).2.flatMap codeUnits) = _
  rw [List.append_nil]
  rfl

/-- The units of a character are told from what follows. -/
theorem codeUnits_append (same : codeUnits c ++ rest = codeUnits d ++ rest') :
    c = d ∧ rest = rest' := by
  have validc : c.toNat < 0xD800 ∨ 0xDFFF < c.toNat ∧ c.toNat < 0x110000 := c.valid
  have validd : d.toNat < 0xD800 ∨ 0xDFFF < d.toNat ∧ d.toNat < 0x110000 := d.valid
  have equal (eq : c.toNat = d.toNat) : c = d := Char.ext (UInt32.toNat_inj.mp eq)
  unfold codeUnits at same
  split_ifs at same <;> simp only [List.cons_append, List.cons.injEq] at same
  · exact ⟨equal same.1, same.2⟩
  · omega
  · omega
  · exact ⟨equal (by omega), same.2.2⟩

theorem codeUnits_ne_nil (c : Char) : codeUnits c ≠ [] := by
  unfold codeUnits
  split_ifs <;> exact List.cons_ne_nil _ _

/-- A path is told by its text. -/
theorem units_injective (same : units path = units path') : path = path' := by
  induction path generalizing path' with
  | nil =>
    cases path' with
    | nil => rfl
    | cons c rest => exact absurd (List.append_eq_nil_iff.mp same.symm).1 (codeUnits_ne_nil c)
  | cons c rest ih =>
    cases path' with
    | nil => exact absurd (List.append_eq_nil_iff.mp same).1 (codeUnits_ne_nil c)
    | cons d rest' =>
      obtain ⟨rfl, tail⟩ := codeUnits_append same
      rw [ih tail]

/-- What the reader leaves of a path is the path, unless it begins with a byte order mark or has
a bell in it. -/
theorem strip_readBack_iff (path : List Char) :
    (TextDecoder.strip false (readBackPath path)).2 = path ↔
      '\x07' ∉ path ∧ path.head? ≠ some TextDecoder.byteOrderMark := by
  constructor
  · intro same
    constructor
    · intro bell
      rw [← same] at bell
      have kept : '\x07' ∈ readBackPath path := by
        cases whole : readBackPath path with
        | nil =>
          rw [whole] at bell
          exact bell
        | cons c rest =>
          rw [whole] at bell
          change _ ∈ (if c = TextDecoder.byteOrderMark then rest else c :: rest) at bell
          split_ifs at bell
          · exact .tail _ bell
          · exact bell
      obtain ⟨c, -, read⟩ := List.mem_map.mp kept
      split_ifs at read with eq
      · exact absurd read (by decide)
      · exact eq read
    · intro marked
      cases path with
      | nil => cases marked
      | cons c rest =>
        obtain rfl := Option.some.inj marked
        have first : readBackPath (TextDecoder.byteOrderMark :: rest) =
            TextDecoder.byteOrderMark :: readBackPath rest :=
          congrArg (· :: readBackPath rest) (if_neg (by decide))
        have shorter := congrArg List.length same
        rw [first, TextDecoder.strip, if_pos rfl, readBackPath, List.length_map, List.length_cons] at shorter
        omega
  · rintro ⟨silent, unmarked⟩
    have kept : readBackPath path = path := by
      have each : ∀ c ∈ path, (if c = '\x07' then 'a' else c) = id c := by
        intro c member
        refine if_neg fun bell => ?_
        rw [bell] at member
        exact silent member
      rw [readBackPath, List.map_congr_left each, List.map_id]
    rw [kept]
    exact TextDecoder.strip_of_ne (fun c here eq => unmarked (eq ▸ here)) false

end LetAgents.Workspace

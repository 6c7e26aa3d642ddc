import Mathlib.Data.List.Basic
import Mathlib.Data.List.Infix

/-!
# UTF-8 as it arrives

The decoder of the Encoding Standard, byte by byte: what does not belong to a character
becomes U+FFFD, and a byte that ends such a sequence is read again. A character that is cut
waits for its other bytes, so it does not matter how a text is split.
-/
namespace LetAgents.Lib

/-- What is left to read of a character: the number of bytes, the bits so far, and the bounds of
the next byte. -/
structure TextDecoder where
  needed : Nat
  codePoint : Nat
  lower : Nat
  upper : Nat

theorem prefix_append_cases (cut : l <+: a ++ b) :
    l <+: a ∨ ∃ more, l = a ++ more ∧ more <+: b := by
  rcases List.prefix_or_prefix_of_prefix cut (List.prefix_append a b) with short | ⟨more, rfl⟩
  · exact .inl short
  · exact .inr ⟨more, rfl, (List.prefix_append_right_inj a).mp cut⟩

namespace TextDecoder

def idle : TextDecoder := ⟨0, 0, 0x80, 0xBF⟩

def replacement : Char := Char.ofNat 0xFFFD

/-- The first byte of a character. -/
def lead (b : Nat) : TextDecoder × List Char :=
  if b ≤ 0x7F then (idle, [Char.ofNat b])
  else if 0xC2 ≤ b ∧ b ≤ 0xDF then (⟨1, b - 0xC0, 0x80, 0xBF⟩, [])
  else if 0xE0 ≤ b ∧ b ≤ 0xEF then
    (⟨2, b - 0xE0, if b = 0xE0 then 0xA0 else 0x80, if b = 0xED then 0x9F else 0xBF⟩, [])
  else if 0xF0 ≤ b ∧ b ≤ 0xF4 then
    (⟨3, b - 0xF0, if b = 0xF0 then 0x90 else 0x80, if b = 0xF4 then 0x8F else 0xBF⟩, [])
  else (idle, [replacement])

def read (d : TextDecoder) (byte : UInt8) : TextDecoder × List Char :=
  let b := byte.toNat
  if d.needed = 0 then lead b
  else if d.lower ≤ b ∧ b ≤ d.upper then
    let codePoint := d.codePoint * 64 + (b - 0x80)
    if d.needed = 1 then (idle, [Char.ofNat codePoint])
    else (⟨d.needed - 1, codePoint, 0x80, 0xBF⟩, [])
  else ((lead b).1, replacement :: (lead b).2)

/-- `decode(bytes, { stream: true })`. -/
def decode (d : TextDecoder) : List UInt8 → TextDecoder × List Char
  | [] => (d, [])
  | byte :: rest =>
    (((d.read byte).1.decode rest).1, (d.read byte).2 ++ ((d.read byte).1.decode rest).2)

/-- `decode()`: a character that is cut is replaced. -/
def flush (d : TextDecoder) : List Char := if d.needed = 0 then [] else [replacement]

theorem decode_append (d : TextDecoder) (bytes more : List UInt8) :
    d.decode (bytes ++ more) =
      (((d.decode bytes).1.decode more).1, (d.decode bytes).2 ++ ((d.decode bytes).1.decode more).2) := by
  induction bytes generalizing d with
  | nil => rfl
  | cons byte rest ih => simp only [List.cons_append, decode, ih, List.append_assoc]

/-! ## The byte order mark -/

def byteOrderMark : Char := Char.ofNat 0xFEFF

/-- The first character of a stream is left out where it is a byte order mark. -/
def strip : Bool → List Char → Bool × List Char
  | true, text => (true, text)
  | false, [] => (false, [])
  | false, c :: rest => (true, if c = byteOrderMark then rest else c :: rest)

theorem strip_append (started : Bool) (text more : List Char) :
    strip started (text ++ more) =
      ((strip (strip started text).1 more).1,
        (strip started text).2 ++ (strip (strip started text).1 more).2) := by
  cases started with
  | true => rfl
  | false =>
    cases text with
    | nil => simp [strip]
    | cons c rest =>
      simp only [strip, List.cons_append]
      split <;> rfl

theorem strip_of_ne (other : ∀ c ∈ text.head?, c ≠ byteOrderMark) (started : Bool) :
    (strip started text).2 = text := by
  cases started with
  | true => rfl
  | false =>
    cases text with
    | nil => rfl
    | cons c rest => exact if_neg (other c rfl)

/-! ## What was encoded -/

theorem read_lead {d : TextDecoder} (zero : d.needed = 0) (byte : UInt8) :
    d.read byte = lead byte.toNat := if_pos zero

theorem toNat_ofNat_of_lt (lt : n < 256) : (UInt8.ofNat n).toNat = n := by
  exact Nat.mod_eq_of_lt lt

theorem read_tail {needed codePoint lower upper n : Nat} (six : n < 64) (low : lower ≤ n + 0x80)
    (high : n + 0x80 ≤ upper) :
    read ⟨needed + 2, codePoint, lower, upper⟩ (UInt8.ofNat (n + 0x80)) =
      (⟨needed + 1, codePoint * 64 + n, 0x80, 0xBF⟩, []) := by
  unfold read
  simp only [toNat_ofNat_of_lt (show n + 0x80 < 256 by omega), Nat.succ_ne_zero,
    if_false, if_pos (And.intro low high), Nat.add_sub_cancel,
    if_neg (show needed + 2 ≠ 1 by omega)]
  rfl

theorem read_last {codePoint lower upper n : Nat} (six : n < 64) (low : lower ≤ n + 0x80)
    (high : n + 0x80 ≤ upper) :
    read ⟨1, codePoint, lower, upper⟩ (UInt8.ofNat (n + 0x80)) =
      (idle, [Char.ofNat (codePoint * 64 + n)]) := by
  unfold read
  simp only [toNat_ofNat_of_lt (show n + 0x80 < 256 by omega), Nat.succ_ne_zero, if_false,
    if_pos (And.intro low high), Nat.add_sub_cancel, if_true]

/-- Reading the bytes one after the other brings out the character with the last of them. -/
inductive Spells (c : Char) : TextDecoder → List UInt8 → Prop where
  | last {d : TextDecoder} {byte : UInt8} : d.read byte = (idle, [c]) → Spells c d [byte]
  | more {d d' : TextDecoder} {byte : UInt8} {rest : List UInt8} :
      d.read byte = (d', []) → Spells c d' rest → Spells c d (byte :: rest)

theorem Spells.decode (spells : Spells c d bytes) : d.decode bytes = (idle, [c]) := by
  induction spells with
  | last read => simp only [TextDecoder.decode, read, List.append_nil]
  | more read _ ih => simp only [TextDecoder.decode, read, ih, List.nil_append]

/-- A part of the bytes brings out nothing. -/
theorem Spells.cut (spells : Spells c d bytes) {some : List UInt8} (cut : some <+: bytes)
    (proper : some ≠ bytes) : (d.decode some).2 = [] := by
  induction spells generalizing some with
  | last _ =>
    rcases List.prefix_cons_iff.mp cut with rfl | ⟨rest, rfl, none⟩
    · rfl
    · rw [List.prefix_nil.mp none] at proper
      exact absurd rfl proper
  | more read _ ih =>
    rcases List.prefix_cons_iff.mp cut with rfl | ⟨rest, rfl, shorter⟩
    · rfl
    · simp only [TextDecoder.decode, read]
      exact ih shorter fun same => proper (same ▸ rfl)

theorem spells (c : Char) : Spells c idle (String.utf8EncodeChar c) := by
  have valid : c.val.toNat < 0xD800 ∨ 0xDFFF < c.val.toNat ∧ c.val.toNat < 0x110000 := c.valid
  have back : ∀ {n : Nat}, n = c.val.toNat → [Char.ofNat n] = [c] := by
    rintro n rfl
    exact congrArg (· :: []) (Char.ofNat_toNat c)
  unfold String.utf8EncodeChar
  dsimp only
  generalize c.val.toNat = v at valid back ⊢
  split
  · refine .last ?_
    rw [read_lead rfl, toNat_ofNat_of_lt (by omega), lead, if_pos (by omega), back rfl]
  · split
    · refine @Spells.more _ _ ⟨1, v / 64 % 32, 0x80, 0xBF⟩ _ _ ?_ (.last ?_)
      · rw [read_lead rfl, toNat_ofNat_of_lt (by omega), lead, if_neg (by omega), if_pos (by omega)]
        simp
      · rw [read_last (by omega) (by omega) (by omega), back (by omega)]
    · split
      · refine @Spells.more _ _ ⟨2, v / 4096 % 16, if v / 4096 % 16 = 0 then 0xA0 else 0x80,
          if v / 4096 % 16 = 0xD then 0x9F else 0xBF⟩ _ _ ?_
          (.more (read_tail (by omega) ?_ ?_) (.last ?_))
        · rw [read_lead rfl, toNat_ofNat_of_lt (by omega), lead, if_neg (by omega), if_neg (by omega),
            if_pos (by omega)]
          simp
        · split <;> omega
        · split <;> omega
        · rw [read_last (by omega) (by omega) (by omega), back (by omega)]
      · refine @Spells.more _ _ ⟨3, v / 262144 % 8, if v / 262144 % 8 = 0 then 0x90 else 0x80,
          if v / 262144 % 8 = 4 then 0x8F else 0xBF⟩ _ _ ?_
          (.more (read_tail (by omega) ?_ ?_)
            (.more (read_tail (by omega) (by omega) (by omega)) (.last ?_)))
        · rw [read_lead rfl, toNat_ofNat_of_lt (by omega), lead, if_neg (by omega), if_neg (by omega),
            if_neg (by omega), if_pos (by omega)]
          simp
        · split <;> omega
        · split <;> omega
        · rw [read_last (by omega) (by omega) (by omega), back (by omega)]

/-! ## Texts -/

/-- `new TextEncoder().encode(text)`. -/
def encode (text : List Char) : List UInt8 := text.flatMap String.utf8EncodeChar

theorem decode_encode (text : List Char) : idle.decode (encode text) = (idle, text) := by
  induction text with
  | nil => rfl
  | cons c rest ih =>
    change idle.decode (String.utf8EncodeChar c ++ encode rest) = _
    rw [decode_append, (spells c).decode, ih]
    rfl

/-- A part of a text's bytes gives a part of the text. -/
theorem decode_cut (cut : bytes <+: encode text) : (idle.decode bytes).2 <+: text := by
  induction text generalizing bytes with
  | nil =>
    rw [List.prefix_nil.mp cut]
    exact List.prefix_refl _
  | cons c rest ih =>
    rcases prefix_append_cases cut with short | ⟨more, rfl, shorter⟩
    · by_cases whole : bytes = String.utf8EncodeChar c
      · subst whole
        rw [(spells c).decode]
        exact ⟨rest, rfl⟩
      · rw [(spells c).cut short whole]
        exact List.nil_prefix
    · rw [decode_append, (spells c).decode]
      exact List.cons_prefix_cons.mpr ⟨rfl, ih shorter⟩

/-- No smaller part of its bytes gives the whole text. -/
theorem encode_of_decode_cut (cut : bytes <+: encode text) (whole : (idle.decode bytes).2 = text) :
    bytes = encode text := by
  induction text generalizing bytes with
  | nil => exact List.prefix_nil.mp cut
  | cons c rest ih =>
    rcases prefix_append_cases cut with short | ⟨more, rfl, shorter⟩
    · by_cases all : bytes = String.utf8EncodeChar c
      · subst all
        rw [(spells c).decode] at whole
        cases whole
        exact (List.append_nil _).symm
      · rw [(spells c).cut short all] at whole
        cases whole
    · rw [decode_append, (spells c).decode] at whole
      have tail := ih shorter (List.cons.inj whole).2
      change String.utf8EncodeChar c ++ more = String.utf8EncodeChar c ++ encode rest
      rw [tail]

theorem encode_append (text more : List Char) : encode (text ++ more) = encode text ++ encode more :=
  List.flatMap_append

end TextDecoder

end LetAgents.Lib

import LetAgents.Lib.PathSegments
import LetAgents.Lib.RegExpWords
import LetAgents.Rental.SecretFirewall

/-!
# The quoted segments of the entropy layer

Source: src/api/rental/secret-firewall.ts:253-309.

A match of the layer takes both its quotes, so the text up to the next quote is not looked at,
and what it redacts stands between two copies of its first quote.
-/
namespace LetAgents.Rental.SecretFirewall

open Lib.RegExp

def isQuoteUnit (c : Nat) : Bool := c = 0x22 || c = 0x27

/-- No quote stands in the text. -/
def Unquoted (t : Text) : Prop := ∀ c ∈ t, isQuoteUnit c = false

def inRange (t : Text) : Bool := ENTROPY_MIN_LENGTH ≤ t.length && t.length ≤ ENTROPY_MAX_LENGTH

theorem inRange_iff : inRange t = true ↔ 16 ≤ t.length ∧ t.length ≤ 500 := by
  rw [inRange, Bool.and_eq_true, decide_eq_true_iff, decide_eq_true_iff]
  exact Iff.rfl

def REDACTED : Text := text "REDACTED_HIGH_ENTROPY"

/-- The replacement has no quote and no newline, and is not replaced again. -/
theorem redacted_plain : (∀ c ∈ REDACTED, isQuoteUnit c = false) ∧ 0x0A ∉ REDACTED ∧
    inRange REDACTED = true ∧ Text.startsWith REDACTED (text "REDACTED") = true := by
  decide +kernel

section Law

variable (shannonEntropy : Text → Entropy)

/-- A text that the layer redacts where it looks at it. -/
def random (t : Text) : Bool :=
  inRange t && (shannonEntropy t).reachesThreshold && !Text.startsWith t (text "REDACTED")

/-- Such a text stands between two quotes of the line. -/
def Leaks (line : Text) : Prop :=
  ∃ before q t q' after, line = before ++ q :: t ++ q' :: after ∧ isQuoteUnit q = true ∧
    isQuoteUnit q' = true ∧ Unquoted t ∧ random shannonEntropy t = true

/-- The second text is the first with some such texts between quotes redacted, and how many. -/
inductive Replaced : Text → Text → Nat → Prop where
  | same (t : Text) : Replaced t t 0
  | segment {before t rest rest' : Text} {q q' n : Nat} (opens : isQuoteUnit q = true)
      (closes : isQuoteUnit q' = true) (unquoted : Unquoted t)
      (found : random shannonEntropy t = true) (more : Replaced rest rest' n) :
      Replaced (before ++ q :: t ++ q' :: rest) (before ++ q :: REDACTED ++ q' :: rest') (n + 1)

/-- What the layer should do to a content. -/
structure Strict (content : Text) : Prop where
  clean : ∀ line ∈ Text.split 0x0A (scanAndRedactEntropy shannonEntropy content).content,
    ¬Leaks shannonEntropy line
  replaced : Replaced shannonEntropy content (scanAndRedactEntropy shannonEntropy content).content
    (scanAndRedactEntropy shannonEntropy content).redactionCount
  again : (scanAndRedactEntropy shannonEntropy
    (scanAndRedactEntropy shannonEntropy content).content).content =
      (scanAndRedactEntropy shannonEntropy content).content

/-! ## Pieces -/

/-- The text before the first quote, and every quote with the text behind it. -/
def pieces : Text → Text × List (Nat × Text)
  | [] => ([], [])
  | c :: rest =>
    if isQuoteUnit c then ([], (c, (pieces rest).1) :: (pieces rest).2)
    else (c :: (pieces rest).1, (pieces rest).2)

/-- The layer looks at every such text of the pieces, and redacts between equal quotes only. -/
def Seen : List (Nat × Text) → Prop
  | (q, t) :: (q', t') :: rest =>
    if inRange t then
      (random shannonEntropy t = true → q = q') ∧
        (rest ≠ [] → random shannonEntropy t' = false) ∧ Seen rest
    else Seen ((q', t') :: rest)
  | _ => True

/-- The pieces after the layer. -/
def covered : List (Nat × Text) → List (Nat × Text)
  | (q, t) :: (q', t') :: rest =>
    if inRange t then
      if random shannonEntropy t then (q, REDACTED) :: (q, t') :: covered rest
      else (q, t) :: (q', t') :: covered rest
    else (q, t) :: covered ((q', t') :: rest)
  | ps => ps

/-- How many pieces the layer redacts. -/
def redactions : List (Nat × Text) → Nat
  | (_, t) :: (q', t') :: rest =>
    if inRange t then (if random shannonEntropy t then 1 else 0) + redactions rest
    else redactions ((q', t') :: rest)
  | _ => 0

end Law

def flat (ps : List (Nat × Text)) : Text := ps.flatMap fun piece => piece.1 :: piece.2

/-- Pieces as `pieces` makes them. -/
def Wellformed (ps : List (Nat × Text)) : Prop :=
  ∀ piece ∈ ps, isQuoteUnit piece.1 = true ∧ Unquoted piece.2

theorem flat_cons (q : Nat) (t : Text) (ps : List (Nat × Text)) :
    flat ((q, t) :: ps) = q :: t ++ flat ps := rfl

theorem pieces_wellformed (line : Text) : Unquoted (pieces line).1 ∧ Wellformed (pieces line).2 := by
  induction line with
  | nil => exact ⟨nofun, nofun⟩
  | cons c rest ih =>
    unfold pieces
    split
    · next quote => exact ⟨nofun, List.forall_mem_cons.mpr ⟨⟨quote, ih.1⟩, ih.2⟩⟩
    · next other =>
      exact ⟨List.forall_mem_cons.mpr ⟨Bool.eq_false_iff.mpr other, ih.1⟩, ih.2⟩

theorem pieces_flat (line : Text) : (pieces line).1 ++ flat (pieces line).2 = line := by
  induction line with
  | nil => rfl
  | cons c rest ih =>
    unfold pieces
    split
    · rw [flat_cons, List.nil_append, List.cons_append, ih]
    · rw [List.cons_append, ih]

theorem pieces_unquoted (lead : Text) (free : Unquoted lead) (rest : Text) :
    pieces (lead ++ rest) = (lead ++ (pieces rest).1, (pieces rest).2) := by
  induction lead with
  | nil => rfl
  | cons c lead ih =>
    obtain ⟨other, free⟩ := List.forall_mem_cons.mp free
    rw [List.cons_append, pieces, if_neg (Bool.eq_false_iff.mp other), ih free]
    rfl

theorem pieces_of_flat (lead : Text) (free : Unquoted lead) (whole : Wellformed ps) :
    pieces (lead ++ flat ps) = (lead, ps) := by
  induction ps generalizing lead with
  | nil => rw [pieces_unquoted lead free]; simp [flat, pieces]
  | cons piece ps ih =>
    obtain ⟨q, t⟩ := piece
    obtain ⟨⟨quote, inner⟩, rest⟩ := List.forall_mem_cons.mp whole
    rw [pieces_unquoted lead free, flat_cons, List.cons_append, pieces, if_pos quote, ih t inner rest]
    simp

/-! ## Matches -/

theorem repeated_iff {accepts : Nat → Prop} (order : ∀ m ∈ most, least ≤ m) :
    Repeated (fun word => ∃ c, word = [c] ∧ accepts c) least most word ↔
      (∀ c ∈ word, accepts c) ∧ least ≤ word.length ∧ ∀ m ∈ most, word.length ≤ m := by
  constructor
  · intro words
    induction words with
    | full =>
      have none := order 0 rfl
      exact ⟨nofun, none, fun m _ => Nat.zero_le m⟩
    | enough => exact ⟨nofun, le_rfl, fun m _ => Nat.zero_le m⟩
    | @more least most first rest allowed _ head _ ih =>
      obtain ⟨c, rfl, accepted⟩ := head
      cases most with
      | none =>
        obtain ⟨all, long, -⟩ := ih (nofun)
        refine ⟨List.forall_mem_cons.mpr ⟨accepted, all⟩, ?_, nofun⟩
        simp only [List.singleton_append, List.length_cons]
        omega
      | some m =>
        have bound := order m rfl
        obtain ⟨all, long, short⟩ := ih (by simpa using by omega)
        have less := short (m - 1) rfl
        have positive : m ≠ 0 := fun zero => allowed (congrArg some zero)
        refine ⟨List.forall_mem_cons.mpr ⟨accepted, all⟩, ?_, ?_⟩
        · simp only [List.singleton_append, List.length_cons]
          omega
        · rintro m' same
          obtain rfl := Option.some.inj same
          simp only [List.singleton_append, List.length_cons]
          omega
  · rintro ⟨all, long, short⟩
    induction word generalizing least most with
    | nil =>
      obtain rfl : least = 0 := Nat.le_zero.mp long
      exact .enough
    | cons c rest ih =>
      obtain ⟨accepted, others⟩ := List.forall_mem_cons.mp all
      rw [List.length_cons] at long short
      have tail : Repeated (fun word => ∃ c, word = [c] ∧ accepts c) (least - 1) (most.map (· - 1)) rest := by
        apply ih _ others (by omega)
        · intro m member
          obtain ⟨m', here, rfl⟩ := Option.map_eq_some_iff.mp member
          have bound := short m' here
          omega
        · intro m member
          obtain ⟨m', here, rfl⟩ := Option.map_eq_some_iff.mp member
          have bound := order m' here
          omega
      refine @Repeated.more _ _ _ [c] _ ?_ (.inr (List.cons_ne_nil _ _)) ⟨c, rfl, accepted⟩ tail
      rintro rfl
      exact absurd (short 0 rfl) (Nat.not_succ_le_zero _)

def quoteClass : List ClassItem := [.range 0x22 0x22, .range 0x27 0x27]

theorem quotedString_shape : quotedString =
    ⟨.seq (.set false quoteClass) (.seq (.group (some 1) (.seq (.many 16 (some 500) true 2 2
      (.set true quoteClass)) .empty)) (.seq (.set false quoteClass) .empty)), false⟩ := by
  decide +kernel

theorem setAccepts_quoteClass (negated : Bool) (c : Nat) :
    setAccepts false negated quoteClass c = (isQuoteUnit c != negated) := by
  have double : (decide (0x22 ≤ c) && decide (c ≤ 0x22)) = decide (c = 0x22) := by
    rw [← Bool.decide_and, decide_eq_decide]
    omega
  have single : (decide (0x27 ≤ c) && decide (c ≤ 0x27)) = decide (c = 0x27) := by
    rw [← Bool.decide_and, decide_eq_decide]
    omega
  simp [setAccepts, spellings, quoteClass, ClassItem.accepts, isQuoteUnit, double, single]

/-- What the pattern matches. -/
theorem quotedString_language : quotedString.node.language quotedString.ignoreCase false word ↔
    ∃ q t q', word = q :: t ++ [q'] ∧ isQuoteUnit q = true ∧ isQuoteUnit q' = true ∧ Unquoted t ∧
      inRange t = true := by
  have inner : ∀ t : Text, Repeated (fun word => ∃ c, word = [c] ∧ isQuoteUnit c = false) 16 (some 500) t ↔
      Unquoted t ∧ inRange t = true := by
    intro t
    rw [repeated_iff (by rintro m same; cases same; decide), inRange_iff]
    simp [Unquoted]
  have opening : ∀ c, setAccepts false false quoteClass c = true ↔ isQuoteUnit c = true := by
    intro c
    rw [setAccepts_quoteClass, Bool.bne_false]
  have other : ∀ c, setAccepts false true quoteClass c = true ↔ isQuoteUnit c = false := by
    intro c
    rw [setAccepts_quoteClass, Bool.bne_true, Bool.not_eq_true']
  rw [quotedString_shape]
  simp only [Node.language, opening, other, inner]
  constructor
  · rintro ⟨_, _, rfl, ⟨q, rfl, quote⟩, _, _, rfl, ⟨t, _, rfl, ⟨unquoted, ranged⟩, rfl⟩, _, _, rfl,
      ⟨q', rfl, quote'⟩, rfl⟩
    exact ⟨q, t, q', by simp, quote, quote', unquoted, ranged⟩
  · rintro ⟨q, t, q', rfl, quote, quote', unquoted, ranged⟩
    exact ⟨[q], t ++ [q'], rfl, ⟨q, rfl, quote⟩, t, [q'], rfl,
      ⟨t, [], (List.append_nil t).symm, ⟨unquoted, ranged⟩, rfl⟩, [q'], [], rfl, ⟨q', rfl, quote'⟩, rfl⟩

theorem quotedString_finds : Finds quotedString (fun seen => seen = [])
    (quotedString.node.language quotedString.ignoreCase false) :=
  plain_finds (by rw [quotedString_shape]; rfl)

/-- The first quote behind a text without quotes. -/
theorem unquoted_split {t t' a a' : Text} (free : Unquoted t) (free' : Unquoted t')
    (quote : isQuoteUnit q = true) (quote' : isQuoteUnit q' = true)
    (same : t ++ q :: a = t' ++ q' :: a') : t = t' ∧ q = q' ∧ a = a' := by
  have first := congrArg pieces same
  rw [pieces_unquoted t free, pieces_unquoted t' free', pieces, pieces, if_pos quote, if_pos quote'] at first
  simp only [List.append_nil, Prod.mk.injEq, List.cons.injEq] at first
  obtain ⟨rfl, ⟨rfl, -⟩, -⟩ := first
  exact ⟨rfl, rfl, (List.cons.inj (List.append_cancel_left same)).2⟩

theorem endOf_segment (b : Text) {t a : Text} (quote : isQuoteUnit q = true)
    (quote' : isQuoteUnit q' = true) (free : Unquoted t) :
    quotedString.endOf ⟨b, q :: t ++ q' :: a⟩ =
      if inRange t then some ⟨q' :: (t.reverse ++ q :: b), a⟩ else none := by
  cases found : quotedString.endOf ⟨b, q :: t ++ q' :: a⟩ with
  | some e =>
    obtain ⟨seen, rest, word, split, taken, rfl, language, before⟩ := quotedString_finds.endOf_some found
    obtain ⟨q₁, t₁, q₁', rfl, quote₁, quote₁', free₁, ranged⟩ := quotedString_language.mp language
    simp only [List.cons_append, List.append_assoc, List.cons.injEq] at taken
    obtain ⟨rfl, taken⟩ := taken
    obtain ⟨rfl, rfl, rfl⟩ := unquoted_split free free₁ quote' quote₁' taken
    rw [if_pos ranged]
    cases e
    simp only at before ⊢
    simp [before]
  | none =>
    split
    · next ranged =>
      have some := quotedString_finds.endOf_isSome rfl
        (quotedString_language.mpr ⟨q, t, q', rfl, quote, quote', free, ranged⟩) b a
      simp only [List.nil_append, List.cons_append, List.append_assoc] at some found
      rw [found] at some
      cases some
    · rfl

/-- No match begins where no two quotes follow. -/
theorem endOf_none (none : ∀ q t q' a, p.after = q :: t ++ q' :: a → isQuoteUnit q = true →
    isQuoteUnit q' = true → Unquoted t → False) : quotedString.endOf p = Option.none := by
  cases found : quotedString.endOf p with
  | none => rfl
  | some e =>
    obtain ⟨seen, rest, word, split, taken, rfl, language, before⟩ := quotedString_finds.endOf_some found
    obtain ⟨q, t, q', rfl, quote, quote', free, -⟩ := quotedString_language.mp language
    exact (none q t q' e.after (by simp [taken]) quote quote' free).elim

theorem exec_skip {a b : Text} (fails : quotedString.endOf ⟨b, c :: a⟩ = none) :
    quotedString.exec ⟨b, c :: a⟩ = quotedString.exec ⟨c :: b, a⟩ := by
  rw [Compiled.exec, Compiled.search, fails]
  rfl

theorem exec_unquoted (lead : Text) (free : Unquoted lead) (b rest : Text) :
    quotedString.exec ⟨b, lead ++ rest⟩ = quotedString.exec ⟨lead.reverse ++ b, rest⟩ := by
  induction lead generalizing b with
  | nil => rfl
  | cons c lead ih =>
    obtain ⟨other, free⟩ := List.forall_mem_cons.mp free
    rw [List.cons_append, exec_skip, ih free]
    · simp
    · apply endOf_none
      intro q t q' a same quote _ _
      rw [(List.cons.inj same).1, quote] at other
      cases other

theorem exec_segment (b lead : Text) {t a : Text} (free : Unquoted lead)
    (quote : isQuoteUnit q = true) (quote' : isQuoteUnit q' = true) (inner : Unquoted t) :
    quotedString.exec ⟨b, lead ++ (q :: t ++ q' :: a)⟩ =
      if inRange t then some (⟨lead.reverse ++ b, q :: t ++ q' :: a⟩,
        ⟨q' :: (t.reverse ++ q :: (lead.reverse ++ b)), a⟩)
      else quotedString.exec ⟨q :: (lead.reverse ++ b), t ++ q' :: a⟩ := by
  rw [exec_unquoted lead free]
  have here := endOf_segment (lead.reverse ++ b) quote quote' inner (a := a)
  split
  · next ranged =>
    rw [if_pos ranged] at here
    rw [Compiled.exec, Compiled.search, here]
  · next outside =>
    rw [if_neg outside] at here
    exact exec_skip here

/-- Behind the last quote nothing matches. -/
theorem exec_last (b lead : Text) (free : Unquoted lead) (whole : Wellformed ps)
    (short : ps.length ≤ 1) : quotedString.exec ⟨b, lead ++ flat ps⟩ = none := by
  have nothing : ∀ t b, Unquoted t → quotedString.exec ⟨b, t⟩ = none := by
    intro t b inner
    have skipped := exec_unquoted t inner b []
    rw [List.append_nil] at skipped
    rw [skipped, Compiled.exec, Compiled.search, endOf_none]
    · rfl
    · intro q t q' a same
      cases same
  match ps, short with
  | [], _ =>
    rw [flat, List.flatMap_nil, List.append_nil]
    exact nothing lead b free
  | [(q, t)], _ =>
    obtain ⟨quote, inner⟩ := whole (q, t) List.mem_cons_self
    rw [exec_unquoted lead free, flat_cons, flat, List.flatMap_nil, List.append_nil, exec_skip]
    · exact nothing t _ inner
    · apply endOf_none
      intro q₁ t₁ q₁' a same _ quote' _
      have later := inner q₁' (by
        rw [(List.cons.inj same).2]
        exact List.mem_append_right _ List.mem_cons_self)
      rw [quote'] at later
      cases later

/-- The fold of the redactions over the matches from a place on. -/
def redactFrom (shannonEntropy : Text → Entropy) (lineNumber fuel : Nat) (p : Place)
    (found : Redaction) : Redaction :=
  (matchAll quotedString fuel p).foldr
    (fun isMatch found => redactQuoted shannonEntropy lineNumber found isMatch) found

theorem redactLine_eq (shannonEntropy : Text → Entropy) (lineNumber : Nat) (line : Text) :
    redactLine shannonEntropy lineNumber line =
      redactFrom shannonEntropy lineNumber (line.length + 1) ⟨[], line⟩ ⟨line, [], 0⟩ := by
  rw [redactLine, List.foldl_reverse]
  rfl

section Fold

variable (shannonEntropy : Text → Entropy) (lineNumber : Nat)

/-- One redaction in front of what is redacted already. -/
theorem redactQuoted_segment {b t a a' : Text} {q q' : Nat} {found : Redaction}
    (content : found.content = b.reverse ++ (q :: t ++ q' :: a')) :
    (redactQuoted shannonEntropy lineNumber found
        (⟨b, q :: t ++ q' :: a⟩, ⟨q' :: (t.reverse ++ q :: b), a⟩)).content =
      b.reverse ++ (if random shannonEntropy t then q :: REDACTED ++ q :: a' else q :: t ++ q' :: a') ∧
    (redactQuoted shannonEntropy lineNumber found
        (⟨b, q :: t ++ q' :: a⟩, ⟨q' :: (t.reverse ++ q :: b), a⟩)).redactionCount =
      found.redactionCount + if random shannonEntropy t then 1 else 0 := by
  have matched : between false ⟨b, q :: t ++ q' :: a⟩ ⟨q' :: (t.reverse ++ q :: b), a⟩ = q :: t ++ [q'] :=
    between_word (by simp)
  have value : (List.drop 1 (q :: t ++ [q'])).dropLast = t := by simp
  have condition : (ENTROPY_MIN_LENGTH ≤ t.length ∧ t.length ≤ ENTROPY_MAX_LENGTH ∧
      (shannonEntropy t).reachesThreshold = true ∧ Text.startsWith t (text "REDACTED") = false) ↔
      random shannonEntropy t = true := by
    simp only [random, inRange, Bool.and_eq_true, decide_eq_true_eq, Bool.not_eq_true', and_assoc]
  have kept : found.content.take b.length = b.reverse := by
    rw [content, ← List.length_reverse, List.take_left]
  have opening : (found.content.drop b.length).take 1 = [q] := by
    rw [content, ← List.length_reverse, List.drop_left]
    rfl
  have behind : found.content.drop (b.length + (q :: t ++ [q']).length) = a' := by
    have whole : found.content = (b.reverse ++ (q :: t ++ [q'])) ++ a' := by
      rw [content]
      simp
    rw [whole, ← List.length_reverse, ← List.length_append, List.drop_left]
  unfold redactQuoted
  simp only [matched, value, condition]
  by_cases hit : random shannonEntropy t = true
  · simp only [hit, kept, opening, behind]
    simp [REDACTED]
  · simp only [hit, if_false, content, Bool.false_eq_true]
    exact ⟨trivial, rfl⟩

theorem redactFrom_match
    (quote : isQuoteUnit q = true)
    (quote' : isQuoteUnit q' = true) (inner : Unquoted t) (ranged : inRange t = true)
    (free : Unquoted lead) (enough : (lead ++ flat ((q, t) :: (q', t') :: rest)).length < fuel)
    (content : found.content = b.reverse ++ (lead ++ flat ((q, t) :: (q', t') :: rest)))
    (ih : ∀ fuel b, (t' ++ flat rest).length < fuel → found.content = b.reverse ++ (t' ++ flat rest) →
      (redactFrom shannonEntropy lineNumber fuel ⟨b, t' ++ flat rest⟩ found).content =
          b.reverse ++ (t' ++ after) ∧
        (redactFrom shannonEntropy lineNumber fuel ⟨b, t' ++ flat rest⟩ found).redactionCount =
          found.redactionCount + count) :
    (redactFrom shannonEntropy lineNumber fuel ⟨b, lead ++ flat ((q, t) :: (q', t') :: rest)⟩
        found).content = b.reverse ++ (lead ++ if random shannonEntropy t then
          q :: REDACTED ++ q :: (t' ++ after) else q :: t ++ q' :: (t' ++ after)) ∧
      (redactFrom shannonEntropy lineNumber fuel ⟨b, lead ++ flat ((q, t) :: (q', t') :: rest)⟩
        found).redactionCount =
          found.redactionCount + count + if random shannonEntropy t then 1 else 0 := by
  obtain ⟨fuel, rfl⟩ : ∃ less, fuel = less + 1 := ⟨fuel - 1, by omega⟩
  have here := exec_segment b lead free quote quote' inner (a := t' ++ flat rest)
  rw [if_pos ranged] at here
  obtain ⟨tail, counted⟩ := ih fuel (q' :: (t.reverse ++ q :: (lead.reverse ++ b)))
    (by simp [flat_cons] at enough; simp; omega) (by rw [content]; simp [flat_cons])
  have split : redactFrom shannonEntropy lineNumber (fuel + 1)
      ⟨b, lead ++ flat ((q, t) :: (q', t') :: rest)⟩ found =
      redactQuoted shannonEntropy lineNumber
        (redactFrom shannonEntropy lineNumber fuel
          ⟨q' :: (t.reverse ++ q :: (lead.reverse ++ b)), t' ++ flat rest⟩ found)
        (⟨lead.reverse ++ b, q :: t ++ q' :: (t' ++ flat rest)⟩,
          ⟨q' :: (t.reverse ++ q :: (lead.reverse ++ b)), t' ++ flat rest⟩) := by
    have spelled : flat ((q, t) :: (q', t') :: rest) = q :: t ++ q' :: (t' ++ flat rest) := rfl
    rw [redactFrom, matchAll, spelled, here]
    rfl
  have one := @redactQuoted_segment shannonEntropy lineNumber (lead.reverse ++ b) t (t' ++ flat rest)
    (t' ++ after) q q' _ (tail.trans (by simp))
  rw [split]
  refine ⟨one.1.trans (by simp), one.2.trans ?_⟩
  rw [counted]

theorem wellformed_two (whole : Wellformed ((q, t) :: (q', t') :: rest)) :
    (isQuoteUnit q = true ∧ Unquoted t) ∧ (isQuoteUnit q' = true ∧ Unquoted t') ∧ Wellformed rest := by
  obtain ⟨one, others⟩ := List.forall_mem_cons.mp whole
  obtain ⟨two, more⟩ := List.forall_mem_cons.mp others
  exact ⟨one, two, more⟩

theorem covered_short (short : ∀ q t q' t' rest, ps = (q, t) :: (q', t') :: rest → False) :
    covered shannonEntropy ps = ps := by
  rcases ps with - | ⟨⟨q, t⟩, - | ⟨⟨q', t'⟩, rest⟩⟩
  · rfl
  · rfl
  · exact (short q t q' t' rest rfl).elim

theorem redactFrom_covered (ps : List (Nat × Text)) (fuel : Nat) (b lead : Text) (found : Redaction)
    (free : Unquoted lead) (whole : Wellformed ps) (enough : (lead ++ flat ps).length < fuel)
    (content : found.content = b.reverse ++ (lead ++ flat ps)) :
    (redactFrom shannonEntropy lineNumber fuel ⟨b, lead ++ flat ps⟩ found).content =
        b.reverse ++ (lead ++ flat (covered shannonEntropy ps)) ∧
      (redactFrom shannonEntropy lineNumber fuel ⟨b, lead ++ flat ps⟩ found).redactionCount =
        found.redactionCount + redactions shannonEntropy ps := by
  induction ps using covered.induct shannonEntropy generalizing fuel b lead with
  | case1 q t q' t' rest ranged hit ih =>
    obtain ⟨⟨quote, inner⟩, ⟨quote', inner'⟩, others⟩ := wellformed_two whole
    obtain ⟨last, counted⟩ := redactFrom_match shannonEntropy lineNumber quote quote' inner ranged free
      enough content (fun fuel b => ih fuel b t' inner' others)
    rw [covered, redactions, if_pos ranged, if_pos ranged, if_pos hit, if_pos hit]
    rw [if_pos hit] at last counted
    refine ⟨last.trans ?_, counted.trans (by omega)⟩
    simp [flat_cons]
  | case2 q t q' t' rest ranged missed ih =>
    obtain ⟨⟨quote, inner⟩, ⟨quote', inner'⟩, others⟩ := wellformed_two whole
    obtain ⟨last, counted⟩ := redactFrom_match shannonEntropy lineNumber quote quote' inner ranged free
      enough content (fun fuel b => ih fuel b t' inner' others)
    rw [covered, redactions, if_pos ranged, if_pos ranged, if_neg missed, if_neg missed]
    rw [if_neg missed] at last counted
    refine ⟨last.trans ?_, counted.trans (by omega)⟩
    simp [flat_cons]
  | case3 q t q' t' rest outside ih =>
    obtain ⟨⟨quote, inner⟩, ⟨quote', inner'⟩, others⟩ := wellformed_two whole
    have moved := exec_segment b lead free quote quote' inner (a := t' ++ flat rest)
    rw [if_neg outside] at moved
    have shifted : redactFrom shannonEntropy lineNumber fuel ⟨b, lead ++ flat ((q, t) :: (q', t') :: rest)⟩ found =
        redactFrom shannonEntropy lineNumber fuel ⟨q :: (lead.reverse ++ b), t ++ flat ((q', t') :: rest)⟩ found := by
      have spelled : flat ((q, t) :: (q', t') :: rest) = q :: t ++ q' :: (t' ++ flat rest) := rfl
      cases fuel with
      | zero => rfl
      | succ fuel =>
        rw [redactFrom, matchAll, spelled, moved]
        rfl
    obtain ⟨last, counted⟩ := ih fuel (q :: (lead.reverse ++ b)) t inner (List.forall_mem_cons.mp whole).2
      (by simp [flat_cons] at enough ⊢; omega) (by rw [content]; simp [flat_cons])
    rw [shifted, covered, redactions, if_neg outside, if_neg outside]
    refine ⟨last.trans ?_, counted⟩
    simp [flat_cons]
  | case4 ps short =>
    have few : ps.length ≤ 1 ∧ covered shannonEntropy ps = ps ∧ redactions shannonEntropy ps = 0 := by
      rcases ps with - | ⟨⟨q, t⟩, - | ⟨⟨q', t'⟩, rest⟩⟩
      · exact ⟨Nat.zero_le _, rfl, rfl⟩
      · exact ⟨le_rfl, rfl, rfl⟩
      · exact (short q t q' t' rest rfl).elim
    have none := exec_last b lead free whole few.1
    have unmatched : matchAll quotedString fuel ⟨b, lead ++ flat ps⟩ = [] := by
      cases fuel with
      | zero => rfl
      | succ fuel => rw [matchAll, none]
    rw [redactFrom, unmatched, few.2.1, few.2.2]
    exact ⟨content, rfl⟩

end Fold

/-! ## A line -/

section Line

variable {shannonEntropy : Text → Entropy}

theorem redactLine_covered (lineNumber : Nat) (line : Text) :
    (redactLine shannonEntropy lineNumber line).content =
        (pieces line).1 ++ flat (covered shannonEntropy (pieces line).2) ∧
      (redactLine shannonEntropy lineNumber line).redactionCount =
        redactions shannonEntropy (pieces line).2 := by
  obtain ⟨free, whole⟩ := pieces_wellformed line
  have spelled := pieces_flat line
  have folded := redactFrom_covered shannonEntropy lineNumber (pieces line).2 (line.length + 1) []
    (pieces line).1 ⟨line, [], 0⟩ free whole (by rw [spelled]; exact Nat.lt_succ_self _) spelled.symm
  rw [redactLine_eq]
  rw [spelled] at folded
  exact ⟨folded.1, folded.2.trans (Nat.zero_add _)⟩

theorem redacted_unquoted : Unquoted REDACTED := redacted_plain.1

theorem random_redacted : random shannonEntropy REDACTED = false := by
  simp [random, redacted_plain.2.2.2]

theorem covered_wellformed (whole : Wellformed ps) : Wellformed (covered shannonEntropy ps) := by
  induction ps using covered.induct shannonEntropy with
  | case1 q t q' t' rest ranged hit ih =>
    obtain ⟨first, second, others⟩ := wellformed_two whole
    rw [covered, if_pos ranged, if_pos hit]
    exact List.forall_mem_cons.mpr ⟨⟨first.1, redacted_unquoted⟩,
      List.forall_mem_cons.mpr ⟨⟨first.1, second.2⟩, ih others⟩⟩
  | case2 q t q' t' rest ranged missed ih =>
    obtain ⟨first, second, others⟩ := wellformed_two whole
    rw [covered, if_pos ranged, if_neg missed]
    exact List.forall_mem_cons.mpr ⟨first, List.forall_mem_cons.mpr ⟨second, ih others⟩⟩
  | case3 q t q' t' rest outside ih =>
    obtain ⟨first, others⟩ := List.forall_mem_cons.mp whole
    rw [covered, if_neg outside]
    exact List.forall_mem_cons.mpr ⟨first, ih others⟩
  | case4 ps short => rwa [covered_short _ short]

/-- Two neighbouring pieces, and the text of the first is random. -/
def Leaky (shannonEntropy : Text → Entropy) (ps : List (Nat × Text)) : Prop :=
  ∃ a q t piece rest, ps = a ++ (q, t) :: piece :: rest ∧ random shannonEntropy t = true

theorem leaky_cons :
    Leaky shannonEntropy ((q, t) :: ps) ↔
      (ps ≠ [] ∧ random shannonEntropy t = true) ∨ Leaky shannonEntropy ps := by
  constructor
  · rintro ⟨a, q₁, t₁, piece, rest, same, found⟩
    cases a with
    | nil =>
      obtain ⟨first, rfl⟩ := List.cons.inj same
      cases first
      exact .inl ⟨List.cons_ne_nil _ _, found⟩
    | cons first a => exact .inr ⟨a, q₁, t₁, piece, rest, (List.cons.inj same).2, found⟩
  · rintro (⟨more, found⟩ | ⟨a, q₁, t₁, piece, rest, rfl, found⟩)
    · obtain ⟨piece, rest, rfl⟩ := List.exists_cons_of_ne_nil more
      exact ⟨[], q, t, piece, rest, rfl, found⟩
    · exact ⟨(q, t) :: a, q₁, t₁, piece, rest, rfl, found⟩

theorem not_leaky_nil : ¬Leaky shannonEntropy [] := by
  rintro ⟨a, q, t, piece, rest, same, -⟩
  cases a <;> cases same

theorem pieces_quote (before : Text) (quote : isQuoteUnit q = true) (after : Text) :
    pieces (before ++ q :: after) =
      ((pieces before).1, (pieces before).2 ++ (q, (pieces after).1) :: (pieces after).2) := by
  induction before with
  | nil => simp [pieces, quote]
  | cons c before ih =>
    rw [List.cons_append, pieces, pieces, ih]
    split <;> rfl

theorem leaks_iff (line : Text) :
    Leaks shannonEntropy line ↔ Leaky shannonEntropy (pieces line).2 := by
  constructor
  · rintro ⟨before, q, t, q', after, rfl, quote, quote', free, found⟩
    rw [List.append_assoc, List.cons_append, pieces_quote before quote, pieces_unquoted t free, pieces,
      if_pos quote', List.append_nil]
    exact ⟨_, q, t, _, _, rfl, found⟩
  · rintro ⟨a, q, t, ⟨q', t'⟩, rest, split, found⟩
    obtain ⟨-, whole⟩ := pieces_wellformed line
    rw [split] at whole
    obtain ⟨first, second, -⟩ := wellformed_two fun piece member =>
      whole piece (List.mem_append_right a member)
    refine ⟨(pieces line).1 ++ flat a, q, t, q', t' ++ flat rest, ?_, first.1, second.1, first.2, found⟩
    calc
      line = (pieces line).1 ++ flat (a ++ (q, t) :: (q', t') :: rest) := by rw [← split, pieces_flat]
      _ = _ := by simp [flat]

theorem random_inRange (outside : ¬inRange t = true) : random shannonEntropy t = false := by
  simp [random, Bool.not_eq_true _ ▸ outside]

theorem covered_eq_nil : covered shannonEntropy ps = [] ↔ ps = [] := by
  rcases ps with - | ⟨⟨q, t⟩, - | ⟨⟨q', t'⟩, rest⟩⟩
  · exact Iff.rfl
  · exact Iff.rfl
  · rw [covered]
    split
    · split <;> simp
    · simp

/-- The layer looks at every random text and changes no quote exactly in the pieces it sees. -/
theorem seen_iff (ps : List (Nat × Text)) : Seen shannonEntropy ps ↔
    ¬Leaky shannonEntropy (covered shannonEntropy ps) ∧
      (covered shannonEntropy ps).map Prod.fst = ps.map Prod.fst := by
  induction ps using covered.induct shannonEntropy with
  | case1 q t q' t' rest ranged hit ih =>
    rw [Seen, covered, if_pos ranged, if_pos ranged, if_pos hit, leaky_cons, leaky_cons, ih]
    simp only [ne_eq, covered_eq_nil, random_redacted, hit, List.map_cons, List.cons.injEq]
    simp
    tauto
  | case2 q t q' t' rest ranged missed ih =>
    rw [Seen, covered, if_pos ranged, if_pos ranged, if_neg missed, leaky_cons, leaky_cons, ih]
    simp only [ne_eq, covered_eq_nil, missed, List.map_cons, List.cons.injEq]
    simp
    tauto
  | case3 q t q' t' rest outside ih =>
    rw [Seen, covered, if_neg outside, if_neg outside, leaky_cons, ih, random_inRange outside]
    simp
  | case4 ps short =>
    rw [covered_short _ short]
    rcases ps with - | ⟨⟨q, t⟩, - | ⟨⟨q', t'⟩, rest⟩⟩
    · simp [Seen, not_leaky_nil]
    · simp [Seen, leaky_cons, not_leaky_nil]
    · exact (short q t q' t' rest rfl).elim

theorem covered_covered (ps : List (Nat × Text)) :
    covered shannonEntropy (covered shannonEntropy ps) = covered shannonEntropy ps := by
  induction ps using covered.induct shannonEntropy with
  | case1 q t q' t' rest ranged hit ih =>
    rw [covered, if_pos ranged, if_pos hit, covered, if_pos redacted_plain.2.2.1, random_redacted,
      if_neg Bool.false_ne_true, ih]
  | case2 q t q' t' rest ranged missed ih =>
    rw [covered, if_pos ranged, if_neg missed, covered, if_pos ranged, if_neg missed, ih]
  | case3 q t q' t' rest outside ih =>
    rw [covered, if_neg outside]
    obtain ⟨⟨q₁, t₁⟩, more, same⟩ := List.exists_cons_of_ne_nil
      (fun none => List.cons_ne_nil _ _ (covered_eq_nil.mp none) :
        covered shannonEntropy ((q', t') :: rest) ≠ [])
    rw [same] at ih ⊢
    rw [covered, if_neg outside, ih]
  | case4 ps short => rw [covered_short _ short, covered_short _ short]

theorem Replaced.prepend (replaced : Replaced shannonEntropy a b n) (front : Text) :
    Replaced shannonEntropy (front ++ a) (front ++ b) n := by
  cases replaced with
  | same => exact .same _
  | @segment before t rest rest' q q' n opens closes unquoted found more =>
    have longer := @Replaced.segment _ (front ++ before) _ _ _ _ _ _ opens closes unquoted found more
    simpa only [List.append_assoc] using longer

theorem Replaced.append (first : Replaced shannonEntropy a a' m)
    (second : Replaced shannonEntropy b b' n) :
    Replaced shannonEntropy (a ++ b) (a' ++ b') (m + n) := by
  induction first with
  | same t =>
    rw [Nat.zero_add]
    exact second.prepend t
  | @segment before t rest rest' q q' m opens closes unquoted found _ ih =>
    have longer := @Replaced.segment _ before _ _ _ _ _ _ opens closes unquoted found ih
    simpa only [List.append_assoc, List.cons_append, Nat.add_right_comm] using longer

/-- Between equal quotes the layer replaces texts, and as many as it counts. -/
theorem covered_replaced (lead : Text) (whole : Wellformed ps)
    (paired : (covered shannonEntropy ps).map Prod.fst = ps.map Prod.fst) :
    Replaced shannonEntropy (lead ++ flat ps) (lead ++ flat (covered shannonEntropy ps))
      (redactions shannonEntropy ps) := by
  induction ps using covered.induct shannonEntropy generalizing lead with
  | case1 q t q' t' rest ranged hit ih =>
    rw [covered, if_pos ranged, if_pos hit] at paired ⊢
    rw [redactions, if_pos ranged, if_pos hit, Nat.add_comm]
    simp only [List.map_cons, List.cons.injEq, true_and] at paired
    obtain ⟨rfl, paired⟩ := paired
    obtain ⟨first, second, others⟩ := wellformed_two whole
    have one := @Replaced.segment _ lead _ _ _ _ _ _ first.1 second.1 first.2 hit (ih t' others paired)
    simpa [flat_cons] using one
  | case2 q t q' t' rest ranged missed ih =>
    rw [covered, if_pos ranged, if_neg missed] at paired ⊢
    rw [redactions, if_pos ranged, if_neg missed, Nat.zero_add]
    simp only [List.map_cons, List.cons.injEq, true_and] at paired
    have rest' := (ih t' (wellformed_two whole).2.2 paired).prepend (lead ++ q :: t ++ [q'])
    simpa [flat_cons] using rest'
  | case3 q t q' t' rest outside ih =>
    rw [covered, if_neg outside] at paired ⊢
    rw [redactions, if_neg outside]
    have rest' := (ih t (List.forall_mem_cons.mp whole).2 (List.cons.inj paired).2).prepend (lead ++ [q])
    simpa [flat_cons] using rest'
  | case4 ps short =>
    have none : redactions shannonEntropy ps = 0 := by
      rcases ps with - | ⟨⟨q, t⟩, - | ⟨⟨q', t'⟩, rest⟩⟩
      · rfl
      · rfl
      · exact (short q t q' t' rest rfl).elim
    rw [covered_short _ short, none]
    exact .same _

def quotes (t : Text) : Text := t.filter isQuoteUnit

theorem quotes_unquoted (free : Unquoted t) : quotes t = [] :=
  List.filter_eq_nil_iff.mpr fun c member => Bool.eq_false_iff.mp (free c member)

theorem quotes_flat (whole : Wellformed ps) : quotes (flat ps) = ps.map Prod.fst := by
  induction ps with
  | nil => rfl
  | cons piece ps ih =>
    obtain ⟨first, others⟩ := List.forall_mem_cons.mp whole
    have rest := ih others
    have inner := quotes_unquoted first.2
    unfold quotes at rest inner ⊢
    rw [flat_cons, List.cons_append, List.filter_cons_of_pos first.1, List.filter_append, inner, rest]
    rfl

theorem Replaced.quotes_eq (replaced : Replaced shannonEntropy a b n) : quotes a = quotes b := by
  induction replaced with
  | same => rfl
  | segment opens closes unquoted found _ ih =>
    have inner := quotes_unquoted unquoted
    have redacted := quotes_unquoted redacted_unquoted
    unfold quotes at ih inner redacted ⊢
    simp [opens, closes, inner, redacted, ih]

/-! ## A content -/

/-- A line after the layer. -/
def cover (shannonEntropy : Text → Entropy) (line : Text) : Text :=
  (pieces line).1 ++ flat (covered shannonEntropy (pieces line).2)

theorem pieces_cover (line : Text) :
    pieces (cover shannonEntropy line) = ((pieces line).1, covered shannonEntropy (pieces line).2) := by
  obtain ⟨free, whole⟩ := pieces_wellformed line
  exact pieces_of_flat _ free (covered_wellformed whole)

theorem cover_cover (line : Text) :
    cover shannonEntropy (cover shannonEntropy line) = cover shannonEntropy line := by
  rw [cover, pieces_cover, covered_covered]
  rfl

theorem mem_covered {ps : List (Nat × Text)} {c : Nat} (member : c ∈ flat (covered shannonEntropy ps)) :
    c ∈ flat ps ∨ c ∈ REDACTED := by
  induction ps using covered.induct shannonEntropy with
  | case1 q t q' t' rest ranged hit ih =>
    rw [covered, if_pos ranged, if_pos hit] at member
    simp only [flat_cons, List.mem_cons, List.mem_append] at member ⊢
    tauto
  | case2 q t q' t' rest ranged missed ih =>
    rw [covered, if_pos ranged, if_neg missed] at member
    simp only [flat_cons, List.mem_append] at member ⊢
    tauto
  | case3 q t q' t' rest outside ih =>
    rw [covered, if_neg outside, flat_cons, List.cons_append, List.mem_cons, List.mem_append] at member
    rw [flat_cons, List.cons_append, List.mem_cons, List.mem_append]
    tauto
  | case4 ps short =>
    rw [covered_short _ short] at member
    exact .inl member

theorem cover_free {line : Text} (free : 0x0A ∉ line) : 0x0A ∉ cover shannonEntropy line := by
  intro member
  rw [← pieces_flat line] at free
  rcases List.mem_append.mp member with first | later
  · exact free (List.mem_append_left _ first)
  · rcases mem_covered later with old | new
    · exact free (List.mem_append_right _ old)
    · exact absurd new redacted_plain.2.1

theorem scan_covered (content : Text) :
    (scanAndRedactEntropy shannonEntropy content).content =
        Text.join 0x0A ((Text.split 0x0A content).map (cover shannonEntropy)) ∧
      (scanAndRedactEntropy shannonEntropy content).redactionCount =
        ((Text.split 0x0A content).map fun line => redactions shannonEntropy (pieces line).2).foldr (· + ·) 0 := by
  have lines : ∀ (α : Type) (f : Text → α), (Text.split 0x0A content).zipIdx.map (f ∘ Prod.fst) =
      (Text.split 0x0A content).map f := by
    intro α f
    rw [← List.map_map, List.zipIdx_map_fst]
  unfold scanAndRedactEntropy
  simp only [List.map_map]
  constructor
  · rw [← lines]
    congr 1
    exact List.map_congr_left fun line _ => (redactLine_covered _ _).1
  · rw [← lines]
    congr 1
    exact List.map_congr_left fun line _ => (redactLine_covered _ _).2

theorem split_scan (content : Text) :
    Text.split 0x0A (scanAndRedactEntropy shannonEntropy content).content =
      (Text.split 0x0A content).map (cover shannonEntropy) := by
  rw [(scan_covered content).1]
  apply split_join
  · simpa using split_ne_nil content
  · intro part member
    obtain ⟨line, inside, rfl⟩ := List.mem_map.mp member
    exact cover_free (split_parts_free content line inside)

theorem join_replaced
    (paired : ∀ line ∈ lines, Replaced shannonEntropy line (cover shannonEntropy line)
      (redactions shannonEntropy (pieces line).2)) :
    Replaced shannonEntropy (Text.join 0x0A lines) (Text.join 0x0A (lines.map (cover shannonEntropy)))
      ((lines.map fun line => redactions shannonEntropy (pieces line).2).foldr (· + ·) 0) := by
  induction lines with
  | nil => exact .same _
  | cons line rest ih =>
    obtain ⟨first, others⟩ := List.forall_mem_cons.mp paired
    cases rest with
    | nil => simpa [Text.join] using first
    | cons next rest => exact first.append ((ih others).prepend [0x0A])

theorem quotes_join (lines : List Text) : quotes (Text.join 0x0A lines) = lines.flatMap quotes := by
  induction lines with
  | nil => rfl
  | cons line rest ih =>
    cases rest with
    | nil => simp [Text.join]
    | cons next rest =>
      have newline : isQuoteUnit 0x0A = false := by decide
      rw [List.flatMap_cons, ← ih]
      simp [quotes, Text.join, newline]

theorem quotes_line (line : Text) : quotes line = (pieces line).2.map Prod.fst := by
  obtain ⟨free, whole⟩ := pieces_wellformed line
  have apart := quotes_flat whole
  have before := quotes_unquoted free
  conv_lhs => rw [← pieces_flat line]
  unfold quotes at apart before ⊢
  rw [List.filter_append, before, apart]
  rfl

theorem covered_length (ps : List (Nat × Text)) : (covered shannonEntropy ps).length = ps.length := by
  induction ps using covered.induct shannonEntropy with
  | case1 q t q' t' rest ranged hit ih => simp [covered, ranged, hit, ih]
  | case2 q t q' t' rest ranged missed ih => simp [covered, ranged, missed, ih]
  | case3 q t q' t' rest outside ih => simp [covered, outside, ih]
  | case4 ps short => rw [covered_short _ short]

/-- Equal quotes of the contents are equal quotes of each line. -/
theorem quotes_lines {lines : List Text}
    (same : lines.flatMap quotes = (lines.map (cover shannonEntropy)).flatMap quotes) :
    ∀ line ∈ lines, (covered shannonEntropy (pieces line).2).map Prod.fst = (pieces line).2.map Prod.fst := by
  induction lines with
  | nil => exact nofun
  | cons line rest ih =>
    rw [List.map_cons, List.flatMap_cons, List.flatMap_cons, quotes_line, quotes_line, pieces_cover] at same
    obtain ⟨here, there⟩ := List.append_inj same (by simp [covered_length])
    exact List.forall_mem_cons.mpr ⟨here.symm, ih there⟩

/-- The layer is strict exactly on the contents of whose lines it looks at every random text between
quotes, and closes none with another quote. -/
theorem strict_iff (content : Text) : Strict shannonEntropy content ↔
    ∀ line ∈ Text.split 0x0A content, Seen shannonEntropy (pieces line).2 := by
  have clean : (∀ line ∈ Text.split 0x0A (scanAndRedactEntropy shannonEntropy content).content,
      ¬Leaks shannonEntropy line) ↔
      ∀ line ∈ Text.split 0x0A content, ¬Leaky shannonEntropy (covered shannonEntropy (pieces line).2) := by
    simp only [split_scan, List.forall_mem_map, leaks_iff, pieces_cover]
  constructor
  · rintro ⟨unleaked, replaced, -⟩ line member
    have same := replaced.quotes_eq
    rw [(scan_covered content).1, quotes_join] at same
    conv_lhs at same => rw [← @join_split 0x0A content, quotes_join]
    exact (seen_iff _).mpr ⟨clean.mp unleaked line member, quotes_lines same line member⟩
  · intro seen
    have each := fun line member => (seen_iff _).mp (seen line member)
    refine ⟨clean.mpr fun line member => (each line member).1, ?_, ?_⟩
    · have joined := join_replaced fun line member => by
        have one := covered_replaced (pieces line).1 (pieces_wellformed line).2 (each line member).2
        rwa [pieces_flat] at one
      rw [(scan_covered content).1, (scan_covered content).2]
      rwa [join_split] at joined
    · rw [(scan_covered _).1, split_scan, List.map_map, (scan_covered content).1]
      congr 1
      exact List.map_congr_left fun line _ => cover_cover line

end Line

/-- The text between two arguments takes the quote of the second. -/
def arguments : Text := text "f('a', 1234567890123, 'q8Zk2LmN0pXs7RtV')"

/-- Texts with a `Z` are random. -/
def lettered (t : Text) : Entropy := ⟨t.contains (u 'Z'), []⟩

theorem arguments_not_strict : ¬Strict lettered arguments := by
  intro strict
  have shown : (scanAndRedactEntropy lettered arguments).content = arguments ∧
      arguments ∈ Text.split 0x0A arguments ∧
      arguments = text "f('a', 1234567890123, " ++ 0x27 :: text "q8Zk2LmN0pXs7RtV" ++ 0x27 :: text ")" ∧
      random lettered (text "q8Zk2LmN0pXs7RtV") = true ∧
      ∀ c ∈ text "q8Zk2LmN0pXs7RtV", isQuoteUnit c = false := by
    decide +kernel
  obtain ⟨unchanged, whole, spelled, found, unquoted⟩ := shown
  have clean := strict.clean
  rw [unchanged] at clean
  exact clean arguments whole ⟨_, 0x27, _, 0x27, _, spelled, rfl, rfl, unquoted, found⟩

end LetAgents.Rental.SecretFirewall

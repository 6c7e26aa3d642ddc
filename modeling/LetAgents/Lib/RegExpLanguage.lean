import LetAgents.Lib.RegExp

/-!
# The language of a pattern

A pattern without anchors, assertions and captures reads the words of a language,
wherever it stands. The rules compose the languages of its parts.
-/
namespace LetAgents.Lib.RegExp

/-- The place after a word was read. -/
def Place.past (p : Place) (word rest : Text) : Place := ⟨word.reverse ++ p.before, rest⟩

theorem Place.past_past (p : Place) (first second rest after : Text) :
    (p.past first after).past second rest = p.past (first ++ second) rest := by
  unfold Place.past
  rw [List.reverse_append, List.append_assoc]

/-- The reader reads exactly the words of the language. -/
def Reads (reader : Reading → List Reading) (language : Text → Prop) : Prop :=
  ∀ p : Place, ∀ r : Reading, r ∈ reader ⟨p, []⟩ ↔
    ∃ word rest, p.after = word ++ rest ∧ language word ∧ r = ⟨p.past word rest, []⟩

/-- The pattern reads exactly the words of the language. -/
def Spans (node : Node) (language : Text → Prop) : Prop :=
  Reads (node.readings false false) language

theorem Spans.congr (spans : Spans node left) (same : ∀ word, left word ↔ right word) :
    Spans node right := by
  intro p r
  rw [spans p r]
  simp only [same]

theorem spans_empty : Spans .empty fun word => word = [] := by
  intro p r
  simp [Node.readings, Place.past]

/-- A node that reads one unit of a class. -/
theorem mem_readUnit : r ∈ readUnit accepts false ⟨p, []⟩ ↔
      ∃ word rest, p.after = word ++ rest ∧ (∃ c, word = [c] ∧ accepts c = true) ∧
        r = ⟨p.past word rest, []⟩ := by
  unfold readUnit Place.read
  cases p with
  | mk before after =>
    cases after with
    | nil => simp
    | cons c rest =>
      simp only [Bool.false_eq_true, if_false]
      constructor
      · intro member
        split at member
        · rename_i accepted
          rw [List.mem_singleton] at member
          exact ⟨[c], rest, rfl, ⟨c, rfl, accepted⟩, member⟩
        · cases member
      · rintro ⟨_, rest', split, ⟨d, rfl, accepted⟩, rfl⟩
        obtain ⟨rfl, rfl⟩ := split
        rw [if_pos accepted]
        exact List.mem_singleton.mpr rfl

theorem spans_any : Spans .any fun word => ∃ c, word = [c] ∧ isLineTerminator c = false := by
  intro p r
  simp only [Node.readings, mem_readUnit, Bool.not_eq_true']

theorem spans_set (negated : Bool) (items : List ClassItem) :
    Spans (.set negated items) fun word =>
      ∃ c, word = [c] ∧ setAccepts false negated items c = true :=
  fun _ _ => mem_readUnit

theorem Spans.seq (opens : Spans first left) (closes : Spans second right) :
    Spans (.seq first second) fun word =>
      ∃ a b, word = a ++ b ∧ left a ∧ right b := by
  intro p r
  simp only [Node.readings, Bool.false_eq_true, if_false, List.mem_flatMap]
  constructor
  · rintro ⟨middle, inFirst, inSecond⟩
    obtain ⟨a, between, split, inLeft, rfl⟩ := (opens p middle).mp inFirst
    obtain ⟨b, rest, splits, inRight, rfl⟩ := (closes _ r).mp inSecond
    refine ⟨a ++ b, rest, ?_, ⟨a, b, rfl, inLeft, inRight⟩, ?_⟩
    · rw [split, show between = b ++ rest from splits, List.append_assoc]
    · rw [Place.past_past]
  · rintro ⟨_, rest, split, ⟨a, b, rfl, inLeft, inRight⟩, rfl⟩
    refine ⟨⟨p.past a (b ++ rest), []⟩, (opens p _).mpr ⟨a, b ++ rest, ?_, inLeft, rfl⟩,
      (closes _ _).mpr ⟨b, rest, rfl, inRight, ?_⟩⟩
    · rw [split, List.append_assoc]
    · rw [Place.past_past]

theorem Spans.group (spans : Spans body language) : Spans (.group none body) language := by
  intro p r
  simp only [Node.readings, List.map_id']
  exact spans p r

/-- Words of the language, one after the other. -/
inductive Words (language : Text → Prop) : Text → Prop where
  | none : Words language []
  | more {first rest : Text} (head : language first) (tail : Words language rest) :
      Words language (first ++ rest)

/-- Repetitions of a class of units. -/
theorem words_units {accepts : Nat → Prop} :
    Words (fun word => ∃ c, word = [c] ∧ accepts c) word ↔ ∀ c ∈ word, accepts c := by
  constructor
  · intro words
    induction words with
    | none => exact nofun
    | more head tail ih =>
      obtain ⟨c, rfl, accepted⟩ := head
      exact List.forall_mem_cons.mpr ⟨accepted, ih⟩
  · intro all
    induction word with
    | nil => exact .none
    | cons c word ih =>
      rw [List.forall_mem_cons] at all
      exact @Words.more _ [c] word ⟨c, rfl, all.1⟩ (ih all.2)

theorem setAccepts_single (negated : Bool) (c d : Nat) :
    setAccepts false negated [.range c c] d = (decide (d = c) != negated) := by
  have same : (decide (c ≤ d) && decide (d ≤ c)) = decide (d = c) := by
    rw [← Bool.decide_and, decide_eq_decide]
    omega
  simp [setAccepts, spellings, ClassItem.accepts, same]

theorem Reads.star (reads : Reads reader language) (fuel : Nat) (p : Place)
    (enough : p.after.length < fuel) (r : Reading) :
    r ∈ repetitions reader true fuel 0 none ⟨p, []⟩ ↔
      ∃ word rest, p.after = word ++ rest ∧ Words language word ∧ r = ⟨p.past word rest, []⟩ := by
  induction fuel generalizing p r with
  | zero => exact absurd enough (Nat.not_lt_zero _)
  | succ fuel ih =>
    unfold repetitions
    simp only [reduceCtorEq, if_false, Nat.lt_irrefl, if_true, List.mem_append, List.mem_flatMap,
      List.mem_singleton, true_and, Option.map_none, Nat.zero_sub]
    constructor
    · rintro (⟨middle, inBody, further⟩ | rfl)
      · obtain ⟨a, after, split, inLanguage, rfl⟩ := (reads p middle).mp inBody
        split at further
        · cases further
        rename_i moved
        have shorter : after.length < fuel := by
          have nonempty : a ≠ [] := by
            rintro rfl
            refine moved ?_
            rw [List.nil_append] at split
            simp [Place.past, ← split]
          have positive := List.length_pos_iff.mpr nonempty
          rw [split, List.length_append] at enough
          omega
        obtain ⟨word, rest, splits, words, rfl⟩ := (ih (p.past a after) shorter _).mp further
        refine ⟨a ++ word, rest, ?_, .more inLanguage words, ?_⟩
        · rw [split, show after = word ++ rest from splits, List.append_assoc]
        · rw [Place.past_past]
      · exact ⟨[], p.after, rfl, .none, rfl⟩
    · rintro ⟨word, rest, split, words, rfl⟩
      induction words with
      | none =>
        rw [List.nil_append] at split
        simp [Place.past, ← split]
      | @more a tail head words again =>
        cases a with
        | nil => exact again split
        | cons c a =>
          refine .inl ⟨⟨p.past (c :: a) (tail ++ rest), []⟩,
            (reads p _).mpr ⟨c :: a, tail ++ rest, ?_, head, rfl⟩, ?_⟩
          · rw [split, List.append_assoc]
          · rw [if_neg]
            · refine (ih _ ?_ _).mpr ⟨tail, rest, rfl, words, ?_⟩
              · rw [split, List.length_append, List.length_append, List.length_cons] at enough
                change (tail ++ rest).length < fuel
                rw [List.length_append]
                omega
              · rw [Place.past_past]
            · intro same
              have lengths := congrArg (fun q : Place => q.before.length) same
              simp [Place.past] at lengths
              omega

theorem Spans.star (spans : Spans body language) (fromGroup toGroup : Nat) :
    Spans (.many 0 none true fromGroup toGroup body) (Words language) := by
  intro p r
  refine Reads.star (fun q s => ?_) _ p ?_ r
  · exact spans q s
  · change p.after.length < 0 + p.before.length + p.after.length + 1
    omega

theorem Reads.optional (reads : Reads reader language) (fuel : Nat) (p : Place)
    (enough : p.after.length < fuel) (r : Reading) :
    r ∈ repetitions reader true fuel 0 (some 1) ⟨p, []⟩ ↔
      ∃ word rest, p.after = word ++ rest ∧ (word = [] ∨ language word) ∧
        r = ⟨p.past word rest, []⟩ := by
  obtain ⟨fuel, rfl⟩ := Nat.exists_eq_add_one_of_ne_zero (Nat.ne_of_gt (Nat.zero_lt_of_lt enough))
  -- a second repetition is not allowed
  have ends : ∀ q : Reading, 0 < fuel → repetitions reader true fuel 0 (some 0) q = [q] := by
    intro q positive
    obtain ⟨n, rfl⟩ := Nat.exists_eq_add_one_of_ne_zero (Nat.ne_of_gt positive)
    rfl
  unfold repetitions
  simp only [Option.some.injEq, Nat.one_ne_zero, if_false, Nat.lt_irrefl, if_true,
    List.mem_append, List.mem_flatMap, List.mem_singleton, true_and, Option.map_some, Nat.zero_sub,
    Nat.sub_self]
  constructor
  · rintro (⟨middle, inBody, further⟩ | rfl)
    · obtain ⟨word, rest, split, inLanguage, rfl⟩ := (reads p middle).mp inBody
      split at further
      · cases further
      rename_i moved
      cases word with
      | nil =>
        refine absurd ?_ moved
        rw [List.nil_append] at split
        rw [← split]
        rfl
      | cons c word =>
        have positive : 0 < fuel := by
          rw [split] at enough
          simp at enough
          omega
        rw [ends _ positive, List.mem_singleton] at further
        exact ⟨c :: word, rest, split, .inr inLanguage, further⟩
    · exact ⟨[], p.after, rfl, .inl rfl, rfl⟩
  · rintro ⟨word, rest, split, member, rfl⟩
    cases word with
    | nil =>
      rw [List.nil_append] at split
      rw [← split]
      exact .inr rfl
    | cons c word =>
      have inLanguage := member.resolve_left (List.cons_ne_nil _ _)
      refine .inl ⟨_, (reads p _).mpr ⟨c :: word, rest, split, inLanguage, rfl⟩, ?_⟩
      have positive : 0 < fuel := by
        rw [split] at enough
        simp at enough
        omega
      rw [ends _ positive, if_neg]
      · exact List.mem_singleton.mpr rfl
      · intro same
        have lengths := congrArg (fun q : Place => q.before.length) same
        simp [Place.past] at lengths
        omega

theorem Spans.optional (spans : Spans body language) (fromGroup toGroup : Nat) :
    Spans (.many 0 (some 1) true fromGroup toGroup body) fun word =>
      word = [] ∨ language word := by
  intro p r
  refine Reads.optional (fun q s => ?_) _ p ?_ r
  · exact spans q s
  · change p.after.length < 0 + p.before.length + p.after.length + 1
    omega

/-! ## Anchored patterns -/

/-- Patterns one after the other. -/
def sequence (nodes : List Node) (last : Node) : Node := nodes.foldr .seq last

theorem readings_sequence (nodes : List Node) (last : Node) (r : Reading) :
    (sequence nodes last).readings false false r =
      ((sequence nodes .empty).readings false false r).flatMap (last.readings false false) := by
  induction nodes generalizing r with
  | nil => simp [sequence, Node.readings]
  | cons node nodes ih =>
    change (Node.seq node (sequence nodes last)).readings false false r =
      ((Node.seq node (sequence nodes .empty)).readings false false r).flatMap _
    simp only [Node.readings, Bool.false_eq_true, if_false, List.flatMap_assoc]
    exact List.flatMap_congr fun r' _ => ih r'

/-- Words of the languages, one after the other. -/
inductive Concat : List (Text → Prop) → Text → Prop where
  | nil : Concat [] []
  | cons {language : Text → Prop} {more : List (Text → Prop)} {word rest : Text}
      (head : language word) (tail : Concat more rest) : Concat (language :: more) (word ++ rest)

theorem spans_sequence (spans : List.Forall₂ Spans nodes languages) :
    Spans (sequence nodes .empty) (Concat languages) := by
  induction spans with
  | nil =>
    refine spans_empty.congr fun word => ⟨?_, ?_⟩
    · rintro rfl
      exact .nil
    · rintro ⟨⟩
      rfl
  | @cons node language nodes languages head tail ih =>
    refine (Spans.seq head ih).congr fun word => ⟨?_, ?_⟩
    · rintro ⟨a, b, rfl, inFirst, inRest⟩
      exact .cons inFirst inRest
    · rintro (_ | ⟨inFirst, inRest⟩)
      exact ⟨_, _, rfl, inFirst, inRest⟩

/-- Languages that agree on the words of an alphabet. -/
theorem Concat.imp {items : List α} {alphabet : Nat → Prop}
    (agree : ∀ item ∈ items, ∀ word, (∀ c ∈ word, alphabet c) → left item word → right item word)
    (whole : Text) (within : ∀ c ∈ whole, alphabet c) (concat : Concat (items.map left) whole) :
    Concat (items.map right) whole := by
  induction items generalizing whole with
  | nil => exact concat
  | cons item items ih =>
    cases concat with
    | @cons _ _ word rest head tail =>
      rw [List.forall_mem_append] at within
      exact .cons (agree item List.mem_cons_self word within.1 head)
        (ih (fun other member => agree other (.tail _ member)) rest within.2 tail)

/-- `^` and `$` around patterns: their language decides the whole input. -/
def anchored (nodes : List Node) : Node :=
  .seq .start (sequence nodes (.seq .finish .empty))

section

variable (spans : Spans (sequence body .empty) language)
include spans

theorem anchored_endOf (p : Place) :
    ((⟨anchored body, false⟩ : Compiled).endOf p).isSome = true ↔
      p.before = [] ∧ language p.after := by
  have nonempty : ((⟨anchored body, false⟩ : Compiled).endOf p).isSome = true ↔
      ∃ r, r ∈ (anchored body).readings false false ⟨p, []⟩ := by
    unfold Compiled.endOf
    rw [Option.isSome_map, List.isSome_head?]
    refine ⟨List.exists_mem_of_ne_nil _, ?_⟩
    rintro ⟨r, member⟩
    exact List.ne_nil_of_mem member
  rw [nonempty]
  simp only [anchored, Node.readings, readings_sequence body (.seq .finish .empty),
    Bool.false_eq_true, if_false, List.mem_flatMap, List.isEmpty_iff]
  constructor
  · rintro ⟨r, begun, atStart, read, inBody, ended, atEnd, -⟩
    split at atStart
    · rename_i first
      obtain rfl := List.mem_singleton.mp atStart
      obtain ⟨word, rest, splits, inLanguage, rfl⟩ := (spans p read).mp inBody
      split at atEnd
      · rename_i last
        obtain rfl : rest = [] := last
        rw [List.append_nil] at splits
        exact ⟨first, splits ▸ inLanguage⟩
      · cases atEnd
    · cases atStart
  · rintro ⟨first, inLanguage⟩
    refine ⟨⟨p.past p.after [], []⟩, ⟨p, []⟩, ?_, ⟨p.past p.after [], []⟩, ?_,
      ⟨p.past p.after [], []⟩, ?_, List.mem_singleton.mpr rfl⟩
    · rw [if_pos first]
      exact List.mem_singleton.mpr rfl
    · exact (spans p _).mpr ⟨p.after, [], (List.append_nil _).symm, inLanguage, rfl⟩
    · rw [if_pos (show (p.past p.after []).after = [] from rfl)]
      exact List.mem_singleton.mpr rfl

/-- Once a unit was read, `^` matches nowhere. -/
theorem anchored_search_later (fuel : Nat) (p : Place) (later : p.before ≠ []) :
    (⟨anchored body, false⟩ : Compiled).search fuel p = none := by
  induction fuel generalizing p with
  | zero => rfl
  | succ fuel ih =>
    have fails : (⟨anchored body, false⟩ : Compiled).endOf p = none := by
      rw [← Option.not_isSome_iff_eq_none, anchored_endOf spans]
      exact fun found => later found.1
    unfold Compiled.search
    rw [fails]
    dsimp only
    split
    · rfl
    · rename_i c next data
      refine ih next ?_
      unfold Place.read at data
      rw [if_neg Bool.false_ne_true] at data
      split at data
      · exact absurd data (Option.some_ne_none _).symm
      · obtain ⟨-, rfl⟩ := Prod.mk.inj (Option.some.inj data)
        exact List.cons_ne_nil _ _

theorem anchored_test (input : Text) :
    (⟨anchored body, false⟩ : Compiled).test input = true ↔ language input := by
  have here := anchored_endOf spans ⟨[], input⟩
  unfold Compiled.test Compiled.exec Compiled.search
  cases data : (⟨anchored body, false⟩ : Compiled).endOf ⟨[], input⟩ with
  | some place =>
    rw [data] at here
    exact iff_of_true rfl (here.mp rfl).2
  | none =>
    rw [data] at here
    have other : ¬ language input := fun inLanguage =>
      absurd (here.mpr ⟨rfl, inLanguage⟩) Bool.false_ne_true
    refine iff_of_false ?_ other
    dsimp only
    split
    · exact Bool.false_ne_true
    · rename_i c next read
      rw [anchored_search_later spans]
      · exact Bool.false_ne_true
      · unfold Place.read at read
        rw [if_neg Bool.false_ne_true] at read
        split at read
        · exact absurd read (Option.some_ne_none _).symm
        · obtain ⟨-, rfl⟩ := Prod.mk.inj (Option.some.inj read)
          exact List.cons_ne_nil _ _

end

/-! ## What the parser reads -/

theorem bounds_none (other : c ≠ u '*' ∧ c ≠ u '+' ∧ c ≠ u '?' ∧ c ≠ u '\x7b') :
    bounds (c :: rest) = none := by
  simp only [bounds, other, if_false]

section

variable (stops : bounds after = none)
include stops

theorem quantify_none (first last : Nat) (node : Node) :
    quantify first last node after = .ok (node, after) := by
  unfold quantify
  rw [stops]

theorem not_lazy : ∀ c rest, after = c :: rest → c ≠ u '?' := by
  rintro c rest rfl rfl
  exact absurd stops (by simp [bounds, u])

theorem quantify_star (first last : Nat) (node : Node) :
    quantify first last node (u '*' :: after) =
      .ok (.many 0 none true first last node, after) := by
  cases after with
  | nil => rfl
  | cons c rest =>
    have eager := not_lazy stops c rest rfl
    exact if_neg eager

theorem quantify_optional (first last : Nat) (node : Node) :
    quantify first last node (u '?' :: after) =
      .ok (.many 0 (some 1) true first last node, after) := by
  cases after with
  | nil => rfl
  | cons c rest =>
    have eager := not_lazy stops c rest rfl
    exact if_neg eager

end

/-- The characters that do not stand for themselves. -/
def operators : Text := text "^$\\.*+?()[\x7b|"

/-- What a parser step gives to an atom that it has read. -/
def atom (next : Nat) (node : Node) (rest : Text) : Except SyntaxError (Node × Nat × Text) := do
  let (node, rest) ← quantify next next node rest
  .ok (node, next, rest)

theorem term_unit (plain : c ∉ operators) (groups fuel next : Nat) (rest : Text) :
    term groups (fuel + 1) next c rest = atom next (.unit c) rest := by
  have spelled : operators = [94, 36, 92, 46, 42, 43, 63, 40, 41, 91, 123, 124] := by decide
  rw [spelled] at plain
  simp only [List.mem_cons, not_or] at plain
  unfold term
  simp only [u, Char.reduceToNat, plain]
  rfl

theorem term_any (groups fuel next : Nat) (rest : Text) :
    term groups (fuel + 1) next (u '.') rest = atom next .any rest := by
  unfold term
  rfl

theorem term_escaped_dot (groups fuel next : Nat) (rest : Text) :
    term groups (fuel + 1) next (u '\\') (u '.' :: rest) = atom next (.unit (u '.')) rest := by
  unfold term
  rfl

theorem term_class (members : Text)
    (reads : classItems ((negation members).2.length + 1) (negation members).2 = .ok (items, rest))
    (groups fuel next : Nat) :
    term groups (fuel + 1) next (u '[') members = atom next (.set (negation members).1 items) rest := by
  unfold term
  change (classItems ((negation members).2.length + 1) (negation members).2 >>= fun read =>
    atom next (.set (negation members).1 read.1) read.2) = _
  rw [reads]
  rfl

theorem term_group {inner rest : Text}
    (reads : disjunction groups fuel next inner = .ok (body, after, u ')' :: rest)) :
    term groups (fuel + 1) next (u '(') (u '?' :: u ':' :: inner) = (do
      let (node, rest) ← quantify next after (.group none body) rest
      .ok (node, after, rest)) := by
  unfold term
  change (disjunction groups fuel next inner >>= fun read => closed read.2.2 >>= fun rest =>
    quantify next read.2.1 (.group none read.1) rest >>= fun atom =>
      .ok (atom.1, read.2.1, atom.2)) = _
  rw [reads]
  rfl

/-- What a term and what follows it give to the alternative. -/
theorem alternative_term
    (goes : c ≠ u '|' ∧ c ≠ u ')')
    (opens : term groups fuel next c rest = .ok (first, after, rest'))
    (continues : alternative groups fuel after rest' = .ok (second, after', rest'')) :
    alternative groups (fuel + 1) next (c :: rest) = .ok (.seq first second, after', rest'') := by
  unfold alternative
  simp only [goes, opens]
  change (alternative groups fuel after rest' >>= fun read =>
    .ok (Node.seq first read.1, read.2.1, read.2.2)) = _
  rw [continues]
  rfl

end LetAgents.Lib.RegExp

import LetAgents.Lib.RegExp

/-!
# The words of a pattern

A pattern without anchors, boundaries and back references reads the words of a language in
either direction, whatever its groups capture and wherever it stands. With a lookbehind in
front, a match is a word behind its place and a word from there on.
-/
namespace LetAgents.Lib.RegExp

/-- A place in reading direction: what lies ahead, and what was passed, the last unit first. -/
def Place.facing (behind : Bool) (ahead passed : Text) : Place :=
  if behind then ⟨ahead, passed⟩ else ⟨passed, ahead⟩

/-- The reader reads the words of the language, wherever they stand. -/
structure Spells (behind : Bool) (reader : Reading → List Reading) (language : Text → Prop) :
    Prop where
  sound : ∀ ahead passed captures, ∀ r ∈ reader ⟨.facing behind ahead passed, captures⟩,
    ∃ word rest, ahead = word ++ rest ∧ language word ∧
      r.place = .facing behind rest (word.reverse ++ passed)
  complete : ∀ word rest passed captures, language word →
    ∃ r ∈ reader ⟨.facing behind (word ++ rest) passed, captures⟩,
      r.place = .facing behind rest (word.reverse ++ passed)

/-- At least `least` and at most `most` words of a language, one after the other; a word
that is not required is not empty. -/
inductive Repeated (language : Text → Prop) : Nat → Option Nat → Text → Prop where
  | full {least : Nat} : Repeated language least (some 0) []
  | enough {most : Option Nat} : Repeated language 0 most []
  | more {least : Nat} {most : Option Nat} {first rest : Text} (allowed : most ≠ some 0)
      (moves : 0 < least ∨ first ≠ []) (head : language first)
      (tail : Repeated language (least - 1) (most.map (· - 1)) rest) :
      Repeated language least most (first ++ rest)

def Node.language (ignoreCase behind : Bool) : Node → Text → Prop
  | .empty, word => word = []
  | .any, word => ∃ c, word = [c] ∧ isLineTerminator c = false
  | .set negated items, word => ∃ c, word = [c] ∧ setAccepts ignoreCase negated items c = true
  | .seq first second, word => ∃ a b, word = a ++ b ∧
      if behind then second.language ignoreCase behind a ∧ first.language ignoreCase behind b
      else first.language ignoreCase behind a ∧ second.language ignoreCase behind b
  | .alt first second, word =>
    first.language ignoreCase behind word ∨ second.language ignoreCase behind word
  | .group _ body, word => body.language ignoreCase behind word
  | .many least most _ _ _ body, word => Repeated (body.language ignoreCase behind) least most word
  | _, _ => False

/-- No anchors, boundaries, back references and lookarounds. -/
def Node.plain : Node → Bool
  | .empty | .any | .set _ _ => true
  | .seq first second | .alt first second => first.plain && second.plain
  | .group _ body | .many _ _ _ _ _ body => body.plain
  | _ => false

section

variable {behind : Bool} {reader : Reading → List Reading} {language : Text → Prop}

theorem spells_readUnit (accepts : Nat → Bool) :
    Spells behind (readUnit accepts behind) fun word => ∃ c, word = [c] ∧ accepts c = true := by
  constructor
  · intro ahead passed captures r member
    cases ahead with
    | nil => cases behind <;> simp [readUnit, Place.read, Place.facing] at member
    | cons c rest =>
      have unit : accepts c = true ∧ r = ⟨.facing behind rest (c :: passed), captures⟩ := by
        cases behind <;> simpa [readUnit, Place.read, Place.facing] using member
      obtain ⟨accepted, rfl⟩ := unit
      exact ⟨[c], rest, rfl, ⟨c, rfl, accepted⟩, rfl⟩
  · rintro _ rest passed captures ⟨c, rfl, accepted⟩
    cases behind <;> simp [readUnit, Place.read, Place.facing, accepted]

theorem Spells.then (opens : Spells behind reader left) (closes : Spells behind second right) :
    Spells behind (fun r => (reader r).flatMap second) fun word =>
      ∃ a b, word = a ++ b ∧ left a ∧ right b := by
  constructor
  · intro ahead passed captures r member
    obtain ⟨⟨place, captured⟩, inFirst, inSecond⟩ := List.mem_flatMap.mp member
    obtain ⟨a, between, split, inLeft, rfl⟩ := opens.sound _ _ _ _ inFirst
    obtain ⟨b, rest, splits, inRight, ends⟩ := closes.sound _ _ _ _ inSecond
    refine ⟨a ++ b, rest, ?_, ⟨a, b, rfl, inLeft, inRight⟩, ?_⟩
    · rw [split, splits, List.append_assoc]
    · rw [ends, List.reverse_append, List.append_assoc]
  · rintro _ rest passed captures ⟨a, b, rfl, inLeft, inRight⟩
    obtain ⟨⟨place, captured⟩, inFirst, rfl⟩ := opens.complete a (b ++ rest) passed captures inLeft
    obtain ⟨r, inSecond, ends⟩ := closes.complete b rest (a.reverse ++ passed) captured inRight
    rw [List.append_assoc]
    refine ⟨r, List.mem_flatMap.mpr ⟨_, inFirst, inSecond⟩, ?_⟩
    rw [ends, List.reverse_append, List.append_assoc]

theorem Spells.or (one : Spells behind reader left) (other : Spells behind second right) :
    Spells behind (fun r => reader r ++ second r) fun word => left word ∨ right word := by
  constructor
  · intro ahead passed captures r member
    rcases List.mem_append.mp member with inFirst | inSecond
    · obtain ⟨word, rest, split, inLeft, ends⟩ := one.sound _ _ _ _ inFirst
      exact ⟨word, rest, split, .inl inLeft, ends⟩
    · obtain ⟨word, rest, split, inRight, ends⟩ := other.sound _ _ _ _ inSecond
      exact ⟨word, rest, split, .inr inRight, ends⟩
  · rintro word rest passed captures (inLeft | inRight)
    · obtain ⟨r, member, ends⟩ := one.complete word rest passed captures inLeft
      exact ⟨r, List.mem_append_left _ member, ends⟩
    · obtain ⟨r, member, ends⟩ := other.complete word rest passed captures inRight
      exact ⟨r, List.mem_append_right _ member, ends⟩

/-- What a group captures does not change where it ends. -/
theorem Spells.captured {change : Reading → Reading → Reading}
    (keeps : ∀ r r', (change r r').place = r'.place) (spells : Spells behind reader language) :
    Spells behind (fun r => (reader r).map (change r)) language := by
  constructor
  · intro ahead passed captures r member
    obtain ⟨r', inBody, rfl⟩ := List.mem_map.mp member
    rw [keeps]
    exact spells.sound _ _ _ _ inBody
  · intro word rest passed captures inLanguage
    obtain ⟨r', inBody, ends⟩ := spells.complete word rest passed captures inLanguage
    refine ⟨_, List.mem_map.mpr ⟨r', inBody, rfl⟩, ?_⟩
    rw [keeps, ends]

theorem facing_eq_iff : Place.facing behind ahead passed = .facing behind ahead' passed' ↔
      ahead = ahead' ∧ passed = passed' := by
  cases behind <;> simp [Place.facing, and_comm]

theorem Spells.repeated_sound (spells : Spells behind reader language) (greedy : Bool)
    (fuel least : Nat) (most : Option Nat) (ahead passed : Text) (captures : List (Nat × Text))
    (r : Reading)
    (member : r ∈ repetitions reader greedy fuel least most ⟨.facing behind ahead passed, captures⟩) :
    ∃ word rest, ahead = word ++ rest ∧ Repeated language least most word ∧
      r.place = .facing behind rest (word.reverse ++ passed) := by
  induction fuel generalizing least most ahead passed captures r with
  | zero => cases member
  | succ fuel ih =>
    unfold repetitions at member
    by_cases none' : most = some 0
    · rw [if_pos none', List.mem_singleton] at member
      rw [member, none']
      exact ⟨[], ahead, rfl, .full, rfl⟩
    rw [if_neg none'] at member
    -- either the body is read once more, or no more is needed
    have cases' : (∃ r' ∈ reader ⟨.facing behind ahead passed, captures⟩,
        r ∈ (if least = 0 ∧ r'.place = .facing behind ahead passed then []
          else repetitions reader greedy fuel (least - 1) (most.map (· - 1)) r')) ∨
        (least = 0 ∧ r = ⟨.facing behind ahead passed, captures⟩) := by
      by_cases required : 0 < least
      · rw [if_pos required, List.mem_flatMap] at member
        exact .inl member
      · rw [if_neg required] at member
        have done : least = 0 := Nat.eq_zero_of_not_pos required
        cases greedy <;>
          simp only [Bool.false_eq_true, if_true, if_false, List.mem_append, List.mem_cons,
            List.mem_flatMap, List.not_mem_nil, or_false] at member
        · exact member.symm.imp_right fun here => ⟨done, here⟩
        · exact member.imp_right fun here => ⟨done, here⟩
    rcases cases' with ⟨⟨place, captured⟩, inBody, further⟩ | ⟨rfl, rfl⟩
    · obtain ⟨first, after, split, head, rfl⟩ := spells.sound _ _ _ _ inBody
      split at further
      · cases further
      rename_i moved
      obtain ⟨word, rest, splits, tail, ends⟩ := ih _ _ _ _ _ _ further
      refine ⟨first ++ word, rest, ?_, .more none' ?_ head tail, ?_⟩
      · rw [split, splits, List.append_assoc]
      · by_contra stuck
        push Not at stuck
        refine moved ⟨by omega, facing_eq_iff.mpr ?_⟩
        rw [stuck.2] at split ⊢
        exact ⟨split.symm, rfl⟩
      · rw [ends, List.reverse_append, List.append_assoc]
    · exact ⟨[], ahead, rfl, .enough, rfl⟩

theorem Spells.repeated_complete (spells : Spells behind reader language) (greedy : Bool)
    (words : Repeated language least most word) (fuel : Nat) (fuelled : least + word.length < fuel)
    (rest passed : Text) (captures : List (Nat × Text)) :
    ∃ r ∈ repetitions reader greedy fuel least most ⟨.facing behind (word ++ rest) passed, captures⟩,
      r.place = .facing behind rest (word.reverse ++ passed) := by
  induction words generalizing fuel passed captures with
  | full =>
    obtain ⟨fuel, rfl⟩ := Nat.exists_eq_add_one_of_ne_zero (Nat.ne_of_gt (Nat.zero_lt_of_lt fuelled))
    refine ⟨⟨.facing behind rest passed, captures⟩, ?_, rfl⟩
    unfold repetitions
    exact List.mem_singleton.mpr rfl
  | enough =>
    obtain ⟨fuel, rfl⟩ := Nat.exists_eq_add_one_of_ne_zero (Nat.ne_of_gt (Nat.zero_lt_of_lt fuelled))
    refine ⟨⟨.facing behind rest passed, captures⟩, ?_, rfl⟩
    unfold repetitions
    split
    · exact List.mem_singleton.mpr rfl
    · cases greedy <;> simp
  | @more least most first tail allowed moves head _ ih =>
    obtain ⟨fuel, rfl⟩ := Nat.exists_eq_add_one_of_ne_zero (Nat.ne_of_gt (Nat.zero_lt_of_lt fuelled))
    rw [List.length_append] at fuelled
    obtain ⟨⟨place, captured⟩, inBody, rfl⟩ :=
      spells.complete first (tail ++ rest) passed captures head
    have shorter : least - 1 + tail.length < fuel := by
      rcases moves with positive | nonempty
      · omega
      · have := List.length_pos_iff.mpr nonempty
        omega
    obtain ⟨r, further, ends⟩ := ih fuel shorter (first.reverse ++ passed) captured
    rw [List.append_assoc]
    refine ⟨r, ?_, ?_⟩
    · have inMore : r ∈ (reader ⟨.facing behind (first ++ (tail ++ rest)) passed, captures⟩).flatMap
          fun r' => if least = 0 ∧ r'.place = .facing behind (first ++ (tail ++ rest)) passed then []
            else repetitions reader greedy fuel (least - 1) (most.map (· - 1)) r' := by
        refine List.mem_flatMap.mpr ⟨_, inBody, ?_⟩
        rw [if_neg]
        · exact further
        · rintro ⟨rfl, same⟩
          have lengths := congrArg List.length (facing_eq_iff.mp same).1
          rw [@List.length_append _ first] at lengths
          have := List.length_pos_iff.mpr (moves.resolve_left (Nat.lt_irrefl 0))
          omega
      unfold repetitions
      rw [if_neg allowed]
      split
      · exact inMore
      · split
        · exact List.mem_append_left _ inMore
        · exact .tail _ inMore
    · rw [ends, List.reverse_append, List.append_assoc]

end

theorem length_facing (behind : Bool) (ahead passed : Text) :
    (Place.facing behind ahead passed).before.length +
      (Place.facing behind ahead passed).after.length = ahead.length + passed.length := by
  cases behind
  · exact Nat.add_comm _ _
  · rfl

/-- A plain pattern reads the words of its language. -/
theorem plain_spells (ignoreCase behind : Bool) (node : Node) (plain : node.plain = true) :
    Spells behind (node.readings ignoreCase behind) (node.language ignoreCase behind) := by
  induction node with
  | empty =>
    constructor
    · intro ahead passed captures r member
      rw [List.mem_singleton.mp member]
      exact ⟨[], ahead, rfl, rfl, rfl⟩
    · rintro _ rest passed captures rfl
      exact ⟨_, List.mem_singleton.mpr rfl, rfl⟩
  | any =>
    have reads := @spells_readUnit behind fun c => !isLineTerminator c
    simp only [Bool.not_eq_true'] at reads
    exact reads
  | set negated items => exact spells_readUnit _
  | seq first second firstIh secondIh =>
    obtain ⟨plainFirst, plainSecond⟩ := Bool.and_eq_true_iff.mp plain
    cases behind
    · exact (firstIh plainFirst).then (secondIh plainSecond)
    · exact (secondIh plainSecond).then (firstIh plainFirst)
  | alt first second firstIh secondIh =>
    obtain ⟨plainFirst, plainSecond⟩ := Bool.and_eq_true_iff.mp plain
    exact (firstIh plainFirst).or (secondIh plainSecond)
  | group index body ih =>
    refine (ih plain).captured fun r r' => ?_
    cases index <;> rfl
  | many least most greedy fromGroup toGroup body ih =>
    -- the captures of the body are forgotten before each repetition
    have spells : Spells behind (fun r => body.readings ignoreCase behind
        { r with captures := r.captures.filter fun capture =>
            capture.1 < fromGroup || toGroup ≤ capture.1 }) (body.language ignoreCase behind) :=
      ⟨fun ahead passed _ => (ih plain).sound ahead passed _,
        fun word rest passed _ => (ih plain).complete word rest passed _⟩
    constructor
    · intro ahead passed captures r member
      exact spells.repeated_sound greedy _ least most ahead passed captures r member
    · intro word rest passed captures words
      refine spells.repeated_complete greedy words _ ?_ rest passed captures
      have lengths := length_facing behind (word ++ rest) passed
      rw [List.length_append] at lengths
      dsimp only
      omega
  | backReference | start | finish | boundary | look => cases plain

/-! ## Matches -/

/-- A match is a word of `back` read backwards from its place, and a word of `ahead` read
from there on. -/
structure Finds (regex : Compiled) (back ahead : Text → Prop) : Prop where
  sound : ∀ p : Place, ∀ r ∈ regex.node.readings regex.ignoreCase false ⟨p, []⟩,
    ∃ seen rest word after, p.before = seen ++ rest ∧ p.after = word ++ after ∧ back seen ∧
      ahead word ∧ r.place = ⟨word.reverse ++ p.before, after⟩
  complete : ∀ seen rest word after, back seen → ahead word →
    ∃ r ∈ regex.node.readings regex.ignoreCase false ⟨⟨seen ++ rest, word ++ after⟩, []⟩,
      r.place = ⟨word.reverse ++ (seen ++ rest), after⟩

theorem plain_finds (plain : regex.node.plain = true) :
    Finds regex (fun seen => seen = []) (regex.node.language regex.ignoreCase false) := by
  have spells := plain_spells regex.ignoreCase false regex.node plain
  constructor
  · intro p r member
    obtain ⟨word, after, split, inLanguage, ends⟩ := spells.sound p.after p.before [] r member
    exact ⟨[], p.before, word, after, rfl, split, rfl, inLanguage, ends⟩
  · rintro _ rest word after rfl inLanguage
    exact spells.complete word after rest [] inLanguage

/-- A pattern behind a lookbehind. -/
theorem look_finds (ignoreCase : Bool) (plainLook : look.plain = true)
    (plainBody : body.plain = true) :
    Finds ⟨.seq (.look true false look) body, ignoreCase⟩ (look.language ignoreCase true)
      (body.language ignoreCase false) := by
  have behind := plain_spells ignoreCase true look plainLook
  have ahead := plain_spells ignoreCase false body plainBody
  constructor
  · intro p r member
    simp only [Node.readings, Bool.false_eq_true, if_false, List.mem_flatMap] at member
    obtain ⟨begun, looked, inBody⟩ := member
    cases data : (look.readings ignoreCase true ⟨p, []⟩).head? with
    | none =>
      rw [data] at looked
      cases looked
    | some back =>
      rw [data] at looked
      obtain rfl := List.mem_singleton.mp looked
      obtain ⟨seen, rest, splitBack, inLook, -⟩ :=
        behind.sound p.before p.after [] back (List.mem_of_mem_head? data)
      obtain ⟨word, after, split, inLanguage, ends⟩ := ahead.sound p.after p.before _ r inBody
      exact ⟨seen, rest, word, after, splitBack, split, inLook, inLanguage, ends⟩
  · intro seen rest word after inLook inLanguage
    obtain ⟨back, member, -⟩ := behind.complete seen rest (word ++ after) [] inLook
    have nonempty : ((look.readings ignoreCase true
        ⟨⟨seen ++ rest, word ++ after⟩, []⟩).head?).isSome = true := by
      rw [List.isSome_head?]
      exact List.ne_nil_of_mem member
    obtain ⟨looked, data⟩ := Option.isSome_iff_exists.mp nonempty
    obtain ⟨r, inBody, ends⟩ := ahead.complete word after (seen ++ rest) looked.captures inLanguage
    refine ⟨r, ?_, ends⟩
    simp only [Node.readings, Bool.false_eq_true, if_false, List.mem_flatMap]
    refine ⟨⟨⟨seen ++ rest, word ++ after⟩, looked.captures⟩, ?_, inBody⟩
    rw [data]
    exact List.mem_singleton.mpr rfl

/-- A plain pattern, or one behind a lookbehind. -/
def Node.windowed : Node → Bool
  | .seq (.look true false back) body => back.plain && body.plain
  | node => node.plain

theorem windowed_finds (windowed : regex.node.windowed = true) :
    ∃ back ahead, Finds regex back ahead := by
  obtain ⟨node, ignoreCase⟩ := regex
  dsimp only at windowed
  unfold Node.windowed at windowed
  split at windowed
  · obtain ⟨plainLook, plainBody⟩ := Bool.and_eq_true_iff.mp windowed
    exact ⟨_, _, look_finds ignoreCase plainLook plainBody⟩
  · exact ⟨_, _, plain_finds windowed⟩

/-- The pattern without the upper bounds of its runs; what is optional stays so. -/
def Node.unbounded : Node → Node
  | .seq first second => .seq first.unbounded second.unbounded
  | .alt first second => .alt first.unbounded second.unbounded
  | .group index body => .group index body.unbounded
  | .many least most greedy fromGroup toGroup body =>
    .many least (most.filter (· ≤ 1)) greedy fromGroup toGroup body.unbounded
  | node => node

theorem unbounded_plain {node : Node} (plain : node.plain = true) :
    node.unbounded.plain = true := by
  induction node with
  | seq first second firstIh secondIh | alt first second firstIh secondIh =>
    obtain ⟨plainFirst, plainSecond⟩ := Bool.and_eq_true_iff.mp plain
    exact Bool.and_eq_true_iff.mpr ⟨firstIh plainFirst, secondIh plainSecond⟩
  | group index body ih | many least most greedy fromGroup toGroup body ih => exact ih plain
  | empty | any | set | backReference | start | finish | boundary | look => exact plain

theorem unbounded_windowed {node : Node} (windowed : node.windowed = true) :
    node.unbounded.windowed = true := by
  unfold Node.windowed at windowed
  split at windowed
  · obtain ⟨plainLook, plainBody⟩ := Bool.and_eq_true_iff.mp windowed
    exact Bool.and_eq_true_iff.mpr ⟨plainLook, unbounded_plain plainBody⟩
  · have plain := unbounded_plain windowed
    unfold Node.windowed
    split
    · rename_i shape
      rw [shape] at plain
      cases plain
    · exact plain

section

variable {regex : Compiled} {back ahead : Text → Prop}

theorem Finds.endOf_some (finds : Finds regex back ahead) (found : regex.endOf p = some q) :
    ∃ seen rest word, p.before = seen ++ rest ∧
      p.after = word ++ q.after ∧ back seen ∧ ahead word ∧ q.before = word.reverse ++ p.before := by
  obtain ⟨r, first, rfl⟩ := Option.map_eq_some_iff.mp found
  obtain ⟨seen, rest, word, after, splitBack, split, inBack, inAhead, ends⟩ :=
    finds.sound p r (List.mem_of_mem_head? first)
  rw [ends]
  exact ⟨seen, rest, word, splitBack, split, inBack, inAhead, rfl⟩

theorem Finds.endOf_isSome (finds : Finds regex back ahead) (inBack : back seen)
    (inAhead : ahead word) (rest after : Text) :
    (regex.endOf ⟨seen ++ rest, word ++ after⟩).isSome = true := by
  obtain ⟨r, member, -⟩ := finds.complete seen rest word after inBack inAhead
  unfold Compiled.endOf
  rw [Option.isSome_map, List.isSome_head?]
  exact List.ne_nil_of_mem member

theorem between_word (split : p.after = word ++ q.after) : between false p q = word := by
  unfold between
  rw [if_neg Bool.false_ne_true, split, List.length_append, Nat.add_sub_cancel, List.take_left]

end

/-! ## Searching -/

theorem search_some {regex : Compiled} (found : regex.search fuel p = some (first, last)) :
    regex.endOf first = some last ∧
      ∃ skipped, p.after = skipped ++ first.after ∧ first.before = skipped.reverse ++ p.before ∧
        ∀ a b, skipped = a ++ b → b ≠ [] →
          regex.endOf ⟨a.reverse ++ p.before, b ++ first.after⟩ = none := by
  induction fuel generalizing p with
  | zero => exact absurd found (Option.some_ne_none _).symm
  | succ fuel ih =>
    unfold Compiled.search at found
    cases here : regex.endOf p with
    | some q =>
      rw [here] at found
      obtain ⟨rfl, rfl⟩ := Prod.mk.inj (Option.some.inj found)
      refine ⟨here, [], rfl, rfl, fun a b none' nonempty => ?_⟩
      exact absurd (List.append_eq_nil_iff.mp none'.symm).2 nonempty
    | none =>
      rw [here] at found
      obtain ⟨before, after⟩ := p
      cases after with
      | nil => exact absurd found (Option.some_ne_none _).symm
      | cons c after =>
        obtain ⟨matched, skipped, split, passed, earlier⟩ := ih found
        dsimp only at split passed
        refine ⟨matched, c :: skipped, ?_, ?_, fun a b parts nonempty => ?_⟩
        · rw [split, List.cons_append]
        · simp [passed]
        · cases a with
          | nil =>
            obtain rfl : b = c :: skipped := parts.symm
            rw [split] at here
            exact here
          | cons d a =>
            obtain ⟨rfl, rest⟩ := List.cons.inj parts
            have later := earlier a b rest nonempty
            rw [List.reverse_cons, List.append_assoc, List.singleton_append]
            exact later

theorem exec_some {regex : Compiled} (found : regex.exec p = some (first, last)) :
    regex.endOf first = some last ∧
      ∃ skipped, p.after = skipped ++ first.after ∧ first.before = skipped.reverse ++ p.before ∧
        ∀ a b, skipped = a ++ b → b ≠ [] →
          regex.endOf ⟨a.reverse ++ p.before, b ++ first.after⟩ = none := search_some found

theorem search_none {regex : Compiled} (enough : p.after.length < fuel)
    (fails : regex.search fuel p = none) (a b : Text) (split : p.after = a ++ b) :
    regex.endOf ⟨a.reverse ++ p.before, b⟩ = none := by
  induction fuel generalizing p a with
  | zero => exact absurd enough (Nat.not_lt_zero _)
  | succ fuel ih =>
    unfold Compiled.search at fails
    obtain ⟨before, after⟩ := p
    dsimp only at split enough
    cases here : regex.endOf ⟨before, after⟩ with
    | some q =>
      rw [here] at fails
      exact absurd fails nofun
    | none =>
      cases a with
      | nil =>
        rw [split] at here
        exact here
      | cons c a =>
        rw [here, split] at fails
        rw [split] at enough
        have later := @ih ⟨c :: before, a ++ b⟩ (Nat.lt_of_succ_lt_succ enough) fails a rfl
        rw [List.reverse_cons, List.append_assoc, List.singleton_append]
        exact later

theorem exec_none {regex : Compiled} (fails : regex.exec p = none) (a b : Text)
    (split : p.after = a ++ b) : regex.endOf ⟨a.reverse ++ p.before, b⟩ = none :=
  search_none (Nat.lt_succ_self _) fails a b split

end LetAgents.Lib.RegExp

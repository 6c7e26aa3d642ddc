import LetAgents.Lib.RegExpLanguage
import LetAgents.Lib.Texts
import Mathlib.Data.List.Forall2

/-!
# Scope globs

Source: src/api/rental/workspace-materializer.ts:38-115. A glob is spelled as a regular
expression, one unit after the other; operators of regular expressions that are none of
globs keep their meaning there. Without them the expression reads what the glob says.
-/
namespace LetAgents.Rental.ScopeGlobs

open Lib.RegExp

/-! ## As the code matches -/

/-- The loop of `simpleGlobMatch`. -/
def regexSource : Text → Text
  | [] => []
  | c :: rest =>
    if c = u '*' then
      match rest with
      | d :: rest' =>
        if d = u '*' then
          match rest' with
          | e :: rest'' =>
            if e = u '/' then text "(?:.*/)?" ++ regexSource rest''
            else text ".*" ++ regexSource (e :: rest'')
          | [] => text ".*" ++ regexSource []
        else text "[^/]*" ++ regexSource (d :: rest')
      | [] => text "[^/]*" ++ regexSource []
    else if c = u '?' then text "[^/]" ++ regexSource rest
    else if c = u '.' then text "\\." ++ regexSource rest
    else c :: regexSource rest

def simpleGlobMatch (pattern filepath : Text) : Except SyntaxError Bool := do
  let regex ← parse (u '^' :: regexSource pattern ++ [u '$'])
  .ok ((⟨regex, false⟩ : Compiled).test filepath)

/-- `globs.some(...)`: a glob that cannot be compiled throws. -/
def someGlob : List Text → Text → Except SyntaxError Bool
  | [], _ => .ok false
  | glob :: rest, filepath => do
    let matched ← simpleGlobMatch glob filepath
    if matched then .ok true else someGlob rest filepath

def ALWAYS_BLOCKED_PATHS : List String := [
  ".env",
  ".env.local",
  ".env.production",
  ".env.development",
  ".env.staging",
  ".env.*",
  ".git-credentials",
  ".netrc",
  ".npmrc",
  ".pypirc",
  ".docker/config.json",
  "**/.ssh/**",
  "**/.aws/**",
  "**/.gnupg/**",
  "**/.config/gcloud/**",
  "**/id_rsa",
  "**/id_ed25519",
  "**/*.pem",
  "**/*.key",
  "**/*.p12",
  "**/*.pfx",
  "**/secrets.yaml",
  "**/secrets.yml",
  "**/secrets.json",
  "**/.vault-token",
  "**/credentials.json",
  "**/service-account*.json"]

def isAlwaysBlocked (relPath : Text) : Except SyntaxError Bool :=
  someGlob (ALWAYS_BLOCKED_PATHS.map text) relPath

/-! ## What a glob says -/

inductive Piece where
  /-- `**/`. -/
  | directories
  /-- `**`. -/
  | anything
  /-- `*`. -/
  | name
  /-- `?`. -/
  | one
  | exactly (c : Nat)

def pieces : Text → List Piece
  | [] => []
  | c :: rest =>
    if c = u '*' then
      match rest with
      | d :: rest' =>
        if d = u '*' then
          match rest' with
          | e :: rest'' =>
            if e = u '/' then .directories :: pieces rest'' else .anything :: pieces (e :: rest'')
          | [] => .anything :: pieces []
        else .name :: pieces (d :: rest')
      | [] => .name :: pieces []
    else if c = u '?' then .one :: pieces rest
    else .exactly c :: pieces rest

/-- The texts a piece stands for. -/
def Piece.Stands : Piece → Text → Prop
  | .directories, word => ∃ names : List Text, word = names.flatMap fun name => name ++ [u '/']
  | .anything, _ => True
  | .name, word => u '/' ∉ word
  | .one, word => ∃ c, word = [c] ∧ c ≠ u '/'
  | .exactly c, word => word = [c]

/-- The glob matches the path. -/
def Matches (glob filepath : Text) : Prop := Concat ((pieces glob).map Piece.Stands) filepath

/-! ## How a glob is spelled -/

def Piece.source : Piece → Text
  | .directories => text "(?:.*/)?"
  | .anything => text ".*"
  | .name => text "[^/]*"
  | .one => text "[^/]"
  | .exactly c => if c = u '.' then text "\\." else [c]

theorem regexSource_pieces (glob : Text) : regexSource glob = (pieces glob).flatMap Piece.source := by
  fun_induction pieces glob with
  | case8 c rest other single ih =>
    unfold regexSource
    simp only [other, single, if_false, ih, List.flatMap_cons, Piece.source]
    split
    · rfl
    · rfl
  | _ =>
    unfold regexSource
    simp_all [Piece.source]

/-- The pattern that a piece is compiled to. -/
def Piece.node : Piece → Node
  | .directories => .many 0 (some 1) true 1 1
      (.group none (.seq (.many 0 none true 1 1 .any) (.seq (.unit (u '/')) .empty)))
  | .anything => .many 0 none true 1 1 .any
  | .name => .many 0 none true 1 1 (.set true [.range (u '/') (u '/')])
  | .one => .set true [.range (u '/') (u '/')]
  | .exactly c => .unit c

/-- The operators of regular expressions that are none of globs. -/
def foreign : Text := text "\\^$+()[\x7b|"

/-- The characters of the glob are its own operators or stand for themselves. -/
def Plain (glob : Text) : Prop := ∀ c ∈ glob, c ∉ foreign

instance (glob : Text) : Decidable (Plain glob) := inferInstanceAs (Decidable (∀ c ∈ glob, c ∉ foreign))

/-- The piece is spelled by what it means. -/
def Piece.Plain : Piece → Prop
  | .exactly c => c = u '.' ∨ c ∉ operators
  | _ => True

theorem pieces_plain (plain : Plain glob) : ∀ piece ∈ pieces glob, piece.Plain := by
  have operator : ∀ c ∈ operators, c ∈ foreign ∨ c = u '*' ∨ c = u '?' ∨ c = u '.' := by decide
  unfold Plain at plain
  fun_induction pieces glob with
  | case8 c rest other single ih =>
    rw [List.forall_mem_cons] at plain ⊢
    refine ⟨?_, ih plain.2⟩
    by_cases dot : c = u '.'
    · exact .inl dot
    · refine .inr fun member => ?_
      rcases operator c member with inForeign | star | mark | isDot
      · exact plain.1 inForeign
      · exact other star
      · exact single mark
      · exact dot isDot
  | _ => simp_all [Piece.Plain]

theorem term_anything (stops : bounds after = none) (groups fuel : Nat) :
    term groups (fuel + 1) 1 (u '.') (u '*' :: after) =
      .ok (.many 0 none true 1 1 .any, 1, after) := by
  rw [term_any, atom, quantify_star stops]
  rfl

theorem directories_spelled : Piece.directories.source =
    [u '(', u '?', u ':', u '.', u '*', u '/', u ')', u '?'] := by decide

theorem term_directories (stops : bounds after = none) (groups fuel : Nat) :
    term groups (fuel + 5) 1 (u '(') (u '?' :: u ':' :: u '.' :: u '*' :: u '/' :: u ')' :: u '?' :: after) =
      .ok (Piece.directories.node, 1, after) := by
  have inner : disjunction groups (fuel + 4) 1 (u '.' :: u '*' :: u '/' :: u ')' :: u '?' :: after) =
      .ok (.seq (.many 0 none true 1 1 .any) (.seq (.unit (u '/')) .empty), 1,
        u ')' :: u '?' :: after) := by
    have ends : alternative groups (fuel + 1) 1 (u ')' :: u '?' :: after) =
        .ok (.empty, 1, u ')' :: u '?' :: after) := by
      unfold alternative
      rfl
    have slash : term groups (fuel + 1) 1 (u '/') (u ')' :: u '?' :: after) =
        .ok (.unit (u '/'), 1, u ')' :: u '?' :: after) := by
      rw [term_unit (by decide), atom, quantify_none rfl]
      rfl
    have both := alternative_term (by decide) (term_anything (bounds_none (by decide)) groups (fuel + 1))
      (alternative_term (by decide) slash ends)
    unfold disjunction
    rw [both]
    rfl
  rw [term_group inner, quantify_optional stops]
  rfl

/-! ## What the parser makes of it -/

theorem classItems_slash (fuel : Nat) (after : Text) :
    classItems (fuel + 2) (u '/' :: u ']' :: after) = .ok ([.range (u '/') (u '/')], after) := by
  cases after with
  | nil | cons c rest => rfl

/-- The parser reads the spelling of a piece as one term. -/
theorem term_piece {piece : Piece} (plain : piece.Plain) : ∃ c rest, piece.source = c :: rest ∧
    (c ≠ u '|' ∧ c ≠ u ')') ∧ (c ≠ u '*' ∧ c ≠ u '+' ∧ c ≠ u '?' ∧ c ≠ u '\x7b') ∧
    ∀ after, bounds after = none → ∀ groups fuel,
      term groups (fuel + 5) 1 c (rest ++ after) = .ok (piece.node, 1, after) := by
  cases piece with
  | directories =>
    exact ⟨_, _, directories_spelled, by decide, by decide, fun after stops groups fuel =>
      term_directories stops groups fuel⟩
  | anything =>
    exact ⟨u '.', [u '*'], by decide, by decide, by decide, fun after stops groups fuel =>
      term_anything stops groups _⟩
  | name =>
    refine ⟨u '[', [u '^', u '/', u ']', u '*'], by decide, by decide, by decide, ?_⟩
    intro after stops groups fuel
    change term groups (fuel + 4 + 1) 1 (u '[') (u '^' :: u '/' :: u ']' :: u '*' :: after) = _
    rw [term_class _ (classItems_slash _ _), atom, quantify_star stops]
    rfl
  | one =>
    refine ⟨u '[', [u '^', u '/', u ']'], by decide, by decide, by decide, ?_⟩
    intro after stops groups fuel
    change term groups (fuel + 4 + 1) 1 (u '[') (u '^' :: u '/' :: u ']' :: after) = _
    rw [term_class _ (classItems_slash _ _), atom, quantify_none stops]
    rfl
  | exactly c =>
    by_cases dot : c = u '.'
    · subst dot
      refine ⟨u '\\', [u '.'], by decide, by decide, by decide, ?_⟩
      intro after stops groups fuel
      change term groups (fuel + 4 + 1) 1 (u '\\') (u '.' :: after) = _
      rw [term_escaped_dot, atom, quantify_none stops]
      rfl
    · have literal : c ∉ operators := plain.resolve_left dot
      have differs : ∀ d ∈ operators, c ≠ d := fun d member same => literal (same ▸ member)
      refine ⟨c, [], ?_, ⟨differs _ (by decide), differs _ (by decide)⟩,
        ⟨differs _ (by decide), differs _ (by decide), differs _ (by decide),
          differs _ (by decide)⟩, ?_⟩
      · rw [Piece.source, if_neg dot]
      intro after stops groups fuel
      rw [List.nil_append, term_unit literal, atom, quantify_none stops]
      rfl

/-- No piece and no end begins with a quantifier. -/
theorem bounds_pieces {glob : List Piece} (plain : ∀ piece ∈ glob, piece.Plain) :
    bounds (glob.flatMap Piece.source ++ [u '$']) = none := by
  cases glob with
  | nil => decide
  | cons piece more =>
    obtain ⟨c, rest, spelled, -, stops, -⟩ := term_piece (plain piece List.mem_cons_self)
    rw [List.flatMap_cons, spelled]
    exact bounds_none stops

theorem alternative_pieces {glob : List Piece} (plain : ∀ piece ∈ glob, piece.Plain)
    (groups fuel : Nat)
    (enough : 2 * (glob.flatMap Piece.source ++ [u '$']).length + 5 ≤ fuel) :
    alternative groups fuel 1 (glob.flatMap Piece.source ++ [u '$']) =
      .ok (sequence (glob.map Piece.node) (.seq .finish .empty), 1, []) := by
  induction glob generalizing fuel with
  | nil =>
    obtain ⟨fuel, rfl⟩ := Nat.exists_eq_add_of_le (Nat.le_trans (Nat.le_add_left 5 _) enough)
    rw [Nat.add_comm]
    have ends : term groups (fuel + 4) 1 (u '$') [] = .ok (.finish, 1, []) := by
      unfold term
      rfl
    have empty : alternative groups (fuel + 4) 1 [] = .ok (.empty, 1, []) := by
      unfold alternative
      rfl
    exact alternative_term (by decide) ends empty
  | cons piece more ih =>
    obtain ⟨c, rest, spelled, goes, -, reads⟩ := term_piece (plain piece List.mem_cons_self)
    have others : ∀ piece ∈ more, piece.Plain :=
      fun other member => plain other (.tail _ member)
    rw [List.flatMap_cons, spelled, List.cons_append, List.cons_append, List.append_assoc]
    rw [List.flatMap_cons, spelled, List.cons_append, List.cons_append, List.append_assoc,
      List.length_cons, List.length_append] at enough
    obtain ⟨fuel, rfl⟩ := Nat.exists_eq_add_of_le (show 6 ≤ fuel by omega)
    rw [Nat.add_comm]
    exact alternative_term goes (reads _ (bounds_pieces others) groups _)
      (ih others (fuel + 5) (by omega))

theorem parse_glob (plain : Plain glob) :
    parse (u '^' :: regexSource glob ++ [u '$']) =
      .ok (anchored ((pieces glob).map Piece.node)) := by
  have plains := pieces_plain plain
  rw [regexSource_pieces, List.cons_append]
  generalize pieces glob = glob at plains
  have long : 1 ≤ (glob.flatMap Piece.source ++ [u '$']).length := by
    rw [List.length_append]
    exact Nat.le_add_left _ _
  have begins : ∀ groups fuel rest, term groups (fuel + 1) 1 (u '^') rest =
      .ok (.start, 1, rest) := by
    intro groups fuel rest
    unfold term
    rfl
  unfold parse
  generalize countGroups false _ = groups
  obtain ⟨fuel, sized⟩ : ∃ fuel, 3 * (u '^' :: (glob.flatMap Piece.source ++ [u '$'])).length + 3 =
      fuel + 1 + 1 + 1 ∧ 2 * (glob.flatMap Piece.source ++ [u '$']).length + 5 ≤ fuel + 1 := by
    refine ⟨3 * (glob.flatMap Piece.source ++ [u '$']).length + 3, ?_, by omega⟩
    rw [List.length_cons]
    omega
  have whole := alternative_term (by decide) (begins groups fuel _)
    (alternative_pieces plains groups (fuel + 1) sized.2)
  rw [sized.1]
  unfold disjunction
  rw [whole]
  rfl

/-! ## What it reads -/

/-- No line of a text ends here: `.` reads every unit. -/
def OneLine (filepath : Text) : Prop := ∀ c ∈ filepath, isLineTerminator c = false

instance (filepath : Text) : Decidable (OneLine filepath) :=
  inferInstanceAs (Decidable (∀ c ∈ filepath, isLineTerminator c = false))

/-- Names with a slash behind each are a text that ends in a slash, or nothing. -/
theorem directories_stand :
    Piece.directories.Stands word ↔ word = [] ∨ ∃ front, word = front ++ [u '/'] := by
  constructor
  · rintro ⟨names, rfl⟩
    rcases List.eq_nil_or_concat names with rfl | ⟨others, last, rfl⟩
    · exact .inl rfl
    · refine .inr ⟨others.flatMap (fun name => name ++ [u '/']) ++ last, ?_⟩
      rw [List.concat_eq_append, List.flatMap_append, List.flatMap_singleton, List.append_assoc]
  · rintro (rfl | ⟨front, rfl⟩)
    · exact ⟨[], rfl⟩
    · exact ⟨[front], (List.flatMap_singleton _ _).symm⟩

theorem spans_unit (c : Nat) : Spans (.unit c) fun word => word = [c] := by
  refine (spans_set false [.range c c]).congr fun word => ?_
  simp only [setAccepts_single, Bool.bne_false, decide_eq_true_eq]
  constructor
  · rintro ⟨d, rfl, rfl⟩
    rfl
  · rintro rfl
    exact ⟨c, rfl, rfl⟩

theorem spans_other (c : Nat) : Spans (.set true [.range c c]) fun word => ∃ d, word = [d] ∧ d ≠ c := by
  refine (spans_set true [.range c c]).congr fun word => ?_
  simp only [setAccepts_single, Bool.bne_true, Bool.not_eq_true', decide_eq_false_iff_not]

theorem spans_line (fromGroup toGroup : Nat) : Spans (.many 0 none true fromGroup toGroup .any) OneLine :=
  (spans_any.star fromGroup toGroup).congr fun _ => words_units

/-- What the pattern of a piece reads is what the piece stands for, within a line. -/
theorem spans_piece (piece : Piece) : ∃ language, Spans piece.node language ∧
    ∀ word, OneLine word → (language word ↔ piece.Stands word) := by
  cases piece with
  | directories =>
    have body := (Spans.seq (spans_line 1 1) (Spans.seq (spans_unit (u '/')) spans_empty)).group
    refine ⟨_, body.optional 1 1, fun word line => ?_⟩
    rw [directories_stand]
    refine or_congr Iff.rfl ⟨?_, ?_⟩
    · rintro ⟨front, _, rfl, -, _, _, rfl, rfl, rfl⟩
      exact ⟨front, rfl⟩
    · rintro ⟨front, rfl⟩
      exact ⟨front, [u '/'], rfl, (List.forall_mem_append.mp line).1, [u '/'], [], rfl, rfl, rfl⟩
  | anything => exact ⟨_, spans_line 1 1, fun _ line => iff_of_true line trivial⟩
  | name =>
    refine ⟨_, (spans_other (u '/')).star 1 1, fun word _ => ?_⟩
    rw [words_units]
    exact ⟨fun all member => all _ member rfl, fun absent c member same => absent (same ▸ member)⟩
  | one => exact ⟨_, spans_other (u '/'), fun _ _ => Iff.rfl⟩
  | exactly c => exact ⟨_, spans_unit c, fun _ _ => Iff.rfl⟩

/-- A glob without the operators of expressions matches what it says. -/
theorem simpleGlobMatch_plain (plain : Plain glob) (line : OneLine filepath) :
    ∃ matched, simpleGlobMatch glob filepath = .ok matched ∧
      (matched = true ↔ Matches glob filepath) := by
  choose language spans means using spans_piece
  have whole : Spans (sequence ((pieces glob).map Piece.node) .empty)
      (Concat ((pieces glob).map language)) := by
    refine spans_sequence ?_
    rw [List.forall₂_map_left_iff, List.forall₂_map_right_iff]
    exact List.forall₂_same.mpr fun piece _ => spans piece
  refine ⟨_, ?_, (anchored_test whole filepath).trans ⟨?_, ?_⟩⟩
  · unfold simpleGlobMatch
    rw [parse_glob plain]
    rfl
  · exact Concat.imp (fun piece _ word inLine => (means piece word inLine).mp) filepath line
  · exact Concat.imp (fun piece _ word inLine => (means piece word inLine).mpr) filepath line

/-- No plain glob throws. -/
theorem someGlob_ok (plain : ∀ glob ∈ globs, Plain glob) (filepath : Text) :
    ∃ matched, someGlob globs filepath = .ok matched := by
  induction globs with
  | nil => exact ⟨false, rfl⟩
  | cons glob globs ih =>
    have parsed := parse_glob (plain glob List.mem_cons_self)
    unfold someGlob simpleGlobMatch
    rw [parsed]
    by_cases matched : (⟨anchored ((pieces glob).map Piece.node), false⟩ : Compiled).test filepath = true
    · exact ⟨true, if_pos matched⟩
    · obtain ⟨later, found⟩ := ih fun other member => plain other (.tail _ member)
      exact ⟨later, (if_neg matched).trans found⟩

theorem someGlob_plain (plain : ∀ glob ∈ globs, Plain glob) (line : OneLine filepath)
    (evaluates : someGlob globs filepath = .ok matched) :
    matched = true ↔ ∃ glob ∈ globs, Matches glob filepath := by
  induction globs with
  | nil =>
    obtain rfl := Except.ok.inj evaluates
    simp
  | cons glob globs ih =>
    obtain ⟨first, evaluated, means⟩ := simpleGlobMatch_plain (plain glob List.mem_cons_self) line
    unfold someGlob at evaluates
    rw [evaluated] at evaluates
    rw [List.exists_mem_cons_iff, ← means]
    cases first with
    | true =>
      obtain rfl := Except.ok.inj evaluates
      exact iff_of_true rfl (.inl rfl)
    | false =>
      have rest := ih (fun other member => plain other (.tail _ member)) evaluates
      rw [rest]
      exact ⟨.inr, fun either => either.resolve_left Bool.false_ne_true⟩

theorem alwaysBlocked_plain : ∀ glob ∈ ALWAYS_BLOCKED_PATHS.map text, Plain glob := by
  decide +kernel

theorem isAlwaysBlocked_ok (relPath : Text) : ∃ blocked, isAlwaysBlocked relPath = .ok blocked :=
  someGlob_ok alwaysBlocked_plain relPath

end LetAgents.Rental.ScopeGlobs

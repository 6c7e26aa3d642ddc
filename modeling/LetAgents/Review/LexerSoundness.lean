import Mathlib.Data.List.Forall2
import LetAgents.Lib.Shell
import LetAgents.Review.Commands

/-!
# The reading of a command is the shell's

A command that needs no person is split by `readCommands` as the shell splits it.
Each round of the scanner passes a part of the text that the shell reads as whole
tokens; between two rounds the tokens read so far, parsed, agree with the
commands the scanner holds.
-/
namespace LetAgents.Review.LexerSoundness
open Lib.Shell

/-- The word as the scanner keeps it. -/
def wordOf (word : Word) : ReadWord := ⟨String.ofList word.text, word.quoted⟩

/-- Outside single quotes nothing is expanded or escaped; outside quotes there is no
pattern, brace, parenthesis or comment. -/
def Unexpanded (glyph : Glyph) : Prop :=
  (glyph.quoting ≠ .single → glyph.char ∉ "$`\\!".toList) ∧
    (glyph.quoting = .bare → glyph.char ∉ "*?[]\x7b\x7d()#".toList)

instance (glyph : Glyph) : Decidable (Unexpanded glyph) := by unfold Unexpanded; infer_instance

/-- No `~` outside quotes begins the word or follows `=` or `:`. -/
def NoHome (word : Word) : Prop :=
  ∀ before after, word.glyphs = before ++ ⟨'~', .bare⟩ :: after →
    ∃ earlier last, before = earlier ++ [last] ∧ last ≠ ⟨'=', .bare⟩ ∧ last ≠ ⟨':', .bare⟩

/-- Nothing runs in the background and no word names a home directory. -/
def Calm : Token → Prop
  | .word word => NoHome word
  | .operator _ operator => operator ≠ .background

/-- `2>&1`, or an output that goes to `/dev/null`. -/
def Discards (redirection : Redirection) : Prop :=
  redirection = ⟨['2'], .duplicate, ⟨glyphs .bare ['1'], false⟩⟩ ∨
    (redirection.operator = .output ∨ redirection.operator = .append) ∧
      redirection.target = ⟨glyphs .bare "/dev/null".toList, false⟩

instance (redirection : Redirection) : Decidable (Discards redirection) := by
  unfold Discards; infer_instance

/-- The same words; what the shell feeds, the scanner takes as fed. -/
structure SameCommand (simple : SimpleCommand) (read : ReadCommand) : Prop where
  words : simple.words.map wordOf = read.words
  fed : simple.fed = true → read.fed = true

/-- The commands the scanner holds are those of the parse that have a word. -/
structure Agrees (parse : Parse) (reading : Reading) : Prop where
  settled : parse.awaiting = none
  current : SameCommand parse.current reading.current
  before : List.Forall₂ SameCommand (parse.finished.filter (·.words ≠ [])) reading.before
  discards : ∀ simple ∈ parse.finished ++ [parse.current],
    ∀ redirection ∈ simple.redirections, Discards redirection

/-- What holds of the tokens read so far between two rounds. -/
structure Reached (read : List Token) (parse : Parse) (reading : Reading) : Prop where
  parsed : read.foldlM Parse.token Parse.initial = some parse
  agrees : Agrees parse reading
  calm : ∀ token ∈ read, Calm token

/-! ## The parts a round passes -/

theorem boundary_separates (ends : boundary rest = true) (word : Word) :
    (Pending.word word).endsBefore rest := by
  cases rest with
  | nil => trivial
  | cons c further =>
    have among : c ∈ [' ', '\t', '\n', ';', '|', '&'] := by simpa [boundary] using ends
    have all : [' ', '\t', '\n', ';', '|', '&'].all separates = true := by decide
    exact List.all_eq_true.mp all c among

theorem ne_of_plain (isPlain : plain c = true) (notPlain : plain d = false) : c ≠ d := by
  rintro rfl
  rw [isPlain] at notPlain
  cases notPlain

theorem ordinary_of_plain (isPlain : plain c = true) : ordinary c = true := by
  have apart {d : Char} (notPlain : plain d = false) : c ≠ d := ne_of_plain isPlain notPlain
  simp [ordinary, Operator.ofChar, apart (d := '\'') (by decide), apart (d := '"') (by decide),
    apart (d := ' ') (by decide), apart (d := '\t') (by decide), apart (d := '&') (by decide),
    apart (d := '|') (by decide), apart (d := ';') (by decide), apart (d := '\n') (by decide),
    apart (d := '>') (by decide), apart (d := '<') (by decide)]

theorem unexpanded_of_plain (isPlain : plain c = true) : Unexpanded ⟨c, .bare⟩ := by
  have expanded : "$`\\!".toList.all (!plain ·) = true := by decide
  have pattern : "*?[]\x7b\x7d()#".toList.all (!plain ·) = true := by decide
  constructor
  · intro _ member
    have special := List.all_eq_true.mp expanded c member
    rw [isPlain] at special
    cases special
  · intro _ member
    have special := List.all_eq_true.mp pattern c member
    rw [isPlain] at special
    cases special

/-- Alone, the part is read as the added tokens; none of it is expanded. -/
structure Part (part rest : List Char) (added : List Token) : Prop where
  reads : ∃ lexer, (Lexer.between []).run part = lexer ∧ lexer.quoting = .bare ∧
    lexer.pending.endsBefore rest ∧ lexer.delimit.tokens = added
  unexpanded : ∀ glyph ∈ (Lexer.between []).marks part, Unexpanded glyph
  calm : ∀ token ∈ added, Calm token

theorem blank_part (blank : c = ' ' ∨ c = '\t') (rest : List Char) : Part [c] rest [] := by
  rcases blank with rfl | rfl
  · exact ⟨⟨_, rfl, rfl, by cases rest <;> trivial, rfl⟩, by decide, by simp⟩
  · exact ⟨⟨_, rfl, rfl, by cases rest <;> trivial, rfl⟩, by decide, by simp⟩

/-- A control operator the text does not make longer. -/
theorem operator_part (reads : (Lexer.between []).run part = ⟨[], .operator [] operator, .bare⟩)
    (whole : ∀ c ∈ rest.head?, operator.extend c = none) (control : operator ≠ .background)
    (unexpanded : ∀ glyph ∈ (Lexer.between []).marks part, Unexpanded glyph) :
    Part part rest [.operator [] operator] := by
  refine ⟨⟨_, reads, rfl, ?_, rfl⟩, unexpanded, ?_⟩
  · cases rest with
    | nil => trivial
    | cons c further => exact whole c rfl
  · intro token member
    rw [List.mem_singleton.mp member]
    exact control

theorem newline_part (rest : List Char) : Part ['\n'] rest [.operator [] .newline] := by
  apply operator_part
  · rfl
  · intro c _
    rfl
  · nofun
  · decide

/-- What the shell reads in a stream. -/
def streamTokens (stream : List Char) : Option (List Char × Operator × Word) :=
  match (Lexer.between []).run stream with
  | ⟨[.operator descriptor operator], .word target, .bare⟩ => some (descriptor, operator, target)
  | _ => none

theorem streamTokens_run (read : streamTokens stream = some (descriptor, operator, target)) :
    (Lexer.between []).run stream =
      ⟨[.operator descriptor operator], .word target, .bare⟩ := by
  unfold streamTokens at read
  split at read
  · next same =>
      cases read
      exact same
  · cases read

theorem streams_discard : ∀ stream ∈ streams, (streamTokens stream).any fun read =>
    read.2.1.redirects && decide (Discards ⟨read.1, read.2.1, read.2.2⟩) &&
      decide (⟨'~', .bare⟩ ∉ read.2.2.glyphs) := by
  decide +kernel

theorem streams_unexpanded : ∀ stream ∈ streams,
    ∀ glyph ∈ (Lexer.between []).marks stream, Unexpanded glyph := by
  decide +kernel

theorem stream_part (member : stream ∈ streams) (ends : boundary rest = true) :
    ∃ descriptor operator target, operator.redirects = true ∧
      Discards ⟨descriptor, operator, target⟩ ∧
      Part stream rest [.operator descriptor operator, .word target] := by
  obtain ⟨⟨descriptor, operator, target⟩, read, facts⟩ :=
    (Option.any_eq_true _ _).mp (streams_discard stream member)
  simp only [Bool.and_eq_true, decide_eq_true_eq] at facts
  obtain ⟨⟨redirects, discards⟩, noTilde⟩ := facts
  refine ⟨descriptor, operator, target, redirects, discards,
    ⟨_, streamTokens_run read, rfl, boundary_separates ends target, rfl⟩,
    streams_unexpanded stream member, ?_⟩
  intro token among
  rcases List.mem_pair.mp among with rfl | rfl
  · change operator ≠ .background
    rintro rfl
    cases redirects
  · intro before after split
    apply absurd _ noTilde
    rw [split]
    simp

/-- A word without a bare `~` names no home directory. -/
theorem noHome_of_quoted (quoted : quoting ≠ .bare) (value : List Char) :
    NoHome ⟨glyphs quoting value, true⟩ := by
  intro before after split
  have member : (⟨'~', .bare⟩ : Glyph) ∈ glyphs quoting value := by
    change glyphs quoting value = _ at split
    rw [split]
    simp
  obtain ⟨c, _, same⟩ := List.mem_map.mp member
  cases same
  exact absurd rfl quoted

theorem single_part (ends : boundary rest = true) (allowed : value.all singleQuoted = true) :
    Part ('\'' :: value ++ ['\'']) rest [.word ⟨glyphs .single value, true⟩] := by
  have inside : ∀ c ∈ value, c ≠ '\'' := by
    rintro c member rfl
    have passes := List.all_eq_true.mp allowed _ member
    simp [singleQuoted] at passes
  obtain ⟨run, marks⟩ := run_single [] inside
  refine ⟨⟨_, run, rfl, boundary_separates ends _, rfl⟩, ?_, ?_⟩
  · intro glyph member
    rw [marks] at member
    simp only [List.cons_append, List.mem_cons, List.mem_append, List.not_mem_nil, or_false]
      at member
    rcases member with rfl | among | rfl
    · decide
    · obtain ⟨c, _, rfl⟩ := List.mem_map.mp among
      exact ⟨fun apart => absurd rfl apart, nofun⟩
    · decide
  · intro token member
    rw [List.mem_singleton.mp member]
    have apart : Quoting.single ≠ .bare := nofun
    exact noHome_of_quoted apart value

theorem double_part (ends : boundary rest = true) (allowed : value.all doubleQuoted = true) :
    Part ('"' :: value ++ ['"']) rest [.word ⟨glyphs .double value, true⟩] := by
  have never : "\"$`\\!".toList.all (!doubleQuoted ·) = true := by decide
  have inside : ∀ c ∈ value, c ∉ "\"$`\\!".toList := by
    intro c member among
    have refused := List.all_eq_true.mp never c among
    rw [List.all_eq_true.mp allowed c member] at refused
    cases refused
  have noQuote : ∀ c ∈ value, c ≠ '"' := by
    rintro c member rfl
    exact inside _ member (by decide)
  obtain ⟨run, marks⟩ := run_double [] noQuote
  refine ⟨⟨_, run, rfl, boundary_separates ends _, rfl⟩, ?_, ?_⟩
  · intro glyph member
    rw [marks] at member
    simp only [List.cons_append, List.mem_cons, List.mem_append, List.not_mem_nil, or_false]
      at member
    rcases member with rfl | among | rfl
    · decide
    · obtain ⟨c, here, rfl⟩ := List.mem_map.mp among
      refine ⟨fun _ expanded => inside c here ?_, nofun⟩
      exact .tail _ expanded
    · decide
  · intro token member
    rw [List.mem_singleton.mp member]
    have apart : Quoting.double ≠ .bare := nofun
    exact noHome_of_quoted apart value

/-- `expands` sees each `~` that begins the word or follows `=` or `:`. -/
theorem noHome_of_not_expands (safe : expands value = false) :
    NoHome ⟨glyphs .bare value, false⟩ := by
  intro before after split
  obtain ⟨first, last, parts, rfl, tail⟩ := List.map_eq_append_iff.mp split
  obtain ⟨c, further, rfl, here, _⟩ := List.map_eq_cons_iff.mp tail
  cases here
  have notThere : occurs (edge "=:") anyPlace ['~'] none value = false :=
    (Bool.or_eq_false_iff.mp safe).2
  have blocked : edge "=:" first.getLast? ≠ true := by
    intro open'
    have found := @occurs_of_split (edge "=:") anyPlace ['~'] first further none
      (by simpa using open') rfl
    rw [List.append_assoc, List.singleton_append, ← parts, notThere] at found
    cases found
  rcases List.eq_nil_or_concat first with rfl | ⟨earlier, d, rfl⟩
  · exact absurd rfl blocked
  · have other : d ≠ '=' ∧ d ≠ ':' := by
      simpa [edge] using blocked
    refine ⟨glyphs .bare earlier, ⟨d, .bare⟩, by simp [glyphs], ?_, ?_⟩
    · intro same
      exact other.1 (congrArg Glyph.char same)
    · intro same
      exact other.2 (congrArg Glyph.char same)

theorem plain_part (nonempty : value ≠ []) (ends : boundary rest = true)
    (allowed : ∀ c ∈ value, plain c = true) (safe : expands value = false) :
    Part value rest [.word ⟨glyphs .bare value, false⟩] := by
  obtain ⟨run, marks⟩ := run_ordinary [] nonempty fun c member =>
    ordinary_of_plain (allowed c member)
  refine ⟨⟨_, run, rfl, boundary_separates ends _, rfl⟩, ?_, ?_⟩
  · intro glyph member
    rw [marks] at member
    obtain ⟨c, here, rfl⟩ := List.mem_map.mp member
    exact unexpanded_of_plain (allowed c here)
  · intro token member
    rw [List.mem_singleton.mp member]
    exact noHome_of_not_expands safe

/-! ## What a round does to the parse -/

/-- The parse takes the added tokens and goes on agreeing with the scanner. -/
def Carries (added : List Token) (reading further : Reading) : Prop :=
  ∀ parse, Agrees parse reading →
    ∃ later, added.foldlM Parse.token parse = some later ∧ Agrees later further

theorem carries_nothing (reading : Reading) : Carries [] reading reading :=
  fun parse agrees => ⟨parse, rfl, agrees⟩

theorem carries_word (reading : Reading) (quoting : Quoting) (value : List Char) (quoted : Bool) :
    Carries [.word ⟨glyphs quoting value, quoted⟩] reading (reading.word value quoted) := by
  intro parse agrees
  have same : wordOf ⟨glyphs quoting value, quoted⟩ = ⟨String.ofList value, quoted⟩ := by
    rw [wordOf, text_glyphs]
  refine ⟨{ parse with current := { parse.current with
    words := parse.current.words ++ [⟨glyphs quoting value, quoted⟩] } }, ?_, ?_⟩
  · simp [Parse.token, Parse.word, agrees.settled]
  · constructor
    · exact agrees.settled
    · constructor
      · simp [Reading.word, same, agrees.current.words]
      · exact agrees.current.fed
    · exact agrees.before
    · intro simple member
      rcases List.mem_append.mp member with done | here
      · exact agrees.discards simple (List.mem_append_left _ done)
      · rw [List.mem_singleton.mp here]
        exact agrees.discards parse.current (by simp)

theorem carries_redirection (reading : Reading) (redirects : operator.redirects = true)
    (discards : Discards ⟨descriptor, operator, target⟩) :
    Carries [.operator descriptor operator, .word target] reading reading := by
  intro parse agrees
  refine ⟨{ parse with
    current := { parse.current with
      redirections := parse.current.redirections ++ [⟨descriptor, operator, target⟩] } }, ?_, ?_⟩
  · simp [Parse.token, Parse.word, agrees.settled, redirects]
  · constructor
    · exact agrees.settled
    · exact ⟨agrees.current.words, agrees.current.fed⟩
    · exact agrees.before
    · intro simple member
      rcases List.mem_append.mp member with done | here
      · exact agrees.discards simple (List.mem_append_left _ done)
      · rw [List.mem_singleton.mp here]
        intro redirection among
        rcases List.mem_append.mp among with earlier | new
        · exact agrees.discards parse.current (by simp) redirection earlier
        · rw [List.mem_singleton.mp new]
          exact discards

/-- Closing the command: the scanner goes to its next one when this one has a word. -/
theorem agrees_close (agrees : Agrees parse reading) (fed fedRead : Bool)
    (carried : fed = true → fedRead = true) (words : reading.current.words ≠ []) :
    Agrees (parse.close fed) (reading.next fedRead) := by
  have worded : parse.current.words ≠ [] := by
    intro none
    apply words
    rw [← agrees.current.words, none]
    rfl
  constructor
  · rfl
  · exact ⟨rfl, carried⟩
  · change List.Forall₂ SameCommand ((parse.finished ++ [parse.current]).filter _) _
    rw [List.filter_append, List.filter_singleton]
    simp only [worded, ne_eq]
    exact List.rel_append agrees.before (List.Forall₂.cons agrees.current .nil)
  · intro simple member
    rcases List.mem_append.mp member with done | here
    · exact agrees.discards simple done
    · rw [List.mem_singleton.mp here]
      exact nofun

/-- A command without words that the shell closes is not one of the scanner's. -/
theorem agrees_close_wordless (agrees : Agrees parse reading)
    (wordless : reading.current.words = []) : Agrees (parse.close false) reading := by
  have none : parse.current.words = [] := by
    have empty := agrees.current.words
    rw [wordless] at empty
    exact List.map_eq_nil_iff.mp empty
  constructor
  · rfl
  · exact ⟨wordless.symm, nofun⟩
  · change List.Forall₂ SameCommand ((parse.finished ++ [parse.current]).filter _) _
    rw [List.filter_append, List.filter_singleton]
    simp only [none, ne_eq, not_true_eq_false, decide_false, cond_false, List.append_nil]
    exact agrees.before
  · intro simple member
    rcases List.mem_append.mp member with done | here
    · exact agrees.discards simple done
    · rw [List.mem_singleton.mp here]
      exact nofun

theorem carries_newline (reading : Reading) :
    Carries [.operator [] .newline] reading
      (if reading.current.words ≠ [] then reading.next false else reading) := by
  intro parse agrees
  have token : Parse.token parse (.operator [] .newline) = some parse.newline := by
    simp [Parse.token, agrees.settled, Operator.redirects]
  refine ⟨parse.newline, by simp [token], ?_⟩
  unfold Parse.newline
  by_cases empty : parse.current.words = [] ∧ parse.current.redirections = []
  · have wordless : reading.current.words = [] := by
      rw [← agrees.current.words, empty.1]
      rfl
    rw [if_pos empty, if_neg (not_not.mpr wordless)]
    exact agrees
  · rw [if_neg empty]
    by_cases wordless : reading.current.words = []
    · rw [if_neg (not_not.mpr wordless)]
      exact agrees_close_wordless agrees wordless
    · rw [if_pos wordless]
      exact agrees_close agrees false false id wordless

theorem carries_operator (control : operator.redirects = false) (noNewline : operator ≠ .newline)
    (piped : operator = .pipe → pipe = true) (words : reading.current.words ≠ []) :
    Carries [.operator [] operator] reading (reading.next pipe) := by
  intro parse agrees
  refine ⟨parse.close (operator = .pipe), ?_, ?_⟩
  · simp [Parse.token, agrees.settled, control, noNewline]
  · exact agrees_close agrees _ _ (fun fed => piped (of_decide_eq_true fed)) words

/-! ## The rounds -/

/-- What a round passes and what it does to the parse. -/
structure Round (reading : Reading) (text : List Char) (further : Reading) (rest : List Char) :
    Prop where
  passes : ∃ part added, text = part ++ rest ∧ part ≠ [] ∧ Part part rest added ∧
    Carries added reading further

theorem operatorAt_mem (found : operatorAt text = some operator) :
    operator ∈ ["&&".toList, "||".toList, ";".toList, "|".toList] ∧
      text = operator ++ text.drop operator.length := by
  have begins := @List.find?_some _ (fun part : List Char => part.isPrefixOf text) _ _ found
  refine ⟨List.mem_of_find?_eq_some found, ?_⟩
  obtain ⟨rest, rfl⟩ := List.isPrefixOf_iff_prefix.mp begins
  simp

theorem streamAt_mem (found : streamAt text = some stream) :
    stream ∈ streams ∧ text = stream ++ text.drop stream.length ∧
      boundary (text.drop stream.length) = true := by
  have passes := List.find?_some found
  obtain ⟨begins, ends⟩ := (Bool.and_eq_true _ _).mp passes
  refine ⟨List.mem_of_find?_eq_some found, ?_, ends⟩
  obtain ⟨rest, rfl⟩ := List.isPrefixOf_iff_prefix.mp begins
  simp

theorem operator_round (found : operatorAt text = some operator)
    (words : reading.current.words ≠ [])
    (whole : (text.drop operator.length).head?.any "|;&".toList.contains = false) :
    Round reading text (reading.next (operator = ['|'])) (text.drop operator.length) := by
  obtain ⟨member, split⟩ := operatorAt_mem found
  have alone : ∀ c ∈ (text.drop operator.length).head?, c ≠ '|' := by
    rintro c here rfl
    rw [Option.mem_def.mp here] at whole
    simp at whole
  simp only [List.mem_cons, List.not_mem_nil, or_false] at member
  rcases member with rfl | rfl | rfl | rfl
  · refine ⟨_, [.operator [] .andIf], split, by decide, ?_, ?_⟩
    · exact operator_part rfl (fun _ _ => rfl) nofun (by decide)
    · exact carries_operator rfl nofun nofun words
  · refine ⟨_, [.operator [] .orIf], split, by decide, ?_, ?_⟩
    · exact operator_part rfl (fun _ _ => rfl) nofun (by decide)
    · exact carries_operator rfl nofun nofun words
  · refine ⟨_, [.operator [] .semicolon], split, by decide, ?_, ?_⟩
    · exact operator_part rfl (fun _ _ => rfl) nofun (by decide)
    · exact carries_operator rfl nofun nofun words
  · refine ⟨_, [.operator [] .pipe], split, by decide, ?_, ?_⟩
    · exact operator_part rfl (fun c here => if_neg (alone c here)) nofun (by decide)
    · exact carries_operator rfl nofun (fun _ => rfl) words

theorem quoted_round (reading : Reading) (quote : char = '\'' ∨ char = '"') (closed : char ∈ after)
    (ends : boundary ((after.dropWhile (· ≠ char)).drop 1) = true)
    (allowed : (after.takeWhile (· ≠ char)).all
      (if char = '\'' then singleQuoted else doubleQuoted) = true) :
    Round reading (char :: after) (reading.word (after.takeWhile (· ≠ char)) true)
      ((after.dropWhile (· ≠ char)).drop 1) := by
  obtain ⟨rest, shape⟩ : ∃ rest, after.dropWhile (· ≠ char) = char :: rest := by
    cases shape : after.dropWhile (· ≠ char) with
    | nil =>
      have all := List.dropWhile_eq_nil_iff.mp shape char closed
      simp at all
    | cons c rest =>
      have stops := List.head?_dropWhile_not (· ≠ char) after
      rw [shape] at stops
      simp only [decide_not, Bool.not_eq_false', decide_eq_true_eq]
        at stops
      exact ⟨rest, by rw [stops]⟩
  have split : char :: after = (char :: after.takeWhile (· ≠ char) ++ [char]) ++ rest := by
    have whole := List.takeWhile_append_dropWhile (p := (· ≠ char)) (l := after)
    rw [shape] at whole
    simp only [List.cons_append, List.append_assoc, List.cons.injEq, true_and]
    exact whole.symm
  rw [shape] at ends ⊢
  rcases quote with rfl | rfl
  · exact ⟨_, _, split, by simp, single_part ends allowed, carries_word reading .single _ true⟩
  · exact ⟨_, _, split, by simp, double_part ends allowed, carries_word reading .double _ true⟩

/-- Each round of the scanner passes whole tokens of the shell. -/
theorem readOne_round (round : readOne reading text = some (further, rest)) :
    Round reading text further rest := by
  cases text with
  | nil => cases round
  | cons char after =>
    simp only [readOne] at round
    by_cases blank : char = ' ' ∨ char = '\t'
    · rw [if_pos blank] at round
      cases round
      exact ⟨[char], [], rfl, by simp, blank_part blank _, carries_nothing reading⟩
    rw [if_neg blank] at round
    cases streamed : streamAt (char :: after) with
    | some stream =>
      rw [streamed] at round
      cases round
      obtain ⟨member, split, ends⟩ := streamAt_mem streamed
      obtain ⟨descriptor, operator, target, redirects, discards, part⟩ :=
        stream_part member ends
      have nonempty : ∀ s ∈ streams, s ≠ [] := by decide
      exact ⟨stream, _, split, nonempty stream member, part,
        carries_redirection reading redirects discards⟩
    | none =>
      rw [streamed] at round
      by_cases newline : char = '\n'
      · rw [if_pos newline] at round
        cases round
        exact ⟨[char], _, rfl, by simp, newline ▸ newline_part _, carries_newline reading⟩
      rw [if_neg newline] at round
      cases operated : operatorAt (char :: after) with
      | some operator =>
        rw [operated] at round
        dsimp only at round
        split_ifs at round with refused
        cases round
        obtain ⟨words, whole⟩ := not_or.mp refused
        exact operator_round operated words (eq_false_of_ne_true whole)
      | none =>
        rw [operated] at round
        by_cases quote : char = '\'' ∨ char = '"'
        · rw [if_pos quote] at round
          obtain ⟨accepted, same⟩ := Option.ite_none_right_eq_some.mp round
          cases same
          exact quoted_round reading quote accepted.1 accepted.2.1 accepted.2.2
        split_ifs at round with refused
        cases round
        obtain ⟨nonempty, others⟩ := not_or.mp refused
        obtain ⟨ends, safe⟩ := not_or.mp others
        refine ⟨_, _, List.takeWhile_append_dropWhile.symm, nonempty, plain_part nonempty
          (by simpa using ends) ?_ (eq_false_of_ne_true safe),
          carries_word reading .bare _ false⟩
        exact fun c member => List.mem_takeWhile_imp member

/-- The tokens read so far stay in agreement over a round, and the text after it
is read on from them. -/
theorem readOne_reached {read : List Token} (reached : Reached read parse reading)
    (round : readOne reading text = some (further, rest)) :
    ∃ later parse', Reached later parse' further ∧
      ((Lexer.between read).run text).finish = ((Lexer.between later).run rest).finish ∧
      ∀ glyph ∈ (Lexer.between read).marks text, Unexpanded glyph ∨
        glyph ∈ (Lexer.between later).marks rest := by
  obtain ⟨part, added, rfl, _, isPart, carries⟩ := (readOne_round round).passes
  obtain ⟨lexer, ran, bare, ends, tokens⟩ := isPart.reads
  obtain ⟨parse', parsed, agrees⟩ := carries parse reached.agrees
  obtain ⟨finish, marks⟩ := read_part read ran bare ends
  rw [tokens] at finish marks
  refine ⟨read ++ added, parse', ?_, finish, ?_⟩
  · constructor
    · rw [List.foldlM_append, reached.parsed]
      exact parsed
    · exact agrees
    · intro token member
      rcases List.mem_append.mp member with earlier | new
      · exact reached.calm token earlier
      · exact isPart.calm token new
  · intro glyph member
    rw [marks] at member
    rcases List.mem_append.mp member with inPart | later
    · exact .inl (isPart.unexpanded glyph inPart)
    · exact .inr later

/-- The whole loop: the shell reads the text to its end, and the parse agrees with
the commands of the scanner. -/
theorem readRest_reached {read : List Token} (reached : Reached read parse reading)
    (done : readRest fuel reading text = some final) :
    ∃ later parse', Reached later parse' final ∧
      ((Lexer.between read).run text).finish = some later ∧
      ∀ glyph ∈ (Lexer.between read).marks text, Unexpanded glyph := by
  induction fuel generalizing read parse reading text with
  | zero =>
    cases text with
    | nil =>
      cases done
      refine ⟨read, parse, reached, ?_, nofun⟩
      simp [Lexer.run, Lexer.finish, Lexer.between, Lexer.delimit, Pending.tokens]
    | cons char after => cases done
  | succ fuel ih =>
    cases text with
    | nil =>
      cases done
      refine ⟨read, parse, reached, ?_, nofun⟩
      simp [Lexer.run, Lexer.finish, Lexer.between, Lexer.delimit, Pending.tokens]
    | cons char after =>
      simp only [readRest] at done
      split at done
      · cases done
      · next further rest round =>
          obtain ⟨middle, parse', reached', finish, passed⟩ :=
            readOne_reached reached round
          obtain ⟨later, final', reachedFinal, finished, unexpanded⟩ := ih reached' done
          refine ⟨later, final', reachedFinal, finish.trans finished, ?_⟩
          intro glyph member
          exact (passed glyph member).elim id (unexpanded glyph)

theorem reached_initial : Reached [] Parse.initial Reading.initial := by
  constructor
  · rfl
  · refine ⟨rfl, ⟨rfl, nofun⟩, List.Forall₂.nil, ?_⟩
    intro simple member
    rw [List.mem_singleton.mp member]
    exact nofun
  · exact nofun

/-! ## The commands that need no person -/

/-- The commands with a word, as the scanner ends with them. -/
theorem commands_agree {read : List ReadCommand} (agrees : Agrees parse reading)
    (ended : read = if reading.current.words ≠ [] then reading.before ++ [reading.current]
      else reading.before) :
    List.Forall₂ SameCommand ((parse.finished ++ [parse.current]).filter (·.words ≠ [])) read := by
  rw [List.filter_append, List.filter_singleton, ended]
  by_cases wordless : reading.current.words = []
  · have none : parse.current.words = [] := by
      have empty := agrees.current.words
      rw [wordless] at empty
      exact List.map_eq_nil_iff.mp empty
    simp only [wordless, none, ne_eq, not_true_eq_false, decide_false, cond_false, if_false,
      List.append_nil]
    exact agrees.before
  · have some' : parse.current.words ≠ [] := by
      intro none
      apply wordless
      rw [← agrees.current.words, none]
      rfl
    simp only [wordless, some', ne_eq]
    exact List.rel_append agrees.before (List.Forall₂.cons agrees.current .nil)

theorem words_of_same {read : List ReadCommand} (same : List.Forall₂ SameCommand simples read) :
    (simples.map fun simple => simple.words.map wordOf) = read.map ReadCommand.words := by
  induction same with
  | nil => rfl
  | cons first _ ih => rw [List.map_cons, List.map_cons, first.words, ih]

theorem read_of_same {read : List ReadCommand} (same : List.Forall₂ SameCommand simples read)
    (member : simple ∈ simples) : ∃ command ∈ read, SameCommand simple command := by
  induction same with
  | nil => cases member
  | @cons _ command _ _ first _ ih =>
    rcases List.mem_cons.mp member with rfl | later
    · exact ⟨command, .head _, first⟩
    · obtain ⟨other, among, agrees⟩ := ih later
      exact ⟨other, .tail _ among, agrees⟩

theorem readCommands_ended {read : List ReadCommand} (ok : readCommands command = some read) :
    ∃ reading, readRest command.length Reading.initial command = some reading ∧
      read = if reading.current.words ≠ [] then reading.before ++ [reading.current]
        else reading.before := by
  obtain ⟨_, ok⟩ := Option.ite_none_right_eq_some.mp ok
  split at ok
  · cases ok
  · next reading done =>
      refine ⟨reading, done, ?_⟩
      by_cases words : reading.current.words ≠ []
      · rw [if_pos words] at ok ⊢
        cases ok
        rfl
      · rw [if_neg words] at ok ⊢
        split_ifs at ok
        cases ok
        rfl

/-- An accepted command names a listed program without quotes, and none that runs
code behind a pipe. -/
theorem simpleCommandAllowed_program {read : ReadCommand}
    (allowed : simpleCommandAllowed read project = true) :
    ∃ program rest, read.words = program :: rest ∧ program.quoted = false ∧
      program.value ∈ programs.map Prod.fst ∧ (read.fed = true → program.value ∉ runsCode) := by
  unfold simpleCommandAllowed at allowed
  split at allowed
  · cases allowed
  · next program rest words =>
      split at allowed
      · cases allowed
      · next allows listed =>
          simp only [Bool.and_eq_true, Bool.not_eq_true'] at allowed
          refine ⟨program, rest, words, allowed.1.1, ?_, ?_⟩
          · obtain ⟨before, after, split, _⟩ := List.lookup_eq_some_iff.mp listed
            rw [split]
            simp
          · intro fed runs
            have conflict := allowed.1.2
            rw [fed, List.contains_iff_mem.mpr runs] at conflict
            cases conflict

theorem commandNeedsPerson_accepts (accepted : commandNeedsPerson command project = false) :
    ∃ root read, readCommands command.toList = some read ∧
      ∀ simple ∈ read, simpleCommandAllowed simple root = true := by
  unfold commandNeedsPerson at accepted
  split_ifs at accepted
  split at accepted
  · cases accepted
  · next root _ =>
      split at accepted
      · cases accepted
      · next read ok =>
          refine ⟨root, read, ok, ?_⟩
          exact List.all_eq_true.mp (by simpa using accepted)

/-- A command that needs no person is the one the shell reads. -/
theorem command_reviewed (command project : String)
    (accepted : commandNeedsPerson command project = false) :
    ∃ read simples commands, tokens command.toList = some read ∧
      simpleCommands command.toList = some simples ∧
      readCommands command.toList = some commands ∧
      (∀ glyph ∈ marks command.toList, Unexpanded glyph) ∧
      (∀ token ∈ read, Calm token) ∧
      (∀ simple ∈ simples, ∀ redirection ∈ simple.redirections, Discards redirection) ∧
      ((simples.filter (·.words ≠ [])).map fun simple => simple.words.map wordOf) =
        commands.map ReadCommand.words ∧
      ∀ simple ∈ simples, simple.words ≠ [] →
        ∃ program rest, simple.words = program :: rest ∧ program.quoted = false ∧
          String.ofList program.text ∈ programs.map Prod.fst ∧
          (simple.fed = true → String.ofList program.text ∉ runsCode) := by
  obtain ⟨root, commands, ok, allowed⟩ := commandNeedsPerson_accepts accepted
  obtain ⟨reading, done, ended⟩ := readCommands_ended ok
  obtain ⟨read, parse, reached, lexed, unexpanded⟩ := readRest_reached reached_initial done
  have agrees : Agrees parse reading := reached.agrees
  have same := commands_agree agrees ended
  have parsed : simpleCommands command.toList = some (parse.finished ++ [parse.current]) := by
    have lexed' : tokens command.toList = some read := lexed
    simp [simpleCommands, lexed', reached.parsed, Parse.commands, agrees.settled]
  refine ⟨read, _, commands, lexed, parsed, ok, unexpanded, reached.calm, agrees.discards,
    words_of_same same, ?_⟩
  intro simple member words
  have worded : simple ∈ (parse.finished ++ [parse.current]).filter (·.words ≠ []) :=
    List.mem_filter.mpr ⟨member, by simpa using words⟩
  obtain ⟨command, among, agree⟩ := read_of_same same worded
  obtain ⟨program, rest, shape, unquoted, listed, calm⟩ :=
    simpleCommandAllowed_program (allowed command among)
  have split : simple.words.map wordOf = program :: rest := agree.words.trans shape
  obtain ⟨first, others, here, named, _⟩ := List.map_eq_cons_iff.mp split
  refine ⟨first, others, here, ?_, ?_, ?_⟩
  · rw [← named] at unquoted
    exact unquoted
  · rw [← named] at listed
    exact listed
  · intro fed
    have harmless := calm (agree.fed fed)
    rw [← named] at harmless
    exact harmless

theorem git_status_reviewed :
    commandNeedsPerson "git status | head -n 5 2>/dev/null" "/work/app" = false ∧
      ∃ read simples commands,
        tokens "git status | head -n 5 2>/dev/null".toList = some read ∧
        simpleCommands "git status | head -n 5 2>/dev/null".toList = some simples ∧
        readCommands "git status | head -n 5 2>/dev/null".toList = some commands ∧
        ((simples.filter (·.words ≠ [])).map fun simple => simple.words.map wordOf) =
          commands.map ReadCommand.words := by
  have accepted : commandNeedsPerson "git status | head -n 5 2>/dev/null" "/work/app" = false := by
    decide +kernel
  obtain ⟨read, simples, commands, lexed, parsed, ok, _, _, _, same, _⟩ :=
    command_reviewed "git status | head -n 5 2>/dev/null" "/work/app" accepted
  exact ⟨accepted, read, simples, commands, lexed, parsed, ok, same⟩

end LetAgents.Review.LexerSoundness

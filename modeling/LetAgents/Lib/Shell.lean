import Mathlib.Data.List.Basic

/-!
# Shell words

Token recognition and simple commands of the POSIX shell, for commands made of
blanks, newlines, single and double quotes, control operators and redirections.
One character is read at a time: it extends the operator in front of it, belongs
to the word being read, or delimits what was pending. Escapes, expansions,
comments and compound commands are not interpreted; their characters are
ordinary ones here, and `marks` tells where they stand.
-/
namespace LetAgents.Lib.Shell

inductive Quoting where
  | bare | single | double
  deriving DecidableEq

/-- A character and the quotes it stands in. -/
structure Glyph where
  char : Char
  quoting : Quoting
  deriving DecidableEq

/-- A word without its quotes, which are remembered. -/
structure Word where
  glyphs : List Glyph
  quoted : Bool
  deriving DecidableEq

def Word.text (word : Word) : List Char := word.glyphs.map Glyph.char

/-- Digits without quotes: in front of a redirection they name a descriptor. -/
def Word.numeric (word : Word) : Bool :=
  !word.quoted && !word.glyphs.isEmpty && word.text.all Char.isDigit

inductive Operator where
  | andIf | orIf | semicolon | pipe | background | newline
  | output | append | duplicate | clobber
  | input | hereDocument | duplicateInput | readWrite
  deriving DecidableEq

/-- The operator a character begins. -/
def Operator.ofChar (c : Char) : Option Operator :=
  if c = '&' then some .background
  else if c = '|' then some .pipe
  else if c = ';' then some .semicolon
  else if c = '\n' then some .newline
  else if c = '>' then some .output
  else if c = '<' then some .input
  else none

/-- The operator a further character makes of one. -/
def Operator.extend (operator : Operator) (c : Char) : Option Operator :=
  match operator with
  | .background => if c = '&' then some .andIf else none
  | .pipe => if c = '|' then some .orIf else none
  | .output =>
    if c = '>' then some .append
    else if c = '&' then some .duplicate
    else if c = '|' then some .clobber
    else none
  | .input =>
    if c = '<' then some .hereDocument
    else if c = '&' then some .duplicateInput
    else if c = '>' then some .readWrite
    else none
  | _ => none

def Operator.redirects : Operator → Bool
  | .output | .append | .duplicate | .clobber | .input | .hereDocument | .duplicateInput
  | .readWrite => true
  | .andIf | .orIf | .semicolon | .pipe | .background | .newline => false

/-- A redirection operator carries the descriptor written in front of it. -/
inductive Token where
  | word (word : Word)
  | operator (descriptor : List Char) (operator : Operator)
  deriving DecidableEq

/-- What is being read when the next character comes. -/
inductive Pending where
  | nothing
  | word (word : Word)
  | operator (descriptor : List Char) (operator : Operator)
  deriving DecidableEq

def Pending.tokens : Pending → List Token
  | .nothing => []
  | .word read => [.word read]
  | .operator descriptor begun => [.operator descriptor begun]

def Pending.extend (pending : Pending) (c : Char) : Option Pending :=
  match pending with
  | .operator descriptor begun => (begun.extend c).map (Pending.operator descriptor)
  | _ => none

structure Lexer where
  tokens : List Token
  pending : Pending
  quoting : Quoting
  deriving DecidableEq

/-- The lexer between two tokens. -/
def Lexer.between (tokens : List Token) : Lexer := ⟨tokens, .nothing, .bare⟩

def Lexer.delimit (lexer : Lexer) : Lexer :=
  { lexer with tokens := lexer.tokens ++ lexer.pending.tokens, pending := .nothing }

/-- More of the word being read, or of a new one. -/
def Lexer.add (lexer : Lexer) (glyphs : List Glyph) (quoted : Bool) : Lexer :=
  match lexer.pending with
  | .word word => { lexer with pending := .word ⟨word.glyphs ++ glyphs, word.quoted || quoted⟩ }
  | _ => { lexer.delimit with pending := .word ⟨glyphs, quoted⟩ }

def Lexer.operate (lexer : Lexer) (operator : Operator) : Lexer :=
  match lexer.pending with
  | .word word =>
    if operator.redirects ∧ word.numeric then
      { lexer with pending := .operator word.text operator }
    else { lexer.delimit with pending := .operator [] operator }
  | _ => { lexer.delimit with pending := .operator [] operator }

/-- One character outside quotes. -/
def Lexer.bare (lexer : Lexer) (c : Char) : Lexer :=
  match lexer.pending.extend c with
  | some longer => { lexer with pending := longer }
  | none =>
    if c = '\'' then { lexer.add [] true with quoting := .single }
    else if c = '"' then { lexer.add [] true with quoting := .double }
    else if c = ' ' ∨ c = '\t' then lexer.delimit
    else
      match Operator.ofChar c with
      | some operator => lexer.operate operator
      | none => lexer.add [⟨c, .bare⟩] false

def Lexer.step (lexer : Lexer) (c : Char) : Lexer :=
  match lexer.quoting with
  | .bare => lexer.bare c
  | .single =>
    if c = '\'' then { lexer with quoting := .bare } else lexer.add [⟨c, .single⟩] false
  | .double =>
    if c = '"' then { lexer with quoting := .bare } else lexer.add [⟨c, .double⟩] false

def Lexer.run (lexer : Lexer) (text : List Char) : Lexer := text.foldl Lexer.step lexer

/-- The tokens once the text has ended; none inside quotes. -/
def Lexer.finish (lexer : Lexer) : Option (List Token) :=
  if lexer.quoting = .bare then some lexer.delimit.tokens else none

/-- Each character of a text with the quotes it stands in. -/
def Lexer.marks (lexer : Lexer) : List Char → List Glyph
  | [] => []
  | c :: rest => ⟨c, lexer.quoting⟩ :: (lexer.step c).marks rest

def tokens (text : List Char) : Option (List Token) := ((Lexer.between []).run text).finish

def marks (text : List Char) : List Glyph := (Lexer.between []).marks text

structure Redirection where
  descriptor : List Char
  operator : Operator
  target : Word
  deriving DecidableEq

/-- A simple command; `fed` when its input is the output of the command before it. -/
structure SimpleCommand where
  words : List Word
  redirections : List Redirection
  fed : Bool
  deriving DecidableEq

structure Parse where
  finished : List SimpleCommand
  current : SimpleCommand
  /-- A redirection that still needs its target. -/
  awaiting : Option (List Char × Operator)
  deriving DecidableEq

def Parse.initial : Parse := ⟨[], ⟨[], [], false⟩, none⟩

def Parse.close (parse : Parse) (fed : Bool) : Parse :=
  ⟨parse.finished ++ [parse.current], ⟨[], [], fed⟩, none⟩

def Parse.word (parse : Parse) (word : Word) : Parse :=
  match parse.awaiting with
  | some (descriptor, operator) =>
    { parse with
      current := { parse.current with
        redirections := parse.current.redirections ++ [⟨descriptor, operator, word⟩] }
      awaiting := none }
  | none => { parse with current := { parse.current with words := parse.current.words ++ [word] } }

/-- A newline ends a command that has begun; one after an operator is skipped. -/
def Parse.newline (parse : Parse) : Parse :=
  if parse.current.words = [] ∧ parse.current.redirections = [] then parse else parse.close false

def Parse.token (parse : Parse) : Token → Option Parse
  | .word word => some (parse.word word)
  | .operator descriptor operator =>
    if parse.awaiting.isSome then none
    else if operator.redirects then some { parse with awaiting := some (descriptor, operator) }
    else if operator = .newline then some parse.newline
    else some (parse.close (operator = .pipe))

def Parse.commands (parse : Parse) : Option (List SimpleCommand) :=
  if parse.awaiting.isSome then none else some (parse.finished ++ [parse.current])

/-- The simple commands of a text, in order. -/
def simpleCommands (text : List Char) : Option (List SimpleCommand) := do
  let parse ← (← tokens text).foldlM Parse.token Parse.initial
  parse.commands

example : simpleCommands "a 'b c' 2>&1|\nd".toList = some
    [⟨[⟨[⟨'a', .bare⟩], false⟩,
        ⟨[⟨'b', .single⟩, ⟨' ', .single⟩, ⟨'c', .single⟩], true⟩],
      [⟨['2'], .duplicate, ⟨[⟨'1', .bare⟩], false⟩⟩], false⟩,
      ⟨[⟨[⟨'d', .bare⟩], false⟩], [], true⟩] := by
  decide +kernel

/-! ## Reading a text in parts -/

/-- A character that ends a word and begins no redirection. -/
def separates (c : Char) : Bool :=
  c = ' ' || c = '\t' || (Operator.ofChar c).any fun operator => !operator.redirects

/-- A character that only ever stands in a word. -/
def ordinary (c : Char) : Bool :=
  c ≠ '\'' && c ≠ '"' && c ≠ ' ' && c ≠ '\t' && (Operator.ofChar c).isNone

def glyphs (quoting : Quoting) (text : List Char) : List Glyph := text.map (Glyph.mk · quoting)

@[simp] theorem text_glyphs (quoting : Quoting) (text : List Char) (quoted : Bool) :
    Word.text ⟨glyphs quoting text, quoted⟩ = text := by
  simp [Word.text, glyphs, Function.comp_def]

/-- The same lexer behind further tokens. -/
def Lexer.behind (tokens : List Token) (lexer : Lexer) : Lexer :=
  { lexer with tokens := tokens ++ lexer.tokens }

section

variable (before : List Token)
include before

section

variable (lexer : Lexer)
include lexer

theorem delimit_behind : (lexer.behind before).delimit = lexer.delimit.behind before := by
  simp [Lexer.delimit, Lexer.behind]

theorem add_behind (more : List Glyph) (quoted : Bool) :
    (lexer.behind before).add more quoted = (lexer.add more quoted).behind before := by
  obtain ⟨read, pending, quoting⟩ := lexer
  cases pending <;> simp [Lexer.add, Lexer.delimit, Lexer.behind]

theorem operate_behind (operator : Operator) :
    (lexer.behind before).operate operator = (lexer.operate operator).behind before := by
  obtain ⟨read, pending, quoting⟩ := lexer
  cases pending with
  | nothing | operator descriptor begun => simp [Lexer.operate, Lexer.delimit, Lexer.behind]
  | word word =>
    by_cases numbered : operator.redirects ∧ word.numeric
    · simp [Lexer.operate, Lexer.behind, numbered]
    · simp [Lexer.operate, Lexer.delimit, Lexer.behind, numbered]

theorem bare_behind (c : Char) : (lexer.behind before).bare c = (lexer.bare c).behind before := by
  have pending : (lexer.behind before).pending = lexer.pending := rfl
  unfold Lexer.bare
  rw [pending, add_behind, add_behind, delimit_behind]
  split
  · rfl
  · split_ifs
    · rfl
    · rfl
    · rfl
    · split
      · exact operate_behind _ _ _
      · rfl

theorem step_behind (c : Char) : (lexer.behind before).step c = (lexer.step c).behind before := by
  have quoting : (lexer.behind before).quoting = lexer.quoting := rfl
  unfold Lexer.step
  rw [quoting, bare_behind, add_behind, add_behind]
  cases lexer.quoting with
  | bare => rfl
  | single | double => split_ifs <;> rfl

/-- Tokens that were read stay as they are. -/
theorem run_behind (text : List Char) :
    (lexer.behind before).run text = (lexer.run text).behind before := by
  induction text generalizing lexer with
  | nil => rfl
  | cons c rest ih =>
    change ((lexer.behind before).step c).run rest = _
    rw [step_behind, ih]
    rfl

theorem marks_behind (text : List Char) : (lexer.behind before).marks text = lexer.marks text := by
  induction text generalizing lexer with
  | nil => rfl
  | cons c rest ih =>
    change _ :: ((lexer.behind before).step c).marks rest = _
    rw [step_behind, ih]
    rfl

end

end

theorem marks_append (lexer : Lexer) (first second : List Char) :
    lexer.marks (first ++ second) = lexer.marks first ++ (lexer.run first).marks second := by
  induction first generalizing lexer with
  | nil => rfl
  | cons c rest ih =>
    change _ :: (lexer.step c).marks (rest ++ second) = _
    rw [ih]
    rfl

theorem run_append (lexer : Lexer) (first second : List Char) :
    lexer.run (first ++ second) = (lexer.run first).run second := List.foldl_append

/-- A text each of whose characters goes into the word being read. -/
theorem run_into_word (read : List Token) (quoting : Quoting)
    (into : ∀ c ∈ text, ∀ word, Lexer.step ⟨read, .word word, quoting⟩ c =
      ⟨read, .word ⟨word.glyphs ++ [⟨c, quoting⟩], word.quoted⟩, quoting⟩) (word : Word) :
    Lexer.run ⟨read, .word word, quoting⟩ text =
        ⟨read, .word ⟨word.glyphs ++ glyphs quoting text, word.quoted⟩, quoting⟩ ∧
      Lexer.marks ⟨read, .word word, quoting⟩ text = glyphs quoting text := by
  induction text generalizing word with
  | nil => simp [Lexer.run, Lexer.marks, glyphs]
  | cons c rest ih =>
    have step := into c List.mem_cons_self word
    have later := ih (fun d member => into d (.tail _ member))
      ⟨word.glyphs ++ [⟨c, quoting⟩], word.quoted⟩
    constructor
    · change (Lexer.step _ c).run rest = _
      rw [step, later.1]
      simp [glyphs]
    · change _ :: (Lexer.step _ c).marks rest = _
      rw [step, later.2]
      rfl

theorem ordinary_parts (plain : ordinary c = true) :
    c ≠ '\'' ∧ c ≠ '"' ∧ c ≠ ' ' ∧ c ≠ '\t' ∧ Operator.ofChar c = none := by
  simp only [ordinary, ne_eq, decide_not, Bool.and_eq_true, Bool.not_eq_true',
    decide_eq_false_iff_not, Option.isNone_iff_eq_none] at plain
  exact ⟨plain.1.1.1.1, plain.1.1.1.2, plain.1.1.2, plain.1.2, plain.2⟩

section

variable (read : List Token)
include read

theorem step_ordinary (plain : ordinary c = true) (word : Word) :
    Lexer.step ⟨read, .word word, .bare⟩ c =
      ⟨read, .word ⟨word.glyphs ++ [⟨c, .bare⟩], word.quoted⟩, .bare⟩ := by
  obtain ⟨single, double, blank, tab, noOperator⟩ := ordinary_parts plain
  simp [Lexer.step, Lexer.bare, Pending.extend, Lexer.add, single, double, blank, tab, noOperator]

/-- Ordinary characters between two tokens begin a word. -/
theorem run_ordinary (nonempty : text ≠ []) (plain : ∀ c ∈ text, ordinary c = true) :
    (Lexer.between read).run text = ⟨read, .word ⟨glyphs .bare text, false⟩, .bare⟩ ∧
      (Lexer.between read).marks text = glyphs .bare text := by
  cases text with
  | nil => exact absurd rfl nonempty
  | cons c rest =>
    obtain ⟨single, double, blank, tab, noOperator⟩ := ordinary_parts (plain c List.mem_cons_self)
    have begins : (Lexer.between read).step c = ⟨read, .word ⟨[⟨c, .bare⟩], false⟩, .bare⟩ := by
      simp [Lexer.between, Lexer.step, Lexer.bare, Pending.extend, Lexer.add, Lexer.delimit,
        Pending.tokens, single, double, blank, tab, noOperator]
    have goes := run_into_word read .bare
      (fun d member => step_ordinary read (plain d (.tail _ member)))
      ⟨[⟨c, .bare⟩], false⟩
    constructor
    · change ((Lexer.between read).step c).run rest = _
      rw [begins, goes.1]
      rfl
    · change _ :: ((Lexer.between read).step c).marks rest = _
      rw [begins, goes.2]
      rfl

/-- A quoted text between two tokens is a word without its quotes. -/
theorem run_quoted (opens : (Lexer.between read).step mark = ⟨read, .word ⟨[], true⟩, quoting⟩)
    (into : ∀ c ∈ text, ∀ word, Lexer.step ⟨read, .word word, quoting⟩ c = ⟨read, .word ⟨word.glyphs ++ [⟨c, quoting⟩], word.quoted⟩, quoting⟩)
    (closes : ∀ word, Lexer.step ⟨read, .word word, quoting⟩ mark = ⟨read, .word word, .bare⟩) :
    (Lexer.between read).run (mark :: text ++ [mark]) = ⟨read, .word ⟨glyphs quoting text, true⟩, .bare⟩ ∧
      (Lexer.between read).marks (mark :: text ++ [mark]) =
        ⟨mark, .bare⟩ :: glyphs quoting text ++ [⟨mark, quoting⟩] := by
  have goes := run_into_word read quoting into ⟨[], true⟩
  constructor
  · change ((Lexer.between read).step mark).run (text ++ [mark]) = _
    rw [opens, run_append, goes.1]
    exact closes _
  · change _ :: ((Lexer.between read).step mark).marks (text ++ [mark]) = _
    rw [opens, marks_append, goes.1, goes.2]
    rfl

theorem run_single (inside : ∀ c ∈ text, c ≠ '\'') :
    (Lexer.between read).run ('\'' :: text ++ ['\'']) =
        ⟨read, .word ⟨glyphs .single text, true⟩, .bare⟩ ∧
      (Lexer.between read).marks ('\'' :: text ++ ['\'']) =
        ⟨'\'', .bare⟩ :: glyphs .single text ++ [⟨'\'', .single⟩] := by
  refine run_quoted read ?_ (fun c member word => by simp [Lexer.step, Lexer.add, inside c member]) fun _ => rfl
  simp [Lexer.between, Lexer.step, Lexer.bare, Pending.extend, Lexer.add, Lexer.delimit, Pending.tokens]

theorem run_double (inside : ∀ c ∈ text, c ≠ '"') :
    (Lexer.between read).run ('"' :: text ++ ['"']) =
        ⟨read, .word ⟨glyphs .double text, true⟩, .bare⟩ ∧
      (Lexer.between read).marks ('"' :: text ++ ['"']) =
        ⟨'"', .bare⟩ :: glyphs .double text ++ [⟨'"', .double⟩] := by
  refine run_quoted read ?_ (fun c member word => by simp [Lexer.step, Lexer.add, inside c member]) fun _ => rfl
  simp [Lexer.between, Lexer.step, Lexer.bare, Pending.extend, Lexer.add, Lexer.delimit, Pending.tokens]

end

/-- The text that comes does not go on with what is pending. -/
def Pending.endsBefore : Pending → List Char → Prop
  | _, [] => True
  | .nothing, _ => True
  | .word _, c :: _ => separates c = true
  | .operator _ begun, c :: _ => begun.extend c = none

theorem delimit_delimit (lexer : Lexer) : lexer.delimit.delimit = lexer.delimit := by
  simp [Lexer.delimit, Pending.tokens]

/-- What is pending when a separator comes may as well be delimited before it. -/
theorem bare_delimit (lexer : Lexer) (ends : lexer.pending.endsBefore (c :: rest)) :
    lexer.bare c = lexer.delimit.bare c := by
  obtain ⟨read, pending, quoting⟩ := lexer
  cases pending with
  | nothing => simp [Lexer.delimit, Pending.tokens]
  | operator descriptor begun =>
    have noLonger : begun.extend c = none := ends
    simp [Lexer.bare, Pending.extend, noLonger, Lexer.delimit, Pending.tokens, Lexer.add,
      Lexer.operate]
  | word word =>
    have separator : separates c = true := ends
    by_cases blank : c = ' ' ∨ c = '\t'
    · rcases blank with rfl | rfl <;>
        simp [Lexer.bare, Pending.extend, Lexer.delimit, Pending.tokens]
    · obtain ⟨noBlank, noTab⟩ := not_or.mp blank
      have begins : ∃ operator, Operator.ofChar c = some operator ∧
          operator.redirects = false := by
        simpa [separates, noBlank, noTab, Option.any_eq_true] using separator
      obtain ⟨operator, isOperator, control⟩ := begins
      have noSingle : c ≠ '\'' := by
        rintro rfl
        simp [Operator.ofChar] at isOperator
      have noDouble : c ≠ '"' := by
        rintro rfl
        simp [Operator.ofChar] at isOperator
      simp [Lexer.bare, Pending.extend, Lexer.delimit, Pending.tokens, Lexer.operate, noSingle,
        noDouble, noBlank, noTab, isOperator, control]

theorem run_delimit {lexer : Lexer} (bare : lexer.quoting = .bare)
    (ends : lexer.pending.endsBefore text) :
    (lexer.run text).finish = (lexer.delimit.run text).finish ∧
      lexer.marks text = lexer.delimit.marks text := by
  cases text with
  | nil =>
    have same : lexer.delimit.quoting = .bare := bare
    constructor
    · change lexer.finish = lexer.delimit.finish
      rw [Lexer.finish, Lexer.finish, delimit_delimit, if_pos bare, if_pos same]
    · rfl
  | cons c rest =>
    have step : lexer.step c = lexer.delimit.step c := by
      have same : lexer.delimit.quoting = .bare := bare
      rw [Lexer.step, Lexer.step, bare, same]
      exact bare_delimit lexer ends
    constructor
    · change ((lexer.step c).run rest).finish = ((lexer.delimit.step c).run rest).finish
      rw [step]
    · change ⟨c, lexer.quoting⟩ :: (lexer.step c).marks rest =
        ⟨c, lexer.quoting⟩ :: (lexer.delimit.step c).marks rest
      rw [step]

/-- A part of the text that what follows does not touch adds its own tokens. -/
theorem read_part (read : List Token) (ran : (Lexer.between []).run part = lexer)
    (bare : lexer.quoting = .bare) (ends : lexer.pending.endsBefore rest) :
    ((Lexer.between read).run (part ++ rest)).finish =
        ((Lexer.between (read ++ lexer.delimit.tokens)).run rest).finish ∧
      (Lexer.between read).marks (part ++ rest) =
        (Lexer.between []).marks part ++
          (Lexer.between (read ++ lexer.delimit.tokens)).marks rest := by
  have start : Lexer.between read = (Lexer.between []).behind read := by
    simp [Lexer.between, Lexer.behind]
  have reached : (Lexer.between read).run part = lexer.behind read := by
    rw [start, run_behind, ran]
  have delimited : (lexer.behind read).delimit =
      Lexer.between (read ++ lexer.delimit.tokens) := by
    simp [Lexer.between, Lexer.behind, Lexer.delimit, bare]
  obtain ⟨finish, marks⟩ := run_delimit (show (lexer.behind read).quoting = .bare from bare) ends
  constructor
  · rw [run_append, reached, finish, delimited]
  · rw [marks_append, reached, marks, delimited, start, marks_behind]

end LetAgents.Lib.Shell

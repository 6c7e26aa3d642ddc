import Mathlib.Algebra.Order.Ring.Nat
import LetAgents.Review.Programs

/-!
# Reading a command

`readCommands` of `src/shared/permission-review.mjs`, which splits the text of a
command into simple commands of words, and `commandNeedsPerson`, which decides on
them. The loop of the scanner is `readRest`; one round of it is `readOne`, on the
text that is left at `index`.
-/
namespace LetAgents.Review

structure ReadWord where
  value : String
  quoted : Bool

/-- A simple command; `fed` when it comes after a pipe. -/
structure ReadCommand where
  words : List ReadWord
  fed : Bool

/-- The array `commands` of the scanner, its last element apart. -/
structure Reading where
  before : List ReadCommand
  current : ReadCommand

def Reading.initial : Reading := ⟨[], ⟨[], false⟩⟩

/-- `commands.push({ words: [], fed })`. -/
def Reading.next (reading : Reading) (fed : Bool) : Reading :=
  ⟨reading.before ++ [reading.current], ⟨[], fed⟩⟩

/-- `current().words.push({ value, quoted })`. -/
def Reading.word (reading : Reading) (value : List Char) (quoted : Bool) : Reading :=
  { reading with current := { reading.current with
      words := reading.current.words ++ [⟨String.ofList value, quoted⟩] } }

/-- The length of a text in UTF-16 units, as the host counts it. -/
def hostLength (text : String) : Nat :=
  (text.toList.map fun c => if c.toNat < 0x10000 then 1 else 2).sum

def isText (value : String) (max : Nat) : Bool := 0 < hostLength value && hostLength value ≤ max

/-- `PERMISSION_REVIEW_MAX_COMMAND_CHARS`. -/
def maxCommandChars : Nat := 2000

/-- `PERMISSION_REVIEW_MAX_PROJECT_CHARS`. -/
def maxProjectChars : Nat := 1024

def normalizedProject (project : String) : Option String :=
  let trimmed := project.toList.rdropWhile (· = '/')
  if isText project maxProjectChars ∧
      project.toList.all (fun c => 0x21 ≤ c.toNat && c.toNat ≤ 0x7e) ∧
      trimmed.head? = some '/' ∧ 1 < trimmed.length ∧
      ((trimmed.splitOnP (· = '/')).drop 1).all
        (fun part => part ≠ [] && part ≠ ['.'] && part ≠ ['.', '.']) then
    some (String.ofList trimmed)
  else none

/-- `PLAIN`. -/
def plain (c : Char) : Bool := isWordChar c || "_-./:=@,+%~".toList.contains c

/-- `SINGLE_QUOTED`, for one character. -/
def singleQuoted (c : Char) : Bool := 0x20 ≤ c.toNat && c.toNat ≤ 0x7e && c ≠ '\''

/-- `DOUBLE_QUOTED`, for one character. -/
def doubleQuoted (c : Char) : Bool :=
  0x20 ≤ c.toNat && c.toNat ≤ 0x7e && !"!\"$\\`".toList.contains c

/-- The end of the text, or a blank, a new line or an operator. -/
def boundary (rest : List Char) : Bool := rest.head?.all " \t\n;|&".toList.contains

/-- The texts `STREAM` matches, without what must follow them. -/
def streams : List (List Char) :=
  "2>&1".toList ::
    ["", "1", "2"].flatMap fun descriptor => [">", ">>"].flatMap fun operator =>
      ["", " "].map fun gap =>
        descriptor.toList ++ operator.toList ++ gap.toList ++ "/dev/null".toList

/-- `STREAM.exec`: the stream the text begins with. -/
def streamAt (text : List Char) : Option (List Char) :=
  streams.find? fun stream => stream.isPrefixOf text && boundary (text.drop stream.length)

/-- `&&`, `||`, `;` or `|` at the start of the text. -/
def operatorAt (text : List Char) : Option (List Char) :=
  ["&&".toList, "||".toList, ";".toList, "|".toList].find? (·.isPrefixOf text)

/-- A shell expands `~` at the start of a word and after `=` or `:`, and zsh a leading `=`. -/
def expands (value : List Char) : Bool :=
  value.head? = some '=' || occurs (edge "=:") anyPlace ['~'] none value

/-- One round of the loop: the commands so far and what is left of the text. -/
def readOne (reading : Reading) (text : List Char) : Option (Reading × List Char) :=
  match text with
  | [] => none
  | char :: after =>
    if char = ' ' ∨ char = '\t' then some (reading, after)
    else
      match streamAt text with
      | some stream => some (reading, text.drop stream.length)
      | none =>
        if char = '\n' then
          some (if reading.current.words ≠ [] then reading.next false else reading, after)
        else
          match operatorAt text with
          | some operator =>
            let rest := text.drop operator.length
            if reading.current.words = [] ∨ rest.head?.any "|;&".toList.contains then none
            else some (reading.next (operator = ['|']), rest)
          | none =>
            if char = '\'' ∨ char = '"' then
              let value := after.takeWhile (· ≠ char)
              let rest := (after.dropWhile (· ≠ char)).drop 1
              if char ∈ after ∧ boundary rest ∧
                  value.all (if char = '\'' then singleQuoted else doubleQuoted) then
                some (reading.word value true, rest)
              else none
            else
              let value := text.takeWhile plain
              let rest := text.dropWhile plain
              if value = [] ∨ !boundary rest ∨ expands value then none
              else some (reading.word value false, rest)

/-- The loop. Each round leaves less of the text, so its length is fuel enough. -/
def readRest : Nat → Reading → List Char → Option Reading
  | _, reading, [] => some reading
  | 0, _, _ :: _ => none
  | fuel + 1, reading, char :: after =>
    match readOne reading (char :: after) with
    | none => none
    | some (further, rest) => readRest fuel further rest

/-- `(?:&&|\|\||\|)[ \t\n]*$`: the shell waits for more. -/
def waits (command : List Char) : Bool :=
  let kept := command.rdropWhile " \t\n".toList.contains
  "&&".toList.isSuffixOf kept || "|".toList.isSuffixOf kept

def readCommands (command : List Char) : Option (List ReadCommand) :=
  if command ≠ [] ∧
      command.all (fun c => (0x20 ≤ c.toNat && c.toNat ≤ 0x7e) || c = '\t' || c = '\n') then
    match readRest command.length Reading.initial command with
    | none => none
    | some reading =>
      if reading.current.words ≠ [] then some (reading.before ++ [reading.current])
      else if waits command ∨ reading.before = [] then none
      else some reading.before
  else none

def simpleCommandAllowed (simple : ReadCommand) (project : String) : Bool :=
  match simple.words with
  | [] => false
  | program :: rest =>
    match programs.lookup program.value with
    | none => false
    | some allows =>
      !program.quoted && !(simple.fed && runsCode.contains program.value) &&
        allows (rest.map ReadWord.value) project

/-- A person must decide. -/
def commandNeedsPerson (command project : String) : Bool :=
  if isText command maxCommandChars then
    match normalizedProject project with
    | none => true
    | some root =>
      match readCommands command.toList with
      | none => true
      | some commands => !commands.all fun simple => simpleCommandAllowed simple root
  else true

end LetAgents.Review

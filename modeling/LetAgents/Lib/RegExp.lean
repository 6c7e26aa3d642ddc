import Mathlib.Data.List.Basic

/-!
# Regular expressions

The patterns of ECMAScript, Annex B, without the `u` and `v` flags: a text and a pattern
are sequences of UTF-16 code units. Named groups and modifiers are left out.
-/
namespace LetAgents.Lib.RegExp

abbrev Text := List Nat

/-- The code units of a character. -/
def codeUnits (c : Char) : Text :=
  if c.toNat < 0x10000 then [c.toNat]
  else [0xD800 + (c.toNat - 0x10000) / 0x400, 0xDC00 + (c.toNat - 0x10000) % 0x400]

/-- A text of JavaScript. -/
def text (s : String) : Text := s.toList.flatMap codeUnits

/-- The code unit of an ASCII character. -/
def u (c : Char) : Nat := c.toNat

/-! ## Syntax -/

/-- `\d`, `\s` and `\w`. -/
inductive Escape where
  | digit | space | word
  deriving DecidableEq

inductive ClassItem where
  | range (first last : Nat)
  | escape (kind : Escape) (negated : Bool)
  deriving DecidableEq

inductive Node where
  | empty
  /-- `.`: any code unit but a line terminator. -/
  | any
  /-- A character class; a single character is a class too. -/
  | set (negated : Bool) (items : List ClassItem)
  | seq (first second : Node)
  | alt (first second : Node)
  /-- A group, with its number if it captures. -/
  | group (index : Option Nat) (body : Node)
  | backReference (index : Nat)
  /-- `^`. -/
  | start
  /-- `$`. -/
  | finish
  /-- `\b`, and `\B` when negated. -/
  | boundary (negated : Bool)
  /-- `(?=`, `(?!`, `(?<=` and `(?<!`. -/
  | look (behind negated : Bool) (body : Node)
  /-- A quantifier; the groups from `fromGroup` up to `toGroup` are those of the body. -/
  | many (least : Nat) (most : Option Nat) (greedy : Bool) (fromGroup toGroup : Nat) (body : Node)
  deriving DecidableEq

def Node.unit (c : Nat) : Node := .set false [.range c c]

/-! ## Characters -/

def isLineTerminator (c : Nat) : Bool := c = 0x0A || c = 0x0D || c = 0x2028 || c = 0x2029

def isSpace (c : Nat) : Bool :=
  [0x09, 0x0A, 0x0B, 0x0C, 0x0D, 0x20, 0xA0, 0x1680, 0x2028, 0x2029, 0x202F, 0x205F, 0x3000,
    0xFEFF].contains c || (0x2000 ≤ c && c ≤ 0x200A)

def isDigit (c : Nat) : Bool := u '0' ≤ c && c ≤ u '9'

def isUpper (c : Nat) : Bool := u 'A' ≤ c && c ≤ u 'Z'

def isLower (c : Nat) : Bool := u 'a' ≤ c && c ≤ u 'z'

def isWord (c : Nat) : Bool := isUpper c || isLower c || isDigit c || c = u '_'

def Escape.accepts : Escape → Nat → Bool
  | .digit => isDigit
  | .space => isSpace
  | .word => isWord

def ClassItem.accepts (c : Nat) : ClassItem → Bool
  | .range first last => first ≤ c && c ≤ last
  | .escape kind negated => kind.accepts c != negated

/-- The spellings of a character that a case-insensitive pattern does not tell apart. -/
def spellings (ignoreCase : Bool) (c : Nat) : List Nat :=
  if ignoreCase && isUpper c then [c, c + 32]
  else if ignoreCase && isLower c then [c, c - 32]
  else [c]

/-! ## Parsing -/

def octal (c : Nat) : Bool := u '0' ≤ c && c ≤ u '7'

def hexDigit (c : Nat) : Option Nat :=
  if isDigit c then some (c - u '0')
  else if u 'A' ≤ c && c ≤ u 'F' then some (c - u 'A' + 10)
  else if u 'a' ≤ c && c ≤ u 'f' then some (c - u 'a' + 10)
  else none

/-- Exactly `n` hexadecimal digits. -/
def hexDigits : Nat → Nat → Text → Option (Nat × Text)
  | 0, value, rest => some (value, rest)
  | _ + 1, _, [] => none
  | n + 1, value, c :: rest => (hexDigit c).bind fun d => hexDigits n (value * 16 + d) rest

/-- The decimal number at the front, and what follows it. -/
def decimal (source : Text) : Option (Nat × Text) :=
  let digits := source.takeWhile isDigit
  if digits.isEmpty then none
  else some (digits.foldl (fun value d => value * 10 + (d - u '0')) 0, source.drop digits.length)

/-- A legacy octal escape, at most `\377`. -/
def legacyOctal (c : Nat) (rest : Text) : Nat × Text :=
  match rest with
  | [] => (c - u '0', [])
  | second :: rest' =>
    if octal second then
      let two := (c - u '0') * 8 + (second - u '0')
      match rest' with
      | third :: rest'' =>
        if octal third && two * 8 + (third - u '0') ≤ 255 then
          (two * 8 + (third - u '0'), rest'')
        else (two, rest')
      | [] => (two, [])
    else (c - u '0', rest)

/-- A letter after `\c`. -/
def controlLetter (inClass : Bool) (c : Nat) : Bool :=
  isUpper c || isLower c || (inClass && (isDigit c || c = u '_'))

/-- The single character after a backslash that is neither a class escape nor a back
reference. -/
def characterEscape (inClass : Bool) (c : Nat) (rest : Text) : Nat × Text :=
  if c = u 'f' then (0x0C, rest)
  else if c = u 'n' then (0x0A, rest)
  else if c = u 'r' then (0x0D, rest)
  else if c = u 't' then (0x09, rest)
  else if c = u 'v' then (0x0B, rest)
  else if c = u 'c' then
    match rest with
    | letter :: rest' =>
      if controlLetter inClass letter then (letter % 32, rest') else (u '\\', c :: rest)
    | [] => (u '\\', c :: rest)
  else if c = u 'x' then (hexDigits 2 0 rest).getD (c, rest)
  else if c = u 'u' then (hexDigits 4 0 rest).getD (c, rest)
  else if octal c then legacyOctal c rest
  else (c, rest)

/-- `\d`, `\D`, `\s`, `\S`, `\w` and `\W`. -/
def classEscape (c : Nat) : Option ClassItem :=
  if c = u 'd' then some (.escape .digit false)
  else if c = u 'D' then some (.escape .digit true)
  else if c = u 's' then some (.escape .space false)
  else if c = u 'S' then some (.escape .space true)
  else if c = u 'w' then some (.escape .word false)
  else if c = u 'W' then some (.escape .word true)
  else none

/-- A pattern that is no regular expression. -/
structure SyntaxError where
  message : String
  deriving DecidableEq

/-- One member of a class: a character or a class escape. -/
def classAtom (c : Nat) (rest : Text) : Except SyntaxError (ClassItem × Text) :=
  if c = u '\\' then
    match rest with
    | [] => .error ⟨"\\ at end of pattern"⟩
    | e :: rest' =>
      match classEscape e with
      | some item => .ok (item, rest')
      | none =>
        let (value, rest'') := if e = u 'b' then (0x08, rest') else characterEscape true e rest'
        .ok (.range value value, rest'')
  else .ok (.range c c, rest)

/-- The members of a class, up to its bracket. -/
def classItems : Nat → Text → Except SyntaxError (List ClassItem × Text)
  | 0, _ => .error ⟨"Unterminated character class"⟩
  | _ + 1, [] => .error ⟨"Unterminated character class"⟩
  | fuel + 1, c :: rest =>
    if c = u ']' then .ok ([], rest)
    else do
      let (first, rest) ← classAtom c rest
      match rest with
      | dash :: d :: rest' =>
        if dash = u '-' && d ≠ u ']' then
          let (last, rest'') ← classAtom d rest'
          let (items, remaining) ← classItems fuel rest''
          match first, last with
          | .range a _, .range b _ =>
            if b < a then .error ⟨"Range out of order in character class"⟩
            else .ok (.range a b :: items, remaining)
          | _, _ => .ok (first :: .range (u '-') (u '-') :: last :: items, remaining)
        else
          let (items, remaining) ← classItems fuel rest
          .ok (first :: items, remaining)
      | _ =>
        let (items, remaining) ← classItems fuel rest
        .ok (first :: items, remaining)

/-- The bounds between braces, if they are a quantifier. -/
def braces (source : Text) : Option (Nat × Option Nat × Text) := do
  let (least, rest) ← decimal source
  match rest with
  | c :: rest' =>
    if c = u '}' then some (least, some least, rest')
    else if c = u ',' then
      match rest' with
      | d :: rest'' =>
        if d = u '}' then some (least, none, rest'')
        else
          match decimal rest' with
          | some (most, e :: remaining) =>
            if e = u '}' then some (least, some most, remaining) else none
          | _ => none
      | [] => none
    else none
  | [] => none

/-- The quantifier at the front: its bounds and what follows. -/
def bounds (source : Text) : Option (Nat × Option Nat × Text) :=
  match source with
  | [] => none
  | c :: rest =>
    if c = u '*' then some (0, none, rest)
    else if c = u '+' then some (1, none, rest)
    else if c = u '?' then some (0, some 1, rest)
    else if c = u '{' then braces rest
    else none

/-- The term with the quantifier that follows it. -/
def quantify (fromGroup toGroup : Nat) (node : Node) (source : Text) :
    Except SyntaxError (Node × Text) :=
  match bounds source with
  | none => .ok (node, source)
  | some (least, most, rest) =>
    if most.any fun most => most < least then
      .error ⟨"numbers out of order in \x7b\x7d quantifier"⟩
    else
      match rest with
      | c :: rest' =>
        if c = u '?' then .ok (.many least most false fromGroup toGroup node, rest')
        else .ok (.many least most true fromGroup toGroup node, rest)
      | [] => .ok (.many least most true fromGroup toGroup node, rest)

/-- The number of capturing groups. -/
def countGroups : Bool → Text → Nat
  | _, [] => 0
  | _, [_] => 0
  | inClass, c :: d :: rest =>
    if c = u '\\' then countGroups inClass rest
    else if inClass then countGroups (c ≠ u ']') (d :: rest)
    else if c = u '[' then countGroups true (d :: rest)
    else if c = u '(' && d ≠ u '?' then countGroups false (d :: rest) + 1
    else countGroups false (d :: rest)

/-- The bracket that ends a group. -/
def closed (source : Text) : Except SyntaxError Text :=
  match source with
  | c :: rest => if c = u ')' then .ok rest else .error ⟨"Unterminated group"⟩
  | [] => .error ⟨"Unterminated group"⟩

/-- `[^`. -/
def negation (source : Text) : Bool × Text :=
  match source with
  | c :: rest => if c = u '^' then (true, rest) else (false, source)
  | [] => (false, source)

mutual

/-- Alternatives, with the number of the next group. -/
def disjunction (groups : Nat) : Nat → Nat → Text → Except SyntaxError (Node × Nat × Text)
  | 0, _, _ => .error ⟨"Regular expression too large"⟩
  | fuel + 1, next, source => do
    let (first, next, rest) ← alternative groups fuel next source
    match rest with
    | c :: rest' =>
      if c = u '|' then do
        let (second, next, rest) ← disjunction groups fuel next rest'
        .ok (.alt first second, next, rest)
      else .ok (first, next, rest)
    | [] => .ok (first, next, rest)

def alternative (groups : Nat) : Nat → Nat → Text → Except SyntaxError (Node × Nat × Text)
  | 0, _, _ => .error ⟨"Regular expression too large"⟩
  | _ + 1, next, [] => .ok (.empty, next, [])
  | fuel + 1, next, c :: rest =>
    if c = u '|' || c = u ')' then .ok (.empty, next, c :: rest)
    else do
      let (first, next, rest) ← term groups fuel next c rest
      let (second, next, rest) ← alternative groups fuel next rest
      .ok (.seq first second, next, rest)

/-- An assertion or an atom with its quantifier. -/
def term (groups : Nat) : Nat → Nat → Nat → Text → Except SyntaxError (Node × Nat × Text)
  | 0, _, _, _ => .error ⟨"Regular expression too large"⟩
  | fuel + 1, next, c, rest =>
    let atom (node : Node) (rest : Text) : Except SyntaxError (Node × Nat × Text) := do
      let (node, rest) ← quantify next next node rest
      .ok (node, next, rest)
    let grouped (wrap : Node → Node) (quantified : Bool) (inner : Nat) (rest : Text) :
        Except SyntaxError (Node × Nat × Text) := do
      let (body, after, rest) ← disjunction groups fuel inner rest
      let rest ← closed rest
      if quantified then do
        let (node, rest) ← quantify next after (wrap body) rest
        .ok (node, after, rest)
      else .ok (wrap body, after, rest)
    if c = u '^' then .ok (.start, next, rest)
    else if c = u '$' then .ok (.finish, next, rest)
    else if c = u '(' then
      match rest with
      | q :: kind :: inner =>
        if q = u '?' then
          if kind = u ':' then grouped (.group none) true next inner
          else if kind = u '=' then grouped (.look false false) true next inner
          else if kind = u '!' then grouped (.look false true) true next inner
          else if kind = u '<' then
            match inner with
            | sign :: inner =>
              if sign = u '=' then grouped (.look true false) false next inner
              else if sign = u '!' then grouped (.look true true) false next inner
              else .error ⟨"Invalid capture group name"⟩
            | [] => .error ⟨"Invalid capture group name"⟩
          else .error ⟨"Invalid group"⟩
        else grouped (.group (some next)) true (next + 1) rest
      | _ => grouped (.group (some next)) true (next + 1) rest
    else if c = u '.' then atom .any rest
    else if c = u '[' then do
      let (negated, members) := negation rest
      let (items, rest) ← classItems (members.length + 1) members
      atom (.set negated items) rest
    else if c = u '\\' then
      match rest with
      | [] => .error ⟨"\\ at end of pattern"⟩
      | e :: after =>
        if e = u 'b' then .ok (.boundary false, next, after)
        else if e = u 'B' then .ok (.boundary true, next, after)
        else
          match classEscape e with
          | some item => atom (.set false [item]) after
          | none =>
            match decimal rest with
            | some (index, remaining) =>
              if e ≠ u '0' && index ≤ groups then atom (.backReference index) remaining
              else
                let (value, remaining) := characterEscape false e after
                atom (.unit value) remaining
            | none =>
              let (value, remaining) := characterEscape false e after
              atom (.unit value) remaining
    else if c = u '*' || c = u '+' || c = u '?' || (c = u '{' && (braces rest).isSome) then
      .error ⟨"Nothing to repeat"⟩
    else atom (.unit c) rest

end

/-- `new RegExp(pattern)`. -/
def parse (pattern : Text) : Except SyntaxError Node := do
  let (node, _, rest) ←
    disjunction (countGroups false pattern) (3 * pattern.length + 3) 1 pattern
  if rest.isEmpty then .ok node else .error ⟨"Unmatched ')'"⟩

/-! ## Matching -/

/-- A place in a text: what was read, the last unit first, and what follows. -/
structure Place where
  before : Text
  after : Text
  deriving DecidableEq

/-- A place, and what the groups captured on the way to it. -/
structure Reading where
  place : Place
  captures : List (Nat × Text)

/-- The next unit in reading direction, and the place behind it. -/
def Place.read (behind : Bool) (p : Place) : Option (Nat × Place) :=
  if behind then
    match p.before with
    | [] => none
    | c :: rest => some (c, ⟨rest, c :: p.after⟩)
  else
    match p.after with
    | [] => none
    | c :: rest => some (c, ⟨c :: p.before, rest⟩)

/-- Read one unit that a class accepts. -/
def readUnit (accepts : Nat → Bool) (behind : Bool) (r : Reading) : List Reading :=
  match r.place.read behind with
  | none => []
  | some (c, place) => if accepts c then [{ r with place }] else []

def setAccepts (ignoreCase negated : Bool) (items : List ClassItem) (c : Nat) : Bool :=
  ((spellings ignoreCase c).any fun spelling => items.any fun item => item.accepts spelling) != negated

/-- Read the units of a text in order. -/
def readText (ignoreCase behind : Bool) : Text → Reading → List Reading
  | [], r => [r]
  | c :: rest, r =>
    (readUnit (setAccepts ignoreCase false [.range c c]) behind r).flatMap
      (readText ignoreCase behind rest)

/-- What was read between two places. -/
def between (behind : Bool) (p q : Place) : Text :=
  if behind then q.after.take (q.after.length - p.after.length)
  else p.after.take (p.after.length - q.after.length)

/-- Repetitions of a body: those that are required, then as many more as allowed; an
optional repetition that reads nothing is none. -/
def repetitions (body : Reading → List Reading) (greedy : Bool) :
    Nat → Nat → Option Nat → Reading → List Reading
  | 0, _, _, _ => []
  | fuel + 1, least, most, r =>
    if most = some 0 then [r]
    else
      let more := (body r).flatMap fun r' =>
        if least = 0 ∧ r'.place = r.place then []
        else repetitions body greedy fuel (least - 1) (most.map (· - 1)) r'
      if 0 < least then more
      else if greedy then more ++ [r]
      else r :: more

/-- The readings of a pattern from a place on, in the order in which they are tried. -/
def Node.readings (ignoreCase : Bool) : Bool → Node → Reading → List Reading
  | _, .empty, r => [r]
  | behind, .any, r => readUnit (fun c => !isLineTerminator c) behind r
  | behind, .set negated items, r => readUnit (setAccepts ignoreCase negated items) behind r
  | behind, .seq first second, r =>
    if behind then (second.readings ignoreCase behind r).flatMap (first.readings ignoreCase behind)
    else (first.readings ignoreCase behind r).flatMap (second.readings ignoreCase behind)
  | behind, .alt first second, r =>
    first.readings ignoreCase behind r ++ second.readings ignoreCase behind r
  | behind, .group index body, r =>
    (body.readings ignoreCase behind r).map fun r' =>
      match index with
      | none => r'
      | some index =>
        { r' with captures := (index, between behind r.place r'.place) ::
            r'.captures.filter fun capture => capture.1 ≠ index }
  | behind, .backReference index, r =>
    match r.captures.lookup index with
    | none => [r]
    | some captured => readText ignoreCase behind (if behind then captured.reverse else captured) r
  | _, .start, r => if r.place.before.isEmpty then [r] else []
  | _, .finish, r => if r.place.after.isEmpty then [r] else []
  | _, .boundary negated, r =>
    if (r.place.before.head?.any isWord != r.place.after.head?.any isWord) != negated then [r]
    else []
  | _, .look behind negated body, r =>
    match (body.readings ignoreCase behind r).head? with
    | some r' => if negated then [] else [{ r with captures := r'.captures }]
    | none => if negated then [r] else []
  | behind, .many least most greedy fromGroup toGroup body, r =>
    repetitions
      (fun r => body.readings ignoreCase behind
        { r with captures := r.captures.filter fun capture =>
            capture.1 < fromGroup || toGroup ≤ capture.1 })
      greedy (least + r.place.before.length + r.place.after.length + 1) least most r

/-- A regular expression with its `i` flag. -/
structure Compiled where
  node : Node
  ignoreCase : Bool
  deriving DecidableEq

/-- The end of the match that begins at a place, if there is one. -/
def Compiled.endOf (regex : Compiled) (p : Place) : Option Place :=
  (regex.node.readings regex.ignoreCase false ⟨p, []⟩).head?.map Reading.place

/-- The leftmost match from a place on: its beginning and its end. -/
def Compiled.search (regex : Compiled) : Nat → Place → Option (Place × Place)
  | 0, _ => none
  | fuel + 1, p =>
    match regex.endOf p with
    | some q => some (p, q)
    | none =>
      match p.read false with
      | none => none
      | some (_, p') => regex.search fuel p'

/-- `regex.exec(input)` with `lastIndex` at the place. -/
def Compiled.exec (regex : Compiled) (p : Place) : Option (Place × Place) :=
  regex.search (p.after.length + 1) p

/-- `regex.test(input)`. -/
def Compiled.test (regex : Compiled) (input : Text) : Bool := (regex.exec ⟨[], input⟩).isSome

end LetAgents.Lib.RegExp

import LetAgents.Lib.RegExp
import Mathlib.Data.List.Infix

/-!
# Texts

String operations of ECMAScript on code units, and POSIX paths.
-/
namespace LetAgents.Lib.RegExp

/-! ## Strings -/

def Text.startsWith (t head : Text) : Bool := head.isPrefixOf t

def Text.endsWith (t tail : Text) : Bool := tail.isSuffixOf t

/-- `t.includes(part)`. -/
def Text.includes (t part : Text) : Bool := t.tails.any part.isPrefixOf

/-- `t.split(separator)` at a single unit. -/
def Text.split (separator : Nat) : Text → List Text
  | [] => [[]]
  | c :: rest =>
    match Text.split separator rest with
    | [] => [[c]]
    | first :: more => if c = separator then [] :: first :: more else (c :: first) :: more

/-- `parts.join(separator)` with a single unit. -/
def Text.join (separator : Nat) : List Text → Text
  | [] => []
  | [part] => part
  | part :: more => part ++ separator :: Text.join separator more

def Text.trimStart (t : Text) : Text := t.dropWhile isSpace

def Text.trim (t : Text) : Text := (t.trimStart.reverse.dropWhile isSpace).reverse

/-- `t.replace(/c/g, d)` for single units. -/
def Text.replaceUnit (t : Text) (c d : Nat) : Text := t.map fun e => if e = c then d else e

/-- `t.toLowerCase()` as far as its result is ASCII: the Kelvin sign is a spelling of `k`. -/
def Text.toLowerCase (t : Text) : Text :=
  t.map fun c => if isUpper c then c + 32 else if c = 0x212A then u 'k' else c

/-! ## Paths -/

/-- `path.basename` of a POSIX path. -/
def basename (filePath : Text) : Text :=
  ((filePath.reverse.dropWhile (· == u '/')).takeWhile (· != u '/')).reverse

/-- `path.extname` of a POSIX path: what begins at the last dot of the base name, unless it
is the first character. -/
def extname (filePath : Text) : Text :=
  let base := basename filePath
  let tail := base.reverse.takeWhile (· != u '.')
  if tail.length = base.length || tail.length + 1 = base.length || base = text ".." then []
  else base.drop (base.length - tail.length - 1)

/-! ## Literals -/

/-- A regular expression literal of a program. -/
def Compiled.literal (source : String) (ignoreCase : Bool)
    (valid : (parse (text source)).toOption.isSome = true) : Compiled :=
  ⟨(parse (text source)).toOption.get valid, ignoreCase⟩

end LetAgents.Lib.RegExp

import Mathlib.Data.List.Basic
import Mathlib.Data.List.DropRight

/-!
# Arguments a reviewed command may take

The tests of `src/shared/permission-review.mjs` on one text (what names a
credential, what stays inside the project) and the reading of a program's
arguments against the options it is known to take.
-/
namespace LetAgents.Review

/-- `needle` stands in the text, between two places that pass. -/
def occurs (before after : Option Char → Bool) (needle : List Char) :
    Option Char → List Char → Bool
  | previous, [] => before previous && needle.isEmpty && after none
  | previous, c :: rest =>
    (before previous && needle.isPrefixOf (c :: rest) &&
      after ((c :: rest).drop needle.length).head?) ||
    occurs before after needle (some c) rest

theorem occurs_of_split (first last : List Char) (previous : Option Char)
    (left : before (first.getLast?.or previous) = true) (right : after last.head? = true) :
    occurs before after needle previous (first ++ needle ++ last) = true := by
  induction first generalizing previous with
  | nil =>
    have starts : before previous = true := left
    cases needle with
    | nil =>
      cases last with
      | nil => simp [occurs, starts, show after none = true from right]
      | cons c rest => simp [occurs, starts, show after (some c) = true from right]
    | cons d further => simp [occurs, starts, right]
  | cons c rest ih =>
    have later : before (rest.getLast?.or (some c)) = true := by
      cases rest with
      | nil => simpa using left
      | cons d further => simpa [List.getLast?_cons] using left
    have found := ih (some c) later
    rw [List.append_assoc] at found
    simp [occurs, found]

def anyPlace (_ : Option Char) : Bool := true

/-- The end of the text, or one of the characters. -/
def edge (among : String) (place : Option Char) : Bool := place.all among.toList.contains

def includes (text needle : String) : Bool :=
  occurs anyPlace anyPlace needle.toList none text.toList

def isLetter (c : Char) : Bool := c.isUpper || c.isLower

def isWordChar (c : Char) : Bool := isLetter c || c.isDigit

def lowerCase (text : String) : List Char := text.toList.map Char.toLower

/-- `CREDENTIAL`. -/
def credential (text : String) : Bool :=
  ["env", "envrc", "ssh", "aws", "gnupg", "kube", "docker", "dockercfg", "npmrc", "pypirc",
    "netrc", "pgpass", "git-credentials", "azure", "boto", "s3cfg", "my.cnf"].any (fun name =>
      occurs (edge "/=:,") (edge "/._-") ('.' :: name.toList) none (lowerCase text)) ||
  ["env", "pem", "key", "crt", "cer", "p12", "pfx", "jks", "keystore", "kdbx", "tfstate",
    "tfvars"].any (fun name =>
      occurs anyPlace (edge ".,:") ('.' :: name.toList) none (lowerCase text)) ||
  ["credential", "secret", "passw", "token", "apikey", "api_key", "api-key", "privatekey",
    "private_key", "private-key", "serviceaccount", "service_account", "service-account",
    "kubeconfig", "wallet", "_history", "id_rsa", "id_dsa", "id_ecdsa", "id_ed25519",
    "authorized_keys", "known_hosts", "keychain"].any fun name =>
      occurs anyPlace anyPlace name.toList none (lowerCase text)

/-- No letter on this side. -/
def noLetter (place : Option Char) : Bool := place.all fun c => !isLetter c

/-- `CONSEQUENTIAL_NAME`. -/
def consequentialName (text : String) : Bool :=
  ["deploy", "release", "publish", "rollback", "destroy", "teardown", "wipe", "purge", "drop",
    "nuke", "erase", "delete", "remove", "reset", "clean", "clear", "uninstall", "install",
    "migrat", "seed", "prod", "backup", "restore", "upload", "email", "notify", "charge", "refund",
    "invoice", "payment"].any (fun name =>
      occurs anyPlace anyPlace name.toList none (lowerCase text)) ||
  ["env", "db", "sync", "ship", "push", "rm"].any fun name =>
    occurs noLetter noLetter name.toList none (lowerCase text)

/-- One piece of an argument: no way up, no history, and an absolute path only below the project. -/
def pieceStays (project piece : List Char) : Bool :=
  let parts := piece.splitOnP (· = '/')
  let kept := piece.rdropWhile (· = '/')
  let path := if kept.isEmpty then ['/'] else kept
  piece.head? != some '~' &&
  parts.all (fun part => part ≠ ['.', '.'] && part.map Char.toLower ≠ ".git".toList) &&
  (piece.head? != some '/' ||
    ((parts.drop 1).dropLast.all (fun part => part ≠ [] && part ≠ ['.']) &&
      (path = project || (project ++ ['/']).isPrefixOf path)))

/-- The text names nothing outside the project and nothing that holds credentials or history. -/
def staysInProject (value project : String) : Bool :=
  !includes value "://" && !occurs (edge "=:,") anyPlace ['@'] none value.toList &&
  !credential value &&
  (value.toList.splitOnP fun c => c = '=' || c = ':' || c = ',').all (pieceStays project.toList)

/-- `NUMBER`. -/
def number (value : String) : Bool :=
  1 ≤ value.length && value.length ≤ 6 && value.toList.all Char.isDigit

/-- `NAME`. -/
def name (value : String) : Bool :=
  match value.toList with
  | [] => false
  | first :: rest => isWordChar first && rest.all fun c => isWordChar c || ":_.-".toList.contains c

/-- A first character, further ones and then one of the extensions. -/
def fileWith (extensions : List String) (value : String) : Bool :=
  extensions.any fun extension =>
    ('.' :: extension.toList).isSuffixOf value.toList &&
      match value.toList.take (value.length - extension.length - 1) with
      | [] => false
      | first :: rest =>
        (isWordChar first || first = '_' || first = '.') &&
          rest.all fun c => isWordChar c || "_./-".toList.contains c

/-- `SOURCE_FILE`. -/
def sourceFile : String → Bool :=
  fileWith ["js", "cjs", "mjs", "ts", "cts", "mts", "tsx", "jsx"]

/-- `PYTHON_FILE`. -/
def pythonFile : String → Bool := fileWith ["py"]

def anyValue (_ : String) : Bool := true

def plainName (value : String) : Bool := name value && !consequentialName value

def unremarkable (value : String) : Bool := !consequentialName value

def letters (text : String) : List String :=
  text.toList.map fun letter => String.ofList ['-', letter]

/-- What a program is known to take. -/
structure ArgumentSpec where
  flags : List String := []
  valued : List (String × (String → Bool)) := []
  count : Bool := false
  anywhere : Bool := false
  dashed : Bool := false

def dashes (arg : String) : Bool := arg.toList.head? == some '-'

/-- `--[A-Za-z][A-Za-z0-9-]*`, or with one dash when `dashed`. -/
def optionName (dashed : Bool) (text : List Char) : Bool :=
  match text with
  | '-' :: '-' :: first :: rest => isLetter first && rest.all fun c => isWordChar c || c = '-'
  | '-' :: first :: rest => dashed && isLetter first && rest.all fun c => isWordChar c || c = '-'
  | _ => false

/-- The characters `.` does not match. -/
def lineBreak (c : Char) : Bool := [0x0A, 0x0D, 0x2028, 0x2029].contains c.toNat

/-- `--option=value`. -/
def assigned (dashed : Bool) (arg : String) : Option (String × String) :=
  let option := arg.toList.takeWhile (· ≠ '=')
  let value := (arg.toList.dropWhile (· ≠ '=')).drop 1
  if arg.toList.contains '=' && optionName dashed option && value.all fun c => !lineBreak c then
    some (String.ofList option, String.ofList value)
  else none

/-- A value an option may be given. -/
def valueAllowed (allows : String → Bool) (project value : String) : Bool :=
  value ≠ "" && !dashes value && staysInProject value project && allows value

/-- One-letter flags written together. -/
def clustered (flags : List String) (arg : String) : Bool :=
  match arg.toList with
  | '-' :: together =>
    2 ≤ together.length && together.all isWordChar &&
      together.all fun letter => flags.contains (String.ofList ['-', letter])
  | _ => false

/-- `readArguments`, with the plain words found so far. -/
def readFrom (spec : ArgumentSpec) (project : String) : List String → List String →
    Option (List String)
  | [], words => some words
  | arg :: rest, words =>
    -- `-` is the input, and `--` would hide an option from what follows
    if arg = "-" ∨ arg = "--" then none
    else if !dashes arg then
      if staysInProject arg project then readFrom spec project rest (words ++ [arg]) else none
    else if words ≠ [] ∧ !spec.anywhere then none
    else if spec.count && number (String.ofList (arg.toList.drop 1)) then
      readFrom spec project rest words
    else
      match assigned spec.dashed arg with
      | some (option, value) =>
        match spec.valued.lookup option with
        | some allows =>
          if valueAllowed allows project value then readFrom spec project rest words
          else none
        | none => none
      | none =>
        if arg.toList.contains '=' then none
        else
          match spec.valued.lookup arg with
          | some allows =>
            match rest with
            | [] => none
            | value :: others =>
              if valueAllowed allows project value then
                readFrom spec project others words
              else none
          | none =>
            if spec.flags.contains arg || clustered spec.flags arg then
              readFrom spec project rest words
            else none

def readArguments (args : List String) (spec : ArgumentSpec) (project : String) :
    Option (List String) := readFrom spec project args []

end LetAgents.Review

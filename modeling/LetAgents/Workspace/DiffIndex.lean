import LetAgents.Lib.Double
import LetAgents.Lib.OrderedMap
import LetAgents.Lib.TextDecoder
import LetAgents.Lib.Texts

/-!
# The diff index of a workspace review

Source: src/shared/workspace-diff.mjs. A patch is cut at its file headers, and the rows of a
file are read in pages from sparse checkpoints. Texts are sequences of UTF-16 code units, and
line numbers are doubles.
-/
namespace LetAgents.Workspace

open Lib
open LetAgents.Lib.Js (double)
open Lib.RegExp

/-! ## Quoted paths -/

def isHighSurrogate (c : Nat) : Bool := 0xD800 ≤ c && c ≤ 0xDBFF

def isLowSurrogate (c : Nat) : Bool := 0xDC00 ≤ c && c ≤ 0xDFFF

/-- The code point at the front of a text, and what follows it. -/
def codePoint : Nat → Text → Nat × Text
  | c, [] => (c, [])
  | c, d :: rest =>
    if isHighSurrogate c ∧ isLowSurrogate d then
      (0x10000 + (c - 0xD800) * 0x400 + (d - 0xDC00), rest)
    else (c, d :: rest)

/-- `encoder.encode(String.fromCodePoint(c))`; a lone surrogate has no bytes of its own. -/
def encodePoint (c : Nat) : List UInt8 :=
  TextDecoder.encode [if h : c.isValidChar then Char.ofNatAux c h else TextDecoder.replacement]

/-- The letters that stand for a control character. -/
def escaped (c : Nat) : Nat :=
  if c = u 't' then 0x09
  else if c = u 'n' then 0x0A
  else if c = u 'r' then 0x0D
  else if c = u 'b' then 0x08
  else if c = u 'f' then 0x0C
  else if c = u 'v' then 0x0B
  else c

/-- `/^\\([0-7]{1,3})/` behind the backslash. -/
def octalDigits (rest : Text) : Text := (rest.take 3).takeWhile octal

def octalValue (digits : Text) : Nat := digits.foldl (fun value d => value * 8 + (d - u '0')) 0

/-- The bytes between the quotes; every step reads a unit of the source. -/
def unquoteBytes : Nat → Text → List UInt8
  | 0, _ => []
  | _ + 1, [] => []
  | fuel + 1, c :: rest =>
    if c = u '\\' then
      let digits := octalDigits rest
      if digits ≠ [] then
        UInt8.ofNat (octalValue digits) :: unquoteBytes fuel (rest.drop digits.length)
      else
        match rest with
        | d :: rest => encodePoint (escaped d) ++ unquoteBytes fuel rest
        | [] => encodePoint c
    else encodePoint (codePoint c rest).1 ++ unquoteBytes fuel (codePoint c rest).2

/-- `new TextDecoder().decode(bytes)`. -/
def decodeBytes (bytes : List UInt8) : Text :=
  let read := TextDecoder.idle.decode bytes
  (TextDecoder.strip false (read.2 ++ read.1.flush)).2.flatMap codeUnits

def unquotePath (path : Text) : Text :=
  if path.startsWith (text "\"") ∧ path.endsWith (text "\"") then
    let source := path.tail.dropLast
    decodeBytes (unquoteBytes source.length source)
  else path

/-! ## Headers -/

structure ChangedFile where
  path : Text
  previous_path : Option Text
deriving DecidableEq

/-- A lowercase hexadecimal digit. -/
def hexUnit (d : Nat) : Nat := if d < 10 then u '0' + d else u 'a' + (d - 10)

/-- `\uXXXX` -/
def unicodeEscape (c : Nat) : Text :=
  text "\\u" ++ [hexUnit (c / 4096 % 16), hexUnit (c / 256 % 16), hexUnit (c / 16 % 16), hexUnit (c % 16)]

def jsonUnit (c : Nat) : Text :=
  if c = u '"' then text "\\\""
  else if c = u '\\' then text "\\\\"
  else if c = 0x08 then text "\\b"
  else if c = 0x0C then text "\\f"
  else if c = 0x0A then text "\\n"
  else if c = 0x0D then text "\\r"
  else if c = 0x09 then text "\\t"
  else if c < 0x20 then unicodeEscape c
  else [c]

/-- The units of a JSON string; a lone surrogate is escaped. -/
def jsonUnits : Text → Text
  | [] => []
  | [c] => if isHighSurrogate c ∨ isLowSurrogate c then unicodeEscape c else jsonUnit c
  | c :: d :: rest =>
    if isHighSurrogate c ∧ isLowSurrogate d then c :: d :: jsonUnits rest
    else if isHighSurrogate c ∨ isLowSurrogate c then unicodeEscape c ++ jsonUnits (d :: rest)
    else jsonUnit c ++ jsonUnits (d :: rest)

/-- `JSON.stringify` of a text. -/
def jsonString (t : Text) : Text := text "\"" ++ jsonUnits t ++ text "\""

/-- The first lines that a file may have in a patch. -/
def diffHeaders (file : ChangedFile) : List Text :=
  let source := text "a/" ++ file.previous_path.getD file.path
  let target := text "b/" ++ file.path
  [text "diff --git " ++ source ++ text " " ++ target,
    text "diff --git " ++ jsonString source ++ text " " ++ jsonString target]

/-- `byPath.get(path)` -/
def byPath (files : List ChangedFile) (path : Text) : Option ChangedFile :=
  (files.filter (·.path = path)).getLast?

/-- `byHeader.get(header)` -/
def byHeader (files : List ChangedFile) (header : Text) : Option ChangedFile :=
  (files.filter (header ∈ diffHeaders ·)).getLast?

/-! ## The index -/

structure Checkpoint where
  position : Nat
  before : Rat
  after : Rat
deriving DecidableEq

structure DiffFile where
  stop : Nat
  checkpoints : List Checkpoint

structure DiffIndex where
  patch : Text
  files : OrderedMap Text DiffFile

def diffGit : Text := text "diff --git "

/-- `/^diff --git /gm` matches here: a line terminator of the language comes before. -/
def isBoundary (patch : Text) (i : Nat) : Bool :=
  (i = 0 || (patch[i - 1]?).any isLineTerminator) && Text.startsWith (patch.drop i) diffGit

/-- `boundary.exec(patch)` -/
def nextBoundary (patch : Text) (lastIndex : Nat) : Option Nat :=
  (List.range' lastIndex (patch.length - lastIndex)).find? (isBoundary patch)

/-- The boundaries from an index on, one after the other. -/
def boundaries (patch : Text) : Nat → Nat → List Nat
  | 0, _ => []
  | fuel + 1, lastIndex =>
    match nextBoundary patch lastIndex with
    | none => []
    | some i => i :: boundaries patch fuel (i + diffGit.length)

/-- Where the line ends that begins at a position. -/
def lineStop (patch : Text) (stop position : Nat) : Nat :=
  min (position + (patch.drop position).idxOf 0x0A) stop

def slice (patch : Text) (start stop : Nat) : Text := (patch.drop start).take (stop - start)

/-- The lines of a section before its first hunk, and where the hunk begins. -/
def readHeaders (patch : Text) (stop : Nat) : Nat → Nat → List Text × Nat
  | 0, position => ([], position)
  | fuel + 1, position =>
    if position < stop then
      let line := slice patch position (lineStop patch stop position)
      if Text.startsWith line (text "@@ ") then ([], position)
      else
        let read := readHeaders patch stop fuel (lineStop patch stop position + 1)
        (line :: read.1, read.2)
    else ([], position)

/-- `.replace(/^b\//, '')` for one letter. -/
def withoutSide (side path : Text) : Text :=
  if path.startsWith side then path.drop side.length else path

/-- The path that the header lines of a section name. -/
def sectionPath (headers : List Text) : Option Text :=
  match headers.find? (Text.startsWith · (text "+++ ")) with
  | some target =>
    if target ≠ text "+++ /dev/null" then
      some (withoutSide (text "b/") (unquotePath (target.drop 4)))
    else sourcePath
  | none => sourcePath
where
  sourcePath : Option Text :=
    (headers.find? (Text.startsWith · (text "--- "))).map fun source =>
      withoutSide (text "a/") (unquotePath (source.drop 4))

/-- The file to which a section belongs. -/
def sectionFile (files : List ChangedFile) (headers : List Text) : Option ChangedFile :=
  ((sectionPath headers).bind (byPath files)).or <|
    ((headers.find? (Text.startsWith · (text "rename to "))).bind fun renamed =>
      byPath files (unquotePath (renamed.drop 10))).or <|
      headers.head?.bind (byHeader files)

/-- The sections of a patch: from each boundary to the next one. -/
def patchSections (patch : Text) : List (Nat × Nat) :=
  let starts := boundaries patch (patch.length + 1) 0
  starts.zip (starts.tail ++ [patch.length])

def indexSection (patch : Text) (files : List ChangedFile) (found : OrderedMap Text DiffFile)
    (section' : Nat × Nat) : OrderedMap Text DiffFile :=
  let read := readHeaders patch section'.2 (section'.2 - section'.1) section'.1
  match sectionFile files read.1 with
  | some file => found.set file.path ⟨section'.2, [⟨read.2, 0, 0⟩]⟩
  | none => found

def createWorkspaceDiffIndex (patch : Text) (files : List ChangedFile) : DiffIndex where
  patch := patch
  files := (patchSections patch).foldl (indexSection patch files) OrderedMap.empty

/-! ## Rows -/

inductive RowKind
  | hunk | added | deleted | context | metadata
deriving DecidableEq

/-- A row of a file, and where its text lies in the patch. -/
structure DiffRow where
  kind : RowKind
  before : Option Rat
  after : Option Rat
  start : Nat
  stop : Nat
deriving DecidableEq

theorem hunkHeader_parses :
    (parse (text "^@@ -(\\d+)(?:,\\d+)? \\+(\\d+)(?:,\\d+)? @@")).toOption.isSome = true := by
  decide +kernel

def hunkHeader : Compiled :=
  .literal "^@@ -(\\d+)(?:,\\d+)? \\+(\\d+)(?:,\\d+)? @@" false hunkHeader_parses

/-- `Number(digits)` -/
def number (digits : Text) : Rat :=
  double (digits.foldl (fun value d => value * 10 + (d - u '0')) 0 : Nat)

/-- The line numbers of a hunk header; the expression matches at the front or nowhere. -/
def hunkLines (line : Text) : Option (Rat × Rat) :=
  (hunkHeader.node.readings hunkHeader.ignoreCase false ⟨⟨[], line⟩, []⟩).head?.bind fun reading =>
    (reading.captures.lookup 1).bind fun before =>
      (reading.captures.lookup 2).map fun after => (number before, number after)

/-- `before++` -/
def increment (line : Rat) : Rat := double (line + 1)

/-- One line of a section: where the next one begins, with its line numbers, and the row, if
the line is one. -/
def readLine (patch : Text) (stop : Nat) (at' : Checkpoint) : Checkpoint × Option DiffRow :=
  let start := at'.position
  let lineEnd := lineStop patch stop start
  let next : Checkpoint := { at' with position := lineEnd + 1 }
  let first := patch[start]?
  let hunk := if first = some (u '@') then
      hunkLines (slice patch start (min lineEnd (start + 256))) else none
  match hunk with
  | some (before, after) =>
    (⟨lineEnd + 1, before, after⟩, some ⟨.hunk, none, none, start, lineEnd⟩)
  | none =>
    if first = some (u '+') then
      ({ next with after := increment at'.after },
        some ⟨.added, none, some at'.after, start + 1, lineEnd⟩)
    else if first = some (u '-') then
      ({ next with before := increment at'.before },
        some ⟨.deleted, some at'.before, none, start + 1, lineEnd⟩)
    else if first = some (u ' ') then
      (⟨lineEnd + 1, increment at'.before, increment at'.after⟩,
        some ⟨.context, some at'.before, some at'.after, start + 1, lineEnd⟩)
    else if start < lineEnd then (next, some ⟨.metadata, none, none, start, lineEnd⟩)
    else (next, none)

/-! ## Pages -/

/-- A row as it is shown: a part of its text. -/
structure DiffLine where
  text : Text
  kind : RowKind
  before : Option Rat
  after : Option Rat
  textLength : Nat
  textOffset : Nat
  nextTextOffset : Option Nat

structure DiffPage where
  lines : List DiffLine
  nextOffset : Option Nat
  included : Bool

/-- A limit on a number; none is `Infinity`. -/
def capped (limit : Option Nat) (n : Nat) : Nat := limit.elim n (min n)

/-- The units that a predicate accepts, at an index of the patch. -/
def unitIs (p : Nat → Bool) (patch : Text) (i : Nat) : Bool := (patch[i]?).any p

/-- The part of a row from an offset on, as far as the limits allow. -/
def showRow (patch : Text) (row : DiffRow) (textOffset : Nat) (characterLimit budget : Option Nat) :
    DiffLine :=
  let textLength := row.stop - row.start
  let from₀ := min textOffset textLength
  let to₀ := capped (budget.map (from₀ + ·)) (capped (characterLimit.map (from₀ + ·)) textLength)
  let from' := if 0 < from₀ ∧ unitIs isLowSurrogate patch (row.start + from₀) ∧
      unitIs isHighSurrogate patch (row.start + from₀ - 1) then from₀ - 1 else from₀
  let to' := if to₀ < textLength ∧ unitIs isHighSurrogate patch (row.start + to₀ - 1) then to₀ - 1
    else to₀
  { text := slice patch (row.start + from') (row.start + to')
    kind := row.kind
    before := row.before
    after := row.after
    textLength := textLength
    textOffset := from'
    nextTextOffset := if to' < textLength then some to' else none }

structure ReadOptions where
  offset : Nat
  limit : Option Nat
  textOffset : Nat
  characterLimit : Option Nat

/-- The state of the loop over the lines. -/
structure Scan where
  at' : Checkpoint
  row : Nat
  lines : List DiffLine
  budget : Option Nat
  checkpoints : List Checkpoint

/-- A row is shown from the offset on; every 500 rows leave a checkpoint where there is none.
Reads begin at a checkpoint, so that the first free place is the place of the row. -/
def Scan.take (scan : Scan) (patch : Text) (options : ReadOptions) (at' : Checkpoint)
    (row : DiffRow) : Scan :=
  let shown := showRow patch row options.textOffset options.characterLimit scan.budget
  let next := scan.row + 1
  { at' := at'
    row := next
    lines := if options.offset ≤ scan.row then scan.lines ++ [shown] else scan.lines
    budget := if options.offset ≤ scan.row then scan.budget.map (· - shown.text.length)
      else scan.budget
    checkpoints := if next % 500 = 0 ∧ scan.checkpoints[next / 500]? = none then
        scan.checkpoints ++ [at']
      else scan.checkpoints }

/-- `lines.length >= limit || budget <= 0` -/
def Scan.full (scan : Scan) (options : ReadOptions) : Bool :=
  options.limit.any (· ≤ scan.lines.length) || scan.budget.any (· = 0)

/-- The loop over the lines; each of them begins later. -/
def Scan.run (patch : Text) (stop : Nat) (options : ReadOptions) : Nat → Scan → Scan
  | 0, scan => scan
  | fuel + 1, scan =>
    if scan.at'.position < stop then
      match readLine patch stop scan.at' with
      | (at', none) => Scan.run patch stop options fuel { scan with at' := at' }
      | (at', some row) =>
        let scan := scan.take patch options at' row
        if scan.full options then scan else Scan.run patch stop options fuel scan
    else scan

/-- `readLines` of a file: the page and the checkpoints after it. -/
def readFile (patch : Text) (file : DiffFile) (options : ReadOptions) (budget : Option Nat) :
    DiffPage × DiffFile :=
  let checkpointIndex := min (options.offset / 500) (file.checkpoints.length - 1)
  match file.checkpoints[checkpointIndex]? with
  | none => (⟨[], none, true⟩, file)
  | some at' =>
    let scan := Scan.run patch file.stop options (file.stop - at'.position)
      ⟨at', checkpointIndex * 500, [], budget, file.checkpoints⟩
    (⟨scan.lines, if scan.at'.position < file.stop then some scan.row else none, true⟩,
      { file with checkpoints := scan.checkpoints })

def readLines (index : DiffIndex) (path : Text) (options : ReadOptions) (budget : Option Nat) :
    DiffPage × DiffIndex :=
  match index.files.get path with
  | none => (⟨[], none, false⟩, index)
  | some file =>
    let (page, file) := readFile index.patch file options budget
    (page, { index with files := index.files.set path file })

structure PageOptions where
  offset : Nat := 0
  textOffset : Nat := 0
  singleLine : Bool := false

/-- The limits of a page. -/
def PageOptions.read (options : PageOptions) : ReadOptions where
  offset := options.offset
  limit := some (if options.singleLine then 1 else 500)
  textOffset := options.textOffset
  characterLimit := some 4096

/-- A page, or none where the source throws `Invalid diff page.` -/
def readWorkspaceDiffPage (index : DiffIndex) (path : Text) (options : PageOptions) :
    Option (DiffPage × DiffIndex) :=
  if options.offset ≤ index.patch.length ∧ options.textOffset ≤ index.patch.length then
    some (readLines index path options.read (some (128 * 1024)))
  else none

structure PatchRow where
  text : Text
  kind : RowKind
  before : Option Rat
  after : Option Rat

/-- A map from the paths of the index to the rows, in one read of the whole file. -/
def workspaceFilePatches (patch : Text) (files : List ChangedFile) (path : Text) :
    Option (List PatchRow) :=
  let index := createWorkspaceDiffIndex patch files
  if index.files.get path = none then none
  else some <| (readLines index path ⟨0, none, 0, none⟩ none).1.lines.map fun line =>
    ⟨line.text, line.kind, line.before, line.after⟩

end LetAgents.Workspace

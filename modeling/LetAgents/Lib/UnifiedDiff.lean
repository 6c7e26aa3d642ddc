import LetAgents.Lib.Texts
import Mathlib.Data.List.TakeWhile

/-!
# Unified diffs

A patch names a file in two header lines and changes it in hunks: the old and the new lines from
a line number on. Lines are kept with their line feeds, so that a text is its lines one after the
other; the marker of a missing line feed takes it from the line before.
-/
namespace LetAgents.Lib.UnifiedDiff

open RegExp

def lineFeed : Nat := 0x0A

/-- The lines of a text, each with its line feed; the last one may lack it. -/
def lines : Text → List Text
  | [] => []
  | c :: rest =>
    if c = lineFeed then [c] :: lines rest
    else
      match lines rest with
      | [] => [[c]]
      | first :: more => (c :: first) :: more

theorem flatten_lines (t : Text) : (lines t).flatten = t := by
  induction t with
  | nil => rfl
  | cons c rest ih =>
    unfold lines
    split_ifs
    · rw [List.flatten_cons, ih]
      rfl
    · cases tail : lines rest with
      | nil | cons first more =>
        rw [tail] at ih
        rw [← ih]
        rfl

/-- A line before other text. -/
theorem lines_line (one : lineFeed ∉ line) (rest : Text) :
    lines (line ++ lineFeed :: rest) = (line ++ [lineFeed]) :: lines rest := by
  induction line with
  | nil =>
    change (if lineFeed = lineFeed then _ else _ : List Text) = _
    rfl
  | cons c line ih =>
    obtain ⟨other, one⟩ := not_or.mp (List.mem_cons.not.mp one)
    change (if c = lineFeed then _ else _ : List Text) = _
    rw [if_neg (Ne.symm other), List.append_eq, ih one]
    rfl

theorem lines_terminated {all : List Text} (one : ∀ line ∈ all, lineFeed ∉ line) (rest : Text) :
    lines ((all.map (· ++ [lineFeed])).flatten ++ rest) = all.map (· ++ [lineFeed]) ++ lines rest := by
  induction all with
  | nil => rfl
  | cons line all ih =>
    rw [List.map_cons, List.flatten_cons, List.append_assoc, List.append_assoc, List.singleton_append,
      lines_line (one line List.mem_cons_self), ih fun line member => one line (.tail _ member)]
    rfl

/-! ## Hunks and files -/

/-- Old lines from a line number on (counted from zero), and the new ones in their place. -/
structure Hunk where
  position : Nat
  old : List Text
  new : List Text

structure FilePatch where
  path : Text
  hunks : List Hunk

/-- The lines of a file from a line number on with its hunks made, or none where the old lines of
a hunk are not there. -/
def patchLines : Nat → List Text → List Hunk → Option (List Text)
  | _, rest, [] => some rest
  | number, rest, hunk :: hunks =>
    let skipped := hunk.position - number
    let here := rest.drop skipped
    if number ≤ hunk.position ∧ skipped ≤ rest.length ∧ hunk.old.isPrefixOf here then
      (patchLines (hunk.position + hunk.old.length) (here.drop hunk.old.length) hunks).map fun patched =>
        rest.take skipped ++ hunk.new ++ patched
    else none

def patchText (content : Text) (hunks : List Hunk) : Option Text :=
  (patchLines 0 (lines content) hunks).map List.flatten

/-- The contents of the files; a path without a file has the empty content. -/
abbrev Files := Text → Text

def Files.write (files : Files) (path content : Text) : Files :=
  fun other => if other = path then content else files other

@[simp] theorem Files.write_self (files : Files) (path content : Text) :
    files.write path content path = content := if_pos rfl

theorem Files.write_of_ne (files : Files) (content : Text) (ne : other ≠ path) :
    files.write path content other = files other := if_neg ne

def FilePatch.apply (files : Files) (patch : FilePatch) : Option Files :=
  (patchText (files patch.path) patch.hunks).map (files.write patch.path)

/-! ## Reading a patch -/

/-- The reader after some lines: the files in reverse, the old and new lines that the last hunk
still lacks, the name in a source line just read, and whether hunks may follow. -/
structure Reading where
  files : List FilePatch
  old : Nat
  new : Nat
  source : Option Text
  within : Bool

/-- The name in a header line without its first directory; a tab ends it. -/
def headerName (line : Text) : Text :=
  let name := (line.drop 4).takeWhile fun c => c ≠ 0x09 && c ≠ lineFeed
  if name = text "/dev/null" then name else (name.dropWhile (· ≠ u '/')).drop 1

def stripped (t head : Text) : Option Text :=
  if t.startsWith head then some (t.drop head.length) else none

theorem stripped_append (head rest : Text) : stripped (head ++ rest) head = some rest := by
  have starts : Text.startsWith (head ++ rest) head = true :=
    List.isPrefixOf_iff_prefix.mpr (List.prefix_append _ _)
  rw [stripped, starts, if_pos rfl, List.drop_left]

/-- `start,count` or `start` -/
def hunkRange (t : Text) : Option ((Nat × Nat) × Text) :=
  (decimal t).bind fun start =>
    match stripped start.2 (text ",") with
    | some rest => (decimal rest).map fun count => ((start.1, count.1), count.2)
    | none => some ((start.1, 1), start.2)

/-- A range with a count. -/
theorem hunkRange_counted (number : decimal t = some (first, text "," ++ rest))
    (more : decimal rest = some (count, rest')) : hunkRange t = some ((first, count), rest') := by
  rw [hunkRange, number, Option.bind_some, stripped_append]
  dsimp only
  rw [more, Option.map_some]

def hunkRanges (line : Text) : Option ((Nat × Nat) × (Nat × Nat)) :=
  (stripped line (text "@@ -")).bind fun rest =>
    (hunkRange rest).bind fun old =>
      (stripped old.2 (text " +")).bind fun rest =>
        (hunkRange rest).bind fun new =>
          (stripped new.2 (text " @@")).map fun _ => (old.1, new.1)

/-- Where a hunk begins: behind the line with the number if it has no old lines. -/
def hunkPosition (range : Nat × Nat) : Nat := if range.2 = 0 then range.1 else range.1 - 1

/-- A line outside of the hunks. -/
def Reading.header (r : Reading) (line : Text) : Option Reading :=
  if line.startsWith (text "--- ") then some { r with source := some (headerName line), within := false }
  else if line.startsWith (text "+++ ") then
    match r.source with
    | some source =>
      let path := if headerName line = text "/dev/null" then source else headerName line
      some { r with files := ⟨path, []⟩ :: r.files, source := none, within := true }
    | none => some { r with within := false }
  else if r.within && line.startsWith (text "@@ ") then
    (hunkRanges line).bind fun ranges =>
      match r.files with
      | file :: files =>
        some { r with
               files := ⟨file.path, ⟨hunkPosition ranges.1, [], []⟩ :: file.hunks⟩ :: files
               old := ranges.1.2
               new := ranges.2.2 }
      | [] => none
  else some { r with source := none, within := false }

/-- A line of a hunk that is complete when its lines are counted. -/
def Reading.body (r : Reading) (line : Text) : Option Reading :=
  match r.files, line with
  | ⟨path, hunk :: hunks⟩ :: files, sign :: content =>
    if sign = u '-' ∧ 0 < r.old then
      some { r with
             files := ⟨path, { hunk with old := hunk.old ++ [content] } :: hunks⟩ :: files
             old := r.old - 1 }
    else if sign = u '+' ∧ 0 < r.new then
      some { r with
             files := ⟨path, { hunk with new := hunk.new ++ [content] } :: hunks⟩ :: files
             new := r.new - 1 }
    else if sign = u ' ' ∧ 0 < r.old ∧ 0 < r.new then
      some { r with
             files := ⟨path, { hunk with
               old := hunk.old ++ [content], new := hunk.new ++ [content] } :: hunks⟩ :: files
             old := r.old - 1
             new := r.new - 1 }
    else none
  | _, _ => none

def Reading.line (r : Reading) (line : Text) : Option Reading :=
  if r.old = 0 ∧ r.new = 0 then r.header line else r.body line

/-- The marker takes the line feed from the line before. -/
def marked : List Text → List Text
  | line :: marker :: rest =>
    if marker.startsWith (text "\\") then line.dropLast :: marked rest
    else line :: marked (marker :: rest)
  | rest => rest

def start : Reading := ⟨[], 0, 0, none, false⟩

/-- The files of a patch with their hunks in order. -/
def Reading.patches (r : Reading) : List FilePatch :=
  (r.files.map fun file => { file with hunks := file.hunks.reverse }).reverse

def parse (patch : Text) : Option (List FilePatch) :=
  ((marked (lines patch)).foldlM Reading.line start).bind fun r =>
    if r.old = 0 ∧ r.new = 0 then some r.patches else none

/-- A patch made on files, or none where it does not fit. -/
def apply (patch : Text) (files : Files) : Option Files :=
  (parse patch).bind fun patches => patches.foldlM FilePatch.apply files

/-! ## Lines that begin a file -/

@[simp] theorem marked_plain (plain : ∀ line ∈ all, Text.startsWith line (text "\\") = false) :
    marked all = all := by
  induction all with
  | nil => rfl
  | cons line all ih =>
    have tail := ih fun line member => plain line (.tail _ member)
    cases all with
    | nil => rfl
    | cons next rest =>
      have unmarked := plain next (List.mem_cons_of_mem _ List.mem_cons_self)
      unfold marked
      rw [unmarked, if_neg Bool.false_ne_true, tail]

/-- Lines that are removed from the hunk at the front. -/
theorem read_removed (removed old : List Text) : (removed.map (u '-' :: ·)).foldlM Reading.line
        ⟨⟨path, ⟨position, old, []⟩ :: hunks⟩ :: files, removed.length, new, source, within⟩ =
      some ⟨⟨path, ⟨position, old ++ removed, []⟩ :: hunks⟩ :: files, 0, new, source, within⟩ := by
  induction removed generalizing old with
  | nil => rw [List.append_nil]; rfl
  | cons line removed ih =>
    rw [List.map_cons, List.foldlM_cons]
    have step : Reading.line ⟨⟨path, ⟨position, old, []⟩ :: hunks⟩ :: files, removed.length + 1, new,
        source, within⟩ (u '-' :: line) =
        some ⟨⟨path, ⟨position, old ++ [line], []⟩ :: hunks⟩ :: files, removed.length, new, source, within⟩ := by
      unfold Reading.line Reading.body
      rw [if_neg (fun zero => absurd zero.1 (Nat.succ_ne_zero _))]
      dsimp only
      rfl
    rw [List.length_cons, step, Option.bind_eq_bind, Option.bind_some, ih, List.append_assoc]
    rfl

/-- Lines that are added to the hunk at the front. -/
theorem read_added (added new : List Text) : (added.map (u '+' :: ·)).foldlM Reading.line
        ⟨⟨path, ⟨position, old, new⟩ :: hunks⟩ :: files, 0, added.length, source, within⟩ =
      some ⟨⟨path, ⟨position, old, new ++ added⟩ :: hunks⟩ :: files, 0, 0, source, within⟩ := by
  induction added generalizing new with
  | nil => rw [List.append_nil]; rfl
  | cons line added ih =>
    rw [List.map_cons, List.foldlM_cons]
    have step : Reading.line ⟨⟨path, ⟨position, old, new⟩ :: hunks⟩ :: files, 0, added.length + 1,
        source, within⟩ (u '+' :: line) =
        some ⟨⟨path, ⟨position, old, new ++ [line]⟩ :: hunks⟩ :: files, 0, added.length, source, within⟩ := by
      unfold Reading.line Reading.body
      rw [if_neg (fun zero => absurd zero.2 (Nat.succ_ne_zero _))]
      dsimp only
      rfl
    rw [List.length_cons, step, Option.bind_eq_bind, Option.bind_some, ih, List.append_assoc]
    rfl

/-! ## Names -/

/-- A name that a header line can hold. -/
def Named (path : Text) : Prop := ∀ c ∈ path, c ≠ 0x09 ∧ c ≠ lineFeed

theorem headerName_named (line : Text) : Named (headerName line) := by
  have taken : Named ((line.drop 4).takeWhile fun c => c ≠ 0x09 && c ≠ lineFeed) := by
    intro c member
    simpa using List.mem_takeWhile_imp member
  unfold headerName
  dsimp only
  split_ifs
  · exact taken
  · intro c member
    exact taken c ((List.dropWhile_sublist _).subset (List.mem_of_mem_drop member))

/-- A name behind its side is read from a header line. -/
theorem headerName_side {head path : Text} {side : Nat} (four : head.length = 4)
    (letter : side ≠ 0x09 ∧ side ≠ lineFeed ∧ side ≠ u '/') (named : Named path) :
    headerName (head ++ (side :: u '/' :: path ++ [lineFeed])) = path := by
  have whole : Named (side :: u '/' :: path) := by
    intro c member
    obtain rfl | rfl | inside := List.mem_cons.mp member |>.imp id List.mem_cons.mp
    · exact ⟨letter.1, letter.2.1⟩
    · exact ⟨by decide, by decide⟩
    · exact named c inside
  have taken : ((side :: u '/' :: path) ++ [lineFeed]).takeWhile (fun c => c ≠ 0x09 && c ≠ lineFeed) =
      side :: u '/' :: path := by
    rw [List.takeWhile_append_of_pos (fun c member => by simpa using whole c member)]
    simp [lineFeed]
  have other : side :: u '/' :: path ≠ text "/dev/null" :=
    fun same => letter.2.2 (List.cons.inj same).1
  unfold headerName
  rw [List.drop_left' four, taken, if_neg other,
    List.dropWhile_cons_of_pos (by simpa using letter.2.2), List.dropWhile_cons_of_neg (by simp)]
  rfl

/-- A line outside of a hunk that is no header. -/
theorem header_other {r : Reading} (idle : r.old = 0 ∧ r.new = 0)
    (source : Text.startsWith line (text "--- ") = false)
    (target : Text.startsWith line (text "+++ ") = false)
    (hunk : Text.startsWith line (text "@@ ") = false) :
    r.line line = some { r with source := none, within := false } := by
  unfold Reading.line Reading.header
  rw [if_pos idle, source, target, hunk, Bool.and_false]
  rfl

/-- Every name that the reader holds came from a header line. -/
def Reading.Named (r : Reading) : Prop :=
  (∀ file ∈ r.files, UnifiedDiff.Named file.path) ∧ ∀ source ∈ r.source, UnifiedDiff.Named source

theorem Reading.Named.header {r r' : Reading} {line : Text} (named : r.Named)
    (read : r.header line = some r') : r'.Named := by
  obtain ⟨files, source⟩ := named
  unfold Reading.header at read
  split at read
  · rw [← Option.some.inj read]
    exact ⟨files, fun source same => Option.some.inj same ▸ headerName_named line⟩
  split at read
  · split at read
    · rename_i name found
      rw [← Option.some.inj read]
      refine ⟨fun file member => ?_, by rintro _ ⟨⟩⟩
      obtain rfl | old := List.mem_cons.mp member
      · change UnifiedDiff.Named (if headerName line = text "/dev/null" then name else headerName line)
        split
        · exact source name found
        · exact headerName_named line
      · exact files file old
    · rw [← Option.some.inj read]
      exact ⟨files, source⟩
  split at read
  · obtain ⟨ranges, -, opened⟩ := Option.bind_eq_some_iff.mp read
    split at opened
    · rename_i file others same
      rw [same] at files
      rw [← Option.some.inj opened]
      refine ⟨fun file' member => ?_, source⟩
      obtain rfl | old := List.mem_cons.mp member
      · exact files file List.mem_cons_self
      · exact files file' (.tail _ old)
    · cases opened
  · rw [← Option.some.inj read]
    exact ⟨files, by rintro _ ⟨⟩⟩

theorem Reading.Named.body {r r' : Reading} {line : Text} (named : r.Named)
    (read : r.body line = some r') : r'.Named := by
  obtain ⟨files, source⟩ := named
  unfold Reading.body at read
  split at read
  · rename_i path hunk hunks others sign content same
    rw [same] at files
    have own : UnifiedDiff.Named path := files ⟨path, hunk :: hunks⟩ List.mem_cons_self
    have kept (hunks : List Hunk) : ∀ file ∈ (⟨path, hunks⟩ : FilePatch) :: others,
        UnifiedDiff.Named file.path := by
      intro file member
      obtain rfl | old := List.mem_cons.mp member
      · exact own
      · exact files file (.tail _ old)
    split_ifs at read
    · rw [← Option.some.inj read]
      exact ⟨kept _, source⟩
    · rw [← Option.some.inj read]
      exact ⟨kept _, source⟩
    · rw [← Option.some.inj read]
      exact ⟨kept _, source⟩
  · cases read

theorem Reading.Named.line {r r' : Reading} {line : Text} (named : r.Named) (read : r.line line = some r') :
    r'.Named := by
  unfold Reading.line at read
  split_ifs at read
  · exact named.header read
  · exact named.body read

theorem Reading.Named.lines {all : List Text} (named : r.Named)
    (read : all.foldlM Reading.line r = some r') : r'.Named := by
  induction all generalizing r with
  | nil =>
    obtain rfl := Option.some.inj read
    exact named
  | cons line all ih =>
    obtain ⟨next, first, rest⟩ := Option.bind_eq_some_iff.mp read
    exact ih (named.line first) rest

/-- A patch never names a path with a tab or a line feed. -/
theorem parse_named (read : parse patch = some patches) : ∀ file ∈ patches, Named file.path := by
  obtain ⟨r, lines, whole⟩ := Option.bind_eq_some_iff.mp read
  have named : r.Named := Reading.Named.lines ⟨fun _ none => absurd none List.not_mem_nil, by rintro _ ⟨⟩⟩ lines
  split_ifs at whole
  obtain rfl := Option.some.inj whole
  intro file member
  obtain ⟨old, known, rfl⟩ := List.mem_map.mp (List.mem_reverse.mp member)
  exact named.1 old known

/-- Files that a patch does not name keep their content. -/
theorem FilePatch.apply_other {patch : FilePatch} (applied : patch.apply files = some files')
    {path : Text} (other : path ≠ patch.path) : files' path = files path := by
  obtain ⟨content, -, rfl⟩ := Option.map_eq_some_iff.mp applied
  exact Files.write_of_ne _ _ other

theorem apply_other (applied : apply patch files = some files') (unnamed : ¬Named path) :
    files' path = files path := by
  obtain ⟨patches, read, made⟩ := Option.bind_eq_some_iff.mp applied
  have named := parse_named read
  clear read applied
  induction patches generalizing files with
  | nil =>
    obtain rfl := Option.some.inj made
    rfl
  | cons first rest ih =>
    obtain ⟨next, one, more⟩ := Option.bind_eq_some_iff.mp made
    rw [ih more fun file member => named file (.tail _ member)]
    exact first.apply_other one fun same => unnamed (same ▸ named first List.mem_cons_self)

/-! ## A hunk from the first line on -/

/-- A hunk at the front fits where its old lines are the first ones. -/
theorem patchText_front : patchText content [⟨0, old, new⟩] =
      if old.isPrefixOf (lines content) then
        some (new.flatten ++ ((lines content).drop old.length).flatten)
      else none := by
  unfold patchText patchLines patchLines
  dsimp only
  rw [Nat.sub_self, List.drop_zero, List.take_zero, List.nil_append]
  split_ifs with fits front front
  · rw [Option.map_some, Option.map_some, List.flatten_append]
  · exact absurd fits.2.2 front
  · exact absurd ⟨le_rfl, Nat.zero_le _, front⟩ fits
  · rfl

end LetAgents.Lib.UnifiedDiff

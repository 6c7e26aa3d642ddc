import LetAgents.Workspace.Pages
import Mathlib.Data.List.Sort

/-!
# Sections of a patch

A patch is cut wherever `diff --git ` follows a line terminator of the language, and rows end
at line feeds only. The two agree when no other terminator comes before such a header.
-/
namespace LetAgents.Workspace

open Lib Lib.RegExp

variable {patch : Text}

/-! ## Boundaries -/

theorem isBoundary_get {i k : Nat} (boundary : isBoundary patch i = true) (inside : k < diffGit.length) :
    patch[i + k]? = some diffGit[k] := by
  obtain ⟨rest, same⟩ := List.isPrefixOf_iff_prefix.mp (Bool.and_eq_true_iff.mp boundary).2
  rw [← List.getElem?_drop, ← same, List.getElem?_append_left inside, List.getElem?_eq_getElem inside]

theorem isBoundary_lt {i : Nat} (boundary : isBoundary patch i = true) : i + diffGit.length ≤ patch.length := by
  have last := isBoundary_get (k := diffGit.length - 1) boundary (by decide)
  have := (List.getElem?_eq_some_iff.mp last).1
  omega

/-- A header holds no line terminator, so that two of them never overlap. -/
theorem isBoundary_apart {i j : Nat} (first : isBoundary patch i = true) (later : i < j)
    (second : isBoundary patch j = true) : i + diffGit.length ≤ j := by
  by_contra near
  have inside : j - 1 - i < diffGit.length := by omega
  have got := isBoundary_get first inside
  rw [show i + (j - 1 - i) = j - 1 by omega] at got
  have starts := (Bool.and_eq_true_iff.mp second).1
  rw [got, Option.any_some] at starts
  have plain : ∀ c ∈ diffGit, isLineTerminator c = false := by decide
  rw [plain _ (List.getElem_mem inside), Bool.or_false] at starts
  have : j = 0 := by simpa using starts
  omega

/-- The boundaries from an index on, in order. -/
theorem boundaries_spec (fuel lastIndex : Nat) (enough : patch.length < lastIndex + fuel) :
    (boundaries patch fuel lastIndex).Pairwise (· < ·) ∧
      ∀ i, i ∈ boundaries patch fuel lastIndex ↔ lastIndex ≤ i ∧ isBoundary patch i = true := by
  induction fuel generalizing lastIndex with
  | zero =>
    refine ⟨List.Pairwise.nil, fun i => ?_⟩
    constructor
    · exact fun none => absurd none List.not_mem_nil
    · rintro ⟨after, boundary⟩
      have := isBoundary_lt boundary
      omega
  | succ fuel ih =>
    unfold boundaries
    cases found : nextBoundary patch lastIndex with
    | none =>
      refine ⟨List.Pairwise.nil, fun i => ?_⟩
      constructor
      · exact fun none => absurd none List.not_mem_nil
      · rintro ⟨after, boundary⟩
        have := isBoundary_lt boundary
        have : 0 < diffGit.length := by decide
        exact absurd boundary (List.find?_eq_none.mp found i (List.mem_range'_1.mpr ⟨after, by omega⟩))
    | some first =>
      have positive : 0 < diffGit.length := by decide
      have boundary : isBoundary patch first = true := List.find?_some found
      have inside := List.mem_range'_1.mp (List.mem_of_find?_eq_some found)
      obtain ⟨ordered, members⟩ := ih (first + diffGit.length) (by omega)
      refine ⟨List.pairwise_cons.mpr ⟨fun i member => ?_, ordered⟩, fun i => ?_⟩
      · have := ((members i).mp member).1
        omega
      · rw [List.mem_cons, members]
        constructor
        · rintro (rfl | ⟨after, here⟩)
          · exact ⟨inside.1, boundary⟩
          · exact ⟨by omega, here⟩
        · rintro ⟨after, here⟩
          have least : ¬i < first := by
            intro less
            have other := (List.find?_range'_eq_some.mp found).2.2 i after less
            rw [here] at other
            cases other
          obtain rfl | apart := (Nat.not_lt.mp least).eq_or_lt
          · exact .inl rfl
          · exact .inr ⟨isBoundary_apart boundary apart here, here⟩

/-! ## Sections -/

/-- A section of a file: lines that end with a line feed, of which the first one alone is a
header. -/
structure IsSection (s : Text) : Prop where
  opens : Text.startsWith s diffGit = true
  closes : s.getLast? = some 0x0A
  single : ∀ i, s[i]? = some 0x0A → Text.startsWith (s.drop (i + 1)) diffGit = false

/-- No header text follows a carriage return or one of the two other separators. -/
def Plain (s : Text) : Prop :=
  ∀ i c, s[i]? = some c → c = 0x0D ∨ c = 0x2028 ∨ c = 0x2029 →
    Text.startsWith (s.drop (i + 1)) diffGit = false

theorem IsSection.nonempty {s : Text} (formed : IsSection s) : 0 < s.length := by
  cases s with
  | nil => cases formed.closes
  | cons c rest => exact Nat.succ_pos _

/-- A header that begins in a section ends in it. -/
theorem startsWith_append {t post : Text} (closes : t.getLast? = some 0x0A) :
    Text.startsWith (t ++ post) diffGit = Text.startsWith t diffGit := by
  unfold Text.startsWith
  rw [Bool.eq_iff_iff, List.isPrefixOf_iff_prefix, List.isPrefixOf_iff_prefix]
  constructor
  · intro head
    obtain short | long := Nat.lt_or_ge t.length diffGit.length
    · -- the line feed would be a unit of the header
      obtain ⟨front, rfl⟩ := List.getLast?_eq_some_iff.mp closes
      have inside : 0x0A ∈ diffGit :=
        (List.prefix_of_prefix_length_le (List.prefix_append _ post) head short.le).subset (by simp)
      exact absurd inside (by decide)
    · exact List.prefix_of_prefix_length_le head (List.prefix_append t post) long
  · exact fun head => head.trans (List.prefix_append t post)

/-- A section is cut where it would be cut by itself. -/
theorem isBoundary_section {pre s : Text} (post : Text) {k : Nat} (formed : IsSection s)
    (before : pre = [] ∨ pre.getLast? = some 0x0A) (inside : k < s.length) :
    isBoundary (pre ++ (s ++ post)) (pre.length + k) = isBoundary s k := by
  have starts : Text.startsWith ((pre ++ (s ++ post)).drop (pre.length + k)) diffGit =
      Text.startsWith (s.drop k) diffGit := by
    rw [List.drop_length_add_append, List.drop_append_of_le_length inside.le]
    have last : (s.drop k).getLast? = some 0x0A := by
      rw [List.getLast?_drop, if_neg (Nat.not_le.mpr inside), formed.closes]
    exact startsWith_append last
  unfold isBoundary
  congr 1
  cases k with
  | zero =>
    obtain rfl | last := before
    · rfl
    · obtain ⟨front, rfl⟩ := List.getLast?_eq_some_iff.mp last
      simp [isLineTerminator]
  | succ k =>
    rw [show pre.length + (k + 1) - 1 = pre.length + k from rfl, List.getElem?_append_right (Nat.le_add_right _ _),
      Nat.add_sub_cancel_left, List.getElem?_append_left (Nat.lt_of_succ_lt inside)]
    rfl

/-- A section is cut at its front alone exactly if it is plain. -/
theorem plain_iff {s : Text} (formed : IsSection s) :
    (∀ k < s.length, isBoundary s k = true → k = 0) ↔ Plain s := by
  constructor
  · intro whole i c got other
    by_contra starts
    rw [Bool.not_eq_false] at starts
    have inside : i + 1 < s.length := by
      by_contra past
      rw [List.drop_of_length_le (Nat.not_lt.mp past)] at starts
      cases starts
    have terminator : isLineTerminator c = true := by
      obtain rfl | rfl | rfl := other <;> rfl
    refine absurd (whole (i + 1) inside ?_) (Nat.succ_ne_zero i)
    rw [isBoundary, Nat.add_sub_cancel, got, starts, Option.any_some, terminator]
    rfl
  · intro plain k inside boundary
    cases k with
    | zero => rfl
    | succ i =>
      obtain ⟨before, starts⟩ := Bool.and_eq_true_iff.mp boundary
      have terminated : (s[i]?).any isLineTerminator = true := by simpa using before
      obtain ⟨c, got, terminator⟩ := (Option.any_eq_true _ _).mp terminated
      have other : Text.startsWith (s.drop (i + 1)) diffGit = false := by
        by_cases feed : c = 0x0A
        · exact formed.single i (feed ▸ got)
        · refine plain i c got ?_
          simp only [isLineTerminator, Bool.or_eq_true, decide_eq_true_eq] at terminator
          tauto
      rw [other] at starts
      cases starts

/-- Where the sections of a patch begin. -/
def sectionStarts : Nat → List Text → List Nat
  | _, [] => []
  | start, s :: rest => start :: sectionStarts (start + s.length) rest

theorem sectionStarts_ge (start : Nat) (sections : List Text) : ∀ i ∈ sectionStarts start sections, start ≤ i := by
  induction sections generalizing start with
  | nil => exact nofun
  | cons s rest ih =>
    intro i member
    obtain rfl | later := List.mem_cons.mp member
    · exact le_rfl
    · exact (Nat.le_add_right _ _).trans (ih _ i later)

theorem sectionStarts_ordered (start : Nat) {sections : List Text}
    (formed : ∀ s ∈ sections, IsSection s) : (sectionStarts start sections).Pairwise (· < ·) := by
  induction sections generalizing start with
  | nil => exact List.Pairwise.nil
  | cons s rest ih =>
    refine List.pairwise_cons.mpr ⟨fun i later => ?_, ih _ fun s member => formed s (.tail _ member)⟩
    have := sectionStarts_ge _ rest i later
    have := (formed s List.mem_cons_self).nonempty
    omega

/-- The cuts are the beginnings of the sections exactly if every section is plain. -/
theorem cuts_iff {pre : Text} {sections : List Text} (formed : ∀ s ∈ sections, IsSection s)
    (before : pre = [] ∨ pre.getLast? = some 0x0A) :
    (∀ i, pre.length ≤ i → (isBoundary (pre ++ sections.flatten) i = true ↔
      i ∈ sectionStarts pre.length sections)) ↔ ∀ s ∈ sections, Plain s := by
  induction sections generalizing pre with
  | nil =>
    refine iff_of_true (fun i after => ?_) (nofun)
    refine iff_of_false (fun boundary => ?_) List.not_mem_nil
    have := isBoundary_lt boundary
    have : 0 < diffGit.length := by decide
    rw [List.flatten_nil, List.append_nil] at *
    omega
  | cons s rest ih =>
    have here := formed s List.mem_cons_self
    have formed' : ∀ s ∈ rest, IsSection s := fun s member => formed s (.tail _ member)
    have before' : pre ++ s = [] ∨ (pre ++ s).getLast? = some 0x0A :=
      .inr (by rw [List.getLast?_append, here.closes, Option.some_or])
    have rest_iff := ih formed' before'
    rw [List.length_append, List.append_assoc] at rest_iff
    have positive := here.nonempty
    rw [List.forall_mem_cons, ← rest_iff, ← plain_iff here, List.flatten_cons, sectionStarts]
    have opening : isBoundary (pre ++ (s ++ rest.flatten)) pre.length = true := by
      have same := isBoundary_section rest.flatten here before positive
      rw [Nat.add_zero] at same
      rw [same, isBoundary, List.drop_zero, here.opens]
      rfl
    constructor
    · intro cuts
      refine ⟨fun k inside boundary => ?_, fun i after => ?_⟩
      · rw [← isBoundary_section rest.flatten here before inside] at boundary
        obtain same | later := List.mem_cons.mp ((cuts _ (Nat.le_add_right _ _)).mp boundary)
        · omega
        · have := sectionStarts_ge _ rest _ later
          omega
      · rw [cuts i (by omega), List.mem_cons]
        exact or_iff_right (by omega)
    · rintro ⟨whole, cuts⟩ i after
      obtain inside | past := Nat.lt_or_ge i (pre.length + s.length)
      · constructor
        · intro boundary
          obtain ⟨k, rfl⟩ := Nat.exists_eq_add_of_le after
          rw [isBoundary_section _ here before (by omega)] at boundary
          rw [whole k (by omega) boundary]
          exact .head _
        · intro member
          obtain rfl | later := List.mem_cons.mp member
          · exact opening
          · have := sectionStarts_ge _ rest _ later
            omega
      · rw [cuts i past, List.mem_cons]
        exact (or_iff_right (by omega)).symm

/-! ## A section within a patch -/

def Checkpoint.shift (n : Nat) (at' : Checkpoint) : Checkpoint :=
  { at' with position := n + at'.position }

def DiffRow.shift (n : Nat) (row : DiffRow) : DiffRow :=
  { row with start := n + row.start, stop := n + row.stop }

section
variable (pre : Text) {s : Text} (post : Text)

theorem get_section {k : Nat} (inside : k < s.length) :
    (pre ++ (s ++ post))[pre.length + k]? = s[k]? := by
  rw [List.getElem?_append_right (Nat.le_add_right _ _), Nat.add_sub_cancel_left,
    List.getElem?_append_left inside]

theorem slice_section {a b : Nat} (inside : b ≤ s.length) :
    slice (pre ++ (s ++ post)) (pre.length + a) (pre.length + b) = slice s a b := by
  rw [slice, slice, List.drop_length_add_append, Nat.add_sub_add_left]
  obtain before | after := Nat.le_total a b
  · rw [List.drop_append_of_le_length (before.trans inside), List.take_append_of_le_length]
    rw [List.length_drop]
    omega
  · rw [Nat.sub_eq_zero_of_le after, List.take_zero, List.take_zero]

section

variable (closes : s.getLast? = some 0x0A)
include closes

theorem lineStop_section {k : Nat} (inside : k < s.length) :
    lineStop (pre ++ (s ++ post)) (pre.length + s.length) (pre.length + k) =
      pre.length + lineStop s s.length k := by
  have last : (s.drop k).getLast? = some 0x0A := by
    rw [List.getLast?_drop, if_neg (Nat.not_le.mpr inside), closes]
  have feed : 0x0A ∈ s.drop k := List.mem_of_getLast? last
  rw [lineStop, lineStop, List.drop_length_add_append, List.drop_append_of_le_length inside.le,
    List.idxOf_append_of_mem feed, Nat.add_assoc, Nat.add_min_add_left]

theorem readLine_section {at' : Checkpoint} (inside : at'.position < s.length) :
    readLine (pre ++ (s ++ post)) (pre.length + s.length) (at'.shift pre.length) =
      ((readLine s s.length at').1.shift pre.length,
        (readLine s s.length at').2.map (DiffRow.shift pre.length)) := by
  have ends := lineStop_section pre post closes inside
  have bounded := @lineStop_le s s.length at'.position
  have part := slice_section (a := at'.position) pre post
    ((Nat.min_le_left _ (at'.position + 256)).trans bounded)
  unfold readLine
  dsimp only [Checkpoint.shift]
  rw [ends, get_section pre post inside, Nat.add_assoc pre.length at'.position 256, Nat.add_min_add_left, part]
  generalize (if s[at'.position]? = some (u '@') then hunkLines (slice s at'.position
    (min (lineStop s s.length at'.position) (at'.position + 256))) else none) = hunk
  cases hunk with
  | some lines => rfl
  | none =>
    split_ifs <;> first | rfl | omega

theorem rowsFrom_section (at' : Checkpoint) :
    rowsFrom (pre ++ (s ++ post)) (pre.length + s.length) (at'.shift pre.length) =
      (rowsFrom s s.length at').map (Prod.map (DiffRow.shift pre.length) (Checkpoint.shift pre.length)) := by
  induction at' using lines_induction s s.length with
  | past at' past =>
    rw [rowsFrom_end past, rowsFrom_end (Nat.add_le_add_left past _)]
    rfl
  | line at' next row inside read ih =>
    have same := readLine_section pre post closes inside
    rw [read] at same
    rw [rowsFrom_line inside read, rowsFrom_line (Nat.add_lt_add_left inside _) same, ih, List.map_append]
    cases row <;> rfl

theorem readHeaders_section (fuel k : Nat) :
    readHeaders (pre ++ (s ++ post)) (pre.length + s.length) fuel (pre.length + k) =
      ((readHeaders s s.length fuel k).1, pre.length + (readHeaders s s.length fuel k).2) := by
  induction fuel generalizing k with
  | zero => rfl
  | succ fuel ih =>
    unfold readHeaders
    by_cases inside : k < s.length
    · have ends := lineStop_section pre post closes inside
      rw [if_pos inside, if_pos (Nat.add_lt_add_left inside _), ends,
        slice_section pre post (lineStop_le k), Nat.add_assoc, ih]
      dsimp only
      split_ifs <;> rfl
    · rw [if_neg inside, if_neg (fun inside' => inside (Nat.lt_of_add_lt_add_left inside'))]

end

end

/-! ## Reading a file of its own section -/

/-- The rows that a section has for a path when it is read by itself. -/
def sectionPatches (files : List ChangedFile) (path s : Text) : Option (List PatchRow) :=
  let read := readHeaders s s.length s.length 0
  match sectionFile files read.1 with
  | some file =>
    if file.path = path then
      some <| (readFile s ⟨s.length, [⟨read.2, 0, 0⟩]⟩ ⟨0, none, 0, none⟩ none).1.lines.map fun line =>
        ⟨line.text, line.kind, line.before, line.after⟩
    else none
  | none => none

/-- The intervals that the sections take. -/
def sectionIntervals : Nat → List Text → List (Nat × Nat)
  | _, [] => []
  | start, s :: rest => (start, start + s.length) :: sectionIntervals (start + s.length) rest

/-- The patch is cut at its sections, and a file has the rows of its own section: of the last one
that names it. -/
def SplitsExactly (sections : List Text) (files : List ChangedFile) : Prop :=
  patchSections sections.flatten = sectionIntervals 0 sections ∧
    ∀ path, workspaceFilePatches sections.flatten files path =
      sections.reverse.findSome? (sectionPatches files path)

theorem readFile_whole (start : Checkpoint) {stop : Nat} :
    (readFile patch ⟨stop, [start]⟩ ⟨0, none, 0, none⟩ none).1.lines.map (fun line =>
      (⟨line.text, line.kind, line.before, line.after⟩ : PatchRow)) =
      (rowsFrom patch stop start).map fun found =>
        ⟨rowText patch found.1, found.1.kind, found.1.before, found.1.after⟩ := by
  obtain ⟨taken, rest, rows, shown, -, last, whole, -⟩ :=
    @readFile_spec patch stop ⟨0, none, 0, none⟩ start none ⟨by simp, by simp⟩
  obtain rfl := last (whole rfl rfl)
  rw [List.drop_zero, List.append_nil] at rows
  rw [shown, rows, shownRows_whole]

/-- The rows of a file of an index. -/
def filePatches (patch : Text) (file : DiffFile) : List PatchRow :=
  (readFile patch file ⟨0, none, 0, none⟩ none).1.lines.map fun line =>
    ⟨line.text, line.kind, line.before, line.after⟩

theorem workspaceFilePatches_get (patch : Text) (files : List ChangedFile) (path : Text) :
    workspaceFilePatches patch files path =
      ((createWorkspaceDiffIndex patch files).files.get path).map (filePatches patch) := by
  unfold workspaceFilePatches readLines
  dsimp only
  cases got : (createWorkspaceDiffIndex patch files).files.get path with
  | none => rfl
  | some file =>
    rfl

theorem rowText_section (pre post : Text) {s : Text} {row : DiffRow} (bounded : row.stop ≤ s.length) :
    rowText (pre ++ (s ++ post)) (row.shift pre.length) = rowText s row :=
  slice_section pre post bounded

theorem filePatches_section (pre post : Text) {s : Text} (closes : s.getLast? = some 0x0A)
    (start : Checkpoint) :
    filePatches (pre ++ (s ++ post)) ⟨pre.length + s.length, [start.shift pre.length]⟩ =
      filePatches s ⟨s.length, [start]⟩ := by
  unfold filePatches
  rw [readFile_whole, readFile_whole, rowsFrom_section pre post closes, List.map_map]
  refine List.map_congr_left fun found member => ?_
  have bounded := rowsFrom_bounded le_rfl start found member
  exact congrArg (fun shown => PatchRow.mk shown found.1.kind found.1.before found.1.after)
    (rowText_section pre post bounded)

theorem sectionIntervals_concat (start : Nat) (sections : List Text) (s : Text) :
    sectionIntervals start (sections ++ [s]) = sectionIntervals start sections ++
      [(start + sections.flatten.length, start + sections.flatten.length + s.length)] := by
  induction sections generalizing start with
  | nil => rfl
  | cons first rest ih =>
    rw [List.cons_append, sectionIntervals, ih, List.flatten_cons, List.length_append, ← Nat.add_assoc]
    rfl

/-- One more section: its file gets its rows, the others keep theirs. -/
theorem indexSection_section (pre post : Text) {s : Text} (files : List ChangedFile) (path : Text)
    (found : OrderedMap Text DiffFile) (closes : s.getLast? = some 0x0A) :
    ((indexSection (pre ++ (s ++ post)) files found (pre.length, pre.length + s.length)).get path).map
        (filePatches (pre ++ (s ++ post))) =
      (sectionPatches files path s).or ((found.get path).map (filePatches (pre ++ (s ++ post)))) := by
  have headers := readHeaders_section pre post closes s.length 0
  rw [Nat.add_zero] at headers
  unfold indexSection sectionPatches
  dsimp only
  rw [Nat.add_sub_cancel_left, headers]
  cases sectionFile files (readHeaders s s.length s.length 0).1 with
  | none => rfl
  | some file =>
    dsimp only
    by_cases same : file.path = path
    · rw [if_pos same, same, OrderedMap.get_set_self, Option.some_or]
      exact congrArg some (filePatches_section pre post closes ⟨(readHeaders s s.length s.length 0).2, 0, 0⟩)
    · rw [if_neg same, OrderedMap.get_set_of_ne _ _ (Ne.symm same), Option.none_or]

theorem indexed_sections (files : List ChangedFile) (path : Text) {sections rest : List Text}
    (formed : ∀ s ∈ sections, IsSection s) :
    (((sectionIntervals 0 sections).foldl (indexSection (sections ++ rest).flatten files)
      OrderedMap.empty).get path).map (filePatches (sections ++ rest).flatten) =
      sections.reverse.findSome? (sectionPatches files path) := by
  induction sections using List.reverseRecOn generalizing rest with
  | nil => rfl
  | append_singleton sections s ih =>
    have here := formed s (by simp)
    have before := @ih (s :: rest) fun s member => formed s (List.mem_append_left _ member)
    have whole : (sections ++ [s] ++ rest).flatten = sections.flatten ++ (s ++ rest.flatten) := by simp
    rw [show (sections ++ s :: rest).flatten = sections.flatten ++ (s ++ rest.flatten) by simp] at before
    rw [whole, sectionIntervals_concat, List.foldl_concat, Nat.zero_add,
      indexSection_section _ _ _ _ _ here.closes, before, List.reverse_concat, List.findSome?_cons]
    cases sectionPatches files path s <;> rfl

/-! ## Where the cuts are right -/

theorem patchSections_starts : (patchSections patch).map Prod.fst = boundaries patch (patch.length + 1) 0 := by
  unfold patchSections
  rw [List.map_fst_zip]
  cases boundaries patch (patch.length + 1) 0 with
  | nil => exact Nat.zero_le _
  | cons first rest => simp

theorem sectionIntervals_starts (start : Nat) (sections : List Text) :
    (sectionIntervals start sections).map Prod.fst = sectionStarts start sections := by
  induction sections generalizing start with
  | nil => rfl
  | cons s rest ih => exact congrArg (List.cons start) (ih _)

theorem sectionIntervals_zip (start : Nat) (sections : List Text) :
    (sectionStarts start sections).zip ((sectionStarts start sections).tail ++
      [start + sections.flatten.length]) = sectionIntervals start sections := by
  induction sections generalizing start with
  | nil => rfl
  | cons s rest ih =>
    have tail := ih (start + s.length)
    rw [sectionStarts, sectionIntervals, List.tail_cons, List.flatten_cons, List.length_append,
      ← Nat.add_assoc, ← tail]
    cases rest with
    | nil => simp [sectionStarts]
    | cons next rest => rfl

theorem IsSection.of_bounded {s : Text} (opens : Text.startsWith s diffGit = true)
    (closes : s.getLast? = some 0x0A)
    (single : ∀ i < s.length, s[i]? = some 0x0A → Text.startsWith (s.drop (i + 1)) diffGit = false) :
    IsSection s :=
  ⟨opens, closes, fun i got => single i (List.getElem?_eq_some_iff.mp got).1 got⟩

/-- An added line with a carriage return before the header text. -/
def returningSection : Text := text
  "diff --git a/f b/f\n--- a/f\n+++ b/f\n@@ -1 +1 @@\n+x\rdiff --git y\n+z\n"

def returningFiles : List ChangedFile := [⟨text "f", none⟩]

end LetAgents.Workspace

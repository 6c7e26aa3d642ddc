import LetAgents.Workspace.PagedReading

/-!
# Pages are the whole read

Following `nextOffset` gives every row once and in order, whatever was read before, and
following `nextTextOffset` gives the text of a row without a cut through a surrogate pair.
-/
namespace LetAgents.Workspace

open Lib.RegExp

variable {patch : Text}

/-! ## The text of a row -/

def rowText (patch : Text) (row : DiffRow) : Text := slice patch row.start row.stop

/-- A cut at an index separates the halves of a surrogate pair. -/
def SplitsPair (t : Text) (k : Nat) : Prop :=
  0 < k ∧ unitIs isHighSurrogate t (k - 1) ∧ unitIs isLowSurrogate t k

instance (t : Text) (k : Nat) : Decidable (SplitsPair t k) :=
  inferInstanceAs (Decidable (_ ∧ _ ∧ _))

theorem rowText_length {row : DiffRow} (bounded : row.stop ≤ patch.length) :
    (rowText patch row).length = row.stop - row.start := by
  rw [rowText, slice, List.length_take, List.length_drop]
  omega

theorem unitIs_rowText {row : DiffRow} {k : Nat} (p : Nat → Bool) (inside : k < row.stop - row.start) :
    unitIs p patch (row.start + k) = unitIs p (rowText patch row) k := by
  rw [unitIs, unitIs, rowText, slice, List.getElem?_take_of_lt inside, List.getElem?_drop]

theorem not_low_of_high {c : Nat} (high : isHighSurrogate c = true) : isLowSurrogate c = false := by
  simp only [isHighSurrogate, isLowSurrogate, Bool.and_eq_true, decide_eq_true_eq,
    Bool.and_eq_false_iff, decide_eq_false_iff_not] at *
  omega

theorem not_splits_of_high {t : Text} {k : Nat} (high : unitIs isHighSurrogate t k = true) :
    ¬SplitsPair t k := by
  rintro ⟨-, -, low⟩
  rw [unitIs, Option.any_eq_true] at high low
  obtain ⟨c, got, high⟩ := high
  obtain ⟨d, got', low⟩ := low
  obtain rfl := Option.some.inj (got.symm.trans got')
  rw [not_low_of_high high] at low
  cases low

/-- A limit of at least two units: a pair fits. -/
def Wide (limit : Option Nat) : Prop := ∀ n, limit = some n → 2 ≤ n

theorem wide_characters : Wide (some 4096) := by
  rintro n ⟨⟩
  decide

theorem wide_budget : Wide (some (128 * 1024)) := by
  rintro n ⟨⟩
  decide

theorem capped_spec (limit : Option Nat) (o n : Nat) :
    capped (limit.map (o + ·)) n ≤ n ∧ (o ≤ n → o ≤ capped (limit.map (o + ·)) n) ∧
      (Wide limit → o + 2 ≤ capped (limit.map (o + ·)) n ∨ capped (limit.map (o + ·)) n = n) := by
  cases limit with
  | none => exact ⟨le_rfl, id, fun _ => .inr rfl⟩
  | some limit =>
    dsimp only [capped, Option.map, Option.elim]
    refine ⟨Nat.min_le_left _ _, fun before => by omega, fun wide => ?_⟩
    have := wide limit rfl
    omega

/-- The part that is shown: it begins at the offset and ends where no pair is split. -/
theorem showRow_part {row : DiffRow} {o : Nat} {characterLimit budget : Option Nat}
    (bounded : row.stop ≤ patch.length) (whole : ¬SplitsPair (rowText patch row) o)
    (inside : o = 0 ∨ o < row.stop - row.start ∧ Wide characterLimit ∧ Wide budget) :
    ∃ stop, o ≤ stop ∧ stop ≤ row.stop - row.start ∧ ¬SplitsPair (rowText patch row) stop ∧
      (Wide characterLimit → Wide budget → o < row.stop - row.start → o < stop) ∧
      (showRow patch row o characterLimit budget).text = ((rowText patch row).drop o).take (stop - o) ∧
      (showRow patch row o characterLimit budget).nextTextOffset =
        if stop < row.stop - row.start then some stop else none := by
  have length := rowText_length bounded
  have start : min o (row.stop - row.start) = o := by omega
  unfold showRow
  dsimp only
  rw [start]
  obtain ⟨short, after, wide⟩ := capped_spec characterLimit o (row.stop - row.start)
  generalize capped (characterLimit.map (o + ·)) (row.stop - row.start) = limited at short after wide ⊢
  obtain ⟨short', after', wide'⟩ := capped_spec budget o limited
  generalize capped (budget.map (o + ·)) limited = to₀ at short' after' wide' ⊢
  have stays : ¬(0 < o ∧ unitIs isLowSurrogate patch (row.start + o) = true ∧
      unitIs isHighSurrogate patch (row.start + o - 1) = true) := by
    rintro ⟨positive, low, high⟩
    rw [Nat.add_sub_assoc positive] at high
    rw [unitIs_rowText _ (by omega)] at low high
    exact whole ⟨positive, high, low⟩
  rw [if_neg stays]
  have part (stop : Nat) (from_le : o ≤ stop) (le : stop ≤ row.stop - row.start) :
      slice patch (row.start + o) (row.start + stop) = ((rowText patch row).drop o).take (stop - o) := by
    rw [rowText, slice, slice, List.drop_take, List.drop_drop, List.take_take]
    congr 1
    omega
  by_cases cut : to₀ < row.stop - row.start ∧
      unitIs isHighSurrogate patch (row.start + to₀ - 1) = true
  · rw [if_pos cut]
    obtain ⟨less, high⟩ := cut
    have later : Wide characterLimit → Wide budget → o < row.stop - row.start → o < to₀ - 1 := by
      intro wideC wideB before
      obtain far | all := wide' wideB <;> obtain far' | all' := wide wideC <;> omega
    have from_le : o ≤ to₀ - 1 := by
      obtain rfl | ⟨before, wideC, wideB⟩ := inside
      · exact Nat.zero_le _
      · exact (later wideC wideB before).le
    refine ⟨to₀ - 1, from_le, by omega, ?_, later, part _ from_le (by omega), rfl⟩
    obtain zero | positive := Nat.eq_zero_or_pos to₀
    · rw [zero]
      exact fun splits => absurd splits.1 (lt_irrefl 0)
    · rw [Nat.add_sub_assoc positive, unitIs_rowText _ (by omega)] at high
      exact not_splits_of_high high
  · rw [if_neg cut]
    have from_le : o ≤ to₀ := after' (after (by omega))
    refine ⟨to₀, from_le, short'.trans short, ?_, ?_, part _ from_le (short'.trans short), rfl⟩
    · rintro ⟨positive, high, low⟩
      have less : to₀ < row.stop - row.start := by
        obtain ⟨c, got, -⟩ := (Option.any_eq_true _ _).mp low
        rw [← length]
        exact (List.getElem?_eq_some_iff.mp got).1
      refine cut ⟨less, ?_⟩
      rw [Nat.add_sub_assoc positive, unitIs_rowText _ (by omega)]
      exact high
    · intro wideC wideB before
      obtain far | all := wide' wideB <;> obtain far' | all' := wide wideC <;> omega

/-! ## Pages of an index -/

theorem shownRows_get {options : ReadOptions} {budget : Option Nat} {rows : List (DiffRow × Checkpoint)}
    {k : Nat} {line : DiffLine} (got : (shownRows patch options budget rows)[k]? = some line) :
    ∃ row next left, rows[k]? = some (row, next) ∧
      line = showRow patch row options.textOffset options.characterLimit left ∧
      (k = 0 → left = budget) := by
  induction rows generalizing budget k with
  | nil => cases got
  | cons first rest ih =>
    obtain ⟨row, next⟩ := first
    cases k with
    | zero => exact ⟨row, next, budget, rfl, (Option.some.inj got).symm, fun _ => rfl⟩
    | succ k =>
      obtain ⟨row, next, left, has, shown, -⟩ := ih got
      exact ⟨row, next, left, has, shown, fun zero => absurd zero (Nat.succ_ne_zero k)⟩

/-- What a row says besides its text. -/
abbrev RowNumbers := RowKind × Option Rat × Option Rat

def DiffRow.numbers (row : DiffRow) : RowNumbers := (row.kind, row.before, row.after)

def DiffLine.numbers (line : DiffLine) : RowNumbers := (line.kind, line.before, line.after)

def PatchRow.numbers (row : PatchRow) : RowNumbers := (row.kind, row.before, row.after)

theorem shownRows_numbers (options : ReadOptions) (budget : Option Nat)
    (rows : List (DiffRow × Checkpoint)) :
    (shownRows patch options budget rows).map DiffLine.numbers = rows.map (·.1.numbers) := by
  induction rows generalizing budget with
  | nil => rfl
  | cons first rest ih => exact congrArg (List.cons _) (ih _)

theorem PageOptions.going (options : PageOptions) : Going options.read (some (128 * 1024)) := by
  refine ⟨?_, by simp⟩
  unfold PageOptions.read
  split <;> simp

theorem readWorkspaceDiffPage_spec {fresh index index' : DiffIndex} {path : Text}
    {options : PageOptions} {page : DiffPage} (kept : IndexKept fresh index)
    (read : readWorkspaceDiffPage index path options = some (page, index')) :
    IndexKept fresh index' ∧ ∃ taken rest,
      (pathRows fresh path).drop options.offset = taken ++ rest ∧
      page.lines = shownRows fresh.patch options.read (some (128 * 1024)) taken ∧
      (∀ n, page.nextOffset = some n → n = options.offset + taken.length ∧ taken ≠ []) ∧
      (page.nextOffset = none → rest = []) ∧ (options.singleLine = true → taken.length ≤ 1) := by
  unfold readWorkspaceDiffPage at read
  split at read
  swap
  · cases read
  obtain ⟨kept', -, taken, rest, rows, shown, more, last, -, bounded⟩ :=
    readLines_spec kept path options.read options.going
  rw [show readLines index path options.read (some (128 * 1024)) = (page, index') from
    Option.some.inj read] at kept' shown more last
  refine ⟨kept', taken, rest, rows, shown, more, last, fun single => ?_⟩
  exact bounded 1 (by simp [PageOptions.read, single])

/-- The answer of a page read is the one of an index that was never read. -/
theorem readWorkspaceDiffPage_answers {fresh index : DiffIndex} (kept : IndexKept fresh index)
    (path : Text) (options : PageOptions) :
    (readWorkspaceDiffPage index path options).map Prod.fst =
      (readWorkspaceDiffPage fresh path options).map Prod.fst := by
  have same := (readLines_spec kept path options.read options.going).2.1
  unfold readWorkspaceDiffPage
  rw [kept.1]
  split
  · exact congrArg some same
  · rfl

/-! ## Chains of reads -/

/-- Valid page reads of one index, one after the other. -/
inductive Reads : DiffIndex → DiffIndex → Prop
  | refl (index) : Reads index index
  | read {index later index'} {path options page} (before : Reads index later)
      (read : readWorkspaceDiffPage later path options = some (page, index')) : Reads index index'

theorem Reads.kept {fresh index index' : DiffIndex} (reads : Reads index index')
    (kept : IndexKept fresh index) : IndexKept fresh index' := by
  induction reads with
  | refl => exact kept
  | read before read ih => exact (readWorkspaceDiffPage_spec ih read).1

/-- The pages from an offset on, each at the `nextOffset` of the one before; other reads may
come between them. -/
inductive Follows (path : Text) : DiffIndex → Nat → List DiffPage → Prop
  | last {index index' offset page}
      (read : readWorkspaceDiffPage index path ⟨offset, 0, false⟩ = some (page, index'))
      (ends : page.nextOffset = none) : Follows path index offset [page]
  | next {index index' later offset next page pages}
      (read : readWorkspaceDiffPage index path ⟨offset, 0, false⟩ = some (page, index'))
      (more : page.nextOffset = some next) (others : Reads index' later)
      (rest : Follows path later next pages) : Follows path index offset (page :: pages)

/-- The texts of a row from an offset on, each read with `singleLine` at the `nextTextOffset`
of the one before. -/
inductive FollowsText (path : Text) (row : Nat) : DiffIndex → Option Nat → List Text → Prop
  | last {index} : FollowsText path row index none []
  | next {index index' later offset page line texts}
      (read : readWorkspaceDiffPage index path ⟨row, offset, true⟩ = some (page, index'))
      (shown : page.lines = [line]) (others : Reads index' later)
      (rest : FollowsText path row later line.nextTextOffset texts) :
      FollowsText path row index (some offset) (line.text :: texts)

theorem Follows.numbers {fresh index : DiffIndex} {path : Text} {offset : Nat} {pages : List DiffPage}
    (follows : Follows path index offset pages) (kept : IndexKept fresh index) :
    (pages.flatMap (·.lines)).map DiffLine.numbers =
      ((pathRows fresh path).drop offset).map (·.1.numbers) := by
  induction follows with
  | last read ends =>
    obtain ⟨-, taken, rest, rows, shown, -, last, -⟩ := readWorkspaceDiffPage_spec kept read
    obtain rfl := last ends
    rw [List.flatMap_singleton, shown, shownRows_numbers, rows, List.append_nil]
  | next read more others rest ih =>
    obtain ⟨kept', taken, left, rows, shown, next, -, -⟩ := readWorkspaceDiffPage_spec kept read
    obtain ⟨rfl, -⟩ := next _ more
    rw [← List.drop_drop, rows, List.drop_left] at ih
    rw [List.flatMap_cons, List.map_append, ih (others.kept kept'), shown, shownRows_numbers, rows,
      List.map_append]

/-- The chain of pages ends. -/
theorem Follows.exists {fresh : DiffIndex} {path : Text} {n : Nat} :
    ∀ {index offset}, IndexKept fresh index → offset ≤ fresh.patch.length →
      (pathRows fresh path).length - offset = n → ∃ pages, Follows path index offset pages := by
  induction n using Nat.strong_induction_on with
  | _ n ih =>
    intro index offset kept valid left
    have readable : readWorkspaceDiffPage index path ⟨offset, 0, false⟩ ≠ none := by
      unfold readWorkspaceDiffPage
      rw [kept.1, if_pos ⟨valid, Nat.zero_le _⟩]
      nofun
    obtain ⟨⟨page, index'⟩, read⟩ := Option.ne_none_iff_exists'.mp readable
    obtain ⟨kept', taken, rest, rows, -, more, -, -⟩ := readWorkspaceDiffPage_spec kept read
    cases ends : page.nextOffset with
    | none => exact ⟨_, .last read ends⟩
    | some next =>
      obtain ⟨rfl, some_taken⟩ := more next ends
      have count := congrArg List.length rows
      have positive := List.length_pos_iff.mpr some_taken
      rw [List.length_drop, List.length_append] at count
      have bounded := pathRows_le kept path
      dsimp only at count ends read
      obtain ⟨pages, follows⟩ := ih ((pathRows fresh path).length - (offset + taken.length)) (by omega)
        kept' (by omega) rfl
      exact ⟨_, .next read ends (.refl _) follows⟩

/-- The rows of a section lie in it. -/
theorem rowsFrom_bounded {stop : Nat} (bounded : stop ≤ patch.length) (at' : Checkpoint) :
    ∀ found ∈ rowsFrom patch stop at', found.1.stop ≤ patch.length := by
  induction at' using lines_induction patch stop with
  | past at' past =>
    rw [rowsFrom_end past]
    exact nofun
  | line at' next row inside read ih =>
    rw [rowsFrom_line inside read]
    intro found member
    obtain here | later := List.mem_append.mp member
    · cases row with
      | none => cases here
      | some row =>
        rw [List.mem_singleton.mp here]
        have ends : row.stop = lineStop patch stop at'.position := by
          unfold readLine at read
          dsimp only at read
          split at read
          · rw [← Option.some.inj (Prod.mk.inj read).2]
          · split_ifs at read <;> first
              | rw [← Option.some.inj (Prod.mk.inj read).2]
              | cases (Prod.mk.inj read).2
        rw [ends]
        exact (lineStop_le _).trans bounded
    · exact ih found later

theorem pathRows_bounded {fresh index : DiffIndex} (kept : IndexKept fresh index) (path : Text) :
    ∀ found ∈ pathRows fresh path, found.1.stop ≤ fresh.patch.length := by
  unfold pathRows
  obtain ⟨none, -⟩ | ⟨start, stop, -, got, -, bounded, -⟩ := kept.2 path
  · rw [none]
    exact nofun
  · rw [got]
    exact rowsFrom_bounded bounded start

/-- What a single line read shows of a row. -/
theorem single_line {fresh index index' : DiffIndex} {path : Text} {i o : Nat} {page : DiffPage}
    {row : DiffRow} {behind : Checkpoint} (kept : IndexKept fresh index)
    (has : (pathRows fresh path)[i]? = some (row, behind))
    (read : readWorkspaceDiffPage index path ⟨i, o, true⟩ = some (page, index')) :
    page.lines = [showRow fresh.patch row o (some 4096) (some (128 * 1024))] := by
  obtain ⟨-, taken, rest, rows, shown, more, last, single⟩ := readWorkspaceDiffPage_spec kept read
  obtain ⟨inside, here⟩ := List.getElem?_eq_some_iff.mp has
  rw [List.drop_eq_getElem_cons inside, here] at rows
  cases taken with
  | nil =>
    cases ends : page.nextOffset with
    | none =>
      rw [last ends] at rows
      cases rows
    | some next => exact absurd rfl (more next ends).2
  | cons first others =>
    obtain rfl : others = [] := List.eq_nil_of_length_eq_zero (by
      have := single rfl
      rw [List.length_cons] at this
      omega)
    obtain ⟨rfl, -⟩ := List.cons.inj rows
    exact shown

theorem not_splits_end (t : Text) : ¬SplitsPair t t.length := by
  rintro ⟨-, -, low⟩
  rw [unitIs, List.getElem?_eq_none le_rfl] at low
  cases low

/-- Where the text goes on behind a part, or its end. -/
theorem next_offset {stop length : Nat} (within : stop ≤ length) :
    (if stop < length then some stop else none).getD length = stop := by
  split_ifs
  · rfl
  · rw [Option.getD_none]
    omega

/-- A part before the texts that follow it. -/
theorem parts_cons {t part : Text} {texts : List Text} {o stop : Nat} (after : o ≤ stop)
    (within : stop ≤ t.length) (uncut : ¬SplitsPair t o) (shown : part = (t.drop o).take (stop - o))
    (follow : texts.flatten = t.drop stop ∧ ∀ front back, texts = front ++ back →
      ¬SplitsPair t (stop + front.flatten.length)) :
    (part :: texts).flatten = t.drop o ∧ ∀ front back, part :: texts = front ++ back →
      ¬SplitsPair t (o + front.flatten.length) := by
  have count : part.length = stop - o := by
    rw [shown, List.length_take, List.length_drop]
    omega
  refine ⟨?_, ?_⟩
  · rw [List.flatten_cons, follow.1, shown]
    conv_rhs => rw [← List.take_append_drop (stop - o) (t.drop o)]
    rw [List.drop_drop, Nat.add_sub_cancel' after]
  · intro front back split
    cases front with
    | nil => exact uncut
    | cons first front =>
      obtain ⟨rfl, tail⟩ := List.cons.inj split
      rw [List.flatten_cons, List.length_append, count, ← Nat.add_assoc, Nat.add_sub_cancel' after]
      exact follow.2 front back tail

/-- The texts of a chain are the rest of the row, and none of them ends within a pair. -/
theorem FollowsText.texts {fresh index : DiffIndex} {path : Text} {i : Nat} {next : Option Nat}
    {texts : List Text} (follows : FollowsText path i index next texts) {row : DiffRow}
    {behind : Checkpoint} (kept : IndexKept fresh index)
    (has : (pathRows fresh path)[i]? = some (row, behind))
    (whole : ∀ o, next = some o → ¬SplitsPair (rowText fresh.patch row) o ∧
      (o = 0 ∨ o < row.stop - row.start)) :
    texts.flatten = (rowText fresh.patch row).drop (next.getD (row.stop - row.start)) ∧
      ∀ front back, texts = front ++ back → ¬SplitsPair (rowText fresh.patch row)
        (next.getD (row.stop - row.start) + front.flatten.length) := by
  have bounded : row.stop ≤ fresh.patch.length :=
    pathRows_bounded kept path _ (List.mem_of_getElem? has)
  have length : (rowText fresh.patch row).length = row.stop - row.start := rowText_length bounded
  induction follows with
  | last =>
    refine ⟨(List.drop_of_length_le length.le).symm, ?_⟩
    intro front back nothing
    obtain ⟨rfl, -⟩ := List.append_eq_nil_iff.mp nothing.symm
    rw [Option.getD_none, ← length]
    exact not_splits_end _
  | @next index index' later o page line texts read shown others rest ih =>
    obtain ⟨uncut, inside⟩ := whole o rfl
    obtain ⟨kept', -⟩ := readWorkspaceDiffPage_spec kept read
    obtain rfl := List.singleton_injective (shown.symm.trans (single_line kept has read))
    obtain ⟨stop, after, within, uncut', -, part, follow⟩ :=
      showRow_part bounded uncut (inside.imp id fun before => ⟨before, wide_characters, wide_budget⟩)
    have rest' := ih (others.kept kept') (by
      intro o' same
      rw [follow] at same
      split_ifs at same with less
      obtain rfl := Option.some.inj same
      exact ⟨uncut', .inr less⟩)
    rw [follow, next_offset within] at rest'
    exact parts_cons after (within.trans length.ge) uncut part rest'

/-- The chain of texts ends. -/
theorem FollowsText.exists {fresh : DiffIndex} {path : Text} {i n : Nat} {row : DiffRow}
    {behind : Checkpoint} (has : (pathRows fresh path)[i]? = some (row, behind)) :
    ∀ {index o}, IndexKept fresh index → ¬SplitsPair (rowText fresh.patch row) o →
      (o = 0 ∨ o < row.stop - row.start) → row.stop - row.start - o = n →
      ∃ texts, FollowsText path i index (some o) texts := by
  induction n using Nat.strong_induction_on with
  | _ n ih =>
    intro index o kept uncut inside left
    have bounded : row.stop ≤ fresh.patch.length :=
      pathRows_bounded kept path _ (List.mem_of_getElem? has)
    have length : (rowText fresh.patch row).length = row.stop - row.start := rowText_length bounded
    have row_lt := (List.getElem?_eq_some_iff.mp has).1
    have few := pathRows_le kept path
    have readable : readWorkspaceDiffPage index path ⟨i, o, true⟩ ≠ none := by
      unfold readWorkspaceDiffPage
      rw [kept.1, if_pos ⟨by dsimp only; omega, by dsimp only; omega⟩]
      nofun
    obtain ⟨⟨page, index'⟩, read⟩ := Option.ne_none_iff_exists'.mp readable
    obtain ⟨kept', -⟩ := readWorkspaceDiffPage_spec kept read
    have shown := single_line kept has read
    obtain ⟨stop, after, within, uncut', further, -, follow⟩ :=
      showRow_part bounded uncut (inside.imp id fun before => ⟨before, wide_characters, wide_budget⟩)
    by_cases more : stop < row.stop - row.start
    · rw [if_pos more] at follow
      have later := further wide_characters wide_budget (by omega)
      obtain ⟨texts, rest⟩ := ih (row.stop - row.start - stop) (by omega) kept' uncut' (.inr more) rfl
      exact ⟨_, .next read shown (.refl _) (by rw [follow]; exact rest)⟩
    · rw [if_neg more] at follow
      exact ⟨_, .next read shown (.refl _) (by rw [follow]; exact .last)⟩

/-! ## The whole read -/

theorem shownRows_whole (rows : List (DiffRow × Checkpoint)) :
    (shownRows patch ⟨0, none, 0, none⟩ none rows).map (fun line =>
      (⟨line.text, line.kind, line.before, line.after⟩ : PatchRow)) =
      rows.map fun found => ⟨rowText patch found.1, found.1.kind, found.1.before, found.1.after⟩ := by
  induction rows with
  | nil => rfl
  | cons first rest ih =>
    obtain ⟨row, next⟩ := first
    refine congrArg₂ List.cons ?_ ih
    have shown : (showRow patch row 0 none none).text = rowText patch row := by
      unfold showRow rowText slice
      dsimp only [capped, Option.map, Option.elim]
      rw [Nat.zero_min, if_neg (fun cut => lt_irrefl _ cut.1), if_neg (fun cut => lt_irrefl _ cut.1),
        Nat.add_zero, Nat.add_sub_cancel_left]
    change PatchRow.mk (showRow patch row 0 none none).text _ _ _ = _
    rw [shown]
    rfl

theorem workspaceFilePatches_eq (patch : Text) (files : List ChangedFile) (path : Text) :
    (workspaceFilePatches patch files path).getD [] =
      (pathRows (createWorkspaceDiffIndex patch files) path).map fun found =>
        ⟨rowText patch found.1, found.1.kind, found.1.before, found.1.after⟩ := by
  have kept := IndexKept.created patch files
  obtain ⟨-, -, taken, rest, rows, shown, -, last, whole, -⟩ :=
    @readLines_spec _ _ kept path ⟨0, none, 0, none⟩ none ⟨by simp, by simp⟩
  obtain rfl := last (whole rfl rfl)
  rw [List.drop_zero, List.append_nil] at rows
  unfold workspaceFilePatches
  dsimp only
  rw [shown, rows, ← shownRows_whole]
  split
  · rename_i absent
    have nothing : pathRows (createWorkspaceDiffIndex patch files) path = [] := by
      unfold pathRows
      rw [absent]
      rfl
    rw [← rows, nothing]
    rfl
  · rfl

/-- The rows of all pages are the rows of the whole read, whatever was read before, and the
texts of a row, from whichever page on, are its text without a cut through a pair. -/
theorem pages_are_whole_read (patch : Text) (files : List ChangedFile) (path : Text)
    {index : DiffIndex} (reads : Reads (createWorkspaceDiffIndex patch files) index) :
    (∀ path options, (readWorkspaceDiffPage index path options).map Prod.fst =
      (readWorkspaceDiffPage (createWorkspaceDiffIndex patch files) path options).map Prod.fst) ∧
    (∃ pages, Follows path index 0 pages) ∧
    (∀ pages, Follows path index 0 pages → (pages.flatMap (·.lines)).map DiffLine.numbers =
      ((workspaceFilePatches patch files path).getD []).map PatchRow.numbers) ∧
    (∀ options page index' next, readWorkspaceDiffPage index path options = some (page, index') →
      page.nextOffset = some next → options.offset < next) ∧
    ∀ i whole, ((workspaceFilePatches patch files path).getD [])[i]? = some whole →
      (∃ texts, FollowsText path i index (some 0) texts) ∧
      (∀ texts, FollowsText path i index (some 0) texts → texts.flatten = whole.text ∧
        ∀ front back, texts = front ++ back → ¬SplitsPair whole.text front.flatten.length) ∧
      ∀ offset singleLine page index' later k line texts,
        readWorkspaceDiffPage index path ⟨offset, 0, singleLine⟩ = some (page, index') →
        offset + k = i → page.lines[k]? = some line → Reads index' later →
        FollowsText path i later line.nextTextOffset texts →
        line.text ++ texts.flatten = whole.text ∧ ∀ front back, line.text :: texts = front ++ back →
          ¬SplitsPair whole.text front.flatten.length := by
  have kept := reads.kept (IndexKept.created patch files)
  refine ⟨readWorkspaceDiffPage_answers kept, Follows.exists kept (Nat.zero_le _) rfl, ?_, ?_, ?_⟩
  · intro pages follows
    rw [follows.numbers kept, List.drop_zero, workspaceFilePatches_eq, List.map_map]
    rfl
  · intro options page index' next read more
    obtain ⟨-, taken, rest, -, -, further, -, -⟩ := readWorkspaceDiffPage_spec kept read
    obtain ⟨rfl, some_taken⟩ := further next more
    exact Nat.lt_add_of_pos_right (List.length_pos_iff.mpr some_taken)
  · intro i whole has
    rw [workspaceFilePatches_eq, List.getElem?_map, Option.map_eq_some_iff] at has
    obtain ⟨⟨row, behind⟩, has, rfl⟩ := has
    have uncut : ¬SplitsPair (rowText patch row) 0 := fun splits => lt_irrefl 0 splits.1
    have bounded : row.stop ≤ patch.length := pathRows_bounded kept path _ (List.mem_of_getElem? has)
    have length : (rowText patch row).length = row.stop - row.start := rowText_length bounded
    refine ⟨FollowsText.exists has kept uncut (.inl rfl) rfl, ?_, ?_⟩
    · intro texts follows
      obtain ⟨flat, cuts⟩ := follows.texts kept has (by
        rintro o ⟨⟩
        exact ⟨uncut, .inl rfl⟩)
      refine ⟨flat, fun front back split => ?_⟩
      have := cuts front back split
      rwa [Option.getD_some, Nat.zero_add] at this
    · intro offset singleLine page index' later k line texts read here got others follows
      obtain ⟨kept', taken, rest, rows, shown, -, -, -⟩ := readWorkspaceDiffPage_spec kept read
      rw [shown] at got
      obtain ⟨row', next, left, at_k, rfl, -⟩ := shownRows_get got
      have same := congrArg (·[k]?) rows
      dsimp only at same
      rw [List.getElem?_drop, here, has, List.getElem?_append_left
        (List.getElem?_eq_some_iff.mp at_k).1, at_k] at same
      obtain ⟨rfl, -⟩ := Prod.mk.inj (Option.some.inj same)
      obtain ⟨stop, after, within, uncut', -, part, follow⟩ :=
        @showRow_part patch row 0 (some 4096) left bounded uncut (.inl rfl)
      change FollowsText path i later (showRow patch row 0 (some 4096) left).nextTextOffset texts at follows
      rw [follow] at follows
      have line := follows.texts (others.kept kept') has (by
        intro o more
        split_ifs at more with less
        obtain rfl := Option.some.inj more
        exact ⟨uncut', .inr less⟩)
      rw [next_offset within] at line
      obtain ⟨flat, cuts⟩ := parts_cons after (within.trans length.ge) uncut part line
      refine ⟨flat, fun front back split => ?_⟩
      have := cuts front back split
      rwa [Nat.zero_add] at this

/-- A file with one changed line. -/
def smallPatch : Text := text
  "diff --git a/f b/f\n--- a/f\n+++ b/f\n@@ -1 +1 @@\n-a\n+b\n"

def smallFiles : List ChangedFile := [⟨text "f", none⟩]

theorem pages_of_small_patch :
    let fresh := createWorkspaceDiffIndex smallPatch smallFiles
    let index := (readLines fresh (text "f") (PageOptions.mk 1 1 true).read (some (128 * 1024))).2
    (∃ pages, Follows (text "f") index 0 pages) ∧
      ∀ pages, Follows (text "f") index 0 pages → (pages.flatMap (·.lines)).map DiffLine.numbers =
        [(.hunk, none, none), (.deleted, some 1, none), (.added, none, some 1)] := by
  have reads : Reads (createWorkspaceDiffIndex smallPatch smallFiles) _ :=
    .read (.refl _) (show readWorkspaceDiffPage _ (text "f") (PageOptions.mk 1 1 true) = some (_, _) from
      if_pos (by decide))
  obtain ⟨-, ends, same, -, -⟩ := pages_are_whole_read smallPatch smallFiles (text "f") reads
  refine ⟨ends, fun pages follows => (same pages follows).trans ?_⟩
  decide +kernel

end LetAgents.Workspace

import LetAgents.Workspace.DiffIndex

/-!
# Paged reading

What a read answers does not depend on the checkpoint at which it begins, and the pages of a
file are its rows one after the other.
-/
namespace LetAgents.Workspace

open Lib Lib.RegExp

variable {patch : Text} {stop : Nat}

/-! ## The rows of a section -/

theorem lineStop_le (position : Nat) : lineStop patch stop position ≤ stop := Nat.min_le_right _ _

theorem le_lineStop (inside : position < stop) : position ≤ lineStop patch stop position :=
  Nat.le_min.mpr ⟨Nat.le_add_right _ _, inside.le⟩

/-- A line is left behind, and only a line with a first unit is a row. -/
theorem readLine_spec (read : readLine patch stop at' = (next, row)) :
    next.position = lineStop patch stop at'.position + 1 := by
  unfold readLine at read
  dsimp only at read
  split at read
  · rw [← (Prod.mk.inj read).1]
  · split_ifs at read <;> rw [← (Prod.mk.inj read).1]

theorem readLine_later (inside : at'.position < stop) (read : readLine patch stop at' = (next, row)) :
    at'.position < next.position := by
  have := @le_lineStop patch stop _ inside
  have := readLine_spec read
  omega

/-- The rows from a position on, each with the checkpoint behind it. -/
def rowsWithin (patch : Text) (stop : Nat) : Nat → Checkpoint → List (DiffRow × Checkpoint)
  | 0, _ => []
  | fuel + 1, at' =>
    if at'.position < stop then
      match readLine patch stop at' with
      | (next, none) => rowsWithin patch stop fuel next
      | (next, some row) => (row, next) :: rowsWithin patch stop fuel next
    else []

def rowsFrom (patch : Text) (stop : Nat) (at' : Checkpoint) : List (DiffRow × Checkpoint) :=
  rowsWithin patch stop (stop - at'.position) at'

theorem rowsWithin_enough (enough : stop - at'.position ≤ fuel) :
    rowsWithin patch stop fuel at' = rowsFrom patch stop at' := by
  unfold rowsFrom
  generalize same : stop - at'.position = n at enough ⊢
  induction n using Nat.strong_induction_on generalizing at' fuel with
  | _ n ih =>
    cases fuel with
    | zero =>
      obtain rfl := Nat.le_zero.mp enough
      rfl
    | succ fuel =>
      by_cases inside : at'.position < stop
      · obtain ⟨m, rfl⟩ : ∃ m, n = m + 1 := ⟨n - 1, by omega⟩
        unfold rowsWithin
        rw [if_pos inside, if_pos inside]
        cases read : readLine patch stop at' with
        | mk next row =>
          have later := readLine_later inside read
          have left : rowsWithin patch stop fuel next = _ :=
            ih (stop - next.position) (by omega) rfl (by omega)
          have right : rowsWithin patch stop m next = _ :=
            ih (stop - next.position) (by omega) rfl (by omega)
          cases row with
          | none => exact left.trans right.symm
          | some row => exact congrArg _ (left.trans right.symm)
      · obtain rfl : n = 0 := by omega
        unfold rowsWithin
        rw [if_neg inside]

theorem rowsFrom_end (past : stop ≤ at'.position) : rowsFrom patch stop at' = [] := by
  rw [rowsFrom, Nat.sub_eq_zero_of_le past]
  rfl

theorem rowsFrom_line (inside : at'.position < stop) (read : readLine patch stop at' = (next, row)) :
    rowsFrom patch stop at' =
      (row.map fun row => (row, next)).toList ++ rowsFrom patch stop next := by
  have later := readLine_later inside read
  obtain ⟨fuel, same⟩ : ∃ fuel, stop - at'.position = fuel + 1 := ⟨stop - at'.position - 1, by omega⟩
  have rest : rowsWithin patch stop fuel next = rowsFrom patch stop next :=
    rowsWithin_enough (by omega)
  rw [rowsFrom, same, rowsWithin, if_pos inside, read, ← rest]
  cases row with
  | none | some row => rfl

/-- The induction over the lines from a checkpoint on. -/
theorem lines_induction (patch : Text) (stop : Nat) {motive : Checkpoint → Prop}
    (past : ∀ at', stop ≤ at'.position → motive at')
    (line : ∀ at' next row, at'.position < stop → readLine patch stop at' = (next, row) →
      motive next → motive at') (at' : Checkpoint) : motive at' := by
  generalize same : stop - at'.position = n
  induction n using Nat.strong_induction_on generalizing at' with
  | _ n ih =>
    by_cases inside : at'.position < stop
    · have later := readLine_later inside (Eq.refl (readLine patch stop at'))
      exact line at' _ _ inside rfl (ih _ (by omega) _ rfl)
    · exact past at' (Nat.not_lt.mp inside)

/-- Every row takes a unit of its own. -/
theorem rowsFrom_length (at' : Checkpoint) :
    (rowsFrom patch stop at').length ≤ stop - at'.position := by
  induction at' using lines_induction patch stop with
  | past at' past => simp [rowsFrom_end past]
  | line at' next row inside read ih =>
    have later := readLine_later inside read
    rw [rowsFrom_line inside read, List.length_append]
    have one : (row.map fun row => (row, next)).toList.length ≤ 1 := by cases row <;> simp
    omega

/-- Behind a row the rest of the rows begins. -/
theorem rowsFrom_split {at' next : Checkpoint} {row : DiffRow}
    (rows : rowsFrom patch stop at' = before ++ (row, next) :: rest) :
    rowsFrom patch stop next = rest := by
  induction at' using lines_induction patch stop generalizing before with
  | past at' past =>
    rw [rowsFrom_end past] at rows
    simp at rows
  | line at' later found inside read ih =>
    rw [rowsFrom_line inside read] at rows
    cases found with
    | none => exact ih rows
    | some first =>
      cases before with
      | nil =>
        obtain ⟨same, rfl⟩ := List.cons.inj rows
        rw [(Prod.mk.inj same).2]
        rfl
      | cons _ before => exact ih (List.cons.inj rows).2

/-! ## The loop over the lines -/

/-- The loop with as much fuel as there are units. -/
def Scan.finish (patch : Text) (stop : Nat) (options : ReadOptions) (scan : Scan) : Scan :=
  Scan.run patch stop options (stop - scan.at'.position) scan

variable {options : ReadOptions}

theorem Scan.run_enough {scan : Scan} (enough : stop - scan.at'.position ≤ fuel) :
    scan.run patch stop options fuel = scan.finish patch stop options := by
  unfold Scan.finish
  generalize same : stop - scan.at'.position = n at enough ⊢
  induction n using Nat.strong_induction_on generalizing scan fuel with
  | _ n ih =>
    cases fuel with
    | zero =>
      obtain rfl := Nat.le_zero.mp enough
      rfl
    | succ fuel =>
      by_cases inside : scan.at'.position < stop
      · obtain ⟨m, rfl⟩ : ∃ m, n = m + 1 := ⟨n - 1, by omega⟩
        unfold Scan.run
        rw [if_pos inside, if_pos inside]
        cases read : readLine patch stop scan.at' with
        | mk next row =>
          have later := readLine_later inside read
          have agree (scan' : Scan) (here : scan'.at' = next) :
              scan'.run patch stop options fuel = scan'.run patch stop options m := by
            have left : scan'.run patch stop options fuel = _ :=
              ih (stop - next.position) (by omega) (by rw [here]) (by omega)
            have right : scan'.run patch stop options m = _ :=
              ih (stop - next.position) (by omega) (by rw [here]) (by omega)
            exact left.trans right.symm
          cases row with
          | none => exact agree _ rfl
          | some row =>
            dsimp only
            rw [agree _ rfl]
      · obtain rfl : n = 0 := by omega
        unfold Scan.run
        rw [if_neg inside]

theorem Scan.finish_end {scan : Scan} (past : stop ≤ scan.at'.position) :
    scan.finish patch stop options = scan := by
  rw [Scan.finish, Nat.sub_eq_zero_of_le past]
  rfl

theorem Scan.finish_blank {scan : Scan} {next : Checkpoint} (inside : scan.at'.position < stop)
    (read : readLine patch stop scan.at' = (next, none)) :
    scan.finish patch stop options = { scan with at' := next }.finish patch stop options := by
  have later := readLine_later inside read
  obtain ⟨fuel, same⟩ : ∃ fuel, stop - scan.at'.position = fuel + 1 :=
    ⟨stop - scan.at'.position - 1, by omega⟩
  have rest : Scan.run patch stop options fuel { scan with at' := next } = _ :=
    Scan.run_enough (by dsimp only; omega)
  rw [← rest, Scan.finish, same, Scan.run, if_pos inside, read]

theorem Scan.finish_row {scan : Scan} {row : DiffRow} (inside : scan.at'.position < stop)
    (read : readLine patch stop scan.at' = (next, some row)) : scan.finish patch stop options =
      if (scan.take patch options next row).full options then scan.take patch options next row
      else (scan.take patch options next row).finish patch stop options := by
  have later := readLine_later inside read
  obtain ⟨fuel, same⟩ : ∃ fuel, stop - scan.at'.position = fuel + 1 :=
    ⟨stop - scan.at'.position - 1, by omega⟩
  have rest : Scan.run patch stop options fuel (scan.take patch options next row) = _ :=
    Scan.run_enough (by rw [show (scan.take patch options next row).at' = next from rfl]; omega)
  rw [← rest, Scan.finish, same, Scan.run, if_pos inside, read]

/-- What a read answers, apart from the checkpoints that it leaves. -/
def Scan.answer (scan : Scan) : Checkpoint × Nat × List DiffLine × Option Nat :=
  (scan.at', scan.row, scan.lines, scan.budget)

theorem Scan.full_of_answer {scan scan' : Scan} (same : scan.answer = scan'.answer) :
    scan.full options = scan'.full options := by
  obtain ⟨-, -, lines, budget⟩ := by simpa only [Scan.answer, Prod.mk.injEq] using same
  rw [Scan.full, Scan.full, lines, budget]

theorem Scan.take_of_answer {scan scan' : Scan} {row : DiffRow} (same : scan.answer = scan'.answer) :
    (scan.take patch options next row).answer = (scan'.take patch options next row).answer := by
  obtain ⟨-, rows, lines, budget⟩ := by simpa only [Scan.answer, Prod.mk.injEq] using same
  simp only [Scan.answer, Scan.take, rows, lines, budget]

/-- The checkpoints never change an answer. -/
theorem Scan.finish_of_answer {scan scan' : Scan} (same : scan.answer = scan'.answer) :
    (scan.finish patch stop options).answer = (scan'.finish patch stop options).answer := by
  generalize here : scan.at' = at'
  induction at' using lines_induction patch stop generalizing scan scan' with
  | past at' past =>
    have there : scan'.at' = at' := (congrArg Prod.fst same).symm.trans here
    rw [Scan.finish_end (here ▸ past), Scan.finish_end (there ▸ past), same]
  | line at' next row inside read ih =>
    have there : scan'.at' = at' := (congrArg Prod.fst same).symm.trans here
    cases row with
    | none =>
      have left : scan.finish patch stop options = _ :=
        Scan.finish_blank (here ▸ inside) (here ▸ read)
      have right : scan'.finish patch stop options = _ :=
        Scan.finish_blank (there ▸ inside) (there ▸ read)
      rw [left, right]
      exact ih (congrArg (fun answer => (next, answer.2)) same) rfl
    | some row =>
      have left : scan.finish patch stop options = _ :=
        Scan.finish_row (here ▸ inside) (here ▸ read)
      have right : scan'.finish patch stop options = _ :=
        Scan.finish_row (there ▸ inside) (there ▸ read)
      have taken : (scan.take patch options next row).answer = (scan'.take patch options next row).answer :=
        Scan.take_of_answer same
      rw [left, right, Scan.full_of_answer taken]
      split
      · exact taken
      · exact ih taken rfl

/-- A row before the offset is passed over. -/
theorem Scan.finish_skip {scan : Scan} {row : DiffRow} {rest : List (DiffRow × Checkpoint)}
    (rows : rowsFrom patch stop scan.at' = (row, next) :: rest) (early : scan.row < options.offset)
    (going : scan.full options = false) : (scan.finish patch stop options).answer =
      ({ scan with at' := next, row := scan.row + 1 }.finish patch stop options).answer := by
  generalize here : scan.at' = at' at rows
  induction at' using lines_induction patch stop generalizing scan with
  | past at' past =>
    rw [rowsFrom_end past] at rows
    cases rows
  | line at' later found inside read ih =>
    rw [rowsFrom_line inside read] at rows
    cases found with
    | none =>
      rw [Scan.finish_blank (here ▸ inside) (here ▸ read)]
      have passed : ({ scan with at' := later }.finish patch stop options).answer = _ :=
        ih early going rfl rows
      exact passed
    | some first =>
      obtain ⟨same, -⟩ := List.cons.inj rows
      obtain ⟨rfl, rfl⟩ := Prod.mk.inj same
      have hidden : ¬options.offset ≤ scan.row := by omega
      have taken : (scan.take patch options later first).answer =
          { scan with at' := later, row := scan.row + 1 }.answer := by
        simp only [Scan.answer, Scan.take, if_neg hidden]
      rw [Scan.finish_row (here ▸ inside) (here ▸ read), Scan.full_of_answer taken]
      change (if scan.full options then _ else _ : Scan).answer = _
      rw [going]
      exact Scan.finish_of_answer taken

/-- The checkpoint behind the rows that are passed. -/
def behind : Checkpoint → List (DiffRow × Checkpoint) → Checkpoint
  | at', [] => at'
  | _, (_, next) :: rest => behind next rest

theorem behind_concat (at' next : Checkpoint) (row : DiffRow) (passed : List (DiffRow × Checkpoint)) :
    behind at' (passed ++ [(row, next)]) = next := by
  induction passed generalizing at' with
  | nil => rfl
  | cons first passed ih => exact ih _

theorem rowsFrom_behind (rows : rowsFrom patch stop at' = passed ++ rest) :
    rowsFrom patch stop (behind at' passed) = rest := by
  induction passed generalizing at' with
  | nil => exact rows
  | cons first passed ih =>
    obtain ⟨row, next⟩ := first
    exact ih (rowsFrom_split (show _ = [] ++ (row, next) :: (passed ++ rest) from rows))

theorem Scan.finish_skips {scan : Scan} {skipped rest : List (DiffRow × Checkpoint)}
    (rows : rowsFrom patch stop scan.at' = skipped ++ rest)
    (early : scan.row + skipped.length ≤ options.offset) (going : scan.full options = false) :
    (scan.finish patch stop options).answer =
      ({ scan with at' := behind scan.at' skipped, row := scan.row + skipped.length }.finish
        patch stop options).answer := by
  induction skipped generalizing scan with
  | nil => rfl
  | cons first skipped ih =>
    obtain ⟨row, next⟩ := first
    rw [List.length_cons] at early
    have tail : rowsFrom patch stop next = skipped ++ rest :=
      rowsFrom_split (show _ = [] ++ (row, next) :: (skipped ++ rest) from rows)
    have one := Scan.finish_skip rows (by omega) going
    have more : ({ scan with at' := next, row := scan.row + 1 }.finish patch stop options).answer = _ :=
      ih tail (by dsimp only; omega) going
    rw [one, more]
    simp only [behind, List.length_cons, Nat.add_assoc, Nat.add_comm 1]

/-! ## Checkpoints -/

/-- The checkpoints of a file lie behind every 500th row. -/
def Marked (patch : Text) (stop : Nat) (start : Checkpoint) (checkpoints : List Checkpoint) : Prop :=
  ∀ (k : Nat) (at' : Checkpoint), checkpoints[k]? = some at' → ∃ passed,
    rowsFrom patch stop start = passed ++ rowsFrom patch stop at' ∧ passed.length = k * 500 ∧
      at' = behind start passed

theorem Scan.finish_marked {scan : Scan} {passed : List (DiffRow × Checkpoint)}
    (marked : Marked patch stop start scan.checkpoints)
    (close : scan.row / 500 < scan.checkpoints.length)
    (rows : rowsFrom patch stop start = passed ++ rowsFrom patch stop scan.at')
    (count : passed.length = scan.row) :
    Marked patch stop start (scan.finish patch stop options).checkpoints ∧
      scan.checkpoints.length ≤ (scan.finish patch stop options).checkpoints.length := by
  generalize here : scan.at' = at' at rows
  induction at' using lines_induction patch stop generalizing scan passed with
  | past at' past =>
    rw [Scan.finish_end (here ▸ past)]
    exact ⟨marked, le_rfl⟩
  | line at' next found inside read ih =>
    rw [rowsFrom_line inside read] at rows
    cases found with
    | none =>
      rw [Scan.finish_blank (here ▸ inside) (here ▸ read)]
      have rest : Marked patch stop start
          ({ scan with at' := next }.finish patch stop options).checkpoints ∧ _ :=
        ih marked close count rfl rows
      exact rest
    | some row =>
      rw [Scan.finish_row (here ▸ inside) (here ▸ read)]
      have split : rowsFrom patch stop start = (passed ++ [(row, next)]) ++ rowsFrom patch stop next := by
        rw [rows, List.append_assoc]
        rfl
      have taken : Marked patch stop start (scan.take patch options next row).checkpoints ∧
          scan.checkpoints.length ≤ (scan.take patch options next row).checkpoints.length ∧
          (scan.row + 1) / 500 < (scan.take patch options next row).checkpoints.length := by
        dsimp only [Scan.take]
        split_ifs with due
        · -- the place is the first free one: the row before has its checkpoint
          obtain ⟨whole, absent⟩ := due
          have free := List.getElem?_eq_none_iff.mp absent
          refine ⟨?_, by simp, by rw [List.length_append, List.length_singleton]; omega⟩
          intro k at' got
          rw [List.getElem?_append] at got
          split at got
          · exact marked k at' got
          · rename_i beyond
            obtain ⟨first, rfl⟩ : k - scan.checkpoints.length = 0 ∧ next = at' := by
              cases index : k - scan.checkpoints.length with
              | zero => rw [index] at got; exact ⟨rfl, Option.some.inj got⟩
              | succ n => rw [index] at got; cases got
            refine ⟨passed ++ [(row, next)], split, ?_, (behind_concat _ _ _ _).symm⟩
            rw [List.length_append, List.length_singleton, count]
            omega
        · refine ⟨marked, le_rfl, ?_⟩
          by_cases whole : (scan.row + 1) % 500 = 0
          · have present : scan.checkpoints[(scan.row + 1) / 500]? ≠ none := fun absent => due ⟨whole, absent⟩
            rw [Ne, List.getElem?_eq_none_iff] at present
            omega
          · omega
      obtain ⟨marked', longer, close'⟩ := taken
      split
      · exact ⟨marked', longer⟩
      · have rest : Marked patch stop start
            ((scan.take patch options next row).finish patch stop options).checkpoints ∧ _ :=
          ih marked' close' (show _ = scan.row + 1 by
            rw [List.length_append, List.length_singleton, count]) rfl split
        exact ⟨rest.1, longer.trans rest.2⟩

/-! ## What a read shows -/

/-- Rows as a read shows them, each with the budget that the ones before it left. -/
def shownRows (patch : Text) (options : ReadOptions) :
    Option Nat → List (DiffRow × Checkpoint) → List DiffLine
  | _, [] => []
  | budget, (row, _) :: rest =>
    let shown := showRow patch row options.textOffset options.characterLimit budget
    shown :: shownRows patch options (budget.map (· - shown.text.length)) rest

/-- From the offset on a read shows the rows that it takes, and stops behind one of them or at
the end. -/
theorem Scan.finish_reads {scan : Scan} (shown : options.offset ≤ scan.row) :
    ∃ taken, rowsFrom patch stop scan.at' =
        taken ++ rowsFrom patch stop (scan.finish patch stop options).at' ∧
      (scan.finish patch stop options).row = scan.row + taken.length ∧
      (scan.finish patch stop options).lines = scan.lines ++ shownRows patch options scan.budget taken ∧
      ((scan.finish patch stop options).at'.position < stop → taken ≠ []) ∧
      (options.limit = none → scan.budget = none →
        stop ≤ (scan.finish patch stop options).at'.position) ∧
      ∀ limit, options.limit = some limit → scan.lines.length < limit →
        scan.lines.length + taken.length ≤ limit := by
  generalize here : scan.at' = at'
  induction at' using lines_induction patch stop generalizing scan with
  | past at' past =>
    rw [Scan.finish_end (here ▸ past), here]
    exact ⟨[], rfl, rfl, (List.append_nil _).symm, fun inside => absurd past (Nat.not_le.mpr inside),
      fun _ _ => past, fun limit _ fewer => fewer.le⟩
  | line at' next found inside read ih =>
    rw [rowsFrom_line inside read]
    cases found with
    | none =>
      rw [Scan.finish_blank (here ▸ inside) (here ▸ read)]
      have rest := ih (show options.offset ≤ { scan with at' := next }.row from shown) rfl
      exact rest
    | some row =>
      rw [Scan.finish_row (here ▸ inside) (here ▸ read)]
      have lines : (scan.take patch options next row).lines =
          scan.lines ++ [showRow patch row options.textOffset options.characterLimit scan.budget] :=
        if_pos shown
      have budget : (scan.take patch options next row).budget = scan.budget.map (· -
          (showRow patch row options.textOffset options.characterLimit scan.budget).text.length) :=
        if_pos shown
      split
      · rename_i full
        refine ⟨[(row, next)], rfl, rfl, lines, fun _ => List.cons_ne_nil _ _, ?_, ?_⟩
        · intro unlimited unbudgeted
          rw [Scan.full, budget, unlimited, unbudgeted] at full
          cases full
        · exact fun limit _ fewer => fewer
      · rename_i going
        obtain ⟨taken, rows, count, more, _, ends, bounded⟩ :=
          ih (show options.offset ≤ (scan.take patch options next row).row from shown.trans (Nat.le_succ _))
            rfl
        refine ⟨(row, next) :: taken, congrArg _ rows, ?_, ?_, fun _ => List.cons_ne_nil _ _, ?_, ?_⟩
        · rw [count, List.length_cons, show (scan.take patch options next row).row = scan.row + 1 from rfl]
          omega
        · rw [more, lines, budget, List.append_assoc]
          rfl
        · intro unlimited unbudgeted
          exact ends unlimited (by rw [budget, unbudgeted]; rfl)
        · intro limit limited fewer
          have open' : (scan.take patch options next row).lines.length < limit := by
            by_contra reached
            rw [Scan.full, limited, Bool.not_eq_true, Bool.or_eq_false_iff] at going
            exact reached (by simpa using going.1)
          have := bounded limit limited open'
          rw [lines, List.length_append, List.length_singleton] at this
          rw [List.length_cons]
          omega

theorem Scan.finish_nothing {scan : Scan} (rows : rowsFrom patch stop scan.at' = []) :
    stop ≤ (scan.finish patch stop options).at'.position ∧
      (scan.finish patch stop options).lines = scan.lines := by
  generalize here : scan.at' = at' at rows
  induction at' using lines_induction patch stop generalizing scan with
  | past at' past =>
    rw [Scan.finish_end (here ▸ past), here]
    exact ⟨past, rfl⟩
  | line at' next found inside read ih =>
    rw [rowsFrom_line inside read] at rows
    cases found with
    | none =>
      rw [Scan.finish_blank (here ▸ inside) (here ▸ read)]
      have rest : stop ≤ ({ scan with at' := next }.finish patch stop options).at'.position ∧ _ :=
        ih rfl rows
      exact rest
    | some row => cases rows

/-! ## Files -/

/-- A file of an index, however often it was read: its first checkpoint is where its rows begin. -/
structure Kept (patch : Text) (start : Checkpoint) (stop : Nat) (file : DiffFile) : Prop where
  stops : file.stop = stop
  opened : 0 < file.checkpoints.length
  marked : Marked patch stop start file.checkpoints

theorem Kept.fresh (start : Checkpoint) : Kept patch start stop ⟨stop, [start]⟩ where
  stops := rfl
  opened := Nat.one_pos
  marked := by
    intro k at' got
    obtain ⟨inside, rfl⟩ := List.getElem?_eq_some_iff.mp got
    obtain rfl : k = 0 := Nat.lt_one_iff.mp inside
    exact ⟨[], rfl, rfl, rfl⟩

/-- A read that can show something. -/
def Going (options : ReadOptions) (budget : Option Nat) : Prop :=
  options.limit ≠ some 0 ∧ budget ≠ some 0

theorem Going.open (going : Going options budget) (at' : Checkpoint) (row : Nat)
    (checkpoints : List Checkpoint) :
    Scan.full ⟨at', row, [], budget, checkpoints⟩ options = false := by
  obtain ⟨limited, budgeted⟩ := going
  cases limits : options.limit <;> cases budget <;> simp_all [Scan.full]

/-- The loop that a read of a file runs. -/
theorem readFile_eq (kept : Kept patch start stop file) (options : ReadOptions)
    (budget : Option Nat) : ∃ at' k passed,
      rowsFrom patch stop start = passed ++ rowsFrom patch stop at' ∧ passed.length = k * 500 ∧
      at' = behind start passed ∧ k * 500 ≤ options.offset ∧ k < file.checkpoints.length ∧
      readFile patch file options budget =
        (let scan := Scan.finish patch stop options ⟨at', k * 500, [], budget, file.checkpoints⟩
        (⟨scan.lines, if scan.at'.position < stop then some scan.row else none, true⟩,
          { file with checkpoints := scan.checkpoints })) := by
  have opened := kept.opened
  have inside : min (options.offset / 500) (file.checkpoints.length - 1) < file.checkpoints.length := by
    omega
  have got := List.getElem?_eq_getElem inside
  obtain ⟨passed, rows, count, at_behind⟩ := kept.marked _ _ got
  have early := (Nat.mul_le_mul_right 500 (Nat.min_le_left (options.offset / 500)
    (file.checkpoints.length - 1))).trans (Nat.div_mul_le_self options.offset 500)
  refine ⟨_, _, passed, rows, count, at_behind, early, inside, ?_⟩
  unfold readFile
  dsimp only
  rw [got, kept.stops]
  rfl

theorem readFile_fresh (start : Checkpoint) (budget : Option Nat) :
    (readFile patch ⟨stop, [start]⟩ options budget).1 =
      (let scan := Scan.finish patch stop options ⟨start, 0, [], budget, [start]⟩
      ⟨scan.lines, if scan.at'.position < stop then some scan.row else none, true⟩) := by
  unfold readFile
  dsimp only [List.length_singleton]
  rw [Nat.sub_self, Nat.min_zero]
  rfl

/-- The answer is the one of a file that was never read. -/
theorem Kept.answers {start : Checkpoint} (kept : Kept patch start stop file) {budget : Option Nat}
    (going : Going options budget) :
    (readFile patch file options budget).1 = (readFile patch ⟨stop, [start]⟩ options budget).1 := by
  obtain ⟨at', k, passed, rows, count, rfl, early, -, read⟩ :=
    readFile_eq kept options budget
  rw [read]
  have skipped : (Scan.finish patch stop options ⟨start, 0, [], budget, [start]⟩).answer = _ :=
    Scan.finish_skips rows (by dsimp only; omega) (going.open _ _ _)
  have behind_same : (Scan.mk (behind start passed) (0 + passed.length) [] budget [start]).answer =
      (Scan.mk (behind start passed) (k * 500) [] budget file.checkpoints).answer := by
    rw [count, Nat.zero_add]
    rfl
  have same := skipped.trans (Scan.finish_of_answer behind_same)
  obtain ⟨position, row, lines, -⟩ := by simpa only [Scan.answer, Prod.mk.injEq] using same
  rw [readFile_fresh]
  dsimp only
  rw [position, row, lines]

theorem Kept.read {file : DiffFile} (kept : Kept patch start stop file) (budget : Option Nat) :
    Kept patch start stop (readFile patch file options budget).2 := by
  obtain ⟨at', k, passed, rows, count, -, -, inside, read⟩ := readFile_eq kept options budget
  rw [read]
  have row : (Scan.mk at' (k * 500) [] budget file.checkpoints).row / 500 < file.checkpoints.length := by
    rwa [Nat.mul_div_cancel _ (by decide)]
  have marked : Marked patch stop start
      (Scan.finish patch stop options ⟨at', k * 500, [], budget, file.checkpoints⟩).checkpoints ∧ _ :=
    Scan.finish_marked kept.marked row rows count
  exact ⟨kept.stops, kept.opened.trans_le marked.2, marked.1⟩

/-- What a read of a file answers, in terms of its rows. -/
theorem readFile_spec (start : Checkpoint) {budget : Option Nat} (going : Going options budget) :
    ∃ taken rest, (rowsFrom patch stop start).drop options.offset = taken ++ rest ∧
      (readFile patch ⟨stop, [start]⟩ options budget).1.lines = shownRows patch options budget taken ∧
      (∀ n, (readFile patch ⟨stop, [start]⟩ options budget).1.nextOffset = some n →
        n = options.offset + taken.length ∧ taken ≠ []) ∧
      ((readFile patch ⟨stop, [start]⟩ options budget).1.nextOffset = none → rest = []) ∧
      (options.limit = none → budget = none →
        (readFile patch ⟨stop, [start]⟩ options budget).1.nextOffset = none) ∧
      ∀ limit, options.limit = some limit → taken.length ≤ limit := by
  have rows := (List.take_append_drop options.offset (rowsFrom patch stop start)).symm
  have count := List.length_take_le options.offset (rowsFrom patch stop start)
  have skipped : (Scan.finish patch stop options ⟨start, 0, [], budget, [start]⟩).answer = _ :=
    Scan.finish_skips rows (by rw [Nat.zero_add]; exact count) (going.open _ _ _)
  have tail := rowsFrom_behind rows
  obtain ⟨position, row, lines, -⟩ := by simpa only [Scan.answer, Prod.mk.injEq] using skipped
  rw [readFile_fresh]
  dsimp only
  rw [position, row, lines]
  by_cases within : options.offset ≤ (rowsFrom patch stop start).length
  · rw [List.length_take_of_le within, Nat.zero_add] at *
    obtain ⟨taken, split, count, shown, nonempty, ends, bounded⟩ :=
      @Scan.finish_reads patch stop options
        ⟨behind start ((rowsFrom patch stop start).take options.offset), options.offset, [], budget, [start]⟩
        le_rfl
    refine ⟨taken, _, tail.symm.trans split, shown, ?_, ?_, ?_, ?_⟩
    · intro n more
      split_ifs at more with inside
      exact ⟨(Option.some.inj more).symm.trans count, nonempty inside⟩
    · intro last
      split_ifs at last with inside
      exact rowsFrom_end (Nat.not_lt.mp inside)
    · intro unlimited unbudgeted
      exact if_neg (Nat.not_lt.mpr (ends unlimited unbudgeted))
    · intro limit limited
      have := bounded limit limited (Nat.pos_of_ne_zero fun zero => going.1 (zero ▸ limited))
      rwa [List.length_nil, Nat.zero_add] at this
  · -- every row lies before the offset
    have none_left := List.drop_of_length_le (Nat.le_of_not_le within)
    rw [none_left] at tail ⊢
    obtain ⟨past, nothing⟩ := @Scan.finish_nothing patch stop options
      ⟨behind start ((rowsFrom patch stop start).take options.offset),
        0 + ((rowsFrom patch stop start).take options.offset).length, [], budget, [start]⟩ tail
    refine ⟨[], [], rfl, nothing, ?_, fun _ => rfl, fun _ _ => if_neg (Nat.not_lt.mpr past),
      fun limit _ => Nat.zero_le limit⟩
    intro n more
    rw [if_neg (Nat.not_lt.mpr past)] at more
    cases more

/-! ## Indexes -/

/-- An index that was created for a patch, however often it was read. -/
def IndexKept (fresh index : DiffIndex) : Prop :=
  index.patch = fresh.patch ∧ ∀ path,
    fresh.files.get path = none ∧ index.files.get path = none ∨
    ∃ start stop file, fresh.files.get path = some ⟨stop, [start]⟩ ∧
      index.files.get path = some file ∧ stop ≤ fresh.patch.length ∧
      Kept fresh.patch start stop file

theorem nextBoundary_lt (found : nextBoundary patch lastIndex = some i) : i < patch.length := by
  have := List.mem_range'_1.mp (List.mem_of_find?_eq_some found)
  omega

theorem boundaries_lt (fuel lastIndex : Nat) : ∀ i ∈ boundaries patch fuel lastIndex, i < patch.length := by
  induction fuel generalizing lastIndex with
  | zero => exact nofun
  | succ fuel ih =>
    intro i member
    unfold boundaries at member
    cases found : nextBoundary patch lastIndex with
    | none =>
      rw [found] at member
      cases member
    | some first =>
      rw [found] at member
      obtain rfl | later := List.mem_cons.mp member
      · exact nextBoundary_lt found
      · exact ih _ i later

theorem patchSections_le : ∀ section' ∈ patchSections patch, section'.2 ≤ patch.length := by
  intro section' member
  have stops := (List.of_mem_zip (show (section'.1, section'.2) ∈ _ from member)).2
  obtain start | last := List.mem_append.mp stops
  · exact (boundaries_lt _ _ _ (List.mem_of_mem_tail start)).le
  · rw [List.mem_singleton.mp last]

theorem indexSection_fresh (bounded : section'.2 ≤ n)
    (fresh : ∀ path file, found.get path = some file → file.stop ≤ n ∧ ∃ start, file.checkpoints = [start]) :
    ∀ path file, (indexSection patch files found section').get path = some file →
      file.stop ≤ n ∧ ∃ start, file.checkpoints = [start] := by
  intro path file got
  unfold indexSection at got
  dsimp only at got
  split at got
  · rename_i owner _
    by_cases same : path = owner.path
    · rw [same, OrderedMap.get_set_self] at got
      obtain rfl := Option.some.inj got
      exact ⟨bounded, _, rfl⟩
    · rw [OrderedMap.get_set_of_ne _ _ same] at got
      exact fresh path file got
  · exact fresh path file got

theorem createWorkspaceDiffIndex_fresh (patch : Text) (files : List ChangedFile) (path : Text)
    (file : DiffFile) (got : (createWorkspaceDiffIndex patch files).files.get path = some file) :
    file.stop ≤ patch.length ∧ ∃ start, file.checkpoints = [start] := by
  have every (sections : List (Nat × Nat)) (bounded : ∀ section' ∈ sections, section'.2 ≤ patch.length)
      (path : Text) (file : DiffFile)
      (got : (sections.foldl (indexSection patch files) OrderedMap.empty).get path = some file) :
      file.stop ≤ patch.length ∧ ∃ start, file.checkpoints = [start] := by
    induction sections using List.reverseRecOn generalizing path file with
    | nil => cases got
    | append_singleton sections last ih =>
      rw [List.foldl_concat] at got
      exact indexSection_fresh (bounded last (by simp))
        (ih fun section' member => bounded section' (List.mem_append_left _ member)) path file got
  exact every _ patchSections_le path file got

theorem IndexKept.created (patch : Text) (files : List ChangedFile) :
    IndexKept (createWorkspaceDiffIndex patch files) (createWorkspaceDiffIndex patch files) := by
  refine ⟨rfl, fun path => ?_⟩
  cases got : (createWorkspaceDiffIndex patch files).files.get path with
  | none => exact .inl ⟨rfl, rfl⟩
  | some file =>
    obtain ⟨bounded, start, fresh⟩ := createWorkspaceDiffIndex_fresh patch files path file got
    obtain ⟨stop, checkpoints⟩ := file
    obtain rfl : checkpoints = [start] := fresh
    exact .inr ⟨start, stop, _, rfl, rfl, bounded, Kept.fresh start⟩

/-- The rows of a path, none for a path without a file. -/
def pathRows (index : DiffIndex) (path : Text) : List (DiffRow × Checkpoint) :=
  (index.files.get path).elim [] fun file =>
    file.checkpoints.head?.elim [] (rowsFrom index.patch file.stop)

theorem pathRows_le (kept : IndexKept fresh index) (path : Text) :
    (pathRows fresh path).length ≤ fresh.patch.length := by
  obtain ⟨-, files⟩ := kept
  unfold pathRows
  obtain ⟨none, -⟩ | ⟨start, stop, -, got, -, bounded, -⟩ := files path
  · rw [none]
    exact Nat.zero_le _
  · rw [got]
    exact (rowsFrom_length start).trans ((Nat.sub_le _ _).trans bounded)

theorem readLines_spec {fresh index : DiffIndex} (kept : IndexKept fresh index) (path : Text)
    (options : ReadOptions) {budget : Option Nat} (going : Going options budget) :
    IndexKept fresh (readLines index path options budget).2 ∧
      (readLines index path options budget).1 = (readLines fresh path options budget).1 ∧
      ∃ taken rest, (pathRows fresh path).drop options.offset = taken ++ rest ∧
        (readLines index path options budget).1.lines = shownRows fresh.patch options budget taken ∧
        (∀ n, (readLines index path options budget).1.nextOffset = some n →
          n = options.offset + taken.length ∧ taken ≠ []) ∧
        ((readLines index path options budget).1.nextOffset = none → rest = []) ∧
        (options.limit = none → budget = none →
          (readLines index path options budget).1.nextOffset = none) ∧
        ∀ limit, options.limit = some limit → taken.length ≤ limit := by
  obtain ⟨patches, files⟩ := kept
  unfold readLines pathRows
  obtain ⟨absent, absent'⟩ | ⟨start, stop, file, got, got', bounded, here⟩ := files path
  · rw [absent, absent']
    refine ⟨⟨patches, files⟩, rfl, [], [], List.drop_nil, rfl, ?_, fun _ => rfl, fun _ _ => rfl,
      fun _ _ => Nat.zero_le _⟩
    intro n none
    cases none
  · rw [got, got']
    rw [patches, here.answers going]
    refine ⟨⟨rfl, fun other => ?_⟩, rfl, readFile_spec start going⟩
    by_cases same : other = path
    · rw [same, OrderedMap.get_set_self]
      exact .inr ⟨start, stop, _, got, rfl, bounded, here.read budget⟩
    · rw [OrderedMap.get_set_of_ne _ _ same]
      exact files other

end LetAgents.Workspace

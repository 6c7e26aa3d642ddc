import LetAgents.Lib.Checked
import LetAgents.Rental.SignedChangeJournal

/-!
# What the diffs of the journal make

A patch that the journal builds replaces all lines of a file. It makes the edit where its lines
are the whole content, before and after.
-/
namespace LetAgents.Rental.SignedChangeJournal

open Lib Lib.RegExp
open LetAgents.Lib.UnifiedDiff (lines lineFeed Named Files FilePatch)

/-! ## Lines and texts -/

/-- A content that is all lines, of which only the last one may end with a carriage return. -/
def Terminated (content : Text) : Prop :=
  content = [] ∨ content ≠ [0x0A] ∧ content.getLast? = some 0x0A ∧
    ∀ a b, content = a ++ 0x0D :: 0x0A :: b → b = []

/-- Lines with a line feed behind each of them. -/
def terminate (all : List Text) : List Text := all.map (· ++ [lineFeed])

theorem splitAtNewlines_cons (t : Text) : ∃ first more, splitAtNewlines t = first :: more := by
  induction t with
  | nil => exact ⟨[], [], rfl⟩
  | cons c rest ih =>
    obtain ⟨first, more, same⟩ := ih
    unfold splitAtNewlines
    rw [same]
    split_ifs
    · exact ⟨_, _, rfl⟩
    · exact ⟨_, _, rfl⟩
    · exact ⟨_, _, rfl⟩

theorem join_cons (c : Nat) (first : Text) (more : List Text) :
    Text.join 0x0A ((c :: first) :: more) = c :: Text.join 0x0A (first :: more) := by
  cases more <;> rfl

theorem join_nil_cons (some : all ≠ []) :
    Text.join 0x0A ([] :: all) = 0x0A :: Text.join 0x0A all := by
  cases all with
  | nil => exact absurd rfl some
  | cons first more => rfl

/-- What is split and joined again: the carriage returns before line feeds are gone. -/
def rejoin (t : Text) : Text := Text.join 0x0A (splitAtNewlines t)

theorem rejoin_feed (rest : Text) : rejoin (0x0A :: rest) = 0x0A :: rejoin rest := by
  obtain ⟨first, more, same⟩ := splitAtNewlines_cons rest
  unfold rejoin
  conv_lhs => unfold splitAtNewlines
  exact join_nil_cons (by rw [same]; exact List.cons_ne_nil _ _)

theorem rejoin_return (next : rest.head? = some 0x0A) : rejoin (0x0D :: rest) = rejoin rest := by
  unfold rejoin
  conv_lhs => unfold splitAtNewlines
  rw [if_neg (by decide), if_pos ⟨rfl, next⟩]

theorem rejoin_other (feed : c ≠ 0x0A) (crlf : ¬(c = 0x0D ∧ rest.head? = some 0x0A)) :
    rejoin (c :: rest) = c :: rejoin rest := by
  obtain ⟨first, more, same⟩ := splitAtNewlines_cons rest
  unfold rejoin
  conv_lhs => unfold splitAtNewlines
  rw [if_neg feed, if_neg crlf, same]
  exact join_cons c first more

/-- The three cases of a unit that is split off. -/
theorem unit_cases (c : Nat) (rest : Text) :
    c = 0x0A ∨ (c = 0x0D ∧ rest.head? = some 0x0A) ∨ c ≠ 0x0A ∧ ¬(c = 0x0D ∧ rest.head? = some 0x0A) := by
  tauto

theorem rejoin_length (t : Text) : (rejoin t).length ≤ t.length := by
  induction t with
  | nil => exact le_rfl
  | cons c rest ih =>
    obtain rfl | ⟨rfl, next⟩ | ⟨feed, crlf⟩ := unit_cases c rest
    · rw [rejoin_feed]
      exact Nat.succ_le_succ ih
    · rw [rejoin_return next]
      exact ih.trans (Nat.le_succ _)
    · rw [rejoin_other feed crlf]
      exact Nat.succ_le_succ ih

theorem crlf_cons (c : Nat) (rest : Text) :
    (∃ a b, c :: rest = a ++ 0x0D :: 0x0A :: b) ↔
      (c = 0x0D ∧ rest.head? = some 0x0A) ∨ ∃ a b, rest = a ++ 0x0D :: 0x0A :: b := by
  constructor
  · rintro ⟨a, b, same⟩
    cases a with
    | nil =>
      obtain ⟨rfl, rfl⟩ := List.cons.inj same
      exact .inl ⟨rfl, rfl⟩
    | cons _ a => exact .inr ⟨a, b, (List.cons.inj same).2⟩
  · rintro (⟨rfl, next⟩ | ⟨a, b, rfl⟩)
    · obtain ⟨more, rfl⟩ := List.head?_eq_some_iff.mp next
      exact ⟨[], more, rfl⟩
    · exact ⟨c :: a, b, rfl⟩

theorem rejoin_iff (t : Text) : rejoin t = t ↔ ¬∃ a b, t = a ++ 0x0D :: 0x0A :: b := by
  induction t with
  | nil =>
    refine iff_of_true rfl ?_
    rintro ⟨a, b, same⟩
    simp at same
  | cons c rest ih =>
    rw [crlf_cons]
    obtain rfl | ⟨rfl, next⟩ | ⟨feed, crlf⟩ := unit_cases c rest
    · rw [rejoin_feed, List.cons.injEq, ih]
      simp
    · rw [rejoin_return next]
      refine iff_of_false (fun same => ?_) (fun none => none (.inl ⟨rfl, next⟩))
      have shorter := rejoin_length rest
      rw [same, List.length_cons] at shorter
      omega
    · rw [rejoin_other feed crlf, List.cons.injEq, ih]
      simp only [true_and, crlf, false_or]

theorem flatten_terminate (some : all ≠ []) :
    (terminate all).flatten = Text.join 0x0A all ++ [0x0A] := by
  induction all with
  | nil => exact absurd rfl some
  | cons first more ih =>
    cases more with
    | nil => simp [terminate, Text.join, lineFeed]
    | cons next more =>
      change (first ++ [lineFeed]) ++ (terminate (next :: more)).flatten =
        (first ++ 0x0A :: Text.join 0x0A (next :: more)) ++ [0x0A]
      rw [ih (List.cons_ne_nil _ _), List.append_assoc, List.append_assoc]
      rfl

theorem splitLines_feed (before : Text) :
    splitLinesForWholeFileDiff (before ++ [0x0A]) = if before = [] then [] else splitAtNewlines before := by
  have ends : Text.endsWith (before ++ [0x0A]) (text "\n") = true :=
    List.isSuffixOf_iff_suffix.mpr (List.suffix_append _ _)
  unfold splitLinesForWholeFileDiff
  rw [if_neg (by simp), ends, if_pos rfl, List.dropLast_concat]

theorem splitLines_open (filled : content ≠ []) (last : content.getLast? ≠ some 0x0A) :
    splitLinesForWholeFileDiff content = splitAtNewlines content := by
  have ends : Text.endsWith content (text "\n") = false := by
    rw [← Bool.not_eq_true]
    intro suffix
    obtain ⟨before, rfl⟩ := List.isSuffixOf_iff_suffix.mp suffix
    exact last List.getLast?_concat
  unfold splitLinesForWholeFileDiff
  rw [if_neg filled, ends]
  exact if_neg filled

/-- The carriage returns of a content that count: those before a line feed that is not the last. -/
theorem crlf_before_last (before : Text) :
    (∀ a b, before ++ [0x0A] = a ++ 0x0D :: 0x0A :: b → b = []) ↔
      ¬∃ a b, before = a ++ 0x0D :: 0x0A :: b := by
  constructor
  · rintro last ⟨a, b, rfl⟩
    have := last a (b ++ [0x0A]) (by simp)
    simp at this
  · intro none a b same
    by_contra some
    obtain ⟨front, x, rfl⟩ := (List.eq_nil_or_concat b).resolve_left some
    refine none ⟨a, front, ?_⟩
    have := congrArg List.dropLast same
    rwa [List.dropLast_concat, List.concat_eq_append, ← List.cons_append, ← List.cons_append,
      ← List.append_assoc, List.dropLast_concat] at this

/-- The lines of a content are the content, with their line feeds, exactly if it is terminated. -/
theorem terminate_iff (content : Text) :
    (terminate (splitLinesForWholeFileDiff content)).flatten = content ↔ Terminated content := by
  by_cases empty : content = []
  · rw [empty]
    exact iff_of_true rfl (.inl rfl)
  by_cases last : content.getLast? = some 0x0A
  · obtain ⟨before, rfl⟩ := List.getLast?_eq_some_iff.mp last
    have terminated : Terminated (before ++ [0x0A]) ↔
        before ≠ [] ∧ ∀ a b, before ++ [0x0A] = a ++ 0x0D :: 0x0A :: b → b = [] := by
      unfold Terminated
      simp
    rw [terminated, crlf_before_last, splitLines_feed]
    split_ifs with alone
    · rw [alone]
      exact iff_of_false (by simp [terminate]) (fun both => both.1 rfl)
    · obtain ⟨first, more, same⟩ := splitAtNewlines_cons before
      rw [flatten_terminate (by rw [same]; exact List.cons_ne_nil _ _), List.append_left_inj,
        ← rejoin_iff]
      exact (and_iff_right alone).symm
  · rw [splitLines_open empty last]
    obtain ⟨first, more, same⟩ := splitAtNewlines_cons content
    rw [flatten_terminate (by rw [same]; exact List.cons_ne_nil _ _)]
    refine iff_of_false (fun equal => last ?_) ?_
    · rw [← equal]
      exact List.getLast?_concat
    · rintro (none | ⟨-, ends, -⟩)
      · exact empty none
      · exact last ends

/-! ## Counting lines -/

theorem splitAtNewlines_feedless (t : Text) : ∀ line ∈ splitAtNewlines t, lineFeed ∉ line := by
  induction t with
  | nil =>
    intro line member
    rw [List.mem_singleton.mp member]
    nofun
  | cons c rest ih =>
    intro line member
    unfold splitAtNewlines at member
    split_ifs at member with feed
    · obtain rfl | old := List.mem_cons.mp member
      · nofun
      · exact ih line old
    · exact ih line member
    · obtain ⟨first, more, same⟩ := splitAtNewlines_cons rest
      rw [same] at member ih
      obtain rfl | old := List.mem_cons.mp member
      · rintro (_ | ⟨_, inside⟩)
        · exact feed rfl
        · exact ih first List.mem_cons_self inside
      · exact ih line (.tail _ old)

theorem splitLines_feedless (content : Text) :
    ∀ line ∈ splitLinesForWholeFileDiff content, lineFeed ∉ line := by
  unfold splitLinesForWholeFileDiff
  split
  · exact nofun
  dsimp only
  generalize (if Text.endsWith content (text "\n") then content.dropLast else content) = whole
  split
  · exact nofun
  · exact splitAtNewlines_feedless whole

theorem splitAtNewlines_length (t : Text) : (splitAtNewlines t).length = t.count 0x0A + 1 := by
  induction t with
  | nil => rfl
  | cons c rest ih =>
    unfold splitAtNewlines
    split_ifs with feed crlf
    · rw [List.length_cons, ih, feed, List.count_cons_self]
    · rw [ih, List.count_cons_of_ne feed]
    · obtain ⟨first, more, same⟩ := splitAtNewlines_cons rest
      rw [same] at ih ⊢
      rw [List.count_cons_of_ne feed, ← ih]
      rfl

/-- A content has as many lines as it has line feeds, and one more if it ends without one. -/
theorem lines_length (t : Text) (filled : t ≠ []) :
    (lines t).length = t.count lineFeed + if t.getLast? = some lineFeed then 0 else 1 := by
  induction t with
  | nil => exact absurd rfl filled
  | cons c rest ih =>
    unfold lines
    cases rest with
    | nil =>
      by_cases feed : c = lineFeed
      · subst feed
        rfl
      · rw [if_neg feed, List.count_cons_of_ne feed, if_neg (by simpa using feed)]
        rfl
    | cons d rest =>
      have tail := ih (List.cons_ne_nil _ _)
      rw [List.getLast?_cons_cons]
      by_cases feed : c = lineFeed
      · subst feed
        rw [if_pos rfl, List.length_cons, tail, List.count_cons_self, Nat.add_right_comm]
      · rw [if_neg feed, List.count_cons_of_ne feed, ← tail]
        cases whole : lines (d :: rest) with
        | nil =>
          have all := UnifiedDiff.flatten_lines (d :: rest)
          rw [whole] at all
          cases all
        | cons first more => rfl

/-- A content has as many lines as the diff writes of it, a lone line feed aside. -/
theorem splitLines_length (other : content ≠ [lineFeed]) :
    (splitLinesForWholeFileDiff content).length = (lines content).length := by
  by_cases empty : content = []
  · rw [empty]
    rfl
  rw [lines_length content empty]
  by_cases last : content.getLast? = some lineFeed
  · rw [if_pos last]
    obtain ⟨before, rfl⟩ := List.getLast?_eq_some_iff.mp last
    have filled : before ≠ [] := by
      rintro rfl
      exact other rfl
    change (splitLinesForWholeFileDiff (before ++ [0x0A])).length = _
    rw [splitLines_feed, if_neg filled, splitAtNewlines_length, List.count_append]
    rfl
  · rw [if_neg last, splitLines_open empty last, splitAtNewlines_length]
    rfl

/-- The lines of the diff are at the front of a content exactly if they are all of it, a lone
line feed aside. -/
theorem terminate_front (other : content ≠ [lineFeed]) :
    (terminate (splitLinesForWholeFileDiff content)).isPrefixOf (lines content) = true ↔
      Terminated content := by
  rw [List.isPrefixOf_iff_prefix, ← terminate_iff]
  constructor
  · intro front
    have same := front.eq_of_length (by rw [terminate, List.length_map, splitLines_length other])
    rw [same, UnifiedDiff.flatten_lines]
  · intro whole
    have split := UnifiedDiff.lines_terminated (splitLines_feedless content) []
    rw [List.append_nil] at split
    change lines (terminate _).flatten = _ at split
    rw [whole] at split
    rw [split]
    exact List.prefix_append _ _

/-! ## Reading a diff of the journal -/

theorem decimalText_eq (n : Nat) : SecretFirewall.decimalText n = (Nat.toDigits 10 n).map Char.toNat ∧
    ∀ c ∈ SecretFirewall.decimalText n, isDigit c = true := by
  have digit : ∀ c ∈ Nat.toDigits 10 n, codeUnits c = [c.toNat] ∧ isDigit c.toNat = true := by
    intro c member
    have here := Nat.isDigit_of_mem_toDigits (by decide) (by decide) member
    rw [Char.isDigit, Bool.and_eq_true, decide_eq_true_eq, decide_eq_true_eq] at here
    have low : 48 ≤ c.toNat := UInt32.le_iff_toNat_le.mp here.1
    have high : c.toNat ≤ 57 := UInt32.le_iff_toNat_le.mp here.2
    refine ⟨if_pos (by omega), ?_⟩
    rw [isDigit, show u '0' = 48 from rfl, show u '9' = 57 from rfl, decide_eq_true low, decide_eq_true high]
    rfl
  have same : SecretFirewall.decimalText n = (Nat.toDigits 10 n).map Char.toNat := by
    rw [SecretFirewall.decimalText, List.flatMap_congr fun c member => (digit c member).1, List.map_eq_flatMap]
  refine ⟨same, fun c member => ?_⟩
  rw [same] at member
  obtain ⟨d, here, rfl⟩ := List.mem_map.mp member
  exact (digit d here).2

/-- A number is read back from its digits. -/
theorem decimal_decimalText (n : Nat) {rest : Text} (ends : ∀ c ∈ rest.head?, isDigit c = false) :
    decimal (SecretFirewall.decimalText n ++ rest) = some (n, rest) := by
  obtain ⟨same, digits⟩ := decimalText_eq n
  have taken : (SecretFirewall.decimalText n ++ rest).takeWhile isDigit = SecretFirewall.decimalText n := by
    rw [List.takeWhile_append_of_pos digits]
    cases rest with
    | nil => simp
    | cons c rest =>
      rw [List.takeWhile_cons_of_neg (by rw [ends c rfl]; exact Bool.false_ne_true), List.append_nil]
  have filled : (SecretFirewall.decimalText n).isEmpty = false := by
    rw [same, List.isEmpty_eq_false_iff]
    simp [Nat.toDigits_ne_nil]
  unfold decimal
  dsimp only
  rw [taken, filled, if_neg Bool.false_ne_true, List.drop_left, same, List.foldl_map]
  have value := @Nat.ofDigitChars_toDigits 10 n (by decide) (by decide)
  refine congrArg (fun v => some (v, rest)) (Eq.trans ?_ value)
  congr 1
  funext v c
  rw [Nat.mul_comm]
  rfl

/-- The range that the header says. -/
def rangeOf (lineCount : Nat) : Nat × Nat := if lineCount = 0 then (0, 0) else (1, lineCount)

theorem hunkRange_read (n : Nat) {rest : Text} (ends : ∀ c ∈ rest.head?, isDigit c = false) :
    UnifiedDiff.hunkRange (hunkRange n ++ rest) = some (rangeOf n, rest) := by
  unfold hunkRange rangeOf
  split_ifs with zero
  · exact UnifiedDiff.hunkRange_counted
      (@decimal_decimalText 0 (text "," ++ (text "0" ++ rest)) (by rintro _ ⟨⟩; decide))
      (decimal_decimalText 0 ends)
  · exact UnifiedDiff.hunkRange_counted
      (@decimal_decimalText 1 (text "," ++ (SecretFirewall.decimalText n ++ rest)) (by rintro _ ⟨⟩; decide))
      (decimal_decimalText n ends)

theorem hunkRanges_read (old new : Nat) :
    UnifiedDiff.hunkRanges (text "@@ -" ++ hunkRange old ++ text " +" ++ hunkRange new ++ text " @@" ++
      [lineFeed]) = some (rangeOf old, rangeOf new) := by
  have first := @hunkRange_read old (text " +" ++ (hunkRange new ++ (text " @@" ++ [lineFeed])))
    (by rintro _ ⟨⟩; decide)
  have second := @hunkRange_read new (text " @@" ++ [lineFeed]) (by rintro _ ⟨⟩; decide)
  unfold UnifiedDiff.hunkRanges
  simp only [List.append_assoc]
  rw [UnifiedDiff.stripped_append, Option.bind_some, first, Option.bind_some, UnifiedDiff.stripped_append,
    Option.bind_some, second, Option.bind_some, UnifiedDiff.stripped_append]
  rfl

/-- The lines of the diff of an entry. -/
def diffLines (entry : SignedChangeJournalEntry) : List Text :=
  [text "diff --git a/" ++ entry.path ++ text " b/" ++ entry.path,
    text "--- a/" ++ entry.path,
    text "+++ b/" ++ entry.path,
    text "@@ -" ++ hunkRange (splitLinesForWholeFileDiff entry.beforeContent).length ++ text " +" ++
      hunkRange (splitLinesForWholeFileDiff entry.afterContent).length ++ text " @@"] ++
    (splitLinesForWholeFileDiff entry.beforeContent).map (text "-" ++ ·) ++
    (splitLinesForWholeFileDiff entry.afterContent).map (text "+" ++ ·)

theorem buildUnifiedDiff_eq (entry : SignedChangeJournalEntry) :
    buildUnifiedDiff entry = (terminate (diffLines entry)).flatten := by
  rw [flatten_terminate (by simp [diffLines])]
  rfl

/-- The change that the diff of an entry says. -/
def patchOf (entry : SignedChangeJournalEntry) : FilePatch :=
  ⟨entry.path, [⟨0, terminate (splitLinesForWholeFileDiff entry.beforeContent),
    terminate (splitLinesForWholeFileDiff entry.afterContent)⟩]⟩

theorem hunkPosition_rangeOf (n : Nat) : UnifiedDiff.hunkPosition (rangeOf n) = 0 ∧ (rangeOf n).2 = n := by
  unfold rangeOf
  split_ifs with zero
  · exact ⟨rfl, zero.symm⟩
  · exact ⟨if_neg zero, rfl⟩

/-- The lines of a diff are read as its change. -/
theorem read_diff (named : Named entry.path) (idle : r.old = 0 ∧ r.new = 0) :
    (terminate (diffLines entry)).foldlM UnifiedDiff.Reading.line r =
      some ⟨patchOf entry :: r.files, 0, 0, none, true⟩ := by
  obtain ⟨files, old, new, source, within⟩ := r
  obtain ⟨rfl, rfl⟩ : old = 0 ∧ new = 0 := idle
  have removed : terminate ((splitLinesForWholeFileDiff entry.beforeContent).map (text "-" ++ ·)) =
      (terminate (splitLinesForWholeFileDiff entry.beforeContent)).map (u '-' :: ·) := by
    rw [terminate, terminate, List.map_map, List.map_map]
    rfl
  have added : terminate ((splitLinesForWholeFileDiff entry.afterContent).map (text "+" ++ ·)) =
      (terminate (splitLinesForWholeFileDiff entry.afterContent)).map (u '+' :: ·) := by
    rw [terminate, terminate, List.map_map, List.map_map]
    rfl
  have body : terminate (diffLines entry) =
      [text "diff --git a/" ++ entry.path ++ text " b/" ++ entry.path ++ [lineFeed],
        text "--- " ++ (u 'a' :: u '/' :: entry.path ++ [lineFeed]),
        text "+++ " ++ (u 'b' :: u '/' :: entry.path ++ [lineFeed]),
        text "@@ -" ++ hunkRange (splitLinesForWholeFileDiff entry.beforeContent).length ++ text " +" ++
          hunkRange (splitLinesForWholeFileDiff entry.afterContent).length ++ text " @@" ++ [lineFeed]] ++
        (terminate (splitLinesForWholeFileDiff entry.beforeContent)).map (u '-' :: ·) ++
        (terminate (splitLinesForWholeFileDiff entry.afterContent)).map (u '+' :: ·) := by
    rw [← removed, ← added, diffLines, terminate, List.map_append, List.map_append]
    rfl
  obtain ⟨oldAt, oldCount⟩ := hunkPosition_rangeOf (splitLinesForWholeFileDiff entry.beforeContent).length
  obtain ⟨-, newCount⟩ := hunkPosition_rangeOf (splitLinesForWholeFileDiff entry.afterContent).length
  have source_line : UnifiedDiff.Reading.line ⟨files, 0, 0, none, false⟩
      (text "--- " ++ (u 'a' :: u '/' :: entry.path ++ [lineFeed])) =
      some ⟨files, 0, 0, some entry.path, false⟩ := by
    have name := @UnifiedDiff.headerName_side (text "--- ") entry.path (u 'a') rfl (by decide) named
    change some (UnifiedDiff.Reading.mk files 0 0 (some (UnifiedDiff.headerName _)) false) = _
    rw [name]
  have target_line : UnifiedDiff.Reading.line ⟨files, 0, 0, some entry.path, false⟩
      (text "+++ " ++ (u 'b' :: u '/' :: entry.path ++ [lineFeed])) =
      some ⟨⟨entry.path, []⟩ :: files, 0, 0, none, true⟩ := by
    have name := @UnifiedDiff.headerName_side (text "+++ ") entry.path (u 'b') rfl (by decide) named
    change some (UnifiedDiff.Reading.mk (⟨if UnifiedDiff.headerName _ = text "/dev/null" then entry.path
      else UnifiedDiff.headerName _, []⟩ :: files) 0 0 none true) = _
    rw [name, ite_self]
  have hunk_line : UnifiedDiff.Reading.line ⟨⟨entry.path, []⟩ :: files, 0, 0, none, true⟩
      (text "@@ -" ++ hunkRange (splitLinesForWholeFileDiff entry.beforeContent).length ++ text " +" ++
          hunkRange (splitLinesForWholeFileDiff entry.afterContent).length ++ text " @@" ++ [lineFeed]) =
      some ⟨⟨entry.path, [⟨0, [], []⟩]⟩ :: files,
        (terminate (splitLinesForWholeFileDiff entry.beforeContent)).length,
        (terminate (splitLinesForWholeFileDiff entry.afterContent)).length, none, true⟩ := by
    have ranges := hunkRanges_read (splitLinesForWholeFileDiff entry.beforeContent).length
    change (UnifiedDiff.hunkRanges _).bind _ = _
    rw [ranges, Option.bind_some, terminate, terminate, List.length_map, List.length_map]
    rw [oldAt, oldCount, newCount]
  have first_line : UnifiedDiff.Reading.line ⟨files, 0, 0, source, within⟩
      (text "diff --git a/" ++ entry.path ++ text " b/" ++ entry.path ++ [lineFeed]) =
      some ⟨files, 0, 0, none, false⟩ :=
    UnifiedDiff.header_other ⟨rfl, rfl⟩ rfl rfl rfl
  rw [body, List.foldlM_append, List.foldlM_append]
  simp only [List.foldlM_cons, List.foldlM_nil, first_line, source_line, target_line, hunk_line,
    Option.bind_eq_bind, Option.bind_some, Option.pure_def]
  rw [UnifiedDiff.read_removed, Option.bind_some, List.nil_append, UnifiedDiff.read_added, List.nil_append]
  rfl

/-! ## Patches of several entries -/

/-- The lines of the diffs of entries, with an empty line between two of them. -/
def journalLines : List SignedChangeJournalEntry → List Text
  | [] => []
  | [entry] => terminate (diffLines entry)
  | entry :: rest => terminate (diffLines entry) ++ [lineFeed] :: journalLines rest

theorem diffLines_feedless (named : Named entry.path) :
    ∀ line ∈ diffLines entry, lineFeed ∉ line := by
  have path : lineFeed ∉ entry.path := fun inside => (named lineFeed inside).2 rfl
  have range (n : Nat) : lineFeed ∉ hunkRange n := by
    unfold hunkRange
    split
    · decide
    · intro inside
      rcases List.mem_append.mp inside with one | digit
      · exact absurd one (by decide)
      · exact absurd ((decimalText_eq n).2 lineFeed digit) (by decide)
  have before := splitLines_feedless entry.beforeContent
  have after := splitLines_feedless entry.afterContent
  have both {a b : Text} (first : lineFeed ∉ a) (second : lineFeed ∉ b) : lineFeed ∉ a ++ b :=
    fun inside => (List.mem_append.mp inside).elim first second
  intro line member
  simp only [diffLines, List.mem_append, List.mem_cons, List.not_mem_nil, or_false, List.mem_map] at member
  rcases member with ((rfl | rfl | rfl | rfl) | ⟨line, inside, rfl⟩) | ⟨line, inside, rfl⟩
  · exact both (both (both (by decide) path) (by decide)) path
  · exact both (by decide) path
  · exact both (by decide) path
  · exact both (both (both (both (by decide) (range _)) (by decide)) (range _)) (by decide)
  · exact both (by decide) (before line inside)
  · exact both (by decide) (after line inside)

theorem lines_journal (named : ∀ entry ∈ entries, Named entry.path) :
    lines (Text.join lineFeed (entries.map buildUnifiedDiff)) = journalLines entries := by
  induction entries with
  | nil => rfl
  | cons entry rest ih =>
    have first := UnifiedDiff.lines_terminated (diffLines_feedless (named entry List.mem_cons_self))
    cases rest with
    | nil =>
      have whole := first []
      rw [List.append_nil] at whole
      rw [List.map_cons, List.map_nil, Text.join, buildUnifiedDiff_eq]
      exact whole.trans (List.append_nil _)
    | cons next rest =>
      have tail := ih fun entry member => named entry (.tail _ member)
      change lines (buildUnifiedDiff entry ++ lineFeed :: Text.join lineFeed ((next :: rest).map buildUnifiedDiff)) = _
      rw [buildUnifiedDiff_eq]
      apply (first _).trans
      have blank := @UnifiedDiff.lines_line [] List.not_mem_nil
        (Text.join lineFeed ((next :: rest).map buildUnifiedDiff))
      rw [List.nil_append] at blank
      rw [blank, tail]
      rfl

theorem terminate_unmarked :
    ∀ line ∈ terminate (diffLines entry), Text.startsWith line (text "\\") = false := by
  intro line member
  obtain ⟨line, inside, rfl⟩ := List.mem_map.mp member
  simp only [diffLines, List.mem_append, List.mem_cons, List.not_mem_nil, or_false, List.mem_map] at inside
  rcases inside with ((rfl | rfl | rfl | rfl) | ⟨line, inside, rfl⟩) | ⟨line, inside, rfl⟩
  all_goals rfl

theorem journalLines_unmarked (entries : List SignedChangeJournalEntry) :
    ∀ line ∈ journalLines entries, Text.startsWith line (text "\\") = false := by
  induction entries with
  | nil => exact nofun
  | cons entry rest ih =>
    cases rest with
    | nil => exact terminate_unmarked
    | cons next rest =>
      intro line member
      rcases List.mem_append.mp member with first | later
      · exact terminate_unmarked line first
      · rcases List.mem_cons.mp later with rfl | tail
        · rfl
        · exact ih line tail

/-- The diffs of entries are read as their changes, one after the other. -/
theorem read_journal {entries : List SignedChangeJournalEntry}
    (named : ∀ entry ∈ entries, Named entry.path) {r : UnifiedDiff.Reading} (idle : r.old = 0 ∧ r.new = 0) :
    ∃ r', (journalLines entries).foldlM UnifiedDiff.Reading.line r = some r' ∧ (r'.old = 0 ∧ r'.new = 0) ∧
      r'.files = (entries.map patchOf).reverse ++ r.files := by
  induction entries generalizing r with
  | nil => exact ⟨r, rfl, idle, rfl⟩
  | cons entry rest ih =>
    have first := read_diff (named entry List.mem_cons_self) idle
    cases rest with
    | nil => exact ⟨_, first, ⟨rfl, rfl⟩, rfl⟩
    | cons next rest =>
      have blank : UnifiedDiff.Reading.line ⟨patchOf entry :: r.files, 0, 0, none, true⟩ [lineFeed] =
          some ⟨patchOf entry :: r.files, 0, 0, none, false⟩ :=
        UnifiedDiff.header_other ⟨rfl, rfl⟩ rfl rfl rfl
      obtain ⟨r', read, idle', files⟩ := @ih (fun entry member => named entry (.tail _ member))
        ⟨patchOf entry :: r.files, 0, 0, none, false⟩ ⟨rfl, rfl⟩
      apply Exists.intro r'
      constructor
      · rw [journalLines, List.foldlM_append, first, Option.bind_eq_bind, Option.bind_some, List.foldlM_cons,
          blank, Option.bind_eq_bind, Option.bind_some, read]
        intro nothing
        cases nothing
      · rw [files, List.map_cons (a := entry), List.reverse_cons, List.append_assoc]
        exact ⟨idle', rfl⟩

/-- A patch of the journal makes the changes of its entries. -/
theorem apply_journal {entries : List SignedChangeJournalEntry}
    (named : ∀ entry ∈ entries, Named entry.path) (files : Files) :
    UnifiedDiff.apply (Text.join (u '\n') (entries.map buildUnifiedDiff)) files =
      (entries.map patchOf).foldlM FilePatch.apply files := by
  obtain ⟨r, read, idle, found⟩ := @read_journal entries named UnifiedDiff.start ⟨rfl, rfl⟩
  have whole : UnifiedDiff.parse (Text.join (u '\n') (entries.map buildUnifiedDiff)) =
      some (entries.map patchOf) := by
    unfold UnifiedDiff.parse
    rw [show u '\n' = lineFeed from rfl, lines_journal named, UnifiedDiff.marked_plain (journalLines_unmarked entries),
      read, Option.bind_some, if_pos idle, UnifiedDiff.Reading.patches, found]
    rw [show UnifiedDiff.start.files = [] from rfl, List.append_nil, List.map_reverse, List.reverse_reverse,
      List.map_map]
    rfl
  rw [UnifiedDiff.apply, whole, Option.bind_some]

/-! ## When an edit is made -/

/-- The diff of an entry makes its edit on every file tree with the old content, and nothing else. -/
def Reproduces (entry : SignedChangeJournalEntry) : Prop :=
  ∀ files : Files, files entry.path = entry.beforeContent →
    UnifiedDiff.apply (buildUnifiedDiff entry) files = some (files.write entry.path entry.afterContent)

/-- The contents are whole lines, and the path fits in a header line. -/
structure Expressible (entry : SignedChangeJournalEntry) : Prop where
  named : Named entry.path
  before : Terminated entry.beforeContent
  after : Terminated entry.afterContent

theorem Terminated.not_lone (terminated : Terminated content) : content ≠ [lineFeed] := by
  rcases terminated with rfl | ⟨other, -⟩
  · exact (List.cons_ne_nil _ _).symm
  · exact other

theorem patchOf_apply (files : Files) (entry : SignedChangeJournalEntry) :
    FilePatch.apply files (patchOf entry) =
      if (terminate (splitLinesForWholeFileDiff entry.beforeContent)).isPrefixOf (lines (files entry.path)) then
        some (files.write entry.path ((terminate (splitLinesForWholeFileDiff entry.afterContent)).flatten ++
          ((lines (files entry.path)).drop
            (terminate (splitLinesForWholeFileDiff entry.beforeContent)).length).flatten))
      else none := by
  unfold FilePatch.apply patchOf
  rw [UnifiedDiff.patchText_front]
  split
  · rfl
  · rfl

/-- All lines of a content are dropped with those of its diff. -/
theorem drop_all (other : content ≠ [lineFeed]) :
    (lines content).drop (terminate (splitLinesForWholeFileDiff content)).length = [] := by
  apply List.drop_of_length_le
  rw [terminate, List.length_map, splitLines_length other]

theorem Expressible.apply (fits : Expressible entry) (here : files entry.path = entry.beforeContent) :
    FilePatch.apply files (patchOf entry) = some (files.write entry.path entry.afterContent) := by
  have alone := fits.before.not_lone
  rw [patchOf_apply, here, if_pos ((terminate_front alone).mpr fits.before), drop_all alone,
    (terminate_iff _).mpr fits.after, List.flatten_nil, List.append_nil]

theorem apply_single (named : Named entry.path) (files : Files) :
    UnifiedDiff.apply (buildUnifiedDiff entry) files = FilePatch.apply files (patchOf entry) := by
  have single := @apply_journal [entry] (by simpa using named) files
  rw [List.map_singleton, List.map_singleton, Text.join, List.foldlM_cons] at single
  rw [single]
  cases FilePatch.apply files (patchOf entry) <;> rfl

/-- An edit of a content is reproduced exactly if it can be written as whole lines. -/
theorem reproduces_iff (changed : entry.beforeContent ≠ entry.afterContent) :
    Reproduces entry ↔ Expressible entry := by
  constructor
  · intro reproduces
    have made := reproduces (fun _ => entry.beforeContent) rfl
    have named : Named entry.path := by
      by_contra unnamed
      have kept := UnifiedDiff.apply_other made unnamed
      rw [Files.write_self] at kept
      exact changed kept.symm
    rw [apply_single named, patchOf_apply] at made
    split at made
    · rename_i front
      have same := congrArg (fun files : Option Files => files.map (· entry.path)) made
      simp only [Option.map_some, Files.write_self, Option.some.injEq] at same
      by_cases lone : entry.beforeContent = [lineFeed]
      · -- the line feed stays behind the new lines, of which there are too few then
        have none : splitLinesForWholeFileDiff [lineFeed] = [] := rfl
        rw [lone, none] at same
        have after : entry.afterContent ≠ [lineFeed] := fun equal => changed (lone.trans equal.symm)
        have count := splitLines_length after
        have split := UnifiedDiff.lines_terminated (splitLines_feedless entry.afterContent) [lineFeed]
        change lines ((terminate _).flatten ++ [lineFeed]) = _ at split
        change (terminate _).flatten ++ [lineFeed] = entry.afterContent at same
        rw [same] at split
        rw [split, List.length_append, List.length_map] at count
        have one : (lines [lineFeed]).length = 1 := rfl
        omega
      · rw [drop_all lone, List.flatten_nil, List.append_nil] at same
        exact ⟨named, (terminate_front lone).mp front, (terminate_iff _).mp same⟩
    · cases made
  · intro fits files here
    rw [apply_single fits.named]
    exact fits.apply here

/-! ## Sessions -/

/-- Each entry begins with the content that is there when its turn comes. -/
def Chained : Files → List SignedChangeJournalEntry → Prop
  | _, [] => True
  | files, entry :: rest =>
    files entry.path = entry.beforeContent ∧ Chained (files.write entry.path entry.afterContent) rest

/-- Every path with its last content. -/
def finalFiles (files : Files) (entries : List SignedChangeJournalEntry) : Files :=
  entries.foldl (fun files entry => files.write entry.path entry.afterContent) files

theorem apply_chained (fits : ∀ entry ∈ entries, Expressible entry)
    (chained : Chained files entries) :
    (entries.map patchOf).foldlM FilePatch.apply files = some (finalFiles files entries) := by
  induction entries generalizing files with
  | nil => rfl
  | cons entry rest ih =>
    obtain ⟨here, later⟩ := chained
    rw [List.map_cons, List.foldlM_cons, (fits entry List.mem_cons_self).apply here, Option.bind_eq_bind,
      Option.bind_some, ih (fun entry member => fits entry (.tail _ member)) later]
    rfl

/-! ## The rows of the journal -/

section
variable {sha256 : Text → Text}

/-- The rows that appends leave, each of which loaded rows of before; other sources write rows
without an entry. -/
inductive Journal (sha256 : Text → Text) : List RentalPatchProposalRow → Prop
  | empty : Journal sha256 []
  | append {rows loaded rows' result now proposalId input} (before : Journal sha256 rows)
      (known : ∀ row ∈ loaded, row ∈ rows)
      (appended : appendSignedChange sha256 loaded rows now proposalId input = .ok (result, rows')) :
      Journal sha256 rows'
  | other {rows row} (before : Journal sha256 rows) (source : row.source ≠ text "signed_change_journal")
      (none : row.journal_entry = none) : Journal sha256 (rows ++ [row])

/-- What a row of the journal holds: an entry that changes the content. -/
def Recorded (row : RentalPatchProposalRow) : Prop :=
  (row.source = text "signed_change_journal" → ∃ entry, row.journal_entry = some entry) ∧
    ∀ entry, row.journal_entry = some entry → entry.beforeContent ≠ entry.afterContent

theorem replay_result (recorded : Recorded existing)
    (replayed : replay existing requestHash = .ok result) :
    result.patch = buildUnifiedDiff result.entry ∧ result.entry.beforeContent ≠ result.entry.afterContent := by
  unfold replay assertSameRequest parseJournalEntry at replayed
  split at replayed
  · cases replayed
  cases stored : existing.journal_entry with
  | none =>
    rw [stored] at replayed
    cases replayed
  | some entry =>
    rw [stored] at replayed
    cases replayed
    exact ⟨rfl, recorded.2 entry stored⟩

/-- An accepted edit answers with the diff of an entry that changes the content, and its row, if
it is new, holds one. -/
theorem appendSignedChange_result (known : ∀ row ∈ loaded, Recorded row)
    (held : ∀ row ∈ stored, Recorded row)
    (appended : appendSignedChange sha256 loaded stored now proposalId input = .ok (result, rows')) :
    (result.patch = buildUnifiedDiff result.entry ∧
      result.entry.beforeContent ≠ result.entry.afterContent) ∧ ∀ row ∈ rows', Recorded row := by
  unfold appendSignedChange at appended
  dsimp only at appended
  split at appended
  · cases appended
  split at appended
  · cases appended
  obtain ⟨path, -, appended⟩ := Checked.bind_ok appended
  obtain ⟨beforeContent, -, appended⟩ := Checked.bind_ok appended
  obtain ⟨afterContent, -, appended⟩ := Checked.bind_ok appended
  split at appended
  · cases appended
  rename_i changed
  split at appended
  · rename_i existing found
    obtain ⟨answer, replayed, same⟩ := Checked.map_ok appended
    obtain ⟨rfl, rfl⟩ := Prod.mk.inj same
    exact ⟨replay_result (known existing (List.mem_of_find?_eq_some found)) replayed, held⟩
  · split at appended
    · rename_i winner found
      obtain ⟨answer, replayed, same⟩ := Checked.map_ok appended
      obtain ⟨rfl, rfl⟩ := Prod.mk.inj same
      exact ⟨replay_result (held winner (List.mem_of_find?_eq_some found)) replayed, held⟩
    · obtain ⟨rfl, rfl⟩ := Prod.mk.inj (Except.ok.inj appended)
      constructor
      · exact ⟨rfl, changed⟩
      · intro row member
        rcases List.mem_append.mp member with old | new
        · exact held row old
        · obtain rfl := List.mem_singleton.mp new
          constructor
          · exact fun _ => ⟨_, rfl⟩
          · intro entry same
            obtain rfl := Option.some.inj same
            exact changed

theorem Journal.recorded (journal : Journal sha256 rows) : ∀ row ∈ rows, Recorded row := by
  induction journal with
  | empty => exact nofun
  | append before known appended ih =>
    exact (appendSignedChange_result (fun row member => ih row (known row member)) ih appended).2
  | other before source none ih =>
    intro row member
    rcases List.mem_append.mp member with old | new
    · exact ih row old
    · obtain rfl := List.mem_singleton.mp new
      constructor
      · exact fun same => absurd same source
      · intro entry stored
        rw [none] at stored
        cases stored

/-- The rows of the journal all have their entries. -/
theorem journalEntries_ok (recorded : ∀ row ∈ session, Recorded row) :
    ∃ entries, journalEntries session = .ok entries ∧
      ∀ entry ∈ entries, entry.beforeContent ≠ entry.afterContent := by
  unfold journalEntries
  induction session with
  | nil => exact ⟨[], rfl, nofun⟩
  | cons row rest ih =>
    obtain ⟨entries, read, changed⟩ := ih fun row member => recorded row (.tail _ member)
    by_cases own : row.source = text "signed_change_journal"
    · obtain ⟨present, differs⟩ := recorded row List.mem_cons_self
      obtain ⟨entry, stored⟩ := present own
      apply Exists.intro (entry :: entries)
      constructor
      · rw [List.filter_cons_of_pos (by simpa using own), List.mapM_cons, read, parseJournalEntry, stored]
        rfl
      · intro other member
        rcases List.mem_cons.mp member with rfl | later
        · exact differs _ stored
        · exact changed other later
    · rw [List.filter_cons_of_neg (by simpa using own)]
      exact ⟨entries, read, changed⟩

/-- The diff of an accepted edit makes the edit, and the patch of a session makes its edits,
exactly if the contents are whole lines and the paths fit in a header line. -/
theorem journal_reproduces_iff {rows : List RentalPatchProposalRow} (journal : Journal sha256 rows) :
    (∀ loaded now proposalId input result rows', (∀ row ∈ loaded, row ∈ rows) →
      appendSignedChange sha256 loaded rows now proposalId input = .ok (result, rows') →
      result.patch = buildUnifiedDiff result.entry ∧ (Reproduces result.entry ↔ Expressible result.entry)) ∧
    ∀ session : List RentalPatchProposalRow, (∀ row ∈ session, row ∈ rows) →
      ∃ entries patch, journalEntries session = .ok entries ∧ reconstructPatchFromRows session = .ok patch ∧
        (((∀ entry ∈ entries, Reproduces entry) ∧
            ∀ files, Chained files entries → UnifiedDiff.apply patch files = some (finalFiles files entries)) ↔
          ∀ entry ∈ entries, Expressible entry) := by
  have recorded := journal.recorded
  constructor
  · intro loaded now proposalId input result rows' known appended
    obtain ⟨⟨built, changed⟩, -⟩ :=
      appendSignedChange_result (fun row member => recorded row (known row member)) recorded appended
    exact ⟨built, reproduces_iff changed⟩
  · intro session known
    obtain ⟨entries, read, changed⟩ := journalEntries_ok fun row member => recorded row (known row member)
    apply Exists.intro entries
    apply Exists.intro (Text.join (u '\n') (entries.map buildUnifiedDiff))
    constructor
    · exact read
    constructor
    · rw [reconstructPatchFromRows, read]
      rfl
    constructor
    · rintro ⟨each, -⟩ entry member
      exact (reproduces_iff (changed entry member)).mp (each entry member)
    · intro fits
      constructor
      · exact fun entry member => (reproduces_iff (changed entry member)).mpr (fits entry member)
      · intro files chained
        rw [apply_journal (fun entry member => (fits entry member).named), apply_chained fits chained]

end

/-- An edit of a content without a line feed at its end. -/
def openInput : AppendSignedChangeInput where
  sessionId := text "s"
  idempotencyKey := text "k"
  edit := ⟨text "f", some (text "a"), some (text "b"), none, none, none⟩

/-- The edit is accepted, and its diff does not fit the content. -/
theorem open_content_lost : ∃ result rows,
    appendSignedChange id [] [] (text "t") (text "p") openInput = .ok (result, rows) ∧
      result.entry.beforeContent = text "a" ∧ result.entry.afterContent = text "b" ∧
      ¬Reproduces result.entry := by
  have made : appendSignedChange id [] [] (text "t") (text "p") openInput = .ok
      (⟨newProposal id (text "p") (text "s") (text "k")
          (newEntry id (text "f") (text "a") (text "b") openInput.edit (text "t")),
        newEntry id (text "f") (text "a") (text "b") openInput.edit (text "t"),
        buildUnifiedDiff (newEntry id (text "f") (text "a") (text "b") openInput.edit (text "t")), false⟩,
        [] ++ [newProposal id (text "p") (text "s") (text "k")
          (newEntry id (text "f") (text "a") (text "b") openInput.edit (text "t"))]) := by
    rfl
  apply Exists.intro _
  apply Exists.intro _
  apply And.intro made
  apply And.intro rfl
  apply And.intro rfl
  intro reproduces
  have fits := (reproduces_iff (by decide)).mp reproduces
  rcases fits.before with empty | ⟨-, ends, -⟩
  · exact absurd empty (by decide)
  · exact absurd ends (by decide)

/-- A session of one row with whole lines. -/
theorem whole_lines_reproduced : ∃ rows, Journal id rows ∧ rows.length = 1 ∧
    ∀ session : List RentalPatchProposalRow, (∀ row ∈ session, row ∈ rows) →
      ∃ entries patch, journalEntries session = .ok entries ∧ reconstructPatchFromRows session = .ok patch ∧
        (((∀ entry ∈ entries, Reproduces entry) ∧
            ∀ files, Chained files entries → UnifiedDiff.apply patch files = some (finalFiles files entries)) ↔
          ∀ entry ∈ entries, Expressible entry) := by
  have journal : Journal id [newProposal id (text "p") (text "s") (text "k")
      (newEntry id (text "f") (text "a") (text "b") openInput.edit (text "t"))] :=
    .append .empty (fun _ known => known)
      (show appendSignedChange id [] [] (text "t") (text "p") openInput = .ok (_, _) from rfl)
  exact ⟨_, journal, rfl, (journal_reproduces_iff journal).2⟩

end LetAgents.Rental.SignedChangeJournal

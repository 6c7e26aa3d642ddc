import LetAgents.Rental.PathPolicy
import Mathlib.Data.List.Find

/-!
# Where the path policies agree

The patch gate and the ledger normalise a path alike, but the gate looks for a drive before it
drops the dots; and the denylist agrees with itself on spellings that show it the same names.
-/
namespace LetAgents.Rental.PathPolicy

open Lib.RegExp PathDenylist

/-! ## Segments of a normalised path -/

theorem slashed_free (p : Text) : u '\\' ∉ slashed p := by
  intro inside
  obtain ⟨c, -, same⟩ := List.mem_map.mp inside
  split at same
  · exact absurd same (by decide)
  · rename_i other
    exact other same

variable {p r : Text} {segments : List Text} {entry : DeniedEntry}

theorem slashed_of_free (free : u '\\' ∉ p) : slashed p = p := by
  have each : ∀ c ∈ p, (if c = u '\\' then u '/' else c) = id c := by
    intro c member
    apply if_neg
    intro same
    rw [same] at member
    exact free member
  rw [slashed, Text.replaceUnit, List.map_congr_left each, List.map_id]

/-- The dot at the front that is stripped is a segment that is dropped. -/
theorem patchPathSegments_eq (t : Text) : patchPathSegments t = (Text.split (u '/') t).filter kept := by
  unfold patchPathSegments
  split
  · rename_i starts
    obtain ⟨rest, rfl⟩ := List.isPrefixOf_iff_prefix.mp starts
    have parts : Text.split (u '/') (text "./" ++ rest) = text "." :: Text.split (u '/') rest :=
      @split_append (u '/') (text ".") rest
    rw [parts]
    rfl
  · rfl

/-- The names of a path. -/
def names (p : Text) : List Text := (Text.split (u '/') (slashed p)).filter kept

theorem patchPathSegments_names (p : Text) : patchPathSegments (slashed p) = names p :=
  patchPathSegments_eq (slashed p)

/-- Without a step up every name is left. -/
theorem resolve_plain (plain : text ".." ∉ segments) (resolved : List Text) :
    resolve resolved segments = some (resolved ++ segments.filter kept) := by
  induction segments generalizing resolved with
  | nil => rw [List.filter_nil, List.append_nil]; rfl
  | cons segment rest ih =>
    obtain ⟨other, plain⟩ := not_or.mp (List.mem_cons.not.mp plain)
    unfold resolve
    by_cases dot : segment = [] ∨ segment = text "."
    · have dropped : kept segment = false := by
        rcases dot with rfl | rfl <;> rfl
      rw [if_pos dot, List.filter_cons_of_neg (by rw [dropped]; exact Bool.false_ne_true), ih plain]
    · have stays : kept segment = true := by
        simpa [kept] using dot
      rw [if_neg dot, if_neg (Ne.symm other), List.filter_cons_of_pos stays, ih plain, List.append_assoc]
      rfl

/-- What makes a path valid for the patch gate. -/
structure Valid (p : Text) : Prop where
  null : 0 ∉ slashed p
  relative : Text.startsWith (slashed p) (text "/") = false
  drive : Text.hasDrive (slashed p) = false
  plain : text ".." ∉ names p
  filled : names p ≠ []

theorem includes_unit (t : Text) (c : Nat) : t.includes [c] = true ↔ c ∈ t := by
  rw [includes_iff]
  constructor
  · rintro ⟨before, after, rfl⟩
    simp
  · intro inside
    obtain ⟨before, after, rfl⟩ := List.append_of_mem inside
    exact ⟨before, after, rfl⟩

theorem join_eq_nil (names : ∀ segment ∈ segments, segment ≠ []) :
    Text.join (u '/') segments = [] ↔ segments = [] := by
  cases segments with
  | nil => exact iff_of_true rfl rfl
  | cons first more =>
    obtain ⟨behind, whole⟩ := @join_head (u '/') first more
    rw [whole]
    apply iff_of_false
    · intro nothing
      exact names first List.mem_cons_self (List.append_eq_nil_iff.mp nothing).1
    · exact List.cons_ne_nil _ _

theorem names_filled (p : Text) : ∀ name ∈ names p, name ≠ [] := by
  rintro name member rfl
  exact absurd (List.mem_filter.mp member).2 (by decide)

theorem Valid.check (valid : Valid p) :
    validatePatchPath p =
      ⟨true, none, SENSITIVE_PATH_PATTERNS.any (·.test (Text.join (u '/') (names p)))⟩ := by
  have null : ¬(slashed p).includes [0] = true := fun here => valid.null ((includes_unit _ _).mp here)
  have absolute : ¬(Text.startsWith (slashed p) (text "/") || Text.hasDrive (slashed p)) = true := by
    rw [valid.relative, valid.drive]
    exact Bool.false_ne_true
  have up : ¬(names p).contains (text "..") = true := by
    simpa using valid.plain
  have filled : Text.join (u '/') (names p) ≠ [] := fun same => valid.filled ((join_eq_nil (names_filled p)).mp same)
  unfold validatePatchPath
  dsimp only
  rw [patchPathSegments_names, if_neg null, if_neg absolute, if_neg up, if_neg filled]

theorem validatePatchPath_valid (p : Text) : (validatePatchPath p).valid = true ↔ Valid p := by
  constructor
  · intro valid
    unfold validatePatchPath at valid
    dsimp only at valid
    rw [patchPathSegments_names] at valid
    split at valid
    · cases valid
    split at valid
    · cases valid
    split at valid
    · cases valid
    split at valid
    · cases valid
    rename_i null absolute up empty
    rw [Bool.not_eq_true, Bool.or_eq_false_iff] at absolute
    exact ⟨fun inside => null ((includes_unit _ _).mpr inside), absolute.1, absolute.2,
      fun inside => up (by simpa using inside),
      fun same => empty ((join_eq_nil (names_filled p)).mpr same)⟩
  · intro valid
    rw [valid.check]

/-! ## The normalised path -/

theorem names_free (p : Text) : ∀ name ∈ names p, u '/' ∉ name ∧ u '\\' ∉ name ∧ kept name = true := by
  intro name member
  obtain ⟨part, stays⟩ := List.mem_filter.mp member
  exact ⟨split_parts_free _ name part, fun inside => slashed_free p (mem_of_split part inside), stays⟩

/-- A path of names is its own spelling. -/
theorem joined_names (filled : segments ≠ [])
    (free : ∀ name ∈ segments, u '/' ∉ name ∧ u '\\' ∉ name ∧ kept name = true) :
    slashed (Text.join (u '/') segments) = Text.join (u '/') segments ∧
      Text.split (u '/') (Text.join (u '/') segments) = segments ∧
      names (Text.join (u '/') segments) = segments ∧
      Text.startsWith (Text.join (u '/') segments) (text "/") = false := by
  have parts := split_join filled fun name member => (free name member).1
  have clean : slashed (Text.join (u '/') segments) = Text.join (u '/') segments := by
    apply slashed_of_free
    intro inside
    rcases mem_join inside with slash | ⟨name, member, here⟩
    · exact absurd slash (by decide)
    · exact (free name member).2.1 here
  refine ⟨clean, parts, ?_, ?_⟩
  · rw [names, clean, parts]
    exact List.filter_eq_self.mpr fun name member => (free name member).2.2
  · cases segments with
    | nil => exact absurd rfl filled
    | cons first more =>
      obtain ⟨slashless, -, stays⟩ := free first List.mem_cons_self
      obtain ⟨behind, whole⟩ := @join_head (u '/') first more
      cases first with
      | nil => exact absurd stays (by decide)
      | cons c rest =>
        rw [whole]
        have other : c ≠ u '/' := fun same => slashless (same ▸ .head _)
        simpa [Text.startsWith, text, codeUnits, List.isPrefixOf, u] using Ne.symm other

/-- The drive of a path of names is the drive of the first one. -/
theorem hasDrive_join (free : u '/' ∉ first ∧ u '\\' ∉ first ∧ kept first = true)
    (more : List Text) :
    Text.hasDrive (Text.join (u '/') (first :: more)) = Text.hasDrive first := by
  cases more with
  | nil => rfl
  | cons next more =>
    cases first with
    | nil => exact absurd free.2.2 (by decide)
    | cons c rest =>
      cases rest with
      | nil =>
        change ((isUpper c || (u 'a' ≤ c && c ≤ u 'z')) && decide (u '/' = u ':')) = false
        rw [show decide (u '/' = u ':') = false from rfl, Bool.and_false]
      | cons d rest => rfl

/-- The first name of a path. -/
def firstName (p : Text) : Text := (names p).headD []

theorem Valid.normalized (valid : Valid p) :
    normalizePatchPath p = .ok (Text.join (u '/') (names p)) ∧
      normalizePath p = .ok (Text.join (u '/') (names p)) := by
  constructor
  · unfold normalizePatchPath
    rw [if_pos ((validatePatchPath_valid p).mpr valid), patchPathSegments_names]
  · have plain : text ".." ∉ Text.split (u '/') (slashed p) :=
      fun inside => valid.plain (List.mem_filter.mpr ⟨inside, by decide⟩)
    have absolute : ¬(Text.startsWith (slashed p) (text "/") || Text.hasDrive (slashed p)) = true := by
      rw [valid.relative, valid.drive]
      exact Bool.false_ne_true
    unfold normalizePath
    rw [if_neg absolute, resolve_plain plain, List.nil_append]
    exact if_neg fun same => valid.filled ((join_eq_nil (names_filled p)).mp same)

theorem valid_normalized (valid : Valid p) :
    Valid (Text.join (u '/') (names p)) ↔ Text.hasDrive (firstName p) = false := by
  have free := names_free p
  obtain ⟨clean, parts, same, relative⟩ := joined_names valid.filled free
  obtain ⟨first, more, split⟩ := List.exists_cons_of_ne_nil valid.filled
  have drive : Text.hasDrive (Text.join (u '/') (names p)) = Text.hasDrive (firstName p) := by
    rw [firstName, split]
    exact hasDrive_join (free first (by rw [split]; exact .head _)) more
  constructor
  · intro here
    rw [← drive, ← clean]
    exact here.drive
  · intro undriven
    constructor
    · rw [clean]
      intro inside
      rcases mem_join inside with slash | ⟨name, member, null⟩
      · exact absurd slash (by decide)
      · exact valid.null (mem_of_split (List.mem_filter.mp member).1 null)
    · rw [clean]
      exact relative
    · rw [clean, drive]
      exact undriven
    · exact fun inside => valid.plain (same ▸ inside)
    · exact fun none => valid.filled (same ▸ none)

/-- The patch gate normalises a path once and for all, the ledger gives the same path, and both
spellings are as sensitive. -/
def Agrees (p : Text) : Prop :=
  ∃ q, normalizePatchPath p = .ok q ∧ (validatePatchPath q).valid = true ∧ normalizePatchPath q = .ok q ∧
    normalizePath p = .ok q ∧ (validatePatchPath p).sensitive = (validatePatchPath q).sensitive

theorem agrees_iff (valid : Valid p) : Agrees p ↔ Text.hasDrive (firstName p) = false := by
  have free := names_free p
  obtain ⟨-, -, same, -⟩ := joined_names valid.filled free
  obtain ⟨gate, ledger⟩ := valid.normalized
  rw [← valid_normalized valid]
  constructor
  · rintro ⟨q, normal, here, -⟩
    rw [gate] at normal
    rw [Except.ok.inj normal]
    exact (validatePatchPath_valid q).mp here
  · intro here
    apply Exists.intro (Text.join (u '/') (names p))
    refine ⟨gate, (validatePatchPath_valid _).mpr here, ?_, ledger, ?_⟩
    · rw [here.normalized.1, same]
    · rw [valid.check, here.check, same]

/-! ## The denylist and spellings -/

/-- The base name is the last segment. -/
theorem basename_split {t name : Text} (parts : Text.split (u '/') t = front ++ [name])
    (filled : name ≠ []) : basename t = name := by
  have free := split_parts_free t name (by rw [parts]; simp)
  have whole := @join_split (u '/') t
  obtain ⟨before, rfl, ends⟩ : ∃ before, t = before ++ name ∧
      (before.reverse.takeWhile (· != u '/')) = [] := by
    rw [parts] at whole
    cases front with
    | nil => exact ⟨[], whole.symm, rfl⟩
    | cons head front =>
      rw [join_append (List.cons_ne_nil _ _)] at whole
      apply Exists.intro (Text.join (u '/') (head :: front) ++ [u '/'])
      constructor
      · rw [← whole]
        simp [Text.join]
      · simp
  have units : ∀ c ∈ name.reverse, (c != u '/') = true := by
    intro c member
    have other : c ≠ u '/' := fun same => free (same ▸ List.mem_reverse.mp member)
    simpa using other
  have first : (before ++ name).reverse.dropWhile (· == u '/') = (before ++ name).reverse := by
    rw [List.reverse_append]
    obtain ⟨c, rest, same⟩ := List.exists_cons_of_ne_nil (show name.reverse ≠ [] by simpa using filled)
    have other := units c (by rw [same]; exact .head _)
    rw [same, List.cons_append, List.dropWhile_cons_of_neg (by simpa using other)]
  rw [basename, first, List.reverse_append, List.takeWhile_append_of_pos units, ends, List.append_nil,
    List.reverse_reverse]

/-- A name behind which the denylist looks for another one. -/
def Joint (name : Text) : Prop :=
  name = text ".config" ∨ text ".docker" <:+ name ∨ text ".kube" <:+ name

/-- A spelling shows the denylist the names of its path: what follows the last slash is a name
without a backslash, and the names that matter are left when the path is resolved, those that are
read with the next one together with it. -/
structure Shown (p : Text) : Prop where
  last : ∃ front name, Text.split (u '/') p = front ++ [name] ∧ u '\\' ∉ name
  ends : EndsLeft (marks (Text.split (u '/') (slashed p))).2
  secret : ∀ name ∈ [text ".ssh", text ".aws", text ".gnupg"], ∀ stays,
    (name, stays) ∈ (marks (Text.split (u '/') (slashed p))).2 → stays = true
  joint : ∀ front name stays next back,
    (marks (Text.split (u '/') (slashed p))).2 = front ++ (name, stays) :: next :: back → Joint name →
      stays = true ∧ next.2 = true

/-- What is left of the path of a shown spelling. -/
def leftNames (p : Text) : List Text := left (marks (Text.split (u '/') (slashed p))).2

theorem normalizePath_left (normal : normalizePath p = .ok r) :
    r = Text.join (u '/') (leftNames p) ∧ leftNames p ≠ [] := by
  unfold normalizePath at normal
  dsimp only at normal
  split at normal
  · cases normal
  split at normal
  · cases normal
  rename_i resolved whole
  split at normal
  · cases normal
  rename_i filled
  obtain rfl := Except.ok.inj normal
  obtain ⟨-, same⟩ := resolve_marks whole
  rw [List.take_nil, List.nil_append] at same
  constructor
  · rw [same]
    rfl
  · intro none
    apply filled
    rw [same]
    exact congrArg (Text.join (u '/')) none

theorem mem_left (member : name ∈ left marked) : (name, true) ∈ marked := by
  obtain ⟨⟨segment, stays⟩, inside, rfl⟩ := List.mem_map.mp member
  obtain ⟨inside, rfl⟩ := List.mem_filter.mp inside
  exact inside

theorem leftNames_free (p : Text) : ∀ name ∈ leftNames p, u '/' ∉ name ∧ u '\\' ∉ name := by
  intro name member
  have part : name ∈ Text.split (u '/') (slashed p) := by
    rw [← marks_segments (Text.split (u '/') (slashed p))]
    exact List.mem_map.mpr ⟨(name, true), mem_left member, rfl⟩
  exact ⟨split_parts_free _ name part, fun inside => slashed_free p (mem_of_split part inside)⟩

/-- A directory of the denylist stands in a path exactly if its names are segments before another
one. -/
theorem holds_window (same : text entry.pattern ++ [u '/'] = enclosed (u '/') middle)
    (free : ∀ part ∈ middle, u '/' ∉ part) (n : Text) :
    entry.holds n = true ↔ ∃ before y after, Text.split (u '/') n = before ++ (middle ++ y :: after) := by
  have front : entry.holds n = true ↔
      Text.includes (u '/' :: n) ([] ++ u '/' :: (enclosed (u '/') middle ++ [])) = true := by
    rw [List.append_nil, List.nil_append, ← same]
    unfold DeniedEntry.holds
    rw [Bool.or_eq_true, includes_iff, includes_iff]
    constructor
    · rintro (⟨before, after, rfl⟩ | starts)
      · exact ⟨u '/' :: before, after, rfl⟩
      · obtain ⟨after, rfl⟩ := List.isPrefixOf_iff_prefix.mp starts
        exact ⟨[], after, rfl⟩
    · rintro ⟨before, after, whole⟩
      cases before with
      | nil =>
        apply Or.inr
        apply List.isPrefixOf_iff_prefix.mpr
        exact ⟨after, (List.cons.inj whole).2.symm⟩
      | cons slash before => exact .inl ⟨before, after, (List.cons.inj whole).2⟩
  rw [front, includes_window List.not_mem_nil free List.not_mem_nil, split_separator]
  constructor
  · rintro ⟨before, x, y, after, parts, -⟩
    cases before with
    | nil => exact ⟨[], y, after, (List.cons.inj parts).2⟩
    | cons head before =>
      apply Exists.intro (before ++ [x])
      apply Exists.intro y
      apply Exists.intro after
      rw [List.append_assoc]
      exact (List.cons.inj parts).2
  · rintro ⟨before, y, after, parts⟩
    rw [parts]
    cases before using List.reverseRecOn with
    | nil => exact ⟨[], [], y, after, rfl, List.nil_suffix, List.nil_prefix⟩
    | append_singleton before x =>
      refine ⟨[] :: before, x, y, after, ?_, List.nil_suffix, List.nil_prefix⟩
      rw [List.append_assoc]
      rfl

/-- A file name with a slash stands in a path exactly if its halves meet there. -/
theorem includes_pair {t front rest : Text} (frontFree : u '/' ∉ front) (restFree : u '/' ∉ rest) :
    t.includes (front ++ u '/' :: rest) = true ↔ ∃ before x y after,
      Text.split (u '/') t = before ++ x :: y :: after ∧ front <:+ x ∧ rest <+: y :=
  @includes_window (u '/') t front rest [] frontFree (nofun) restFree

theorem marks_names (segments : List Text) : ∀ name, (name, true) ∈ (marks segments).2 → name ≠ [] := by
  induction segments with
  | nil => exact nofun
  | cons segment rest ih =>
    intro name member
    unfold marks at member
    dsimp only at member
    split_ifs at member with dot up root
    · rcases List.mem_cons.mp member with same | old
      · cases same
      · exact ih name old
    · rcases List.mem_cons.mp member with same | old
      · cases same
      · exact ih name old
    · rcases List.mem_cons.mp member with same | old
      · obtain ⟨rfl, -⟩ := Prod.mk.inj same
        exact fun empty => dot (.inl empty)
      · exact ih name old
    · rcases List.mem_cons.mp member with same | old
      · cases same
      · exact ih name old

section
variable {p : Text}

/-- The spelling of the names that are left. -/
theorem leftNames_spelled (filled : leftNames p ≠ []) :
    slashed (Text.join (u '/') (leftNames p)) = Text.join (u '/') (leftNames p) ∧
      Text.split (u '/') (Text.join (u '/') (leftNames p)) = leftNames p := by
  have free := leftNames_free p
  constructor
  · apply slashed_of_free
    intro inside
    rcases mem_join inside with slash | ⟨name, member, here⟩
    · exact absurd slash (by decide)
    · exact (free name member).2 here
  · exact split_join filled fun name member => (free name member).1

theorem slashed_append (t rest : Text) : slashed (t ++ rest) = slashed t ++ slashed rest := List.map_append

/-- The base name of a shown spelling is the last name that is left. -/
theorem Shown.base (shown : Shown p) : ∃ name before, name ≠ [] ∧ basename p = name ∧
    leftNames p = before ++ [name] ∧ ∃ front, Text.split (u '/') (slashed p) = front ++ [name] := by
  obtain ⟨front, name, parts, clean⟩ := shown.last
  obtain ⟨init, x, marked⟩ := shown.ends
  have segments : Text.split (u '/') (slashed p) = init.map (·.1) ++ [x] := by
    rw [← marks_segments (Text.split (u '/') (slashed p)), marked, List.map_append]
    rfl
  have last : ∃ others, Text.split (u '/') (slashed p) = others ++ [name] := by
    have free := split_parts_free p name (by rw [parts]; simp)
    have whole := @join_split (u '/') p
    rw [parts] at whole
    cases front with
    | nil =>
      have alone : p = name := whole.symm
      rw [alone, slashed_of_free clean, split_free free]
      exact ⟨[], rfl⟩
    | cons head front =>
      rw [join_append (List.cons_ne_nil _ _)] at whole
      have split : slashed p = slashed (Text.join (u '/') (head :: front)) ++ u '/' :: name := by
        rw [← whole, slashed_append]
        congr 1
        change u '/' :: slashed name = _
        rw [slashed_of_free clean]
      rw [split, split_append, split_free free]
      exact ⟨_, rfl⟩
  obtain ⟨others, lasts⟩ := last
  obtain ⟨-, same⟩ := List.append_inj' (segments.symm.trans lasts) rfl
  obtain rfl := List.singleton_injective same
  have filled : x ≠ [] := marks_names _ x (by rw [marked]; simp)
  refine ⟨x, left init, filled, basename_split parts filled, ?_, _, segments⟩
  rw [leftNames, marked, left_append]
  rfl

/-! ## The same answer for both spellings -/

theorem isPathBlocked_congr (base : basename p = basename r)
    (dirs : ∀ entry ∈ nestedCredDirs, entry.holds (slashed p) = entry.holds (slashed r))
    (files : ∀ entry ∈ BLOCKED_FILENAMES, entry.names (basename p) (slashed p) = entry.names (basename r) (slashed r)) :
    isPathBlocked p = isPathBlocked r := by
  have extension : checkExtensionDenylist p = checkExtensionDenylist r := by
    unfold checkExtensionDenylist extname
    rw [base]
  have denied : checkPathDenylist p = checkPathDenylist r := by
    have dir := List.find?_congr dirs
    have file := List.find?_congr files
    unfold slashed at dir file
    unfold checkPathDenylist
    dsimp only
    rw [dir, file, base]
  rw [isPathBlocked, isPathBlocked, denied, extension]

theorem names_slashless (free : u '/' ∉ text entry.pattern)
    (parts : Text.split (u '/') n = front ++ [base]) :
    entry.names base n = (base == text entry.pattern) := by
  have alone : (text entry.pattern).includes [u '/'] = false := by
    rw [← Bool.not_eq_true, includes_unit]
    exact free
  unfold DeniedEntry.names
  rw [alone, Bool.false_and, Bool.or_false]
  by_cases whole : n = text entry.pattern
  · rw [whole, split_free free] at parts
    cases front with
    | nil =>
      obtain ⟨same, -⟩ := List.cons.inj parts
      rw [same, beq_self_eq_true, Bool.true_or]
    | cons head front => simp at parts
  · rw [beq_eq_false_iff_ne.mpr whole, Bool.or_false]

theorem names_slash (slash : (text entry.pattern).includes [u '/'] = true) (base : Text) :
    entry.names base n = (base == text entry.pattern || n.includes (text entry.pattern)) := by
  unfold DeniedEntry.names
  rw [slash, Bool.true_and]
  have whole (equal : n = text entry.pattern) : n.includes (text entry.pattern) = true := by
    rw [equal, includes_iff]
    exact ⟨[], [], (List.append_nil _).symm⟩
  have ends (suffix : n.endsWith (text entry.pattern) = true) : n.includes (text entry.pattern) = true := by
    obtain ⟨front, rfl⟩ := List.isSuffixOf_iff_suffix.mp suffix
    rw [includes_iff]
    exact ⟨front, [], by rw [List.append_nil]⟩
  rw [Bool.eq_iff_iff]
  simp only [Bool.or_eq_true, beq_iff_eq]
  constructor
  · rintro ((named | equal) | suffix | inside)
    · exact .inl named
    · exact .inr (whole equal)
    · exact .inr (ends suffix)
    · exact .inr inside
  · rintro (named | inside)
    · exact .inl (.inl named)
    · exact .inr (.inr inside)

/-- The file names with a slash in them. -/
theorem blocked_filenames_slash : ∀ entry ∈ BLOCKED_FILENAMES, u '/' ∉ text entry.pattern ∨
    text entry.pattern = text ".docker" ++ u '/' :: text "config.json" ∨
    text entry.pattern = text ".kube" ++ u '/' :: text "config" := by
  decide +kernel

theorem Shown.dirs (shown : Shown p) (parts : Text.split (u '/') (slashed r) = leftNames p) :
    ∀ entry ∈ nestedCredDirs, entry.holds (slashed p) = entry.holds (slashed r) := by
  have window {entry : DeniedEntry} (middle : List Text)
      (same : text entry.pattern ++ [u '/'] = enclosed (u '/') middle) (free : ∀ part ∈ middle, u '/' ∉ part)
      (kept : (∃ before y after, Text.split (u '/') (slashed p) = before ++ (middle ++ y :: after)) ↔
        ∃ before y after, leftNames p = before ++ (middle ++ y :: after)) :
      entry.holds (slashed p) = entry.holds (slashed r) := by
    rw [Bool.eq_iff_iff, holds_window same free, holds_window same free, parts]
    exact kept
  have segments := marks_segments (Text.split (u '/') (slashed p))
  have single (name : Text) (secret : name ∈ [text ".ssh", text ".aws", text ".gnupg"]) :
      (∃ before y after, Text.split (u '/') (slashed p) = before ++ ([name] ++ y :: after)) ↔
        ∃ before y after, leftNames p = before ++ ([name] ++ y :: after) := by
    rw [← segments]
    exact single_left shown.ends (shown.secret name secret)
  have double : (∃ before y after, Text.split (u '/') (slashed p) =
      before ++ ([text ".config", text "gcloud"] ++ y :: after)) ↔
        ∃ before y after, leftNames p = before ++ ([text ".config", text "gcloud"] ++ y :: after) := by
    rw [← segments]
    exact double_left shown.ends fun front stays next back split =>
      shown.joint front _ stays next back split (.inl rfl)
  intro entry member
  simp only [nestedCredDirs, List.mem_cons, List.not_mem_nil, or_false] at member
  rcases member with rfl | rfl | rfl | rfl
  · exact window [text ".ssh"] (by decide) (by decide) (single _ (by decide))
  · exact window [text ".aws"] (by decide) (by decide) (single _ (by decide))
  · exact window [text ".gnupg"] (by decide) (by decide) (single _ (by decide))
  · exact window [text ".config", text "gcloud"] (by decide) (by decide) double

theorem Shown.files (shown : Shown p) (parts : Text.split (u '/') (slashed r) = leftNames p)
    (base : basename p = basename r) : ∀ entry ∈ BLOCKED_FILENAMES,
      entry.names (basename p) (slashed p) = entry.names (basename r) (slashed r) := by
  obtain ⟨name, before, filled, named, kept, front, segments⟩ := shown.base
  have pair {entry : DeniedEntry} {half rest : Text} (same : text entry.pattern = half ++ u '/' :: rest)
      (halfFree : u '/' ∉ half) (restFree : u '/' ∉ rest) (joint : ∀ x, half <:+ x → Joint x) :
      entry.names (basename p) (slashed p) = entry.names (basename r) (slashed r) := by
    have slash : (text entry.pattern).includes [u '/'] = true := by
      rw [includes_unit, same]
      simp
    have inside : (slashed p).includes (text entry.pattern) = (slashed r).includes (text entry.pattern) := by
      rw [Bool.eq_iff_iff, same, includes_pair halfFree restFree, includes_pair halfFree restFree, parts,
        ← marks_segments (Text.split (u '/') (slashed p))]
      exact pair_left fun front x stays next back split suffix =>
        shown.joint front x stays next back split (joint x suffix)
    rw [names_slash slash, names_slash slash, base, inside]
  intro entry member
  rcases blocked_filenames_slash entry member with free | docker | kube
  · have other : Text.split (u '/') (slashed r) = before ++ [name] := parts.trans kept
    rw [← base, named, names_slashless free segments, names_slashless free other]
  · exact pair docker (by decide) (by decide) fun x suffix => .inr (.inl suffix)
  · exact pair kube (by decide) (by decide) fun x suffix => .inr (.inr suffix)

/-- A shown spelling is blocked exactly if the path is, spelled by its names. -/
theorem Shown.blocked (shown : Shown p) (normal : normalizePath p = .ok r) :
    isPathBlocked p = isPathBlocked r := by
  obtain ⟨rfl, filled⟩ := normalizePath_left normal
  obtain ⟨clean, parts⟩ := leftNames_spelled filled
  have here : Text.split (u '/') (slashed (Text.join (u '/') (leftNames p))) = leftNames p := by
    rw [clean, parts]
  obtain ⟨name, before, some, named, kept, -⟩ := shown.base
  have base : basename p = basename (Text.join (u '/') (leftNames p)) := by
    rw [named, basename_split (parts.trans kept) some]
  exact isPathBlocked_congr base (shown.dirs here) (shown.files here base)

end

end LetAgents.Rental.PathPolicy

import LetAgents.Review.Commands

/-!
# What the reading of arguments admits

A list of arguments that `readArguments` accepts is a sequence of words and of options the
program is known to take, each spelled out in one or two elements, and what
`staysInProject` accepts leads nowhere but into the project.
-/
namespace LetAgents.Review

/-! ## Items of an argument list -/

/-- What one or two elements of an argument list spell. -/
inductive Item where
  | word (text : String)
  | flag (text : String)
  | cluster (text : String)
  | count (text : String)
  | attached (arg option value : String)
  | spaced (option value : String)

namespace Item

def spelling : Item → List String
  | word text | flag text | cluster text | count text => [text]
  | attached arg _ _ => [arg]
  | spaced option value => [option, value]

def words : Item → List String
  | word text => [text]
  | _ => []

def isWord : Item → Prop
  | word _ => True
  | _ => False

/-- The option is listed, and takes the value. -/
def Takes (spec : ArgumentSpec) (project option value : String) : Prop :=
  ∃ allows, spec.valued.lookup option = some allows ∧ value ≠ "" ∧ dashes value = false ∧
    staysInProject value project = true ∧ allows value = true

def Admitted (spec : ArgumentSpec) (project : String) : Item → Prop
  | word text => dashes text = false ∧ staysInProject text project = true
  | flag text => text ∈ spec.flags
  | cluster text => ∃ together : List Char, text.toList = '-' :: together ∧ 2 ≤ together.length ∧
      ∀ letter ∈ together, isWordChar letter = true ∧ String.ofList ['-', letter] ∈ spec.flags
  | count text => spec.count = true ∧ ∃ digits : List Char, text.toList = '-' :: digits ∧
      1 ≤ digits.length ∧ digits.length ≤ 6 ∧ ∀ digit ∈ digits, digit.isDigit = true
  | attached arg option value =>
      arg.toList = option.toList ++ '=' :: value.toList ∧ Takes spec project option value
  | spaced option value => Takes spec project option value

end Item

/-- The items that follow when some words have been read. -/
structure Follows (spec : ArgumentSpec) (project : String) (before words args : List String)
    (items : List Item) : Prop where
  spelled : args = items.flatMap Item.spelling
  admitted : ∀ item ∈ items, item.Admitted spec project
  collected : words = before ++ items.flatMap Item.words
  ordered : spec.anywhere = false → items.Pairwise fun first later => first.isWord → later.isWord
  started : spec.anywhere = false → before ≠ [] → ∀ item ∈ items, item.isWord
  single : ∀ arg ∈ args, arg ≠ "-" ∧ arg ≠ "--"

section Reading

variable {spec : ArgumentSpec} {project : String} {before words : List String}

theorem follows_nil : Follows spec project before before [] [] := by
  constructor <;> simp

theorem Follows.word (follows : Follows spec project (before ++ [text]) words args items)
    (free : dashes text = false) (stays : staysInProject text project = true) :
    Follows spec project before words (text :: args) (.word text :: items) where
  spelled := by simp [Item.spelling, follows.spelled]
  admitted := by
    intro item member
    obtain rfl | member := List.mem_cons.mp member
    · exact ⟨free, stays⟩
    · exact follows.admitted item member
  collected := by simp [Item.words, follows.collected]
  ordered outside := by
    apply List.pairwise_cons.mpr
    exact ⟨fun item member _ => follows.started outside (by simp) item member,
      follows.ordered outside⟩
  started outside _ := by
    intro item member
    obtain rfl | member := List.mem_cons.mp member
    · trivial
    · exact follows.started outside (by simp) item member
  single := by
    intro arg member
    obtain rfl | member := List.mem_cons.mp member
    · constructor <;> (rintro rfl; exact absurd free (by decide))
    · exact follows.single arg member

/-- An option may come while no word has been read, and anywhere where that is allowed. -/
theorem Follows.option (follows : Follows spec project before words args items)
    (place : ¬(before ≠ [] ∧ !spec.anywhere)) (admitted : item.Admitted spec project)
    (silent : item.words = []) (single : ∀ arg ∈ item.spelling, arg ≠ "-" ∧ arg ≠ "--")
    (other : ¬item.isWord) :
    Follows spec project before words (item.spelling ++ args) (item :: items) where
  spelled := by simp [follows.spelled]
  admitted := by
    intro some member
    obtain rfl | member := List.mem_cons.mp member
    · exact admitted
    · exact follows.admitted some member
  collected := by simp [silent, follows.collected]
  ordered outside := by
    apply List.pairwise_cons.mpr
    exact ⟨fun _ _ isWord => absurd isWord other, follows.ordered outside⟩
  started outside filled := absurd ⟨filled, by simp [outside]⟩ place
  single := by
    intro arg member
    obtain member | member := List.mem_append.mp member
    · exact single arg member
    · exact follows.single arg member

theorem takes_of_allowed (listed : spec.valued.lookup option = some allows)
    (allowed : valueAllowed allows project value = true) :
    Item.Takes spec project option value := by
  simp only [valueAllowed, Bool.and_eq_true, decide_eq_true_eq, Bool.not_eq_true'] at allowed
  exact ⟨allows, listed, allowed.1.1.1, allowed.1.1.2, allowed.1.2, allowed.2⟩

theorem Item.Takes.single (takes : Item.Takes spec project option value) :
    value ≠ "-" ∧ value ≠ "--" := by
  obtain ⟨_, _, _, free, _⟩ := takes
  constructor <;> (rintro rfl; exact absurd free (by decide))

theorem dashes_iff : dashes arg = true ↔ ∃ rest, arg.toList = '-' :: rest := by
  simp [dashes, List.head?_eq_some_iff]

theorem count_admitted (starts : dashes arg = true)
    (counts : (spec.count && number (String.ofList (arg.toList.drop 1))) = true) :
    (Item.count arg).Admitted spec project := by
  obtain ⟨digits, shape⟩ := dashes_iff.mp starts
  simp only [number, shape, Bool.and_eq_true, decide_eq_true_eq, String.toList_ofList, List.drop_one,
    List.tail_cons, List.all_eq_true, String.length_ofList] at counts
  exact ⟨counts.1, digits, shape, counts.2.1.1, counts.2.1.2, counts.2.2⟩

theorem cluster_admitted (together : clustered spec.flags arg = true) :
    (Item.cluster arg).Admitted spec project := by
  unfold clustered at together
  cases shape : arg.toList with
  | nil => simp [shape] at together
  | cons first letters =>
    rw [shape] at together
    split at together
    next rest same =>
      obtain ⟨rfl, rfl⟩ := List.cons.inj same
      simp only [Bool.and_eq_true, decide_eq_true_eq, List.all_eq_true,
        List.contains_iff_mem] at together
      exact ⟨letters, shape, together.1.1, fun letter member =>
        ⟨together.1.2 letter member, together.2 letter member⟩⟩
    next => cases together

theorem assigned_splits (attached : assigned spec.dashed arg = some (option, value)) :
    arg.toList = option.toList ++ '=' :: value.toList := by
  simp only [assigned] at attached
  split_ifs at attached with found
  simp only [Bool.and_eq_true, List.contains_iff_mem] at found
  have place := found.1.1
  obtain ⟨rfl, rfl⟩ := Prod.mk.inj (Option.some.inj attached)
  have parts := List.takeWhile_append_dropWhile (p := (· ≠ '=')) (l := arg.toList)
  cases later : arg.toList.dropWhile (· ≠ '=') with
  | nil =>
    have none := List.dropWhile_eq_nil_iff.mp later _ place
    simp at none
  | cons c rest =>
    have stop := List.head?_dropWhile_not (· ≠ '=') arg.toList
    rw [later] at parts stop
    obtain rfl : c = '=' := by simpa using stop
    simpa using parts.symm

/-- What is read first is one item, and what follows it is read in the same way. -/
theorem readFrom_follows (read : readFrom spec project args before = some words) :
    ∃ items, Follows spec project before words args items := by
  induction args, before using readFrom.induct spec project with
  | case1 before =>
    obtain rfl := Option.some.inj read
    exact ⟨[], follows_nil⟩
  | case3 arg rest before single plain stays ih =>
    rw [readFrom, if_neg single, if_pos plain, if_pos stays] at read
    obtain ⟨items, follows⟩ := ih read
    exact ⟨_, follows.word (by simpa using plain) stays⟩
  | case5 arg rest before single dashed late =>
    rw [readFrom, if_neg single, if_neg dashed, if_pos late] at read
    cases read
  | case6 arg rest before single dashed place counts ih =>
    rw [readFrom, if_neg single, if_neg dashed, if_neg place, if_pos counts] at read
    obtain ⟨items, follows⟩ := ih read
    exact ⟨_, follows.option place (count_admitted (by simpa using dashed) counts) rfl
      (by simpa [Item.spelling] using single) not_false⟩
  | case7 arg rest before single dashed place uncounted option value attached allows listed allowed ih =>
    rw [readFrom, if_neg single, if_neg dashed, if_neg place, if_neg uncounted, attached] at read
    simp only [listed, allowed] at read
    obtain ⟨items, follows⟩ := ih read
    have admitted : (Item.attached arg option value).Admitted spec project :=
      ⟨assigned_splits attached, takes_of_allowed listed allowed⟩
    exact ⟨_, follows.option place admitted rfl (by simpa [Item.spelling] using single) not_false⟩
  | case12 arg before single dashed place uncounted detached equals allows listed value others allowed ih =>
    rw [readFrom, if_neg single, if_neg dashed, if_neg place, if_neg uncounted, detached] at read
    simp only [equals, listed, allowed] at read
    obtain ⟨items, follows⟩ := ih read
    have takes := takes_of_allowed listed allowed
    have apart := takes.single
    have admitted : (Item.spaced arg value).Admitted spec project := takes
    exact ⟨_, follows.option place admitted rfl
      (by simpa [Item.spelling, apart] using single) not_false⟩
  | case14 arg rest before single dashed place uncounted detached equals unlisted known ih =>
    rw [readFrom, if_neg single, if_neg dashed, if_neg place, if_neg uncounted, detached] at read
    simp only [equals, unlisted, known] at read
    obtain ⟨items, follows⟩ := ih read
    obtain flag | together := (Bool.or_eq_true _ _).mp known
    · have admitted : (Item.flag arg).Admitted spec project := List.contains_iff_mem.mp flag
      exact ⟨_, follows.option place admitted rfl
        (by simpa [Item.spelling] using single) not_false⟩
    · exact ⟨_, follows.option place (cluster_admitted together) rfl
        (by simpa [Item.spelling] using single) not_false⟩
  | _ =>
    simp only [readFrom, *] at read
    contradiction

end Reading

/-! ## Where a piece leads -/

/-- A component that leads down by one. -/
def isName (part : List Char) : Prop := part ≠ [] ∧ part ≠ ['.'] ∧ part ≠ ['.', '.']

/-- The components of an absolute path. -/
def components (path : List Char) : List (List Char) := (path.splitOnP (· = '/')).drop 1

/-- One component further from a directory. -/
def descend (path : List (List Char)) (part : List Char) : List (List Char) :=
  if part = [] ∨ part = ['.'] then path
  else if part = ['.', '.'] then path.dropLast
  else path ++ [part]

/-- `path.resolve(directory, piece)` of a POSIX path, as the components on its way. -/
def resolve (directory : List (List Char)) (piece : List Char) : List (List Char) :=
  (piece.splitOnP (· = '/')).foldl descend (if piece.head? = some '/' then [] else directory)

theorem descend_names (path : List (List Char)) (proper : ∀ part ∈ names, isName part) :
    names.foldl descend path = path ++ names := by
  induction names generalizing path with
  | nil => simp
  | cons part more ih =>
    obtain ⟨filled, here, up⟩ := proper part List.mem_cons_self
    have step : descend path part = path ++ [part] := by simp [descend, filled, here, up]
    rw [List.foldl_cons, step, ih _ fun other member => proper other (.tail _ member)]
    simp

theorem descend_prefix {parts : List (List Char)} (path : List (List Char))
    (below : ∀ part ∈ parts, part ≠ ['.', '.']) : path <+: parts.foldl descend path := by
  induction parts generalizing path with
  | nil => exact List.prefix_refl path
  | cons part more ih =>
    have step : path <+: descend path part := by
      unfold descend
      split_ifs with stays up
      · exact List.prefix_refl path
      · exact absurd up (below part List.mem_cons_self)
      · exact List.prefix_append path [part]
    exact step.trans (ih _ fun other member => below other (.tail _ member))

theorem normalizedProject_components (normal : normalizedProject raw = some project) :
    project.toList.splitOnP (· = '/') = [] :: components project.toList ∧
      2 ≤ project.toList.length ∧ ∀ part ∈ components project.toList, isName part := by
  simp only [normalizedProject] at normal
  split_ifs at normal with allowed
  obtain rfl := Option.some.inj normal
  obtain ⟨_, _, rooted, long, proper⟩ := allowed
  rw [String.toList_ofList]
  refine ⟨?_, long, ?_⟩
  · obtain ⟨rest, shape⟩ := List.head?_eq_some_iff.mp rooted
    simp [components, shape, List.splitOnP_cons_eq_if_modifyHead]
  · simpa [isName, components, and_assoc] using proper

theorem normalizedProject_head (normal : normalizedProject raw = some project) :
    project.toList.head? = some '/' := by
  simp only [normalizedProject] at normal
  split_ifs at normal with allowed
  obtain rfl := Option.some.inj normal
  rw [String.toList_ofList]
  exact allowed.2.2.1

/-- A path that is the project's or goes on from it. -/
theorem piece_through (long : 2 ≤ project.length)
    (same : let path := if (piece.rdropWhile (· = '/')).isEmpty then ['/'] else piece.rdropWhile (· = '/')
      path = project ∨ project ++ ['/'] <+: path) :
    piece = project ∨ ∃ more, piece = project ++ '/' :: more := by
  have kept : piece.rdropWhile (· = '/') = project ∨ project ++ ['/'] <+: piece.rdropWhile (· = '/') := by
    split_ifs at same
    · obtain rfl | further := same
      · simp at long
      · have short := further.length_le
        simp only [List.length_append] at short
        omega
    · exact same
  obtain ⟨tail, split⟩ := List.rdropWhile_prefix (p := (· = '/')) (l := piece)
  have slashes : ∀ c ∈ tail, c = '/' := by
    have dropped := List.rdropWhile_append_rtakeWhile (p := (· = '/')) (l := piece)
    have same : tail = piece.rtakeWhile (· = '/') := List.append_cancel_left (split.trans dropped.symm)
    subst same
    intro c member
    simpa using List.mem_rtakeWhile_imp member
  obtain same | ⟨more, further⟩ := kept
  · rw [same] at split
    cases tail with
    | nil => exact .inl (by simpa using split.symm)
    | cons c rest =>
      obtain rfl := slashes c List.mem_cons_self
      exact .inr ⟨rest, split.symm⟩
  · exact .inr ⟨more ++ tail, by rw [← split, ← further]; simp⟩

/-- The pieces of a text between `=`, `:` and `,`. -/
def pieces (text : String) : List (List Char) :=
  text.toList.splitOnP fun c => c = '=' || c = ':' || c = ','

/-- Every piece that stays leads from a directory to what is below it or below the project. -/
theorem pieceStays_resolve (normal : normalizedProject raw = some project)
    (stays : pieceStays project.toList piece = true) (directory : List (List Char)) :
    directory <+: resolve directory piece ∨ components project.toList <+: resolve directory piece := by
  simp only [pieceStays, Bool.and_eq_true, List.all_eq_true, decide_eq_true_eq, Bool.or_eq_true] at stays
  obtain ⟨⟨_, inside⟩, absolute⟩ := stays
  have below : ∀ part ∈ piece.splitOnP (· = '/'), part ≠ ['.', '.'] := fun part member => (inside part member).1
  obtain ⟨shape, long, proper⟩ := normalizedProject_components normal
  obtain relative | ⟨_, path⟩ := absolute
  · have other : piece.head? ≠ some '/' := by simpa using relative
    left
    rw [resolve, if_neg other]
    exact descend_prefix directory below
  · right
    have through := piece_through long (path.imp_right List.isPrefixOf_iff_prefix.mp)
    obtain ⟨rest, parts⟩ : ∃ rest,
        piece.splitOnP (· = '/') = [] :: (components project.toList ++ rest) := by
      obtain rfl | ⟨more, rfl⟩ := through
      · exact ⟨[], by simpa using shape⟩
      · exact ⟨more.splitOnP (· = '/'), by rw [List.splitOnP_append_cons _ _ (by simp), shape]; rfl⟩
    have rooted : ∀ start, ([] :: (components project.toList ++ rest)).foldl descend start =
        rest.foldl descend (start ++ components project.toList) := by
      intro start
      rw [List.foldl_cons, List.foldl_append, show descend start [] = start by simp [descend],
        descend_names start proper]
    have start : piece.head? = some '/' := by
      obtain ⟨tail, same⟩ : ∃ tail, piece = project.toList ++ tail := by
        obtain rfl | ⟨more, rfl⟩ := through
        · exact ⟨[], by simp⟩
        · exact ⟨_, rfl⟩
      rw [same, List.head?_append, normalizedProject_head normal]
      rfl
    rw [resolve, if_pos start, parts, rooted, List.nil_append]
    apply descend_prefix
    intro part member
    apply below
    rw [parts]
    simp [member]

/-! ## What a reading admits -/

/-- No component is the history of the project, in any letter case. -/
def free (piece : List Char) : Prop :=
  ∀ part ∈ piece.splitOnP (· = '/'), part.map Char.toLower ≠ ".git".toList

theorem staysInProject_pieces (normal : normalizedProject raw = some project)
    (stays : staysInProject text project = true) : ∀ piece ∈ pieces text, free piece ∧
      ∀ directory, directory <+: resolve directory piece ∨
        components project.toList <+: resolve directory piece := by
  simp only [staysInProject, Bool.and_eq_true, List.all_eq_true] at stays
  intro piece member
  have here := stays.2 piece member
  refine ⟨?_, pieceStays_resolve normal here⟩
  simp only [pieceStays, Bool.and_eq_true, List.all_eq_true, decide_eq_true_eq] at here
  exact fun part inside => (here.1.2 part inside).2

/-- The arguments that are accepted spell out words and listed options, options before the
words unless they may stand anywhere, and no text that may stay in the project leads out of
it or of a directory below it. -/
theorem arguments_admitted {raw project : String} {args words : List String} {spec : ArgumentSpec}
    (normal : normalizedProject raw = some project)
    (read : readArguments args spec project = some words) :
    (∃ items : List Item, args = items.flatMap Item.spelling ∧ words = items.flatMap Item.words ∧
      (∀ item ∈ items, item.Admitted spec project) ∧
      (spec.anywhere = false →
        items.Pairwise fun first later => first.isWord → later.isWord)) ∧
    (∀ arg ∈ args, arg ≠ "-" ∧ arg ≠ "--") ∧
    ∀ text, staysInProject text project = true → ∀ piece ∈ pieces text, free piece ∧
      ∀ below, let directory := components project.toList ++ below
        directory <+: resolve directory piece ∨ components project.toList <+: resolve directory piece := by
  obtain ⟨items, follows⟩ := readFrom_follows read
  refine ⟨⟨items, follows.spelled, follows.collected, follows.admitted, follows.ordered⟩,
    follows.single, ?_⟩
  intro text stays piece member
  have led := staysInProject_pieces normal stays piece member
  exact ⟨led.1, fun below => led.2 (components project.toList ++ below)⟩

theorem short_status_admitted : (∀ arg ∈ ["-sb", "-n", "5", "src"], arg ≠ "-" ∧ arg ≠ "--") ∧
    ∃ words, readArguments ["-sb", "-n", "5", "src"] ⟨["-s", "-b"], [("-n", number)], false, false, false⟩
      "/project" = some words := by
  have read : readArguments ["-sb", "-n", "5", "src"]
      ⟨["-s", "-b"], [("-n", number)], false, false, false⟩ "/project" = some ["src"] := by decide +kernel
  have normal : normalizedProject "/project/" = some "/project" := by decide +kernel
  exact ⟨(arguments_admitted normal read).2.1, _, read⟩

end LetAgents.Review

import LetAgents.Lib.Texts

/-!
# Paths as lists of segments

Splitting and joining at a separator, parts of a text that span separators, and paths with dot
segments: which of the names of a path are left when it is resolved.
-/
namespace LetAgents.Lib.RegExp

variable {separator : Nat}

/-- `/^[a-zA-Z]:/` -/
def Text.hasDrive : Text → Bool
  | c :: colon :: _ => (isUpper c || (u 'a' ≤ c && c ≤ u 'z')) && colon = u ':'
  | _ => false

/-! ## Splitting and joining -/

theorem split_cons (t : Text) : ∃ first more, t.split separator = first :: more := by
  induction t with
  | nil => exact ⟨[], [], rfl⟩
  | cons c rest ih =>
    obtain ⟨first, more, same⟩ := ih
    unfold Text.split
    rw [same]
    dsimp only
    split
    · exact ⟨_, _, rfl⟩
    · exact ⟨_, _, rfl⟩

theorem split_ne_nil (t : Text) : t.split separator ≠ [] := by
  obtain ⟨first, more, same⟩ := @split_cons separator t
  rw [same]
  exact List.cons_ne_nil _ _

theorem split_separator (rest : Text) :
    Text.split separator (separator :: rest) = [] :: Text.split separator rest := by
  obtain ⟨first, more, same⟩ := @split_cons separator rest
  conv_lhs => unfold Text.split
  rw [same]
  exact if_pos rfl

theorem split_unit (other : c ≠ separator) (same : Text.split separator rest = first :: more) :
    Text.split separator (c :: rest) = (c :: first) :: more := by
  conv_lhs => unfold Text.split
  rw [same]
  exact if_neg other

/-- A text without a separator comes before the first part. -/
theorem split_before (free : separator ∉ t) (same : Text.split separator rest = first :: more) :
    Text.split separator (t ++ rest) = (t ++ first) :: more := by
  induction t with
  | nil => exact same
  | cons c t ih =>
    obtain ⟨other, free⟩ := not_or.mp (List.mem_cons.not.mp free)
    exact split_unit (Ne.symm other) (ih free)

theorem split_free (free : separator ∉ part) : Text.split separator part = [part] := by
  have alone := @split_before separator part [] [] [] free rfl
  rwa [List.append_nil] at alone

theorem split_append (t rest : Text) :
    Text.split separator (t ++ separator :: rest) = Text.split separator t ++ Text.split separator rest := by
  induction t with
  | nil => exact split_separator rest
  | cons c t ih =>
    by_cases same : c = separator
    · rw [same, List.cons_append, split_separator, split_separator, ih]
      rfl
    · obtain ⟨first, more, parts⟩ := @split_cons separator t
      have whole : Text.split separator (t ++ separator :: rest) = first :: (more ++ Text.split separator rest) := by
        rw [ih, parts]
        rfl
      rw [List.cons_append, split_unit same whole, split_unit same parts]
      rfl

theorem split_parts_free (t : Text) : ∀ part ∈ Text.split separator t, separator ∉ part := by
  induction t with
  | nil =>
    intro part member
    rw [List.mem_singleton.mp member]
    nofun
  | cons c rest ih =>
    obtain ⟨first, more, same⟩ := @split_cons separator rest
    by_cases here : c = separator
    · rw [here, split_separator]
      intro part member
      rcases List.mem_cons.mp member with rfl | old
      · nofun
      · exact ih part old
    · rw [split_unit here same]
      rw [same] at ih
      intro part member
      rcases List.mem_cons.mp member with rfl | old
      · intro inside
        rcases List.mem_cons.mp inside with equal | inside
        · exact here equal.symm
        · exact ih first List.mem_cons_self inside
      · exact ih part (.tail _ old)

theorem join_append (some : first ≠ []) (part : Text) (more : List Text) :
    Text.join separator (first ++ part :: more) =
      Text.join separator first ++ separator :: Text.join separator (part :: more) := by
  induction first with
  | nil => exact absurd rfl some
  | cons head first ih =>
    cases first with
    | nil => rfl
    | cons next first =>
      have tail := ih (List.cons_ne_nil _ _)
      change head ++ separator :: Text.join separator (next :: first ++ part :: more) =
        (head ++ separator :: Text.join separator (next :: first)) ++ _
      rw [tail, List.append_assoc]
      rfl

theorem split_join (some : parts ≠ []) (free : ∀ part ∈ parts, separator ∉ part) :
    Text.split separator (Text.join separator parts) = parts := by
  induction parts with
  | nil => exact absurd rfl some
  | cons first more ih =>
    have here := free first List.mem_cons_self
    cases more with
    | nil => exact split_free here
    | cons next more =>
      have tail := ih (List.cons_ne_nil _ _) fun part member => free part (.tail _ member)
      change Text.split separator (first ++ separator :: Text.join separator (next :: more)) = _
      rw [split_append, split_free here, tail]
      rfl

theorem join_split (t : Text) : Text.join separator (Text.split separator t) = t := by
  induction t with
  | nil => rfl
  | cons c rest ih =>
    obtain ⟨first, more, same⟩ := @split_cons separator rest
    by_cases here : c = separator
    · rw [here, split_separator]
      rw [same] at ih ⊢
      change separator :: Text.join separator (first :: more) = _
      rw [ih]
    · rw [split_unit here same]
      rw [same] at ih
      rw [← ih]
      cases more <;> rfl

/-- A text without a separator comes behind the last part. -/
theorem split_behind (t : Text) (free : separator ∉ part) :
    ∃ init last, Text.split separator (t ++ part) = init ++ [last ++ part] := by
  induction t with
  | nil => exact ⟨[], [], split_free free⟩
  | cons c t ih =>
    obtain ⟨init, last, parts⟩ := ih
    by_cases same : c = separator
    · rw [same, List.cons_append, split_separator, parts]
      exact ⟨[] :: init, last, rfl⟩
    · cases init with
      | nil => exact ⟨[], c :: last, split_unit same parts⟩
      | cons first init => exact ⟨(c :: first) :: init, last, split_unit same parts⟩

theorem join_head (first : Text) (more : List Text) :
    ∃ behind, Text.join separator (first :: more) = first ++ behind := by
  cases more with
  | nil => exact ⟨[], (List.append_nil first).symm⟩
  | cons next more => exact ⟨_, rfl⟩

/-- A unit of a part is a unit of the text. -/
theorem mem_of_split (member : part ∈ Text.split separator t) (inside : c ∈ part) : c ∈ t := by
  obtain ⟨before, after, parts⟩ := List.append_of_mem member
  obtain ⟨behind, same⟩ := @join_head separator part after
  rw [← @join_split separator t, parts]
  cases before with
  | nil =>
    rw [List.nil_append, same]
    exact List.mem_append_left _ inside
  | cons head before =>
    rw [join_append (List.cons_ne_nil _ _), same]
    simp [inside]

theorem mem_join (inside : c ∈ Text.join separator parts) :
    c = separator ∨ ∃ part ∈ parts, c ∈ part := by
  induction parts with
  | nil => cases inside
  | cons first more ih =>
    cases more with
    | nil => exact .inr ⟨first, .head _, inside⟩
    | cons next more =>
      rcases List.mem_append.mp inside with front | back
      · exact .inr ⟨first, .head _, front⟩
      · rcases List.mem_cons.mp back with slash | rest
        · exact .inl slash
        · exact (ih rest).imp id fun found => found.imp fun part both =>
            ⟨.tail _ both.1, both.2⟩

/-! ## Parts of a text that span separators -/

theorem includes_iff {t part : Text} : t.includes part = true ↔ ∃ before after, t = before ++ (part ++ after) := by
  unfold Text.includes
  rw [List.any_eq_true]
  constructor
  · rintro ⟨tail, suffix, head⟩
    obtain ⟨before, rfl⟩ := (List.mem_tails _ _).mp suffix
    obtain ⟨after, rfl⟩ := List.isPrefixOf_iff_prefix.mp head
    exact ⟨before, after, rfl⟩
  · rintro ⟨before, after, rfl⟩
    apply Exists.intro (part ++ after)
    constructor
    · exact (List.mem_tails _ _).mpr (List.suffix_append _ _)
    · exact List.isPrefixOf_iff_prefix.mpr (List.prefix_append _ _)

/-- Middle parts, each with the separator behind it. -/
def enclosed (separator : Nat) (middle : List Text) : Text := middle.flatMap (· ++ [separator])

theorem split_enclosed (free : ∀ part ∈ middle, separator ∉ part) (rest : Text) :
    Text.split separator (enclosed separator middle ++ rest) = middle ++ Text.split separator rest := by
  induction middle with
  | nil => rfl
  | cons part middle ih =>
    have tail := ih fun part member => free part (.tail _ member)
    change Text.split separator ((part ++ [separator]) ++ enclosed separator middle ++ rest) = _
    rw [List.append_assoc, List.append_assoc, List.singleton_append, split_append, tail,
      split_free (free part List.mem_cons_self)]
    rfl

theorem join_enclosed (middle : List Text) (last : Text) (more : List Text) :
    Text.join separator (middle ++ last :: more) =
      enclosed separator middle ++ Text.join separator (last :: more) := by
  induction middle with
  | nil => rfl
  | cons part middle ih =>
    have filled : middle ++ last :: more ≠ [] := by simp
    obtain ⟨next, rest, same⟩ := List.exists_cons_of_ne_nil filled
    rw [same] at ih
    rw [List.cons_append, same]
    change part ++ separator :: Text.join separator (next :: rest) =
      (part ++ [separator] ++ enclosed separator middle) ++ _
    rw [ih, List.append_assoc, List.append_assoc]
    rfl

/-- A part with separators stands in a text where its middle parts are segments between one that
ends with its front and one that begins with its rest. -/
theorem includes_window {t front rest : Text} {middle : List Text} (frontFree : separator ∉ front)
    (middleFree : ∀ part ∈ middle, separator ∉ part) (restFree : separator ∉ rest) :
    t.includes (front ++ separator :: (enclosed separator middle ++ rest)) = true ↔
      ∃ before x y after, Text.split separator t = before ++ x :: (middle ++ y :: after) ∧
        front <:+ x ∧ rest <+: y := by
  rw [includes_iff]
  constructor
  · rintro ⟨u, v, rfl⟩
    obtain ⟨init, last, parts⟩ := split_behind u frontFree
    obtain ⟨first, more, tail⟩ := @split_cons separator v
    have behind := split_before restFree tail
    apply Exists.intro init
    apply Exists.intro (last ++ front)
    apply Exists.intro (rest ++ first)
    apply Exists.intro more
    constructor
    · rw [List.append_assoc, List.cons_append, ← List.append_assoc u, split_append, parts, List.append_assoc,
        List.append_assoc, split_enclosed middleFree, behind]
      rfl
    · exact ⟨List.suffix_append _ _, List.prefix_append _ _⟩
  · rintro ⟨before, x, y, after, parts, ⟨x', rfl⟩, ⟨y', rfl⟩⟩
    have whole := @join_split separator t
    obtain ⟨v, tail⟩ := @join_head separator (rest ++ y') after
    have window : Text.join separator ((x' ++ front) :: (middle ++ (rest ++ y') :: after)) =
        x' ++ (front ++ separator :: (enclosed separator middle ++ rest) ++ (y' ++ v)) := by
      have inner := @join_enclosed separator ((x' ++ front) :: middle) (rest ++ y') after
      rw [List.cons_append] at inner
      rw [inner, tail]
      simp [enclosed]
    rw [parts] at whole
    cases before with
    | nil =>
      rw [List.nil_append, window] at whole
      exact ⟨_, _, whole.symm⟩
    | cons head before =>
      rw [join_append (List.cons_ne_nil _ _), window] at whole
      apply Exists.intro (Text.join separator (head :: before) ++ separator :: x')
      apply Exists.intro (y' ++ v)
      rw [← whole]
      simp only [List.append_assoc, List.cons_append]

/-! ## Dot segments -/

/-- The segments of a path resolved from the left, or none where they leave the root. -/
def resolve : List Text → List Text → Option (List Text)
  | resolved, [] => some resolved
  | resolved, segment :: rest =>
    if segment = [] ∨ segment = text "." then resolve resolved rest
    else if segment = text ".." then
      if resolved = [] then none else resolve resolved.dropLast rest
    else resolve (resolved ++ [segment]) rest

/-- The segments with a mark for each that is left when the path is resolved, and how many names
before them they remove. -/
def marks : List Text → Nat × List (Text × Bool)
  | [] => (0, [])
  | segment :: rest =>
    let (depth, marked) := marks rest
    if segment = [] ∨ segment = text "." then (depth, (segment, false) :: marked)
    else if segment = text ".." then (depth + 1, (segment, false) :: marked)
    else if depth = 0 then (0, (segment, true) :: marked)
    else (depth - 1, (segment, false) :: marked)

def left (marked : List (Text × Bool)) : List Text := (marked.filter (·.2)).map (·.1)

theorem marks_segments (segments : List Text) : (marks segments).2.map (·.1) = segments := by
  induction segments with
  | nil => rfl
  | cons segment rest ih =>
    unfold marks
    dsimp only
    split_ifs <;> exact congrArg (List.cons segment) ih

/-- What is left of a path are its marked segments. -/
theorem resolve_marks (done : resolve resolved segments = some result) :
    (marks segments).1 ≤ resolved.length ∧
      result = resolved.take (resolved.length - (marks segments).1) ++ left (marks segments).2 := by
  induction segments generalizing resolved with
  | nil =>
    cases done
    constructor
    · exact Nat.zero_le _
    · simp [marks, left]
  | cons segment rest ih =>
    unfold resolve at done
    unfold marks
    dsimp only
    split_ifs at done ⊢ with dot up root
    · exact ih done
    · have positive := List.length_pos_iff.mpr root
      obtain ⟨enough, same⟩ := ih done
      rw [List.length_dropLast] at enough same
      constructor
      · dsimp only
        omega
      · rw [same, List.dropLast_eq_take, List.take_take]
        change _ = resolved.take (resolved.length - ((marks rest).1 + 1)) ++ left (marks rest).2
        congr 2
        omega
    · rename_i level
      obtain ⟨-, same⟩ := ih done
      constructor
      · exact Nat.zero_le _
      · rw [level, Nat.sub_zero, List.take_length] at same
        rw [same]
        simp [left]
    · rename_i level
      obtain ⟨enough, same⟩ := ih done
      rw [List.length_append, List.length_singleton] at enough same
      constructor
      · dsimp only
        omega
      · rw [same, List.take_append_of_le_length (by omega)]
        change _ = resolved.take (resolved.length - ((marks rest).1 - 1)) ++ left (marks rest).2
        congr 2
        omega

/-! ## Neighbours among the segments that are left -/

theorem left_append (front back : List (Text × Bool)) : left (front ++ back) = left front ++ left back := by
  rw [left, List.filter_append, List.map_append]
  rfl

theorem left_split (here : left marked = before ++ x :: after) :
    ∃ front back, marked = front ++ (x, true) :: back ∧ left front = before ∧ left back = after := by
  induction marked generalizing before with
  | nil => simp [left] at here
  | cons first rest ih =>
    obtain ⟨segment, kept⟩ := first
    cases kept with
    | false =>
      obtain ⟨front, back, rfl, frontLeft, backLeft⟩ := ih (show left rest = _ from here)
      exact ⟨(segment, false) :: front, back, rfl, frontLeft, backLeft⟩
    | true =>
      cases before with
      | nil =>
        obtain ⟨rfl, rfl⟩ := List.cons.inj here
        exact ⟨[], rest, rfl, rfl, rfl⟩
      | cons head before =>
        obtain ⟨rfl, tail⟩ := List.cons.inj here
        obtain ⟨front, back, rfl, frontLeft, backLeft⟩ := ih tail
        exact ⟨(segment, true) :: front, back, rfl, by rw [← frontLeft]; rfl, backLeft⟩

/-- The last segment is left. -/
def EndsLeft (marked : List (Text × Bool)) : Prop := ∃ front x, marked = front ++ [(x, true)]

theorem EndsLeft.tail (ends : EndsLeft (front ++ x :: y :: back)) : left (y :: back) ≠ [] := by
  obtain ⟨init, last, same⟩ := ends
  have here : (y :: back).getLast? = some (last, true) := by
    have whole := congrArg List.getLast? same
    rw [List.getLast?_concat, List.getLast?_append_of_ne_nil _ (List.cons_ne_nil _ _),
      List.getLast?_cons_cons] at whole
    exact whole
  have member : last ∈ left (y :: back) :=
    List.mem_map.mpr ⟨(last, true), List.mem_filter.mpr ⟨List.mem_of_getLast? here, rfl⟩, rfl⟩
  exact List.ne_nil_of_mem member

theorem segments_split {marked : List (Text × Bool)}
    (here : marked.map (·.1) = before ++ x :: after) :
    ∃ front kept back, marked = front ++ (x, kept) :: back ∧ back.map (·.1) = after := by
  obtain ⟨front, tail, rfl, -, rest⟩ := List.map_eq_append_iff.mp here
  obtain ⟨⟨segment, kept⟩, back, rfl, rfl, afterEq⟩ := List.map_eq_cons_iff.mp rest
  exact ⟨front, kept, back, rfl, afterEq⟩

/-- A name that is always left stands before another segment in a path exactly if it stands before
another one in what is left of it. -/
theorem single_left (ends : EndsLeft marked) (stays : ∀ kept, (x, kept) ∈ marked → kept = true) :
    (∃ before y after, marked.map (·.1) = before ++ x :: y :: after) ↔
      ∃ before y after, left marked = before ++ x :: y :: after := by
  constructor
  · rintro ⟨before, y, after, here⟩
    obtain ⟨front, kept, back, rfl, rest⟩ := segments_split here
    obtain rfl := stays kept (by simp)
    obtain ⟨next, back, rfl, -⟩ := List.map_eq_cons_iff.mp rest
    obtain ⟨z, more, same⟩ := List.exists_cons_of_ne_nil ends.tail
    apply Exists.intro (left front)
    apply Exists.intro z
    apply Exists.intro more
    rw [left_append, ← same]
    rfl
  · rintro ⟨before, y, after, here⟩
    obtain ⟨front, back, rfl, -, backLeft⟩ := left_split here
    cases back with
    | nil => cases backLeft
    | cons next back =>
      apply Exists.intro (front.map (·.1))
      apply Exists.intro next.1
      apply Exists.intro (back.map (·.1))
      rw [List.map_append]
      rfl

/-- Names that are left, with what follows them, have the same neighbours in what is left. -/
theorem pair_left {P Q : Text → Prop}
    (joint : ∀ front x kept next back, marked = front ++ (x, kept) :: next :: back → P x →
      kept = true ∧ next.2 = true) :
    (∃ before x y after, marked.map (·.1) = before ++ x :: y :: after ∧ P x ∧ Q y) ↔
      ∃ before x y after, left marked = before ++ x :: y :: after ∧ P x ∧ Q y := by
  constructor
  · rintro ⟨before, x, y, after, here, px, qy⟩
    obtain ⟨front, kept, back, rfl, rest⟩ := segments_split here
    obtain ⟨⟨next, stays⟩, back, rfl, rfl, -⟩ := List.map_eq_cons_iff.mp rest
    obtain ⟨rfl, rfl⟩ := joint front x kept (next, stays) back rfl px
    apply Exists.intro (left front)
    apply Exists.intro x
    apply Exists.intro next
    apply Exists.intro (left back)
    constructor
    · rw [left_append]
      rfl
    · exact ⟨px, qy⟩
  · rintro ⟨before, x, y, after, here, px, qy⟩
    obtain ⟨front, back, rfl, -, backLeft⟩ := left_split here
    cases back with
    | nil => cases backLeft
    | cons next back =>
      obtain ⟨z, stays⟩ := next
      obtain ⟨-, rfl⟩ := joint front x true (z, stays) back rfl px
      obtain ⟨rfl, -⟩ := List.cons.inj (show z :: left back = y :: after from backLeft)
      apply Exists.intro (front.map (·.1))
      apply Exists.intro x
      apply Exists.intro z
      apply Exists.intro (back.map (·.1))
      constructor
      · rw [List.map_append]
        rfl
      · exact ⟨px, qy⟩

/-- Two names that are left and stand together before another segment. -/
theorem double_left (ends : EndsLeft marked)
    (joint : ∀ front kept next back, marked = front ++ (x, kept) :: next :: back →
      kept = true ∧ next.2 = true) :
    (∃ before z after, marked.map (·.1) = before ++ x :: y :: z :: after) ↔
      ∃ before z after, left marked = before ++ x :: y :: z :: after := by
  constructor
  · rintro ⟨before, z, after, here⟩
    obtain ⟨front, kept, back, rfl, rest⟩ := segments_split here
    obtain ⟨⟨next, stays⟩, back, rfl, rfl, more⟩ := List.map_eq_cons_iff.mp rest
    obtain ⟨rfl, rfl⟩ := joint front kept (next, stays) back rfl
    obtain ⟨third, back, rfl, -⟩ := List.map_eq_cons_iff.mp more
    have ends' : EndsLeft ((front ++ [(x, true)]) ++ (next, true) :: third :: back) := by simpa using ends
    obtain ⟨w, others, same⟩ := List.exists_cons_of_ne_nil ends'.tail
    apply Exists.intro (left front)
    apply Exists.intro w
    apply Exists.intro others
    rw [left_append, ← same]
    rfl
  · rintro ⟨before, z, after, here⟩
    obtain ⟨front, back, rfl, -, backLeft⟩ := left_split here
    cases back with
    | nil => cases backLeft
    | cons next back =>
      obtain ⟨second, stays⟩ := next
      obtain ⟨-, rfl⟩ := joint front true (second, stays) back rfl
      obtain ⟨rfl, tail⟩ := List.cons.inj (show second :: left back = y :: z :: after from backLeft)
      cases back with
      | nil => cases tail
      | cons third back =>
        apply Exists.intro (front.map (·.1))
        apply Exists.intro third.1
        apply Exists.intro (back.map (·.1))
        rw [List.map_append]
        rfl

end LetAgents.Lib.RegExp

import Mathlib.Data.List.DropRight

/-!
# Reading a URL

The host name and the path that the URL standard reads from a text without a base. The host
parser and the reading of `file:` texts are parameters.
-/
namespace LetAgents.Lib.Url

abbrev Text := List Char

/-- What holds of the characters of a text that is written out. -/
theorem forall_chars {text : Text} [DecidablePred p]
    (all : (text.all fun c => decide (p c)) = true) : ∀ c ∈ text, p c :=
  fun c member => of_decide_eq_true (List.all_eq_true.mp all c member)

structure Parsed where
  hostname : Text
  pathname : Text

structure Hosts where
  /-- The host parser, for the special schemes and for the others. -/
  parse : Bool → Text → Option Text
  bare : ∀ special text host, parse special text = some host → '/' ∉ host
  /-- What a text behind `file:` is read as. -/
  file : Text → Option Parsed

/-! ## Paths -/

/-- The path percent-encode set. -/
def pathSet (c : Char) : Bool :=
  c.toNat ≤ 0x20 || 0x7E < c.toNat ||
    [0x22, 0x23, 0x3C, 0x3E, 0x3F, 0x5E, 0x60, 0x7B, 0x7D].contains c.toNat

/-- The C0 control percent-encode set. -/
def controlSet (c : Char) : Bool := c.toNat < 0x20 || 0x7E < c.toNat

def hexDigit (n : Nat) : Char := Char.ofNat (if n < 10 then 0x30 + n else 0x37 + n)

def encodeByte (byte : UInt8) : Text := ['%', hexDigit (byte.toNat / 16), hexDigit (byte.toNat % 16)]

def percentEncode (set : Char → Bool) (text : Text) : Text :=
  text.flatMap fun c => if set c then (String.utf8EncodeChar c).flatMap encodeByte else [c]

def lowered (text : Text) : Text := text.map Char.toLower

def isSingleDot (segment : Text) : Bool := [".", "%2e"].any fun dot => lowered segment = dot.toList

def isDoubleDot (segment : Text) : Bool :=
  ["..", ".%2e", "%2e.", "%2e%2e"].any fun dots => lowered segment = dots.toList

/-- The path state, with the segments read so far; a dot at the end leaves an empty segment. -/
def readSegments : List Text → List Text → List Text
  | path, [] => path
  | path, [last] =>
    if isDoubleDot last then path.dropLast ++ [[]]
    else if isSingleDot last then path ++ [[]]
    else path ++ [percentEncode pathSet last]
  | path, segment :: more =>
    if isDoubleDot segment then readSegments path.dropLast more
    else if isSingleDot segment then readSegments path more
    else readSegments (path ++ [percentEncode pathSet segment]) more

def isSlash (special : Bool) (c : Char) : Bool := c = '/' || (special && c = '\\')

/-- The path name of what follows the host. -/
def pathname (special : Bool) (text : Text) : Text :=
  match text.takeWhile fun c => c ≠ '?' && c ≠ '#' with
  | [] => if special then ['/'] else []
  | _ :: path => (readSegments [] (path.splitOnP (isSlash special))).flatMap ('/' :: ·)

/-! ## Authorities -/

def endsAuthority (special : Bool) (c : Char) : Bool := isSlash special c || c = '?' || c = '#'

/-- A host, and what follows the colon behind it; brackets hold colons of their own. -/
def splitPort : Bool → Text → Text × Option Text
  | _, [] => ([], none)
  | inside, c :: rest =>
    if c = ':' && !inside then ([], some rest)
    else
      let split := splitPort (c = '[' || (inside && c ≠ ']')) rest
      (c :: split.1, split.2)

def decimal (digits : Text) : Nat := digits.foldl (fun value c => value * 10 + (c.toNat - 48)) 0

def isPort (text : Text) : Bool := text.all Char.isDigit && decimal text ≤ 65535

def readAuthority (hosts : Hosts) (special : Bool) (text : Text) : Option Parsed :=
  let authority := text.takeWhile fun c => !endsAuthority special c
  let hostPort := authority.rtakeWhile fun c => c ≠ '@'
  let split := splitPort false hostPort
  if '@' ∈ authority ∧ hostPort = [] then none
  else if split.1 = [] ∧ (special ∨ split.2.isSome) then none
  else if split.2.all isPort then
    (hosts.parse special split.1).map
      (⟨·, pathname special (text.dropWhile fun c => !endsAuthority special c)⟩)
  else none

/-! ## Schemes -/

def isSchemeChar (c : Char) : Bool := c.isAlphanum || c = '+' || c = '-' || c = '.'

/-- A scheme in lower case, and what follows its colon. -/
def scheme (text : Text) : Option (Text × Text) :=
  let name := text.takeWhile isSchemeChar
  match text.dropWhile isSchemeChar with
  | ':' :: rest => if name.head?.any Char.isAlpha then some (lowered name, rest) else none
  | _ => none

def isSpecial (name : Text) : Bool :=
  ["ftp", "http", "https", "ws", "wss"].any fun special => name = special.toList

def isBlank (c : Char) : Bool := c.toNat ≤ 0x20

/-- Without the blanks around it, and without tabs and line breaks. -/
def stripped (text : Text) : Text :=
  ((text.dropWhile isBlank).rdropWhile isBlank).filter fun c => c ≠ '\t' && c ≠ '\n' && c ≠ '\r'

/-- `new URL(text)`, or `none` where it throws. -/
def read (hosts : Hosts) (text : Text) : Option Parsed :=
  match scheme (stripped text) with
  | none => none
  | some (name, rest) =>
    if name = "file".toList then hosts.file rest
    else if isSpecial name then readAuthority hosts true (rest.dropWhile (isSlash true))
    else
      match rest with
      | '/' :: '/' :: rest => readAuthority hosts false rest
      | '/' :: rest => some ⟨[], pathname false ('/' :: rest)⟩
      | rest => some ⟨[], percentEncode controlSet (rest.takeWhile fun c => c ≠ '?' && c ≠ '#')⟩

/-! ## What is read as it stands -/

/-- A path that nothing is encoded in and no segment is taken from. -/
structure Plain (path : Text) : Prop where
  kept : ∀ c ∈ path, pathSet c = false ∧ c ≠ '\\'
  straight : ∀ segment ∈ path.splitOnP (· = '/'), isSingleDot segment = false ∧ isDoubleDot segment = false

theorem percentEncode_kept {set : Char → Bool} (kept : ∀ c ∈ text, set c = false) :
    percentEncode set text = text := by
  induction text with
  | nil => rfl
  | cons c rest ih =>
    have here := kept c List.mem_cons_self
    have later := ih fun d member => kept d (.tail _ member)
    simp only [percentEncode] at later
    simp [percentEncode, here, later]

theorem readSegments_plain (path : List Text)
    (plain : ∀ segment ∈ segments, isSingleDot segment = false ∧ isDoubleDot segment = false ∧
      ∀ c ∈ segment, pathSet c = false) : readSegments path segments = path ++ segments := by
  induction segments generalizing path with
  | nil => simp [readSegments]
  | cons segment more ih =>
    obtain ⟨single, double, kept⟩ := plain segment List.mem_cons_self
    have later := fun path => ih path fun other member => plain other (.tail _ member)
    cases more with
    | nil => simp [readSegments, single, double, percentEncode_kept kept]
    | cons next more => simp [readSegments, single, double, percentEncode_kept kept, later]

theorem joined_segments (path : Text) :
    (path.splitOnP (· = '/')).flatMap ('/' :: ·) = '/' :: path := by
  induction path with
  | nil => simp
  | cons c rest ih =>
    rw [List.splitOnP_cons_eq_if_modifyHead]
    split_ifs with slash
    · obtain rfl : c = '/' := by simpa using slash
      simp [ih]
    · cases shape : rest.splitOnP (· = '/') with
      | nil => exact absurd shape (List.splitOnP_ne_nil _ _)
      | cons first more =>
        rw [shape] at ih
        simpa using ih

theorem pathname_plain (special : Bool) (plain : Plain path) :
    pathname special ('/' :: path) = '/' :: path := by
  have whole : ('/' :: path).takeWhile (fun c => c ≠ '?' && c ≠ '#') = '/' :: path := by
    apply List.takeWhile_eq_self_iff.mpr
    intro c member
    obtain rfl | member := List.mem_cons.mp member
    · rfl
    · have kept := (plain.kept c member).1
      have other : c ≠ '?' ∧ c ≠ '#' := by
        constructor <;> (rintro rfl; revert kept; decide)
      simp [other]
  have slashes : path.splitOnP (isSlash special) = path.splitOnP (· = '/') := by
    have same : ∀ c ∈ path, isSlash special c = decide (c = '/') := by
      intro c member
      simp [isSlash, (plain.kept c member).2]
    clear whole plain
    induction path with
    | nil => rfl
    | cons c rest ih =>
      rw [List.splitOnP_cons_eq_if_modifyHead, List.splitOnP_cons_eq_if_modifyHead,
        same c List.mem_cons_self, ih fun d member => same d (.tail _ member)]
  have segments : readSegments [] (path.splitOnP (· = '/')) = path.splitOnP (· = '/') := by
    apply readSegments_plain
    intro segment part
    refine ⟨(plain.straight segment part).1, (plain.straight segment part).2, fun c member => ?_⟩
    have joined : c ∈ '/' :: path := by
      rw [← joined_segments path]
      exact List.mem_flatMap.mpr ⟨segment, part, .tail _ member⟩
    obtain rfl | inside := List.mem_cons.mp joined
    · rfl
    · exact (plain.kept c inside).1
  rw [pathname, whole]
  simp only [slashes, segments, joined_segments]

/-! ## Spelled-out texts -/

/-- The parts of an authority. -/
structure Authority where
  userInfo : Option Text
  host : Text
  port : Option Text

def Authority.spelling (authority : Authority) : Text :=
  authority.userInfo.elim [] (· ++ ['@']) ++ authority.host ++ authority.port.elim [] (':' :: ·)

structure Authority.WellFormed (authority : Authority) : Prop where
  userInfo : ∀ c ∈ authority.userInfo.getD [], isBlank c = false ∧ endsAuthority true c = false
  filled : authority.host ≠ []
  host : ∀ c ∈ authority.host, isBlank c = false ∧ endsAuthority true c = false ∧ c ≠ '@' ∧ c ≠ ':' ∧ c ≠ '['
  port : ∀ port ∈ authority.port, isPort port = true

theorem endsAuthority_weaken (special : Bool) (inside : endsAuthority true c = false) :
    endsAuthority special c = false := by
  simp_all [endsAuthority, isSlash]

theorem digit_inside (digit : c.isDigit = true) :
    isBlank c = false ∧ endsAuthority true c = false ∧ c ≠ '@' := by
  have range : 48 ≤ c.toNat ∧ c.toNat ≤ 57 := by
    simpa [Char.isDigit, UInt32.le_iff_toNat_le] using digit
  refine ⟨by simp [isBlank]; omega, ?_, ?_⟩
  · have other : ∀ d : Char, (d.toNat < 48 ∨ 57 < d.toNat) → c ≠ d := by
      rintro d apart rfl
      omega
    simp [endsAuthority, isSlash, other '/' (by decide), other '\\' (by decide), other '?' (by decide),
      other '#' (by decide)]
  · rintro rfl
    revert digit
    decide

theorem Authority.WellFormed.spelling_inside {authority : Authority} (formed : authority.WellFormed) :
    ∀ c ∈ authority.spelling, isBlank c = false ∧ endsAuthority true c = false := by
  intro c member
  simp only [Authority.spelling, List.mem_append] at member
  obtain (inUser | inHost) | inPort := member
  · cases user : authority.userInfo with
    | none => simp [user] at inUser
    | some info =>
      obtain inside | at' : c ∈ info ∨ c = '@' := by simpa [user] using inUser
      · exact formed.userInfo c (by simpa [user] using inside)
      · subst at'
        decide
  · exact ⟨(formed.host c inHost).1, (formed.host c inHost).2.1⟩
  · cases digits : authority.port with
    | none => simp [digits] at inPort
    | some port =>
      obtain colon | inside : c = ':' ∨ c ∈ port := by simpa [digits] using inPort
      · subst colon
        decide
      · have allowed := formed.port port digits
        simp only [isPort, Bool.and_eq_true, List.all_eq_true] at allowed
        exact ⟨(digit_inside (allowed.1 c inside)).1, (digit_inside (allowed.1 c inside)).2.1⟩

theorem splitPort_host (plain : ∀ c ∈ host, c ≠ ':' ∧ c ≠ '[') (port : Option Text) :
    splitPort false (host ++ port.elim [] (':' :: ·)) = (host, port) := by
  induction host with
  | nil => cases port <;> simp [splitPort]
  | cons c rest ih =>
    have here := plain c List.mem_cons_self
    have later := ih fun d member => plain d (.tail _ member)
    simp [splitPort, here, later]

theorem readAuthority_spelling (hosts : Hosts) (special : Bool) {authority : Authority}
    (formed : authority.WellFormed) (plain : Plain path) :
    readAuthority hosts special (authority.spelling ++ '/' :: path) =
      (hosts.parse special authority.host).map (⟨·, '/' :: path⟩) := by
  have inside : ∀ c ∈ authority.spelling, (!endsAuthority special c) = true := by
    intro c member
    simp [endsAuthority_weaken special (formed.spelling_inside c member).2]
  have stop : (!endsAuthority special '/') = false := by simp [endsAuthority, isSlash]
  have taken : (authority.spelling ++ '/' :: path).takeWhile (fun c => !endsAuthority special c) =
      authority.spelling := by
    rw [List.takeWhile_append_of_pos inside, List.takeWhile_cons_of_neg (by simp [stop])]
    simp
  have left : (authority.spelling ++ '/' :: path).dropWhile (fun c => !endsAuthority special c) =
      '/' :: path := by
    rw [List.dropWhile_append_of_pos inside, List.dropWhile_cons_of_neg (by simp [stop])]
  have hostPort : authority.spelling.rtakeWhile (fun c => c ≠ '@') =
      authority.host ++ authority.port.elim [] (':' :: ·) := by
    have apart : ∀ c ∈ authority.host ++ authority.port.elim [] (':' :: ·), c ≠ '@' := by
      intro c member
      obtain inHost | inPort := List.mem_append.mp member
      · exact (formed.host c inHost).2.2.1
      · cases digits : authority.port with
        | none => simp [digits] at inPort
        | some port =>
          obtain rfl | within : c = ':' ∨ c ∈ port := by simpa [digits] using inPort
          · decide
          · have allowed := formed.port port digits
            simp only [isPort, Bool.and_eq_true, List.all_eq_true] at allowed
            exact (digit_inside (allowed.1 c within)).2.2
    rw [Authority.spelling, List.append_assoc]
    cases authority.userInfo with
    | none => exact List.rtakeWhile_eq_self_iff.mpr fun c member => by simpa using apart c member
    | some info =>
      have turned : ∀ c ∈ (authority.host ++ authority.port.elim [] (':' :: ·)).reverse,
          decide (c ≠ '@') = true := by
        intro c member
        simpa using apart c (List.mem_reverse.mp member)
      rw [Option.elim_some, List.rtakeWhile, List.reverse_append, List.takeWhile_append_of_pos turned,
        List.reverse_append, List.reverse_reverse]
      simp
  have split := splitPort_host (fun c member =>
    ⟨(formed.host c member).2.2.2.1, (formed.host c member).2.2.2.2⟩) authority.port
  have full : authority.host ++ authority.port.elim [] (':' :: ·) ≠ [] := by simp [formed.filled]
  have port : authority.port.all isPort = true := by
    cases digits : authority.port with
    | none => rfl
    | some port => exact formed.port port digits
  simp only [readAuthority, taken, left, hostPort, split, full, formed.filled, port,
    pathname_plain special plain, and_false, false_and, if_false, if_true]

theorem stripped_solid (solid : ∀ c ∈ text, isBlank c = false) : stripped text = text := by
  have left : text.dropWhile isBlank = text := by
    cases text with
    | nil => rfl
    | cons c rest => simp [solid c List.mem_cons_self]
  have right : text.rdropWhile isBlank = text := by
    apply List.rdropWhile_eq_self_iff.mpr
    intro filled
    simp [solid _ (List.getLast_mem filled)]
  rw [stripped, left, right]
  apply List.filter_eq_self.mpr
  intro c member
  have kept := solid c member
  have other : c ≠ '\t' ∧ c ≠ '\n' ∧ c ≠ '\r' := by
    refine ⟨?_, ?_, ?_⟩ <;> (rintro rfl; revert kept; decide)
  simp [other]

theorem alphanum_range {c : Char} (letter : c.isAlphanum = true) :
    (48 ≤ c.toNat ∧ c.toNat ≤ 57) ∨ (65 ≤ c.toNat ∧ c.toNat ≤ 90) ∨ (97 ≤ c.toNat ∧ c.toNat ≤ 122) := by
  have here : c.val.toNat = c.toNat := rfl
  have bounds : 'A'.val.toNat = 65 ∧ 'Z'.val.toNat = 90 ∧ 'a'.val.toNat = 97 ∧ 'z'.val.toNat = 122 ∧
      '0'.val.toNat = 48 ∧ '9'.val.toNat = 57 := ⟨rfl, rfl, rfl, rfl, rfl, rfl⟩
  delta Char.isAlphanum Char.isAlpha Char.isUpper Char.isLower Char.isDigit at letter
  simp only [Bool.or_eq_true, Bool.and_eq_true, decide_eq_true_eq, UInt32.le_iff_toNat_le] at letter
  omega

/-- A text with a host is read as its parts. -/
theorem read_spelling (hosts : Hosts) {name : Text}
    (letters : ∀ c ∈ name, c.isAlpha = true ∧ c.toLower = c) (filled : name ≠ [])
    (other : name ≠ "file".toList) {authority : Authority} (formed : authority.WellFormed)
    (plain : Plain path) :
    read hosts (name ++ "://".toList ++ authority.spelling ++ '/' :: path) =
      (hosts.parse (isSpecial name) authority.host).map (⟨·, '/' :: path⟩) := by
  have schemeChars : ∀ c ∈ name, isSchemeChar c = true ∧ isBlank c = false := by
    intro c member
    have alpha := (letters c member).1
    have scheme : isSchemeChar c = true := by simp [isSchemeChar, Char.isAlphanum, alpha]
    refine ⟨scheme, ?_⟩
    have range := alphanum_range (c := c) (by simp [Char.isAlphanum, alpha])
    simp [isBlank]
    omega
  have solid : ∀ c ∈ name ++ "://".toList ++ authority.spelling ++ '/' :: path, isBlank c = false := by
    intro c member
    simp only [List.mem_append, List.mem_cons] at member
    obtain ((inName | inMarks) | inAuthority) | rfl | inPath := member
    · exact (schemeChars c inName).2
    · have marks : ∀ c ∈ "://".toList, isBlank c = false := forall_chars (by decide)
      exact marks c inMarks
    · exact (formed.spelling_inside c inAuthority).1
    · decide
    · have kept := (plain.kept c inPath).1
      simp only [pathSet, Bool.or_eq_false_iff] at kept
      exact kept.1.1
  have shape : name ++ "://".toList ++ authority.spelling ++ '/' :: path =
      name ++ ':' :: '/' :: '/' :: (authority.spelling ++ '/' :: path) := by simp
  have schemeOf : scheme (name ++ ':' :: '/' :: '/' :: (authority.spelling ++ '/' :: path)) =
      some (name, '/' :: '/' :: (authority.spelling ++ '/' :: path)) := by
    have chars : ∀ c ∈ name, isSchemeChar c = true := fun c member => (schemeChars c member).1
    have head : name.head?.any Char.isAlpha = true := by
      cases name with
      | nil => exact absurd rfl filled
      | cons c rest => exact (letters c List.mem_cons_self).1
    have same : lowered name = name := by
      rw [lowered, List.map_congr_left fun c member => (letters c member).2, List.map_id']
    rw [scheme, List.takeWhile_append_of_pos chars, List.dropWhile_append_of_pos chars,
      List.takeWhile_cons_of_neg (by decide), List.dropWhile_cons_of_neg (by decide), List.append_nil]
    simp only [head, same, if_true]
  rw [read, stripped_solid solid, shape, schemeOf]
  simp only [if_neg other]
  split_ifs with special
  · have skipped : ('/' :: '/' :: (authority.spelling ++ '/' :: path)).dropWhile (isSlash true) =
        authority.spelling ++ '/' :: path := by
      obtain ⟨c, rest, here⟩ : ∃ c rest, authority.spelling = c :: rest := by
        apply List.exists_cons_of_ne_nil
        simp [Authority.spelling, formed.filled]
      have inside := (formed.spelling_inside c (by simp [here])).2
      have other : isSlash true c = false := by
        simp only [endsAuthority, Bool.or_eq_false_iff] at inside
        exact inside.1.1
      rw [here, List.dropWhile_cons_of_pos (by decide), List.dropWhile_cons_of_pos (by decide),
        List.cons_append, List.dropWhile_cons_of_neg (by simp [other])]
    rw [skipped, readAuthority_spelling hosts true formed plain, special]
  · have plainScheme : isSpecial name = false := by simpa using special
    rw [readAuthority_spelling hosts false formed plain, plainScheme]

theorem stripped_keeps (first rest : Text) (solid : isBlank c = false) :
    ∃ first' rest', stripped (first ++ c :: rest) = first' ++ c :: rest' ∧ ∀ d ∈ first', d ∈ first := by
  obtain ⟨first', left, inside⟩ : ∃ first', (first ++ c :: rest).dropWhile isBlank = first' ++ c :: rest ∧
      ∀ d ∈ first', d ∈ first := by
    rw [List.dropWhile_append]
    split_ifs with empty
    · exact ⟨[], by simp [solid], by simp⟩
    · exact ⟨_, rfl, fun d member => (List.dropWhile_sublist _).mem member⟩
  obtain ⟨rest', right⟩ : ∃ rest', (first' ++ c :: rest).rdropWhile isBlank = first' ++ c :: rest' := by
    rw [List.rdropWhile, List.reverse_append, List.reverse_cons, List.append_assoc, List.dropWhile_append]
    split_ifs with empty
    · exact ⟨[], by simp [solid]⟩
    · exact ⟨(rest.reverse.dropWhile isBlank).reverse, by simp⟩
  have other : c ≠ '\t' ∧ c ≠ '\n' ∧ c ≠ '\r' := by
    refine ⟨?_, ?_, ?_⟩ <;> (rintro rfl; revert solid; decide)
  rw [stripped, left, right, List.filter_append, List.filter_cons_of_pos (by simp [other])]
  exact ⟨_, _, rfl, fun d member => inside d (List.mem_of_mem_filter member)⟩

/-- A text that leaves the characters of a scheme before its first colon is no URL. -/
theorem read_schemeless (hosts : Hosts) {first rest : Text} (before : ∀ d ∈ first, d ≠ ':')
    (stops : isSchemeChar c = false) (solid : isBlank c = false) (other : c ≠ ':') :
    read hosts (first ++ c :: rest) = none := by
  obtain ⟨first', rest', shape, inside⟩ := stripped_keeps first rest solid
  have none : scheme (first' ++ c :: rest') = none := by
    have noColon : ((first' ++ c :: rest').dropWhile isSchemeChar).head? ≠ some ':' := by
      rw [List.dropWhile_append]
      split_ifs with empty
      · simp [stops, other]
      · intro colon
        rw [List.head?_append_of_ne_nil _ (by simpa using empty)] at colon
        have member := (List.dropWhile_sublist isSchemeChar).mem (List.mem_of_head? colon)
        exact before ':' (inside ':' member) rfl
    unfold scheme
    split
    next _ same => exact absurd (by rw [same]; rfl) noColon
    next => rfl
  rw [read, shape, none]

end LetAgents.Lib.Url

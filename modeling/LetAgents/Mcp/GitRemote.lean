import LetAgents.Lib.Js
import LetAgents.Lib.Url

/-!
# Room names of git remotes

Source: src/mcp/git-remote.ts. The name of a remote is its host and path, read from the
scp-like form by a regular expression and from the others by the URL parser, without the
`.git` suffix and trailing slashes. A remote has that name in every form with one of the two,
not in a form with a slash behind the suffix.
-/
namespace LetAgents.Mcp.GitRemote

open Lib.Url
open Lib.Js (isWhitespace)

/-! ## The source -/

/-- One character in lower case; the Kelvin sign is the one outside ASCII that becomes a
letter of it. -/
def fold (c : Char) : Char := if c.toNat = 0x212A then 'k' else c.toLower

def Ascii (text : Text) : Prop := ∀ c ∈ text, c.toNat < 0x80

instance (text : Text) : Decidable (Ascii text) := inferInstanceAs (Decidable (∀ c ∈ text, c.toNat < 0x80))

/-- What the platform gives: the readers of host names, and `toLowerCase`. -/
structure Platform extends Hosts where
  toLowerCase : Text → Text
  ascii_iff : ∀ text, Ascii (toLowerCase text) ↔ Ascii (text.map fold)
  ascii : ∀ text, Ascii (toLowerCase text) → toLowerCase text = text.map fold

def trim (text : Text) : Text := (text.dropWhile isWhitespace).rdropWhile isWhitespace

def isWord (c : Char) : Bool := c.isAlphanum || c = '_' || c = '-'

/-- The characters that `.` does not match. -/
def isLineBreak (c : Char) : Bool := [0x0A, 0x0D, 0x2028, 0x2029].contains c.toNat

/-- `/^[\w-]+@([^:]+):(.+)$/`. -/
def sshMatch (text : Text) : Option (Text × Text) :=
  match text.dropWhile isWord with
  | '@' :: rest =>
    match rest.dropWhile (· ≠ ':') with
    | ':' :: path =>
      let host := rest.takeWhile (· ≠ ':')
      if text.takeWhile isWord ≠ [] ∧ host ≠ [] ∧ path ≠ [] ∧ !path.any isLineBreak then some (host, path)
      else none
    | _ => none
  | _ => none

def suffix : Text := ".git".toList

/-- `.replace(/\.git$/, "")`. -/
def withoutSuffix (text : Text) : Text :=
  if suffix.isSuffixOf text then text.take (text.length - suffix.length) else text

/-- `.replace(/\/+$/, "")`. -/
def withoutSlashes (text : Text) : Text := text.rdropWhile (· = '/')

def github : Text := "github.com".toList

/-- The host in lower case, and the whole name for GitHub. -/
def lowerHost (platform : Platform) (name : Text) : Text :=
  let host := platform.toLowerCase (name.takeWhile (· ≠ '/'))
  if host = [] then name
  else
    let joined := host ++ name.dropWhile (· ≠ '/')
    if host = github then platform.toLowerCase joined else joined

/-- The host and the path of a remote; what neither reader takes stays as it is. -/
def hostAndPath (platform : Platform) (normalized : Text) : Text :=
  match sshMatch normalized with
  | some (host, path) => host ++ '/' :: path
  | none =>
    match read platform.toHosts normalized with
    | some parsed =>
      let path := if parsed.pathname.head? = some '/' then parsed.pathname.tail else parsed.pathname
      parsed.hostname ++ '/' :: path
    | none => normalized

def normalizeGitRemote (platform : Platform) (url : Text) : Text :=
  lowerHost platform (withoutSlashes (withoutSuffix (hostAndPath platform (trim url))))

/-! ## Remotes -/

def isHostChar (c : Char) : Bool := c.isAlphanum || c = '-' || c = '.' || c = '_'

structure HostName where
  name : Text
  filled : name ≠ []
  chars : ∀ c ∈ name, isHostChar c = true

/-- The characters of a path in a URL. -/
def isPathChar (c : Char) : Bool := c.isAlphanum || "-._~!$&'()*+,;=:@%/".toList.contains c

/-- A path in its shortest spelling, without what a form puts behind it. -/
structure RepositoryPath where
  path : Text
  filled : path ≠ []
  chars : ∀ c ∈ path, isPathChar c = true
  straight : ∀ segment ∈ path.splitOnP (· = '/'), isSingleDot segment = false ∧ isDoubleDot segment = false
  bare : ¬suffix <:+ path
  closed : path.getLast? ≠ some '/'

/-- `user@host:path`, or a URL. -/
inductive Form where
  | scp (user : Text)
  | ssh (userInfo port : Option Text)
  | https (userInfo port : Option Text)

def Form.Valid : Form → Prop
  | scp user => user ≠ [] ∧ ∀ c ∈ user, isWhitespace c = false ∧ c ≠ ':' ∧ c ≠ '/'
  | ssh userInfo port | https userInfo port =>
      (∀ c ∈ userInfo.getD [], isBlank c = false ∧ endsAuthority true c = false) ∧
        ∀ digits ∈ port, isPort digits = true

/-- A form of a repository that git accepts. -/
structure Remote where
  host : HostName
  path : RepositoryPath
  form : Form
  valid : form.Valid
  git : Bool
  slashes : Nat

namespace Remote

def tail (remote : Remote) : Text :=
  remote.path.path ++ (if remote.git then suffix else []) ++ List.replicate remote.slashes '/'

def url (remote : Remote) (scheme : String) (userInfo port : Option Text) : Text :=
  scheme.toList ++ "://".toList ++ Authority.spelling ⟨userInfo, remote.host.name, port⟩ ++ '/' :: remote.tail

def spelling (remote : Remote) : Text :=
  match remote.form with
  | .scp user => user ++ '@' :: (remote.host.name ++ ':' :: remote.tail)
  | .ssh userInfo port => remote.url "ssh" userInfo port
  | .https userInfo port => remote.url "https" userInfo port

/-- The host in lower case and the path, in lower case too on GitHub. -/
def canonical (platform : Platform) (remote : Remote) : Text :=
  let host := platform.toLowerCase remote.host.name
  let path := remote.path.path
  host ++ '/' :: if host = github then platform.toLowerCase path else path

/-- The host reader keeps the host name, up to its letter case. -/
def HostKept (platform : Platform) (special : Bool) (host : HostName) : Prop :=
  ∃ parsed, platform.parse special host.name = some parsed ∧
    platform.toLowerCase parsed = platform.toLowerCase host.name

def Recognised (platform : Platform) (remote : Remote) : Prop :=
  match remote.form with
  | .scp user => ∀ c ∈ user, isWord c = true
  | .ssh _ _ => HostKept platform false remote.host
  | .https _ _ => HostKept platform true remote.host

/-- No slash behind the suffix, and on GitHub no suffix in capitals. -/
structure Settled (platform : Platform) (remote : Remote) : Prop where
  recognised : remote.Recognised platform
  unslashed : ¬(remote.git = true ∧ 0 < remote.slashes)
  lowercase : platform.toLowerCase remote.host.name = github →
    ¬suffix <:+ platform.toLowerCase remote.path.path

/-- The remote gets the canonical name, which stays as it is. -/
def Named (platform : Platform) (remote : Remote) : Prop :=
  normalizeGitRemote platform remote.spelling = remote.canonical platform ∧
    normalizeGitRemote platform (remote.canonical platform) = remote.canonical platform

end Remote

/-! ## Lower case -/

variable {platform : Platform}

/-- Lower case moves capitals by 32 and nothing else. -/
theorem toLower_cases (c : Char) :
    c.toLower = c ∨ (65 ≤ c.toNat ∧ c.toNat ≤ 90 ∧ c.toLower.toNat = c.toNat + 32) := by
  unfold Char.toLower
  split
  next upper =>
    right
    have range : 65 ≤ c.toNat ∧ c.toNat ≤ 90 := by
      simpa [UInt32.le_iff_toNat_le] using upper
    refine ⟨range.1, range.2, ?_⟩
    have sum := UInt32.toNat_add c.val 32
    have here : c.val.toNat = c.toNat := rfl
    have width : (32 : UInt32).toNat = 32 := rfl
    have moved : (c.val + 32).toNat = c.toNat + 32 := by omega
    exact moved
  next => exact .inl rfl

theorem fold_low (low : c.toNat < 0x80) :
    (fold c = c ∨ (65 ≤ c.toNat ∧ c.toNat ≤ 90 ∧ (fold c).toNat = c.toNat + 32)) ∧ (fold c).toNat < 0x80 := by
  have plain : fold c = c.toLower := if_neg (by omega)
  have moved := toLower_cases c
  rw [plain]
  refine ⟨moved, ?_⟩
  obtain same | ⟨_, high, sum⟩ := moved
  · rwa [same]
  · omega

/-- What is no letter is left, and nothing becomes it. -/
theorem fold_eq_iff (low : d.toNat < 65) : fold c = d ↔ c = d := by
  constructor
  · intro same
    unfold fold at same
    split_ifs at same with kelvin
    · subst same
      exact absurd low (by decide)
    · obtain kept | ⟨first, _, sum⟩ := toLower_cases c
      · exact kept.symm.trans same
      · rw [same] at sum
        omega
  · rintro rfl
    obtain kept | ⟨first, _, _⟩ := (fold_low (c := c) (by omega)).1
    · exact kept
    · omega

theorem fold_fold (low : c.toNat < 0x80) : fold (fold c) = fold c := by
  obtain kept | ⟨first, last, sum⟩ := (fold_low low).1
  · rw [kept, kept]
  · obtain again | ⟨_, high, _⟩ := (fold_low (fold_low low).2).1
    · exact again
    · omega

theorem toLowerCase_ascii (platform : Platform) (low : Ascii text) :
    platform.toLowerCase text = text.map fold ∧ Ascii (text.map fold) := by
  have folded : Ascii (text.map fold) := by
    intro c member
    obtain ⟨d, inside, rfl⟩ := List.mem_map.mp member
    exact (fold_low (low d inside)).2
  exact ⟨platform.ascii text ((platform.ascii_iff text).mpr folded), folded⟩

theorem other_char {c d : Char} (apart : c.toNat ≠ d.toNat) : c ≠ d := fun same => apart (same ▸ rfl)

theorem hostChar_spec (allowed : isHostChar c = true) :
    c.toNat < 0x80 ∧ isBlank c = false ∧ endsAuthority true c = false ∧ c ≠ '@' ∧ c ≠ ':' ∧ c ≠ '[' := by
  simp only [isHostChar, Bool.or_eq_true, decide_eq_true_eq] at allowed
  obtain ((letter | rfl) | rfl) | rfl := allowed
  · have range := alphanum_range letter
    have apart : ∀ d ∈ ['/', '\\', '?', '#', '@', ':', '['], c ≠ d := by
      intro d member
      apply other_char
      have far : d.toNat ∈ [47, 92, 63, 35, 64, 58, 91] := List.mem_map_of_mem (f := Char.toNat) member
      simp only [List.mem_cons, List.not_mem_nil, or_false] at far
      omega
    simp only [List.forall_mem_cons, List.not_mem_nil, IsEmpty.forall_iff, implies_true, and_true] at apart
    refine ⟨by omega, by simp [isBlank]; omega, ?_, apart.2.2.2.2⟩
    simp [endsAuthority, isSlash, apart]
  all_goals decide

theorem pathChar_spec (allowed : isPathChar c = true) :
    0x20 < c.toNat ∧ c.toNat < 0x80 ∧ pathSet c = false ∧ c ≠ '\\' := by
  simp only [isPathChar, Bool.or_eq_true, List.contains_iff_mem] at allowed
  obtain letter | other := allowed
  · have range := alphanum_range letter
    have slash : '\\'.toNat = 92 := rfl
    refine ⟨by omega, by omega, ?_, other_char (by omega)⟩
    simp [pathSet]
    omega
  · have listed : ∀ c ∈ "-._~!$&'()*+,;=:@%/".toList,
        0x20 < c.toNat ∧ c.toNat < 0x80 ∧ pathSet c = false ∧ c ≠ '\\' := forall_chars (by decide)
    exact listed c other

theorem pathChar_solid (allowed : isPathChar c = true) : isWhitespace c = false := by
  obtain ⟨low, high, -⟩ := pathChar_spec allowed
  simp [isWhitespace]
  omega

theorem ascii_host (remote : Remote) : Ascii remote.host.name :=
  fun c member => (hostChar_spec (remote.host.chars c member)).1

theorem ascii_path (remote : Remote) : Ascii remote.path.path :=
  fun c member => (pathChar_spec (remote.path.chars c member)).2.1

/-! ## Heads -/

def headOf (name : Text) : Text := name.takeWhile (· ≠ '/')

def bodyOf (name : Text) : Text := name.dropWhile (· ≠ '/')

theorem head_body (name : Text) : headOf name ++ bodyOf name = name := List.takeWhile_append_dropWhile

theorem headOf_append (free : '/' ∉ host) (path : Text) :
    headOf (host ++ '/' :: path) = host ∧ bodyOf (host ++ '/' :: path) = '/' :: path := by
  have inside : ∀ c ∈ host, decide (c ≠ '/') = true := by
    intro c member
    simpa using fun same : c = '/' => free (same ▸ member)
  constructor
  · rw [headOf, List.takeWhile_append_of_pos inside, List.takeWhile_cons_of_neg (by simp), List.append_nil]
  · rw [bodyOf, List.dropWhile_append_of_pos inside, List.dropWhile_cons_of_neg (by simp)]

theorem bodyOf_head (name : Text) : bodyOf name = [] ∨ ∃ path, bodyOf name = '/' :: path := by
  cases shape : bodyOf name with
  | nil => exact .inl rfl
  | cons c path =>
    have stop := List.head?_dropWhile_not (fun c => decide (c ≠ '/')) name
    rw [show name.dropWhile (fun c => decide (c ≠ '/')) = c :: path from shape] at stop
    obtain rfl : c = '/' := by simpa using stop
    exact .inr ⟨path, rfl⟩

/-- The host in lower case. -/
def Remote.lowered (platform : Platform) (remote : Remote) : Text :=
  platform.toLowerCase remote.host.name

theorem lowered_spec (platform : Platform) (remote : Remote) : remote.lowered platform = remote.host.name.map fold ∧
    Ascii (remote.lowered platform) ∧ remote.lowered platform ≠ [] ∧
    ∀ c ∈ remote.lowered platform, c.toNat < 65 → isHostChar c = true := by
  obtain ⟨same, low⟩ := toLowerCase_ascii platform (ascii_host remote)
  rw [Remote.lowered, same]
  refine ⟨rfl, low, by simp [remote.host.filled], ?_⟩
  intro c member small
  obtain ⟨d, inside, folds⟩ := List.mem_map.mp member
  obtain rfl := (fold_eq_iff small).mp folds
  exact remote.host.chars d inside

theorem lowered_free (platform : Platform) (remote : Remote) : '/' ∉ remote.lowered platform := by
  intro member
  exact absurd (lowered_spec _ remote).2.2.2 (fun chars => absurd (chars '/' member (by decide)) (by decide))

/-- The path of the canonical name. -/
def Remote.named (platform : Platform) (remote : Remote) : Text :=
  if remote.lowered platform = github then platform.toLowerCase remote.path.path else remote.path.path

theorem canonical_shape (remote : Remote) :
    remote.canonical platform = remote.lowered platform ++ '/' :: remote.named platform := rfl

theorem named_spec (platform : Platform) (remote : Remote) : Ascii (remote.named platform) ∧
    (remote.named platform).length = remote.path.path.length ∧
    (remote.lowered platform = github → (remote.named platform).map fold = remote.named platform) := by
  obtain ⟨same, low⟩ := toLowerCase_ascii platform (ascii_path remote)
  unfold Remote.named
  split_ifs with onGitHub
  · rw [same]
    refine ⟨low, by simp, fun _ => ?_⟩
    rw [List.map_map]
    exact List.map_congr_left fun c member => fold_fold (ascii_path remote c member)
  · exact ⟨ascii_path remote, rfl, fun here => absurd here onGitHub⟩

theorem ascii_canonical (platform : Platform) (remote : Remote) : Ascii (remote.canonical platform) := by
  intro c member
  obtain inHost | inPath := List.mem_append.mp member
  · exact (lowered_spec _ remote).2.1 c inHost
  · obtain rfl | inside := List.mem_cons.mp inPath
    · decide
    · exact (named_spec _ remote).1 c inside

theorem folded_free {text : Text} (free : '/' ∉ text) : '/' ∉ text.map fold := by
  intro member
  obtain ⟨d, inside, folds⟩ := List.mem_map.mp member
  exact free ((fold_eq_iff (by decide)).mp folds ▸ inside)

theorem headOf_free (name : Text) : '/' ∉ headOf name := by
  intro member
  simpa using List.mem_takeWhile_imp member

/-- Where the name is the canonical one, the host is and the path has its length. -/
theorem lowerHost_canonical {remote : Remote}
    (same : lowerHost platform name = remote.canonical platform) :
    platform.toLowerCase (headOf name) = platform.toLowerCase remote.host.name ∧
      (bodyOf name).length = remote.path.path.length + 1 := by
  have parts := headOf_append (lowered_free platform remote) (remote.named platform)
  rw [← canonical_shape] at parts
  have long := (named_spec platform remote).2.1
  have again : platform.toLowerCase (remote.lowered platform) = remote.lowered platform := by
    rw [(toLowerCase_ascii _ (lowered_spec _ remote).2.1).1, (lowered_spec _ remote).1, List.map_map]
    exact List.map_congr_left fun c member => fold_fold (ascii_host remote c member)
  -- a host in front of a body is what the canonical name begins with
  have front : ∀ {host body : Text}, '/' ∉ host → (body = [] ∨ ∃ path, body = '/' :: path) →
      host ++ body = remote.canonical platform →
      host = remote.lowered platform ∧ body = '/' :: remote.named platform := by
    rintro host body free (rfl | ⟨path, rfl⟩) whole
    · rw [← whole, List.append_nil] at parts
      have none : bodyOf host = [] := by
        apply List.dropWhile_eq_nil_iff.mpr
        intro c member
        simpa using fun same : c = '/' => free (same ▸ member)
      rw [none] at parts
      exact absurd parts.2 (by simp)
    · have here := headOf_append free path
      rw [whole, parts.1, parts.2] at here
      exact ⟨here.1.symm, here.2.symm⟩
  have ascii := ascii_canonical platform remote
  unfold lowerHost at same
  simp only at same
  split_ifs at same with empty onGitHub
  · rw [same, show remote.canonical platform = _ from rfl] at empty
    rw [show (remote.canonical platform).takeWhile (· ≠ '/') = remote.lowered platform from parts.1, again] at empty
    exact absurd empty (lowered_spec _ remote).2.2.1
  · rw [← same] at ascii
    have folded := platform.ascii _ ascii
    rw [same, List.map_append] at folded
    have body : (bodyOf name).map fold = [] ∨ ∃ path, (bodyOf name).map fold = '/' :: path := by
      obtain none | ⟨path, some⟩ := bodyOf_head name
      · exact .inl (by rw [none]; rfl)
      · exact .inr ⟨path.map fold, by rw [some, List.map_cons, (fold_eq_iff (by decide)).mpr rfl]⟩
    have lowGitHub : (platform.toLowerCase (headOf name)).map fold = github ∧ '/' ∉ github := by
      rw [show platform.toLowerCase (headOf name) = github from onGitHub]
      decide
    rw [show name.takeWhile (fun c => decide (c ≠ '/')) = headOf name from rfl, lowGitHub.1] at folded
    obtain ⟨host, path⟩ := front lowGitHub.2 body folded.symm
    refine ⟨onGitHub.trans host, ?_⟩
    rw [← List.length_map (f := fold), path, List.length_cons, long]
  · have free : '/' ∉ platform.toLowerCase (headOf name) := by
      have low : Ascii (platform.toLowerCase (headOf name)) := by
        intro c member
        rw [← same] at ascii
        exact ascii c (List.mem_append_left _ member)
      rw [platform.ascii _ low]
      exact folded_free (headOf_free name)
    obtain ⟨host, path⟩ := front free (bodyOf_head name) same
    refine ⟨host, ?_⟩
    rw [show bodyOf name = '/' :: remote.named platform from path, List.length_cons, long]

/-! ## Suffixes and slashes -/

/-- What is left behind the host. -/
def Remote.kept (remote : Remote) : Text :=
  remote.path.path ++ if remote.git ∧ 0 < remote.slashes then suffix else []

theorem withoutSlashes_replicate (text : Text) (count : Nat) :
    withoutSlashes (text ++ List.replicate count '/') = withoutSlashes text := by
  induction count with
  | zero => simp
  | succ count ih =>
    rw [List.replicate_succ', ← List.append_assoc, withoutSlashes, List.rdropWhile_concat_pos _ _ _ (by simp)]
    exact ih

theorem withoutSlashes_closed (closed : text.getLast? ≠ some '/') : withoutSlashes text = text := by
  apply List.rdropWhile_eq_self_iff.mpr
  intro filled
  rw [List.getLast?_eq_some_getLast filled] at closed
  simpa using closed

theorem withoutSuffix_append (text : Text) : withoutSuffix (text ++ suffix) = text := by
  have ends : suffix.isSuffixOf (text ++ suffix) = true := by simp
  rw [withoutSuffix, if_pos ends, List.length_append, Nat.add_sub_cancel, List.take_left]

theorem withoutSuffix_of_not {text : Text} (bare : ¬suffix <:+ text) : withoutSuffix text = text := by
  rw [withoutSuffix, if_neg (by simpa using bare)]

/-- Behind a separator a path keeps what makes it bare. -/
theorem bare_behind {base path : Text} (ends : base.getLast? = some c) (other : c ∉ suffix)
    (bare : ¬suffix <:+ path) : ¬suffix <:+ base ++ path := by
  intro whole
  obtain inside | ⟨more, shape⟩ := List.suffix_or_suffix_of_suffix whole (List.suffix_append base path)
  · exact bare inside
  · obtain ⟨front, split⟩ := whole
    rw [← shape, ← List.append_assoc] at split
    have same : front ++ more = base := List.append_cancel_right split
    cases more with
    | nil => exact bare (by rw [← shape]; simp)
    | cons d rest =>
      have last : base.getLast? = (d :: rest).getLast? := by
        rw [← same, List.getLast?_append_of_ne_nil _ (by simp)]
      rw [ends] at last
      have member := List.mem_of_getLast? last.symm
      exact other (by rw [← shape]; exact List.mem_append_left _ member)

theorem strip_tail (remote : Remote) (ends : base.getLast? = some c) (other : c ∉ suffix) :
    withoutSlashes (withoutSuffix (base ++ remote.tail)) = base ++ remote.kept := by
  have bare := bare_behind ends other remote.path.bare
  have pathLast : (base ++ remote.path.path).getLast? ≠ some '/' := by
    rw [List.getLast?_append_of_ne_nil _ remote.path.filled]
    exact remote.path.closed
  have suffixLast : (base ++ remote.path.path ++ suffix).getLast? ≠ some '/' := by
    rw [List.getLast?_append_of_ne_nil _ (by decide)]
    decide
  simp only [Remote.tail, Remote.kept, ← List.append_assoc]
  cases remote.slashes with
  | zero =>
    cases remote.git with
    | false => simpa [withoutSuffix_of_not bare] using withoutSlashes_closed pathLast
    | true =>
      simpa only [List.replicate_zero, List.append_nil, if_true, Nat.lt_irrefl, and_false, if_false,
        withoutSuffix_append] using withoutSlashes_closed pathLast
  | succ count =>
    have slashed : ∀ text : Text, ¬suffix <:+ text ++ List.replicate (count + 1) '/' := by
      intro text ends
      obtain ⟨front, whole⟩ := ends
      have last := congrArg List.getLast? whole
      rw [List.getLast?_append_of_ne_nil _ (by decide), List.getLast?_append_of_ne_nil _ (by simp),
        List.getLast?_replicate, if_neg (Nat.succ_ne_zero _)] at last
      exact absurd last (by decide)
    rw [withoutSuffix_of_not (slashed _), withoutSlashes_replicate]
    cases remote.git with
    | false => simpa using withoutSlashes_closed pathLast
    | true => simpa using withoutSlashes_closed suffixLast

/-! ## What the readers take -/

theorem tail_chars (remote : Remote) : remote.tail ≠ [] ∧ ∀ c ∈ remote.tail, isPathChar c = true := by
  refine ⟨by simp [Remote.tail, remote.path.filled], ?_⟩
  intro c member
  simp only [Remote.tail, List.mem_append] at member
  obtain (inPath | inSuffix) | slash := member
  · exact remote.path.chars c inPath
  · split_ifs at inSuffix
    · have marks : ∀ c ∈ suffix, isPathChar c = true := forall_chars (by decide)
      exact marks c inSuffix
    · cases inSuffix
  · rw [List.eq_of_mem_replicate slash]
    decide

theorem split_last (path : Text) : ∃ front last, path.splitOnP (· = '/') = front ++ [last] ∧
    ∀ more : Text, '/' ∉ more → (path ++ more).splitOnP (· = '/') = front ++ [last ++ more] := by
  induction path with
  | nil =>
    refine ⟨[], [], rfl, fun more free => ?_⟩
    simpa using List.splitOnP_eq_singleton fun c member => by simpa using fun same : c = '/' => free (same ▸ member)
  | cons c rest ih =>
    obtain ⟨front, last, split, further⟩ := ih
    rw [List.splitOnP_cons_eq_if_modifyHead, split]
    by_cases slash : c = '/'
    · refine ⟨[] :: front, last, by simp [slash], fun more free => ?_⟩
      rw [List.cons_append, List.splitOnP_cons_eq_if_modifyHead, further more free]
      simp [slash]
    · cases front with
      | nil =>
        refine ⟨[], c :: last, by simp [slash], fun more free => ?_⟩
        rw [List.cons_append, List.splitOnP_cons_eq_if_modifyHead, further more free]
        simp [slash]
      | cons first others =>
        refine ⟨(c :: first) :: others, last, by simp [slash], fun more free => ?_⟩
        rw [List.cons_append, List.splitOnP_cons_eq_if_modifyHead, further more free]
        simp [slash]

theorem split_slashes (text : Text) (count : Nat) :
    (text ++ List.replicate count '/').splitOnP (· = '/') =
      text.splitOnP (· = '/') ++ List.replicate count [] := by
  induction count with
  | zero => simp
  | succ count ih =>
    rw [List.replicate_succ', ← List.append_assoc,
      List.splitOnP_append_cons _ [] (by simp), ih, List.splitOnP_nil, List.append_assoc, List.replicate_succ']

theorem suffix_no_dots (segment : Text) :
    isSingleDot (segment ++ suffix) = false ∧ isDoubleDot (segment ++ suffix) = false := by
  have last : (lowered (segment ++ suffix)).getLast? = some 't' := by
    rw [lowered, List.map_append, List.getLast?_append_of_ne_nil _ (by decide)]
    decide
  have other : ∀ dots : String, dots.toList.getLast? ≠ some 't' → ¬lowered (segment ++ suffix) = dots.toList := by
    intro dots apart same
    exact apart (same ▸ last)
  constructor
  · apply List.any_eq_false.mpr
    intro dots member
    have apart : ∀ dots ∈ [".", "%2e"], dots.toList.getLast? ≠ some 't' := by decide
    simpa using other dots (apart dots member)
  · apply List.any_eq_false.mpr
    intro dots member
    have apart : ∀ dots ∈ ["..", ".%2e", "%2e.", "%2e%2e"], dots.toList.getLast? ≠ some 't' := by decide
    simpa using other dots (apart dots member)

theorem tail_plain (remote : Remote) : Plain remote.tail where
  kept c member := by
    obtain ⟨-, -, kept, other⟩ := pathChar_spec ((tail_chars remote).2 c member)
    exact ⟨kept, other⟩
  straight := by
    obtain ⟨front, last, split, further⟩ := split_last remote.path.path
    have straight := remote.path.straight
    rw [split] at straight
    intro segment member
    rw [Remote.tail, split_slashes] at member
    obtain member | empty := List.mem_append.mp member
    · split_ifs at member
      · rw [further suffix (by decide)] at member
        obtain before | same := List.mem_append.mp member
        · exact straight segment (List.mem_append_left _ before)
        · obtain rfl := List.mem_singleton.mp same
          exact suffix_no_dots last
      · rw [List.append_nil, split] at member
        exact straight segment member
    · rw [List.eq_of_mem_replicate empty]
      decide

theorem sshMatch_none (other : (text.dropWhile isWord).head? ≠ some '@') :
    sshMatch text = none := by
  unfold sshMatch
  split
  next same => exact absurd (by rw [same]; rfl) other
  next => rfl

theorem pathChar_noBreak (allowed : isPathChar c = true) : isLineBreak c = false := by
  obtain ⟨low, high, -⟩ := pathChar_spec allowed
  simp [isLineBreak]
  omega

/-- The scp-like form is split at its first colon, behind the words before the first `@`. -/
theorem sshMatch_scp (remote : Remote) {words host : Text} (plain : ∀ c ∈ words, isWord c = true)
    (free : ':' ∉ host) (filled : host ≠ []) :
    sshMatch (words ++ '@' :: (host ++ ':' :: remote.tail)) =
      if words = [] then none else some (host, remote.tail) := by
  have inside : ∀ c ∈ host, decide (c ≠ ':') = true := by
    intro c member
    simpa using fun same : c = ':' => free (same ▸ member)
  have unbroken : remote.tail.any isLineBreak = false := by
    apply List.any_eq_false.mpr
    intro c member
    simp [pathChar_noBreak ((tail_chars remote).2 c member)]
  have word : isWord '@' = false := by decide
  rw [sshMatch, List.dropWhile_append_of_pos plain, List.dropWhile_cons_of_neg (by simp [word]),
    List.takeWhile_append_of_pos plain, List.takeWhile_cons_of_neg (by simp [word])]
  simp only [List.dropWhile_append_of_pos inside, List.takeWhile_append_of_pos inside]
  by_cases empty : words = [] <;> simp [filled, (tail_chars remote).1, unbroken]

theorem trim_solid (first : ∀ c ∈ text.head?, isWhitespace c = false)
    (last : ∀ c ∈ text.getLast?, isWhitespace c = false) : trim text = text := by
  have left : text.dropWhile isWhitespace = text := by
    cases text with
    | nil => rfl
    | cons c rest => simp [first c (by simp)]
  rw [trim, left]
  apply List.rdropWhile_eq_self_iff.mpr
  intro filled
  simp [last _ (List.getLast?_eq_some_getLast filled)]

theorem trim_spelling (remote : Remote) : trim remote.spelling = remote.spelling := by
  obtain ⟨filled, chars⟩ := tail_chars remote
  have last : ∀ front : Text, ∀ c ∈ (front ++ remote.tail).getLast?, isWhitespace c = false := by
    intro front c member
    rw [List.getLast?_append_of_ne_nil _ filled] at member
    exact pathChar_solid (chars c (List.mem_of_getLast? member))
  have valid := remote.valid
  unfold Remote.spelling
  cases shape : remote.form with
  | scp user =>
    rw [shape] at valid
    obtain ⟨some, plain⟩ := valid
    dsimp only
    apply trim_solid
    · intro c member
      rw [List.head?_append_of_ne_nil _ some] at member
      exact (plain c (List.mem_of_head? member)).1
    · have parts : user ++ '@' :: (remote.host.name ++ ':' :: remote.tail) =
          user ++ '@' :: (remote.host.name ++ [':']) ++ remote.tail := by simp
      rw [parts]
      exact last _
  | ssh userInfo port =>
    dsimp only
    apply trim_solid
    · intro c member
      obtain rfl : 's' = c := by simpa [Remote.url] using member
      decide
    · rw [Remote.url, ← List.singleton_append, ← List.append_assoc]
      exact last _
  | https userInfo port =>
    dsimp only
    apply trim_solid
    · intro c member
      obtain rfl : 'h' = c := by simpa [Remote.url] using member
      decide
    · rw [Remote.url, ← List.singleton_append, ← List.append_assoc]
      exact last _

theorem hostAndPath_url (remote : Remote) {scheme : String}
    (letters : ∀ c ∈ scheme.toList, c.isAlpha = true ∧ c.toLower = c) (filled : scheme.toList ≠ [])
    (other : scheme.toList ≠ "file".toList) (words : ∀ c ∈ scheme.toList, isWord c = true)
    (valid : (∀ c ∈ userInfo.getD [], isBlank c = false ∧ endsAuthority true c = false) ∧
      ∀ digits ∈ port, isPort digits = true) :
    hostAndPath platform (remote.url scheme userInfo port) =
      ((platform.parse (isSpecial scheme.toList) remote.host.name).map (· ++ '/' :: remote.tail)).getD
        (remote.url scheme userInfo port) := by
  have formed : Authority.WellFormed ⟨userInfo, remote.host.name, port⟩ :=
    { userInfo := valid.1
      filled := remote.host.filled
      host := fun c member => (hostChar_spec (remote.host.chars c member)).2
      port := valid.2 }
  have unmatched : sshMatch (remote.url scheme userInfo port) = none := by
    apply sshMatch_none
    have shape : remote.url scheme userInfo port = scheme.toList ++ ':' :: ('/' :: '/' ::
        (Authority.spelling ⟨userInfo, remote.host.name, port⟩ ++ '/' :: remote.tail)) := by
      simp [Remote.url]
    rw [shape, List.dropWhile_append_of_pos words, List.dropWhile_cons_of_neg (by decide)]
    simp
  rw [hostAndPath, unmatched, Remote.url, read_spelling _ letters filled other formed (tail_plain remote)]
  cases platform.parse (isSpecial scheme.toList) remote.host.name <;> simp

/-! ## Which remotes are named -/

/-- A host with a character that no host has is another one, in lower case too. -/
theorem foreign_head (remote : Remote) (member : c ∈ head) (small : c.toNat < 65)
    (other : isHostChar c = false) : platform.toLowerCase head ≠ remote.lowered platform := by
  intro same
  have low : Ascii (platform.toLowerCase head) := same ▸ (lowered_spec _ remote).2.1
  have inside : c ∈ remote.lowered platform := by
    rw [← same, platform.ascii head low]
    exact List.mem_map.mpr ⟨c, member, (fold_eq_iff small).mpr rfl⟩
  exact absurd ((lowered_spec _ remote).2.2.2 c inside small) (by simp [other])

/-- The base is no host of the remote, whatever comes behind it. -/
structure Foreign (platform : Platform) (remote : Remote) (base : Text) : Prop where
  ends : ∃ c, base.getLast? = some c ∧ c ∉ suffix
  other : ∀ path, platform.toLowerCase (headOf (base ++ path)) ≠ remote.lowered platform

theorem foreign_at {front back : Text} (free : '/' ∉ front) (small : c.toNat < 65)
    (stray : isHostChar c = false) (inside : c ≠ '/') (ends : (c :: back).getLast? = some d)
    (last : d ∉ suffix) :
    Foreign platform remote (front ++ c :: back) where
  ends := ⟨d, by rw [List.getLast?_append_of_ne_nil _ (by simp), ends], last⟩
  other path := by
    have plain : ∀ d ∈ front, decide (d ≠ '/') = true := by
      intro d member
      simpa using fun same : d = '/' => free (same ▸ member)
    apply foreign_head remote (c := c) _ small stray
    rw [headOf, List.append_assoc, List.takeWhile_append_of_pos plain, List.cons_append,
      List.takeWhile_cons_of_pos (by simp [inside])]
    simp

theorem foreign_host (free : '/' ∉ host)
    (other : platform.toLowerCase host ≠ remote.lowered platform) :
    Foreign platform remote (host ++ ['/']) where
  ends := ⟨'/', by simp, by decide⟩
  other path := by
    rw [List.append_assoc, List.singleton_append, (headOf_append free path).1]
    exact other

/-- A remote is read as its host and path, or as something else. -/
theorem hostAndPath_spelling (platform : Platform) (remote : Remote) :
    (remote.Recognised platform ∧ ∃ host, platform.toLowerCase host = remote.lowered platform ∧ '/' ∉ host ∧
      hostAndPath platform remote.spelling = host ++ '/' :: remote.tail) ∨
    (¬remote.Recognised platform ∧ ∃ base, Foreign platform remote base ∧
      hostAndPath platform remote.spelling = base ++ remote.tail) := by
  have hostFree : ∀ {d : Char}, isHostChar d = false → d ∉ remote.host.name := by
    intro d stray member
    exact absurd (remote.host.chars d member) (by simp [stray])
  -- a URL is recognised where its host is
  have ofUrl : ∀ (scheme : String) (userInfo port : Option Text) (special : Bool), scheme.toList ≠ [] →
      (∀ c ∈ scheme.toList, c ≠ '/') →
      (remote.Recognised platform ↔ Remote.HostKept platform special remote.host) →
      hostAndPath platform remote.spelling =
        ((platform.parse special remote.host.name).map (· ++ '/' :: remote.tail)).getD
          (remote.url scheme userInfo port) →
      (remote.Recognised platform ∧ ∃ host, platform.toLowerCase host = remote.lowered platform ∧ '/' ∉ host ∧
        hostAndPath platform remote.spelling = host ++ '/' :: remote.tail) ∨
      (¬remote.Recognised platform ∧ ∃ base, Foreign platform remote base ∧
        hostAndPath platform remote.spelling = base ++ remote.tail) := by
    intro scheme userInfo port special filled slashless recognised whole
    cases parsed : platform.parse special remote.host.name with
    | none =>
      right
      refine ⟨fun kept => ?_, scheme.toList ++ ':' :: ("//".toList ++
        Authority.spelling ⟨userInfo, remote.host.name, port⟩ ++ ['/']), ?_, ?_⟩
      · obtain ⟨host, some, -⟩ := recognised.mp kept
        rw [parsed] at some
        cases some
      · exact foreign_at (fun member => slashless '/' member rfl) (by decide) (by decide) (by decide)
          (d := '/') (by simp [List.getLast?_cons]) (by decide)
      · rw [whole, parsed]
        simp [Remote.url]
    | some host =>
      rw [parsed] at whole
      have free := platform.bare special _ host parsed
      by_cases same : platform.toLowerCase host = remote.lowered platform
      · exact .inl ⟨recognised.mpr ⟨host, parsed, same⟩, host, same, free, whole⟩
      · right
        refine ⟨fun kept => ?_, host ++ ['/'], foreign_host free same, by simpa using whole⟩
        obtain ⟨other, some, equal⟩ := recognised.mp kept
        obtain rfl : host = other := Option.some.inj (parsed.symm.trans some)
        exact same equal
  have valid := remote.valid
  cases shape : remote.form with
  | scp user =>
    rw [shape] at valid
    obtain ⟨filled, plain⟩ := valid
    have userFree : '/' ∉ user := fun member => (plain '/' member).2.2 rfl
    have spelled : remote.spelling = user ++ '@' :: (remote.host.name ++ ':' :: remote.tail) := by
      rw [Remote.spelling, shape]
    have recognised : remote.Recognised platform ↔ ∀ c ∈ user, isWord c = true := by
      rw [Remote.Recognised, shape]
    rw [spelled, recognised]
    by_cases words : ∀ c ∈ user, isWord c = true
    · left
      refine ⟨words, remote.host.name, rfl, hostFree (by decide), ?_⟩
      rw [hostAndPath, sshMatch_scp remote words (hostFree (by decide)) remote.host.filled, if_neg filled]
    · right
      refine ⟨words, ?_⟩
      -- what no reader takes keeps the `@` in front of its first slash
      have kept : sshMatch remote.spelling = none → ∃ base, Foreign platform remote base ∧
          hostAndPath platform remote.spelling = base ++ remote.tail := by
        intro unmatched
        refine ⟨user ++ '@' :: (remote.host.name ++ [':']), foreign_at userFree (by decide) (by decide)
          (by decide) (d := ':') (by simp [List.getLast?_cons]) (by decide), ?_⟩
        have unread : read platform.toHosts remote.spelling = none := by
          rw [spelled]
          exact read_schemeless _ (fun d member => (plain d member).2.1) (by decide) (by decide) (by decide)
        rw [hostAndPath, unmatched, unread, spelled]
        simp
      rw [spelled] at kept
      have split := List.takeWhile_append_dropWhile (p := isWord) (l := user)
      cases rest : user.dropWhile isWord with
      | nil => exact absurd (fun c member => List.dropWhile_eq_nil_iff.mp rest c member) words
      | cons c more =>
        have stray := List.head?_dropWhile_not isWord user
        rw [rest] at split stray
        have taken : ∀ d ∈ user.takeWhile isWord, isWord d = true := fun d member => List.mem_takeWhile_imp member
        by_cases at' : c = '@'
        · subst at'
          have moreFree : ∀ d ∈ more, d ≠ ':' ∧ d ≠ '/' := by
            intro d member
            have inside : d ∈ user := by rw [← split]; simp [member]
            exact (plain d inside).2
          have whole : user ++ '@' :: (remote.host.name ++ ':' :: remote.tail) =
              user.takeWhile isWord ++ '@' :: ((more ++ '@' :: remote.host.name) ++ ':' :: remote.tail) := by
            conv_lhs => rw [← split]
            simp
          have hostPart : ':' ∉ more ++ '@' :: remote.host.name := by
            simpa [hostFree (d := ':') (by decide)] using fun member => (moreFree ':' member).1 rfl
          have match' := sshMatch_scp remote taken hostPart (by simp)
          rw [← whole] at match'
          by_cases empty : user.takeWhile isWord = []
          · exact kept (by rw [match', if_pos empty])
          · refine ⟨more ++ '@' :: (remote.host.name ++ ['/']), foreign_at (fun member =>
              (moreFree '/' member).2 rfl) (by decide) (by decide) (by decide) (d := '/')
              (by simp [List.getLast?_cons]) (by decide), ?_⟩
            rw [hostAndPath, match', if_neg empty]
            simp
        · apply kept
          apply sshMatch_none
          have whole : user ++ '@' :: (remote.host.name ++ ':' :: remote.tail) =
              user.takeWhile isWord ++ c :: (more ++ '@' :: (remote.host.name ++ ':' :: remote.tail)) := by
            conv_lhs => rw [← split]
            simp
          rw [whole, List.dropWhile_append_of_pos taken, List.dropWhile_cons_of_neg (by simpa using stray)]
          simpa using at'
  | ssh userInfo port =>
    rw [shape] at valid
    apply ofUrl "ssh" userInfo port false (by decide) (forall_chars (by decide)) (by rw [Remote.Recognised, shape])
    have spelled : remote.spelling = remote.url "ssh" userInfo port := by rw [Remote.spelling, shape]
    rw [spelled]
    exact hostAndPath_url remote (forall_chars (by decide)) (by decide) (by decide) (forall_chars (by decide)) valid
  | https userInfo port =>
    rw [shape] at valid
    apply ofUrl "https" userInfo port true (by decide) (forall_chars (by decide)) (by rw [Remote.Recognised, shape])
    have spelled : remote.spelling = remote.url "https" userInfo port := by rw [Remote.spelling, shape]
    rw [spelled]
    exact hostAndPath_url remote (forall_chars (by decide)) (by decide) (by decide) (forall_chars (by decide)) valid

theorem lowerHost_named (remote : Remote) {host path : Text}
    (same : platform.toLowerCase host = remote.lowered platform) (free : '/' ∉ host) :
    lowerHost platform (host ++ '/' :: path) = if remote.lowered platform = github then
      platform.toLowerCase (remote.lowered platform ++ '/' :: path) else remote.lowered platform ++ '/' :: path := by
  have parts := headOf_append free path
  have filled := (lowered_spec platform remote).2.2.1
  unfold lowerHost
  rw [show (host ++ '/' :: path).takeWhile (· ≠ '/') = host from parts.1,
    show (host ++ '/' :: path).dropWhile (· ≠ '/') = '/' :: path from parts.2, same]
  simp only [if_neg filled]

/-- A host of the remote with its path makes the canonical name. -/
theorem lowerHost_path (remote : Remote)
    (same : platform.toLowerCase host = remote.lowered platform) (free : '/' ∉ host) :
    lowerHost platform (host ++ '/' :: remote.path.path) = remote.canonical platform := by
  rw [lowerHost_named remote same free, canonical_shape, Remote.named]
  split_ifs with onGitHub
  · have low : Ascii (github ++ '/' :: remote.path.path) := by
      intro c member
      obtain inHost | inPath := List.mem_append.mp member
      · have chars : Ascii github := forall_chars (by decide)
        exact chars c inHost
      · obtain rfl | inside := List.mem_cons.mp inPath
        · decide
        · exact ascii_path remote c inside
    rw [onGitHub, (toLowerCase_ascii _ low).1, (toLowerCase_ascii _ (ascii_path remote)).1, List.map_append]
    rfl
  · rfl

theorem normalize_iff (platform : Platform) (remote : Remote) :
    normalizeGitRemote platform remote.spelling = remote.canonical platform ↔
      remote.Recognised platform ∧ ¬(remote.git = true ∧ 0 < remote.slashes) := by
  rw [normalizeGitRemote, trim_spelling]
  obtain ⟨recognised, host, same, free, whole⟩ | ⟨unrecognised, base, foreign, whole⟩ :=
    hostAndPath_spelling platform remote
  · have parts : host ++ '/' :: remote.tail = host ++ ['/'] ++ remote.tail := by simp
    rw [whole, parts, strip_tail remote (c := '/') (by simp) (by decide), List.append_assoc, List.singleton_append]
    by_cases slashed : remote.git = true ∧ 0 < remote.slashes
    · have longer : remote.kept = remote.path.path ++ suffix := by rw [Remote.kept, if_pos slashed]
      refine iff_of_false (fun canonical => ?_) fun settled => settled.2 slashed
      have length := (lowerHost_canonical canonical).2
      rw [(headOf_append free _).2, longer, List.length_cons, List.length_append] at length
      have four : suffix.length = 4 := rfl
      omega
    · have plain : remote.kept = remote.path.path := by rw [Remote.kept, if_neg slashed, List.append_nil]
      rw [plain, lowerHost_path remote same free]
      simp [recognised, slashed]
  · obtain ⟨c, ends, other⟩ := foreign.ends
    rw [whole, strip_tail remote ends other]
    simp only [unrecognised, false_and, iff_false]
    intro canonical
    exact foreign.other _ (lowerHost_canonical canonical).1

theorem canonical_chars (platform : Platform) (remote : Remote) :
    ∀ c ∈ remote.canonical platform, 0x20 < c.toNat ∧ c.toNat < 0x80 := by
  have folded : ∀ {c : Char}, 0x20 < c.toNat → c.toNat < 0x80 → 0x20 < (fold c).toNat := by
    intro c high low
    obtain same | ⟨_, _, sum⟩ := (fold_low low).1
    · rwa [same]
    · omega
  intro c member
  refine ⟨?_, ascii_canonical _ remote c member⟩
  rw [canonical_shape] at member
  obtain inHost | inPath := List.mem_append.mp member
  · rw [(lowered_spec _ remote).1] at inHost
    obtain ⟨d, inside, rfl⟩ := List.mem_map.mp inHost
    obtain ⟨low, solid, -⟩ := hostChar_spec (remote.host.chars d inside)
    exact folded (by simpa [isBlank] using solid) low
  · obtain rfl | inside := List.mem_cons.mp inPath
    · decide
    · unfold Remote.named at inside
      split_ifs at inside
      · rw [(toLowerCase_ascii _ (ascii_path remote)).1] at inside
        obtain ⟨d, within, rfl⟩ := List.mem_map.mp inside
        obtain ⟨high, low, -⟩ := pathChar_spec (remote.path.chars d within)
        exact folded high low
      · exact (pathChar_spec (remote.path.chars c inside)).1

/-- No reader takes a canonical name. -/
theorem hostAndPath_canonical (remote : Remote) :
    hostAndPath platform (trim (remote.canonical platform)) = remote.canonical platform := by
  have chars := canonical_chars platform remote
  have solid : ∀ c ∈ remote.canonical platform, isWhitespace c = false := by
    intro c member
    have range := chars c member
    simp [isWhitespace]
    omega
  have apart : ∀ {d : Char}, d.toNat < 65 → isHostChar d = false → d ∉ remote.lowered platform := by
    intro d small stray member
    exact absurd ((lowered_spec _ remote).2.2.2 d member small) (by simp [stray])
  have unmatched : sshMatch (remote.canonical platform) = none := by
    apply sshMatch_none
    rw [canonical_shape, List.dropWhile_append]
    split_ifs with all
    · rw [List.dropWhile_cons_of_neg (by decide)]
      simp
    · intro here
      rw [List.head?_append_of_ne_nil _ (by simpa using all)] at here
      exact apart (by decide) (by decide) ((List.dropWhile_sublist _).mem (List.mem_of_head? here))
  have unread : read platform.toHosts (remote.canonical platform) = none := by
    apply read_schemeless _ _ (by decide) (by decide) (by decide)
    rintro d member rfl
    exact apart (by decide) (by decide) member
  rw [trim_solid (fun c member => solid c (List.mem_of_head? member))
    (fun c member => solid c (List.mem_of_getLast? member)), hostAndPath, unmatched, unread]

theorem lowerHost_canonical_self (remote : Remote) :
    lowerHost platform (remote.canonical platform) = remote.canonical platform := by
  have again : (remote.lowered platform).map fold = remote.lowered platform := by
    rw [(lowered_spec _ remote).1, List.map_map]
    exact List.map_congr_left fun c member => fold_fold (ascii_host remote c member)
  have same : platform.toLowerCase (remote.lowered platform) = remote.lowered platform := by
    rw [(toLowerCase_ascii _ (lowered_spec _ remote).2.1).1, again]
  rw [canonical_shape, lowerHost_named remote same (lowered_free _ remote)]
  split_ifs with onGitHub
  · rw [← canonical_shape, (toLowerCase_ascii _ (ascii_canonical _ remote)).1, canonical_shape, List.map_append, again,
      List.map_cons, (named_spec _ remote).2.2 onGitHub, (fold_eq_iff (by decide)).mpr rfl]
  · rfl

theorem canonical_settled_iff (platform : Platform) (remote : Remote) :
    normalizeGitRemote platform (remote.canonical platform) = remote.canonical platform ↔
      (remote.lowered platform = github → ¬suffix <:+ platform.toLowerCase remote.path.path) := by
  have condition : (remote.lowered platform = github → ¬suffix <:+ platform.toLowerCase remote.path.path) ↔
      ¬suffix <:+ remote.named platform := by
    unfold Remote.named
    split_ifs with onGitHub
    · simp [onGitHub]
    · simp [onGitHub, remote.path.bare]
  have parts : remote.canonical platform = remote.lowered platform ++ ['/'] ++ remote.named platform := by
    simp [canonical_shape]
  have filled : remote.named platform ≠ [] := by
    have long := (named_spec platform remote).2.1
    intro none
    rw [none] at long
    exact remote.path.filled (List.length_eq_zero_iff.mp long.symm)
  rw [normalizeGitRemote, hostAndPath_canonical, condition]
  constructor
  · rintro same ⟨front, ends⟩
    have shorter : withoutSuffix (remote.canonical platform) = remote.lowered platform ++ ['/'] ++ front := by
      rw [parts, ← ends, ← List.append_assoc, withoutSuffix_append]
    rw [shorter] at same
    -- what is left is shorter than the canonical name, and lower case keeps its length
    obtain ⟨host, body⟩ := lowerHost_canonical same
    have low : Ascii (platform.toLowerCase (headOf (withoutSlashes (remote.lowered platform ++ ['/'] ++ front)))) :=
      host ▸ (lowered_spec _ remote).2.1
    have head := congrArg List.length ((platform.ascii _ low).symm.trans host)
    have whole := congrArg List.length (head_body (withoutSlashes (remote.lowered platform ++ ['/'] ++ front)))
    have left := (List.rdropWhile_prefix (· = '/') (l := remote.lowered platform ++ ['/'] ++ front)).length_le
    have long := congrArg List.length ends
    rw [(named_spec _ remote).2.1, List.length_append] at long
    have four : suffix.length = 4 := rfl
    simp only [List.length_map, List.length_append, List.length_singleton, Remote.lowered] at head whole left body
    unfold withoutSlashes at head whole body
    omega
  · intro bare
    have closed : (remote.canonical platform).getLast? ≠ some '/' := by
      rw [parts, List.getLast?_append_of_ne_nil _ filled]
      unfold Remote.named
      split_ifs
      · rw [(toLowerCase_ascii _ (ascii_path remote)).1, List.getLast?_map]
        intro last
        obtain ⟨c, here, folds⟩ := Option.map_eq_some_iff.mp last
        exact remote.path.closed ((fold_eq_iff (by decide)).mp folds ▸ here)
      · exact remote.path.closed
    rw [withoutSuffix_of_not, withoutSlashes_closed closed, lowerHost_canonical_self]
    rw [parts]
    exact bare_behind (c := '/') (by simp) (by decide) bare

/-- A platform whose host reader takes every name. -/
def everyName : Platform where
  parse special host := if '/' ∈ host then none else some (if special then host.map fold else host)
  bare special host parsed same := by
    split_ifs at same with slash folded
    · obtain rfl := Option.some.inj same
      exact folded_free slash
    · obtain rfl := Option.some.inj same
      exact slash
  file _ := none
  toLowerCase text := text.map fold
  ascii_iff _ := Iff.rfl
  ascii _ _ := rfl

/-- `git@github.com:team/repo.git/` -/
def slashedRemote : Remote where
  host := ⟨github, by decide, forall_chars (by decide)⟩
  path := ⟨"team/repo".toList, by decide, forall_chars (by decide), by decide, by decide, by decide⟩
  form := .scp "git".toList
  valid := ⟨by decide, forall_chars (by decide)⟩
  git := true
  slashes := 1

end LetAgents.Mcp.GitRemote

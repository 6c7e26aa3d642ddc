import LetAgents.Lib.RegExpWords
import LetAgents.Lib.Texts

/-!
# The command policy of rental workspaces

Source: src/api/rental/command-broker-policy.ts, command-broker.ts:176-185.

Which options of a program take the next argument as their value is the program's own, a
parameter here.
-/
namespace LetAgents.Rental.CommandPolicy

open Lib.RegExp

def SHELL_TOKENS : Compiled := .literal "[;&|\x60$<>]" false (by decide +kernel)

def BLOCKED_WORDS : List Text :=
  ["add", "audit", "ci", "curl", "deploy", "exec-sh", "install", "login", "publish", "push",
    "release", "rm", "wget"].map text

def hasUnsafeToken (argv : List Text) : Bool :=
  argv.any fun part => part.includes [0] || SHELL_TOKENS.test part

def hasBlockedWord (argv : List Text) : Bool :=
  argv.any fun part => BLOCKED_WORDS.contains part.toLowerCase

def testScript : Compiled :=
  .literal "^(test|check|typecheck|lint|verify)([:\\w.-]*)?$" true (by decide +kernel)

def looksLikeTestScript (script : Text) : Bool := script ≠ [] && testScript.test script

/-- A word of the arguments in lower case. -/
def lowered (argv : List Text) (index : Nat) : Text := (argv[index]?.getD []).toLowerCase

def npmTools : List Text := ["tsc", "tsx", "vitest", "jest"].map text

def isAllowedNpm (argv : List Text) : Bool :=
  let subcommand := lowered argv 1
  if subcommand = text "test" then true
  else if subcommand = text "run" then looksLikeTestScript (argv[2]?.getD [])
  else if subcommand = text "exec" then
    let tool := lowered argv 2
    if tool = text "tsc" then true
    else if tool = text "tsx" then argv.contains (text "--test")
    else tool = text "vitest" || tool = text "jest"
  else false

def testFile : Compiled := .literal "\\.test\\.[cm]?[jt]s$" false (by decide +kernel)

def isTestFile (part : Text) : Bool := part.includes (text "__tests__") || testFile.test part

def isAllowedNode (argv : List Text) : Bool :=
  argv.contains (text "--test") &&
    (argv.drop 1).any fun part => isTestFile part || part = text "--test"

def pnpmTools : List Text := ["tsc", "vitest", "jest"].map text

def isAllowedPackageRunner (argv : List Text) : Bool :=
  let command := lowered argv 0
  let subcommand := lowered argv 1
  if command = text "pnpm" then
    if subcommand = text "test" then true
    else if subcommand = text "run" then looksLikeTestScript (argv[2]?.getD [])
    else if subcommand = text "exec" then pnpmTools.contains (lowered argv 2)
    else false
  else if command = text "yarn" then subcommand = text "test" || looksLikeTestScript subcommand
  else false

structure CommandPolicyResult where
  allowed : Bool
  reason : Option Text := none

def refused (reason : String) : CommandPolicyResult := ⟨false, some (text reason)⟩

def evaluateCommandPolicy (argv : List Text) : CommandPolicyResult :=
  if argv = [] then refused "argv must contain at least one command"
  else if argv.any fun part => part.trim = [] then refused "argv entries must be non-empty strings"
  else if hasUnsafeToken argv then refused "shell metacharacters are not allowed"
  else if hasBlockedWord argv then refused "install/network/publish commands are not allowed"
  else
    let command := lowered argv 0
    if command = text "npm" then
      if isAllowedNpm argv then ⟨true, none⟩
      else refused "npm command must be test/check/typecheck style"
    else if command = text "node" then
      if isAllowedNode argv then ⟨true, none⟩ else refused "node commands must use --test"
    else if command = text "pnpm" ∨ command = text "yarn" then
      if isAllowedPackageRunner argv then ⟨true, none⟩
      else refused "package runner command must be test/check/typecheck style"
    else ⟨false, some (text "command not allowed: " ++ argv[0]?.getD [])⟩

/-- The arguments of a request; `none` is an entry that is no string. -/
def normalizeArgv (argv : List (Option Text)) : Except String (List Text) :=
  let normalized := argv.map fun part => (part.getD []).trim
  if normalized.length = 0 ∨ normalized.any (· = []) then .error "argv entries must be non-empty strings"
  else .ok normalized

/-- `runWorkspaceCommand` goes on with these arguments. -/
structure Admitted (request : List (Option Text)) (argv : List Text) : Prop where
  normalized : normalizeArgv request = .ok argv
  allowed : (evaluateCommandPolicy argv).allowed = true

/-! ## What an accepted command should be -/

def isOption (arg : Text) : Bool := arg.head? = some (u '-')

/-- `option`, `option=value`, and a short option attached or in a cluster. -/
def spells (option arg : Text) : Bool :=
  arg = option || Text.startsWith arg (option ++ text "=") ||
    (option.length = 2 && isOption arg && !isOption (arg.drop 1) &&
      (arg.drop 1).contains (option[1]?.getD 0))

/-- The options of node and tsx that name code to run. -/
def codeOptions : List Text :=
  ["-e", "--eval", "-p", "--print", "-r", "--require", "--import", "--loader",
    "--experimental-loader", "--env-file"].map text

/-- The options of package managers that name code or configuration. -/
def managerOptions : List Text :=
  ["--prefix", "-C", "--dir", "--cwd", "--script-shell", "--node-options", "--userconfig",
    "--globalconfig", "--registry"].map text

/-- The options that an accepted command must not have. -/
def loadOptions (argv : List Text) : List Text :=
  if lowered argv 0 = text "node" then codeOptions
  else if lowered argv 1 = text "exec" ∧ lowered argv 2 = text "tsx" then codeOptions ++ managerOptions
  else managerOptions

section

variable (valued : Text → Bool)

/-- The arguments that are neither options nor values of options. -/
def wordsOf : Bool → List Text → List Text
  | _, [] => []
  | true, _ :: rest => wordsOf false rest
  | false, arg :: rest => if isOption arg then wordsOf (valued arg) rest else arg :: wordsOf false rest

/-- Node reads `--test` before it reads a script, or the script is a test file. -/
def testMode : Bool → List Text → Bool
  | _, [] => false
  | true, _ :: rest => testMode false rest
  | false, arg :: rest =>
    if arg = text "--test" then true
    else if isOption arg then testMode (valued arg) rest
    else isTestFile arg

/-- The words of a package manager that select what it does. -/
def selectsTest (manager : Text) : List Text → Bool
  | [] => false
  | action :: more =>
    action.toLowerCase = text "test" ||
      if manager = text "yarn" then looksLikeTestScript action.toLowerCase
      else
        (action.toLowerCase = text "run" && more.head?.any looksLikeTestScript) ||
          (action.toLowerCase = text "exec" &&
            more.head?.any fun tool => npmTools.contains tool.toLowerCase)

/-- A command that only runs tests. -/
structure TestRun (argv : List Text) : Prop where
  program : lowered argv 0 ∈ ["npm", "pnpm", "yarn", "node"].map text
  loads : ∀ arg ∈ argv.tail, ∀ option ∈ loadOptions argv, spells option arg = false
  action : if lowered argv 0 = text "node" then testMode valued false argv.tail = true
    else selectsTest (lowered argv 0) (wordsOf valued false argv.tail) = true

/-- No argument is an option that names code, and `node` gets no script before `--test`. -/
structure Plain (argv : List Text) : Prop where
  loads : ∀ arg ∈ argv.tail, ∀ option ∈ loadOptions argv, spells option arg = false
  mode : lowered argv 0 = text "node" → testMode valued false argv.tail = true

end

/-! ## Words -/

def spelled (word : Text) : Node := word.foldr (fun c rest => .seq (.unit c) rest) .empty

/-- The first group of `testScript`. -/
def scriptWords : Node :=
  .group (some 1) (.alt (spelled (text "test")) (.alt (spelled (text "check"))
    (.alt (spelled (text "typecheck")) (.alt (spelled (text "lint")) (spelled (text "verify"))))))

/-- What the pattern has behind its first group. -/
def scriptTail : Node :=
  .seq (.many 0 (some 1) true 2 3 (.group (some 2) (.seq (.many 0 none true 3 3
    (.set false [.range 58 58, .escape .word false, .range 46 46, .range 45 45])) .empty)))
    (.seq .finish .empty)

theorem testScript_shape : testScript = ⟨.seq .start (.seq scriptWords scriptTail), true⟩ := by
  decide +kernel

/-- What an anchored pattern finds begins with a word of its first part. -/
theorem anchored_first (plain : first.plain = true)
    (found : (⟨.seq .start (.seq first more), ignoreCase⟩ : Compiled).test input = true) :
    ∃ word rest, input = word ++ rest ∧ first.language ignoreCase false word := by
  obtain ⟨⟨opening, ending⟩, match'⟩ := Option.isSome_iff_exists.mp found
  obtain ⟨here, skipped, split, seen, -⟩ := exec_some match'
  obtain ⟨r, head, -⟩ := Option.map_eq_some_iff.mp here
  have member := List.mem_of_mem_head? head
  simp only [Node.readings, Bool.false_eq_true, if_false, List.mem_flatMap] at member
  obtain ⟨begun, atStart, middle, reads, -⟩ := member
  have fresh : opening.before = [] ∧ begun = ⟨opening, []⟩ := by
    cases before : opening.before <;> simp [before] at atStart
    exact ⟨rfl, atStart⟩
  obtain ⟨nothing, rfl⟩ := fresh
  rw [nothing] at seen
  have unskipped : skipped = [] := by simpa using seen.symm
  subst unskipped
  have place : opening = .facing false input [] := by
    cases opening
    simp only [List.nil_append] at split nothing
    simp [Place.facing, split, nothing]
  rw [place] at reads
  obtain ⟨word, rest, whole, language, -⟩ :=
    (plain_spells ignoreCase false first plain).sound input [] [] middle reads
  exact ⟨word, rest, whole, language⟩

theorem spelled_head (c : Nat) (word : Text)
    (dash : setAccepts true false [.range c c] (u '-') = false)
    (language : (spelled (c :: word)).language true false taken) (rest : Text) :
    isOption (taken ++ rest) = false := by
  obtain ⟨a, b, rfl, ⟨d, rfl, accepts⟩, -⟩ := language
  apply decide_eq_false
  intro same
  obtain rfl := Option.some.inj same
  rw [dash] at accepts
  cases accepts

theorem looksLikeTestScript_word (script : looksLikeTestScript name = true) : isOption name = false := by
  simp only [looksLikeTestScript, Bool.and_eq_true, testScript_shape] at script
  obtain ⟨word, rest, rfl, language⟩ := anchored_first (by decide +kernel) script.2
  rcases language with test | check | typecheck | lint | verify
  · exact spelled_head (u 't') (text "est") (by decide) test rest
  · exact spelled_head (u 'c') (text "heck") (by decide) check rest
  · exact spelled_head (u 't') (text "ypecheck") (by decide) typecheck rest
  · exact spelled_head (u 'l') (text "int") (by decide) lint rest
  · exact spelled_head (u 'v') (text "erify") (by decide) verify rest

theorem lowered_word {more : Text} (same : name.toLowerCase = c :: more) (other : c ≠ u '-') :
    isOption name = false := by
  cases name with
  | nil => rfl
  | cons d rest =>
    apply decide_eq_false
    intro dash
    obtain rfl := Option.some.inj dash
    exact other (List.cons.inj same).1.symm

section

variable {valued : Text → Bool} {manager action : Text} {more argv : List Text}

theorem selectsTest_test (same : action.toLowerCase = text "test") :
    selectsTest manager (wordsOf valued false (action :: more)) = true := by
  have word := lowered_word (c := u 't') same (by decide)
  simp [wordsOf, word, selectsTest, same]

theorem selectsTest_run (other : manager ≠ text "yarn") (same : action.toLowerCase = text "run")
    (script : looksLikeTestScript (more[0]?.getD []) = true) :
    selectsTest manager (wordsOf valued false (action :: more)) = true := by
  have word := lowered_word (c := u 'r') same (by decide)
  cases more with
  | nil => cases script
  | cons name rest =>
    have found : looksLikeTestScript name = true := script
    have second := looksLikeTestScript_word found
    simp [wordsOf, word, second, selectsTest, other, same, found]

theorem selectsTest_exec (other : manager ≠ text "yarn") (same : action.toLowerCase = text "exec")
    (listed : Text.toLowerCase (more[0]?.getD []) ∈ npmTools) :
    selectsTest manager (wordsOf valued false (action :: more)) = true := by
  have word := lowered_word (c := u 'e') same (by decide)
  cases more with
  | nil => exact absurd listed (by decide)
  | cons tool rest =>
    have found : tool.toLowerCase ∈ npmTools := listed
    have second : isOption tool = false := by
      simp only [npmTools, List.map_cons, List.map_nil, List.mem_cons, List.not_mem_nil, or_false] at found
      rcases found with tsc | tsx | vitest | jest
      · exact lowered_word (c := u 't') tsc (by decide)
      · exact lowered_word (c := u 't') tsx (by decide)
      · exact lowered_word (c := u 'v') vitest (by decide)
      · exact lowered_word (c := u 'j') jest (by decide)
    simp [wordsOf, word, second, selectsTest, other, same, found]

theorem npm_selects (other : manager ≠ text "yarn")
    (allowed : isAllowedNpm (program :: action :: more) = true) :
    selectsTest manager (wordsOf valued false (action :: more)) = true := by
  unfold isAllowedNpm at allowed
  dsimp only at allowed
  split at allowed
  · next same => exact selectsTest_test same
  split at allowed
  · next same => exact selectsTest_run other same allowed
  split at allowed
  · next same =>
    apply selectsTest_exec other same
    have tool : Text.toLowerCase (more[0]?.getD []) = lowered (program :: action :: more) 2 := rfl
    rw [tool]
    split at allowed
    · next tsc => simp [tsc, npmTools]
    split at allowed
    · next tsx => simp [tsx, npmTools]
    · rcases Bool.or_eq_true_iff.mp allowed with vitest | jest
      · simp [of_decide_eq_true vitest, npmTools]
      · simp [of_decide_eq_true jest, npmTools]
  · cases allowed

theorem runner_selects (allowed : isAllowedPackageRunner (program :: action :: more) = true) :
    selectsTest program.toLowerCase (wordsOf valued false (action :: more)) = true := by
  unfold isAllowedPackageRunner at allowed
  dsimp only at allowed
  split at allowed
  · next pnpm =>
    have same : program.toLowerCase = text "pnpm" := pnpm
    have other : program.toLowerCase ≠ text "yarn" := by
      rw [same]
      decide
    split at allowed
    · next test => exact selectsTest_test test
    split at allowed
    · next run => exact selectsTest_run other run allowed
    split at allowed
    · next exec =>
      apply selectsTest_exec other exec
      have listed : lowered (program :: action :: more) 2 ∈ pnpmTools := by simpa using allowed
      exact (by decide : ∀ tool ∈ pnpmTools, tool ∈ npmTools) _ listed
    · cases allowed
  split at allowed
  · next yarn =>
    have same : program.toLowerCase = text "yarn" := yarn
    rcases Bool.or_eq_true_iff.mp allowed with test | script
    · exact selectsTest_test (of_decide_eq_true test)
    · have found : looksLikeTestScript action.toLowerCase = true := script
      have word : isOption action = false := by
        have lower := looksLikeTestScript_word found
        cases action with
        | nil => rfl
        | cons c rest =>
          apply decide_eq_false
          intro dash
          obtain rfl := Option.some.inj dash
          exact of_decide_eq_false lower rfl
      simp [wordsOf, word, selectsTest, same, found]
  · cases allowed

theorem npm_action (allowed : isAllowedNpm argv = true) : lowered argv 1 ≠ [] := by
  intro nothing
  unfold isAllowedNpm at allowed
  simp only [nothing] at allowed
  cases allowed

theorem runner_action (allowed : isAllowedPackageRunner argv = true) : lowered argv 1 ≠ [] := by
  intro nothing
  unfold isAllowedPackageRunner at allowed
  simp only [nothing] at allowed
  split at allowed
  · rw [if_neg (by decide), if_neg (by decide), if_neg (by decide)] at allowed
    cases allowed
  split at allowed
  · exact absurd allowed (by decide)
  · cases allowed

theorem two_words (second : lowered argv 1 ≠ []) :
    ∃ program action more, argv = program :: action :: more := by
  rcases argv with - | ⟨program, - | ⟨action, more⟩⟩
  · exact absurd rfl second
  · exact absurd rfl second
  · exact ⟨program, action, more, rfl⟩

/-- What the policy accepts, by program. -/
theorem allowed_cases (allowed : (evaluateCommandPolicy argv).allowed = true) :
    (lowered argv 0 = text "npm" ∧ isAllowedNpm argv = true) ∨
      (lowered argv 0 = text "node" ∧ isAllowedNode argv = true) ∨
      ((lowered argv 0 = text "pnpm" ∨ lowered argv 0 = text "yarn") ∧
        isAllowedPackageRunner argv = true) := by
  unfold evaluateCommandPolicy at allowed
  dsimp only [refused] at allowed
  split at allowed
  · cases allowed
  split at allowed
  · cases allowed
  split at allowed
  · cases allowed
  split at allowed
  · cases allowed
  split at allowed
  · next npm =>
    split at allowed
    · next accepted => exact .inl ⟨npm, accepted⟩
    · cases allowed
  split at allowed
  · next node =>
    split at allowed
    · next accepted => exact .inr (.inl ⟨node, accepted⟩)
    · cases allowed
  split at allowed
  · next runner =>
    split at allowed
    · next accepted => exact .inr (.inr ⟨runner, accepted⟩)
    · cases allowed
  · cases allowed

theorem allowed_program (allowed : (evaluateCommandPolicy argv).allowed = true) :
    lowered argv 0 ∈ ["npm", "pnpm", "yarn", "node"].map text := by
  rcases allowed_cases allowed with ⟨npm, -⟩ | ⟨node, -⟩ | ⟨pnpm | yarn, -⟩
  · simp [npm]
  · simp [node]
  · simp [pnpm]
  · simp [yarn]

theorem allowed_selects (other : lowered argv 0 ≠ text "node")
    (allowed : (evaluateCommandPolicy argv).allowed = true) :
    selectsTest (lowered argv 0) (wordsOf valued false argv.tail) = true := by
  have two : lowered argv 1 ≠ [] := by
    rcases allowed_cases allowed with ⟨-, accepted⟩ | ⟨node, -⟩ | ⟨-, accepted⟩
    · exact npm_action accepted
    · exact absurd node other
    · exact runner_action accepted
  obtain ⟨program, action, more, rfl⟩ := two_words two
  rcases allowed_cases allowed with ⟨npm, accepted⟩ | ⟨node, -⟩ | ⟨-, accepted⟩
  · apply npm_selects _ accepted
    rw [npm]
    decide
  · exact absurd node other
  · exact runner_selects accepted

end

/-- A test file that is run by name, with an option that loads nothing. -/
def testRequest : List (Option Text) :=
  [some (text "node"), some (text "--test"), some (text "src/a.test.ts ")]

/-- Code in an argument is loaded before the tests. -/
def loadingRequest : List (Option Text) :=
  [some (text "node"), some (text "--test"), some (text "--import"),
    some (text "data:text/javascript,process.exit(0)")]

end LetAgents.Rental.CommandPolicy

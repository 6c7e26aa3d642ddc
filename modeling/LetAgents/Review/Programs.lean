import LetAgents.Review.Arguments

/-!
# Programs a reviewed command may name

The table `PROGRAMS` of `src/shared/permission-review.mjs`, each program with the
check of its arguments, and the programs that run code.
-/
namespace LetAgents.Review

abbrev ArgumentCheck := List String → String → Bool

def reads (spec : ArgumentSpec) : ArgumentCheck :=
  fun args project => (readArguments args spec project).isSome

/-- `GIT_LOOK`. -/
def gitLook : ArgumentSpec where
  flags := letters "pqswbinlcrtEF" ++ ["--stat", "--shortstat", "--numstat", "--name-only",
    "--name-status", "--oneline", "--cached", "--staged", "--patch", "--no-patch", "--graph",
    "--all", "--decorate", "--follow", "--no-color", "--abbrev-commit", "--word-diff", "--reverse",
    "--merges", "--no-merges", "--first-parent", "--short", "--branch", "--porcelain", "--long",
    "--tags", "--always", "--show-toplevel", "--abbrev-ref", "--verify", "--count", "--others",
    "--modified", "--deleted", "--exclude-standard", "--summary", "--root"]
  valued := [("-n", number), ("-U", number), ("--max-count", number), ("--abbrev", number),
    ("--format", fun value => !includes value "%G"), ("--pretty", fun value => !includes value "%G"),
    ("--since", anyValue), ("--until", anyValue), ("--author", anyValue), ("--grep", anyValue),
    ("--diff-filter", anyValue), ("-L", anyValue), ("-e", anyValue), ("-S", anyValue),
    ("-G", anyValue)]
  count := true
  anywhere := true

/-- `GIT_GREP`. -/
def gitGrep : ArgumentSpec where
  flags := letters "nilcwhIEF" ++ ["--line-number", "--ignore-case", "--files-with-matches",
    "--count", "--word-regexp", "--fixed-strings", "--extended-regexp", "--cached", "--no-color"]
  valued := [("-e", anyValue), ("-A", number), ("-B", number), ("-C", number)]
  anywhere := true

/-- `GIT_VERBS`. -/
def gitVerbs : List String :=
  ["status", "diff", "log", "show", "blame", "ls-files", "ls-tree", "grep", "rev-parse", "rev-list",
    "describe", "shortlog", "merge-base"]

/-- A test runner or checker: what it takes, the words one of which it needs, the
words it may start with, and whether it takes files. -/
structure ToolSpec extends ArgumentSpec where
  starts : List String := []
  needs : Option (List String) := none
  files : Bool := true

/-- `TOOLS`. -/
def tools : List (String × ToolSpec) :=
  [("tsc", { flags := ["--noEmit", "--pretty", "--skipLibCheck", "--strict"]
             valued := [("-p", anyValue), ("--project", anyValue)]
             needs := some ["--noEmit"], files := false }),
    ("vue-tsc", { flags := ["--noEmit", "--pretty", "--skipLibCheck"]
                  valued := [("-p", anyValue), ("--project", anyValue)]
                  needs := some ["--noEmit"], files := false }),
    ("vitest", { flags := ["--run", "--silent", "--passWithNoTests"]
                 valued := [("--bail", number), ("-t", anyValue)]
                 starts := ["run"], needs := some ["run", "--run"] }),
    ("jest", { flags := ["--ci", "--runInBand", "-i", "--silent", "--verbose", "--bail",
                 "--passWithNoTests"]
               valued := [("-t", anyValue)] }),
    ("mocha", { flags := ["--bail", "-b", "--exit"]
                valued := [("-g", anyValue), ("--grep", anyValue)] }),
    ("ava", { flags := ["--fail-fast", "--serial", "-s", "--verbose", "-v"]
              valued := [("-m", anyValue), ("--match", anyValue)] }),
    ("prettier", { flags := ["--check", "-c", "--list-different", "-l"]
                   needs := some ["--check", "-c", "--list-different", "-l"] }),
    ("eslint", { flags := ["--quiet", "--no-color"], valued := [("--max-warnings", number)] }),
    ("biome", { flags := [], starts := ["check", "lint"], needs := some ["check", "lint"] })]

/-- A word with a `/` or a `.` in it, so not a subcommand. -/
def looksLikePath (word : String) : Bool :=
  word.toList.any (fun c => c = '/' || c = '.') &&
    !(["true", "false", "null", "undefined"].any fun value => lowerCase word = value.toList)

def toolAllowed (spec : ToolSpec) : ArgumentCheck := fun args project =>
  match readArguments args spec.toArgumentSpec project with
  | none => false
  | some words =>
    let files := if words.head?.any spec.starts.contains then words.drop 1 else words
    words.all unremarkable && spec.needs.all (fun needs => needs.any args.contains) &&
      if spec.files then files.all looksLikePath else files.isEmpty

/-- `PYTEST`. -/
def pytest : ArgumentSpec where
  flags := ["-q", "-v", "-vv", "-x", "-s", "--lf", "--ff", "-ra"]
  valued := [("-k", anyValue), ("-m", anyValue), ("--maxfail", number),
    ("--tb", ["auto", "long", "short", "line", "native", "no"].contains)]

def pytestAllowed : ArgumentCheck := fun args project =>
  (readArguments args pytest project).any fun words =>
    words.all fun word => unremarkable word && looksLikePath word

/-- Test files to run, given after `--` or on their own. -/
def testFiles : ArgumentCheck := fun args project =>
  let files := if args.head? = some "--" then args.drop 1 else args
  files.all fun file => !dashes file && looksLikePath file && staysInProject file project &&
    unremarkable file

/-- A script and the plain words it is given. -/
def scriptAndWords (script : String → Bool) : ArgumentCheck := fun words project =>
  words.head?.any script && words.all fun word =>
    !dashes word && staysInProject word project && unremarkable word

/-- `--option=` and one to `most` digits. -/
def numbered (option : String) (most : Nat) (arg : String) : Bool :=
  option.toList.isPrefixOf arg.toList &&
    let digits := arg.toList.drop option.length
    1 ≤ digits.length && digits.length ≤ most && digits.all Char.isDigit

def nodeOption (arg : String) : Bool :=
  ["--import=tsx", "--import=tsx/esm", "--test-only", "--experimental-test-module-mocks",
    "--experimental-strip-types", "--no-warnings", "--enable-source-maps"].contains arg ||
  numbered "--test-concurrency=" 3 arg || numbered "--test-timeout=" 7 arg

/-- The options of node: whether it was told to find the tests, and what follows them. -/
def nodeOptions : List String → Bool → Option (Bool × List String)
  | [], testing => some (testing, [])
  | arg :: rest, testing =>
    if !dashes arg then some (testing, arg :: rest)
    else if arg = "--test" then nodeOptions rest true
    else if nodeOption arg then nodeOptions rest testing
    else
      match rest with
      | [] => none
      | next :: others =>
        if arg = "--import" ∧ (next = "tsx" ∨ next = "tsx/esm") then nodeOptions others testing
        else none

def nodeAllowed : ArgumentCheck := fun args project =>
  args = ["--version"] || args = ["-v"] ||
    match nodeOptions args false with
    | none => false
    | some (testing, []) => testing
    | some (_, rest) => scriptAndWords sourceFile rest project

def pythonAllowed : ArgumentCheck := fun args project =>
  if args.head? = some "-m" then
    (args.drop 1).head? = some "pytest" && pytestAllowed (args.drop 2) project
  else scriptAndWords pythonFile args project

/-- The tests of `find`, with whether one takes a value. -/
def findTests : List (String × Bool) :=
  [("-name", true), ("-iname", true), ("-path", true), ("-ipath", true), ("-type", true),
    ("-maxdepth", true), ("-mindepth", true), ("-newer", true), ("-mtime", true), ("-mmin", true),
    ("-size", true), ("-not", false), ("-o", false), ("-a", false), ("-print", false),
    ("-prune", false), ("-empty", false)]

def findTestsAllowed (project : String) : List String → Bool
  | [] => true
  | test :: rest =>
    match findTests.lookup test with
    | none => false
    | some false => findTestsAllowed project rest
    | some true =>
      match rest with
      | [] => false
      | value :: others => staysInProject value project && findTestsAllowed project others

def findAllowed : ArgumentCheck := fun args project =>
  (args.takeWhile fun arg => !dashes arg).all (staysInProject · project) &&
    findTestsAllowed project (args.dropWhile fun arg => !dashes arg)

def gitAllowed : ArgumentCheck
  | [], _ => false
  | verb :: args, project =>
    if verb = "branch" then
      args.all ["--show-current", "--list", "--all", "--remotes", "-a", "-r", "-l", "-v",
        "-vv"].contains
    else if verb = "tag" then args.all ["--list", "-l"].contains
    else
      let before := args.takeWhile (· ≠ "--")
      let paths := (args.dropWhile (· ≠ "--")).drop 1
      gitVerbs.contains verb &&
        (readArguments before (if verb = "grep" then gitGrep else gitLook) project).isSome &&
        paths.all fun path => !dashes path && staysInProject path project

def npmAllowed : ArgumentCheck
  | [], _ => false
  | verb :: rest, project =>
    if verb = "ls" ∨ verb = "list" then
      rest.all fun arg => numbered "--depth=" arg.length arg ||
        ["--all", "-a", "--json", "--long", "-l"].contains arg
    else if verb = "run" ∨ verb = "run-script" then rest.length = 1 && rest.all plainName
    else verb = "test" && testFiles rest project

/-- `pnpm`, `yarn` and `bun`: the tests only. -/
def testsAllowed : ArgumentCheck
  | [], _ => false
  | verb :: rest, project => verb = "test" && testFiles rest project

def npxAllowed : ArgumentCheck
  | first :: tool :: rest, project =>
    ["--no-install", "--no", "--offline"].contains first &&
      (tools.lookup tool).any fun spec => toolAllowed spec rest project
  | _, _ => false

def goAllowed : ArgumentCheck
  | [], _ => false
  | verb :: args, project =>
    (verb = "version" && args.isEmpty) ||
      ((verb = "test" || verb = "vet") &&
        (readArguments args
          { flags := ["-v", "-race", "-short", "-failfast"]
            dashed := true
            valued := [("-run", anyValue), ("-count", number),
              ("-timeout", fun value => ["s", "m", "h"].any fun unit =>
                unit.toList.isSuffixOf value.toList &&
                  numbered "" 4 (String.ofList value.toList.dropLast))] } project).any fun words =>
          words.all fun word => word ≠ "" && word.toList.all (fun c => isWordChar c ||
            "_./-".toList.contains c) && unremarkable word)

def cargoAllowed : ArgumentCheck
  | [], _ => false
  | verb :: args, project =>
    if verb = "fmt" then args = ["--check"]
    else
      ["test", "check", "clippy"].contains verb &&
        (readArguments args
          { flags := ["--all", "--workspace", "--all-features", "--all-targets", "--release", "-q",
              "--quiet", "--lib", "--tests", "--locked", "--offline"]
            valued := [("-p", name), ("--package", name)] } project).any fun words =>
          words.all plainName

def dateAllowed : ArgumentCheck := fun args _ =>
  args.all fun arg =>
    match arg.toList with
    | '+' :: format => format.all fun c => isWordChar c || "%:_./ -".toList.contains c
    | _ => false

def echoAllowed : ArgumentCheck := fun args _ =>
  args.all fun arg => !dashes arg ||
    (2 ≤ arg.length && (arg.toList.drop 1).all "neE".toList.contains)

/-- `PROGRAMS`. -/
def programs : List (String × ArgumentCheck) :=
  [("ls", reads { flags := letters "1AaFRSdhlrt" }),
    ("pwd", fun args _ => args.isEmpty),
    ("cat", reads { flags := ["-n", "-b"] }),
    ("head", reads { valued := [("-n", number), ("-c", number)], count := true }),
    ("tail", reads { valued := [("-n", number), ("-c", number)], count := true }),
    ("wc", reads { flags := letters "lwcm" }),
    ("stat", reads {}),
    ("du", reads { flags := letters "shac", valued := [("-d", number)] }),
    ("basename", reads {}),
    ("dirname", reads {}),
    ("cut", reads { valued := [("-d", anyValue), ("-f", anyValue), ("-c", anyValue)] }),
    ("date", dateAllowed),
    ("echo", echoAllowed),
    ("which", reads {}),
    ("diff", reads { flags := letters "urqwbBN", valued := [("-U", number)] }),
    ("uniq", fun args project =>
      (readArguments args { flags := letters "cdui" } project).any fun words => words.length ≤ 1),
    ("sort", reads { flags := letters "bdfgnruV", valued := [("-k", anyValue), ("-t", anyValue)] }),
    ("tree", reads { flags := ["-a", "-d"], valued := [("-L", number), ("-I", anyValue)] }),
    ("grep", reads { flags := letters "EFGHIRabchilnoqrsvwx", count := true, anywhere := true
                     valued := [("-e", anyValue), ("-A", number), ("-B", number), ("-C", number),
                       ("-m", number), ("--include", anyValue), ("--exclude", anyValue),
                       ("--exclude-dir", anyValue), ("--color", anyValue)] }),
    ("rg", reads { flags := letters "FHINSabchilnosuvwx" ++ ["--files", "--hidden", "--no-ignore",
                     "--no-heading", "--line-number"]
                   anywhere := true
                   valued := [("-e", anyValue), ("-g", anyValue), ("-t", name), ("-T", name),
                     ("-A", number), ("-B", number), ("-C", number), ("-m", number)] }),
    ("find", findAllowed),
    ("git", gitAllowed),
    ("npm", npmAllowed),
    ("pnpm", testsAllowed),
    ("yarn", testsAllowed),
    ("bun", testsAllowed),
    ("npx", npxAllowed)] ++
  tools.map (fun tool => (tool.1, toolAllowed tool.2)) ++
  [("pytest", pytestAllowed),
    ("node", nodeAllowed),
    ("python", pythonAllowed),
    ("python3", pythonAllowed),
    ("go", goAllowed),
    ("cargo", cargoAllowed),
    ("make", fun args _ => !args.isEmpty && args.all plainName)]

/-- `RUNS_CODE`. -/
def runsCode : List String :=
  ["node", "python", "python3", "npm", "pnpm", "yarn", "bun", "npx", "make", "pytest", "go",
    "cargo"] ++ tools.map Prod.fst

end LetAgents.Review

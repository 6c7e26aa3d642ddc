import LetAgents.Rental.PathDenylist

/-!
# The Secret Firewall

Source: src/api/rental/secret-firewall.ts:68-162, 245-346, secret-firewall-patterns.ts:86-246.

Modelling boundary: the entropy of a string is a floating-point sum, so whether it reaches
the threshold, and how it is printed, is a parameter.
-/
namespace LetAgents.Rental.SecretFirewall

open Lib.RegExp PathDenylist

inductive FirewallVerdict where
  | passed | redacted | blocked
  deriving DecidableEq

structure FirewallScanResult where
  verdict : FirewallVerdict
  content : Option Text
  findings : List FirewallFinding
  redactionCount : Nat
  filePath : Text

structure SecretPattern where
  name : String
  regex : Compiled
  placeholder : String

def SECRET_PATTERNS : List SecretPattern := [
  ⟨"GitHub PAT (classic)",
    .literal "ghp_[A-Za-z0-9_]\x7b36,251\x7d" false (by decide +kernel), "REDACTED_GITHUB_PAT"⟩,
  ⟨"GitHub PAT (fine-grained)",
    .literal "github_pat_[A-Za-z0-9_]\x7b22,82\x7d_[A-Za-z0-9]\x7b6,255\x7d" false
      (by decide +kernel), "REDACTED_GITHUB_PAT"⟩,
  ⟨"GitHub OAuth token",
    .literal "gho_[A-Za-z0-9_]\x7b36,251\x7d" false (by decide +kernel), "REDACTED_GITHUB_OAUTH"⟩,
  ⟨"GitHub App token",
    .literal "ghu_[A-Za-z0-9_]\x7b36,251\x7d" false (by decide +kernel), "REDACTED_GITHUB_APP"⟩,
  ⟨"GitHub Server token",
    .literal "ghs_[A-Za-z0-9_]\x7b36,251\x7d" false (by decide +kernel), "REDACTED_GITHUB_SERVER"⟩,
  ⟨"GitHub Refresh token",
    .literal "ghr_[A-Za-z0-9_]\x7b36,251\x7d" false (by decide +kernel), "REDACTED_GITHUB_REFRESH"⟩,
  ⟨"npm token",
    .literal "npm_[A-Za-z0-9]\x7b36\x7d" false (by decide +kernel), "REDACTED_NPM_TOKEN"⟩,
  ⟨"Stripe live secret key",
    .literal "sk_live_[A-Za-z0-9]\x7b24,99\x7d" false (by decide +kernel), "REDACTED_STRIPE_SK"⟩,
  ⟨"Stripe test secret key",
    .literal "sk_test_[A-Za-z0-9]\x7b24,99\x7d" false (by decide +kernel), "REDACTED_STRIPE_SK"⟩,
  ⟨"Stripe restricted key",
    .literal "rk_live_[A-Za-z0-9]\x7b24,99\x7d" false (by decide +kernel), "REDACTED_STRIPE_RK"⟩,
  ⟨"AWS access key",
    .literal "AKIA[0-9A-Z]\x7b16\x7d" false (by decide +kernel), "REDACTED_AWS_KEY"⟩,
  ⟨"AWS secret key",
    .literal
      "(?:aws_secret_access_key|AWS_SECRET_ACCESS_KEY)\\s*[=:]\\s*[\"']?([A-Za-z0-9/+=]\x7b40\x7d)[\"']?"
      false (by decide +kernel), "REDACTED_AWS_SECRET"⟩,
  ⟨"Google API key",
    .literal "AIza[0-9A-Za-z_-]\x7b35\x7d" false (by decide +kernel), "REDACTED_GOOGLE_API_KEY"⟩,
  ⟨"Slack bot token",
    .literal "xoxb-[0-9]\x7b10,13\x7d-[0-9]\x7b10,13\x7d-[a-zA-Z0-9]\x7b24\x7d" false
      (by decide +kernel), "REDACTED_SLACK_TOKEN"⟩,
  ⟨"Slack webhook",
    .literal
      "https:\\/\\/hooks\\.slack\\.com\\/services\\/T[a-zA-Z0-9_]+\\/B[a-zA-Z0-9_]+\\/[a-zA-Z0-9_]+"
      false (by decide +kernel), "REDACTED_SLACK_WEBHOOK"⟩,
  ⟨"SendGrid API key",
    .literal "SG\\.[A-Za-z0-9_-]\x7b22\x7d\\.[A-Za-z0-9_-]\x7b43\x7d" false (by decide +kernel),
    "REDACTED_SENDGRID_KEY"⟩,
  ⟨"Twilio API key",
    .literal "SK[0-9a-fA-F]\x7b32\x7d" false (by decide +kernel), "REDACTED_TWILIO_KEY"⟩,
  ⟨"Bearer token",
    .literal "(?:Bearer|bearer)\\s+[A-Za-z0-9_\\-.]\x7b20,500\x7d" false (by decide +kernel),
    "Bearer REDACTED_TOKEN"⟩,
  ⟨"Private key (PEM)",
    .literal ("-----BEGIN\\s+(?:RSA\\s+)?PRIVATE\\s+KEY-----[\\s\\S]*?" ++
      "-----END\\s+(?:RSA\\s+)?PRIVATE\\s+KEY-----") false (by decide +kernel),
    "REDACTED_PRIVATE_KEY"⟩,
  ⟨"Generic secret assignment",
    .literal ("(?<=(?:secret|password|passwd|api_key|apikey|access_token|auth_token|private_key)" ++
      "\\s*[=:]\\s*)[\"']([^\"'\\s]\x7b8,\x7d)[\"']") true (by decide +kernel),
    "\"REDACTED_SECRET_VALUE\""⟩,
  ⟨"Internal URL",
    .literal "https?:\\/\\/(?:internal|staging|dev|localhost)[^\\s\"')>]\x7b5,\x7d" false
      (by decide +kernel), "https://redacted.invalid"⟩]

def ENTROPY_MIN_LENGTH : Nat := 16

def ENTROPY_MAX_LENGTH : Nat := 500

/-! ## Helpers -/

def maskSecret (secret : Text) : Text :=
  if secret.length ≤ 10 then text "***"
  else secret.take 4 ++ text "..." ++ secret.drop (secret.length - 2)

/-- The line of an offset, from what stands before it. -/
def getLineNumber (before : Text) : Nat := 1 + before.count 0x0A

/-- The decimal digits of a number. -/
def decimalText (n : Nat) : Text := (Nat.toDigits 10 n).flatMap codeUnits

/-! ## Known secrets -/

/-- What the layers hand on: the content, the findings and the number of redactions. -/
structure Redaction where
  content : Text
  findings : List FirewallFinding
  redactionCount : Nat

/-- The `exec` loop of one pattern from `lastIndex` on. No pattern matches the empty text,
so the text that is left is fuel enough. -/
def redactPattern (pattern : SecretPattern) : Nat → Place → Redaction → Redaction
  | 0, p, found => { found with content := p.before.reverse ++ p.after }
  | fuel + 1, p, found =>
    match pattern.regex.exec p with
    | none => { found with content := p.before.reverse ++ p.after }
    | some (first, last) =>
      let matchedText := between false first last
      redactPattern pattern fuel ⟨(text pattern.placeholder).reverse ++ first.before, last.after⟩
        { found with
          findings := found.findings ++ [⟨text pattern.name, some (getLineNumber first.before),
            maskSecret matchedText ++ text " → " ++ text pattern.placeholder⟩]
          redactionCount := found.redactionCount + 1 }

def redactPatterns (patterns : List SecretPattern) (content : Text) : Redaction :=
  patterns.foldl (fun found pattern =>
    redactPattern pattern (found.content.length + 1) ⟨[], found.content⟩ found) ⟨content, [], 0⟩

/-! ## Entropy -/

/-- What the code makes of the entropy of a value. -/
structure Entropy where
  reachesThreshold : Bool
  shown : Text

section

variable (shannonEntropy : Text → Entropy)

def quotedString : Compiled := .literal "[\"']([^\"']\x7b16,500\x7d)[\"']" false (by decide +kernel)

/-- `line.matchAll(...)`: the places between which the matches stand. -/
def matchAll (regex : Compiled) : Nat → Place → List (Place × Place)
  | 0, _ => []
  | fuel + 1, p =>
    match regex.exec p with
    | none => []
    | some (first, last) => (first, last) :: matchAll regex fuel last

/-- Redact one quoted string of a line, if it looks random. -/
def redactQuoted (lineNumber : Nat) (found : Redaction) (isMatch : Place × Place) : Redaction :=
  let matched := between false isMatch.1 isMatch.2
  let value := (matched.drop 1).dropLast
  if ENTROPY_MIN_LENGTH ≤ value.length ∧ value.length ≤ ENTROPY_MAX_LENGTH ∧
      (shannonEntropy value).reachesThreshold = true ∧
      Text.startsWith value (text "REDACTED") = false then
    let matchStart := isMatch.1.before.length
    let quoteChar := (found.content.drop matchStart).take 1
    { content := found.content.take matchStart ++ quoteChar ++ text "REDACTED_HIGH_ENTROPY" ++
        quoteChar ++ found.content.drop (matchStart + matched.length)
      findings := found.findings ++ [⟨text "High entropy string", some lineNumber,
        text "Entropy " ++ (shannonEntropy value).shown ++ text " ≥ 4.5: " ++ maskSecret value⟩]
      redactionCount := found.redactionCount + 1 }
  else found

/-- The quoted strings of a line from the last to the first. -/
def redactLine (lineNumber : Nat) (line : Text) : Redaction :=
  (matchAll quotedString (line.length + 1) ⟨[], line⟩).reverse.foldl
    (redactQuoted shannonEntropy lineNumber) ⟨line, [], 0⟩

def scanAndRedactEntropy (content : Text) : Redaction :=
  let lines := (content.split 0x0A).zipIdx.map fun line =>
    redactLine shannonEntropy (line.2 + 1) line.1
  { content := Text.join 0x0A (lines.map (·.content))
    findings := lines.flatMap (·.findings)
    redactionCount := (lines.map (·.redactionCount)).foldr (· + ·) 0 }

/-! ## Scanning -/

/-- The layers behind the path checks. -/
def scanLayers (patterns : List SecretPattern) (content : Text) : Redaction :=
  let known := redactPatterns patterns content
  let entropyResult := scanAndRedactEntropy shannonEntropy known.content
  if 0 < entropyResult.findings.length then
    ⟨entropyResult.content, known.findings ++ entropyResult.findings,
      known.redactionCount + entropyResult.redactionCount⟩
  else known

def scanText (content : Text) : Redaction := scanLayers shannonEntropy SECRET_PATTERNS content

def scanFile (filePath content : Text) : FirewallScanResult :=
  match checkPathDenylist filePath with
  | some finding => ⟨.blocked, none, [finding], 0, filePath⟩
  | none =>
    match checkExtensionDenylist filePath with
    | some finding => ⟨.blocked, none, [finding], 0, filePath⟩
    | none =>
      let found := scanText shannonEntropy content
      ⟨if 0 < found.redactionCount then .redacted else .passed, some found.content,
        found.findings, found.redactionCount, filePath⟩

/-! ## What no redaction leaves -/

/-- A layer only adds redactions, and without one it leaves the content. -/
structure Careful (content : Text) (before after : Redaction) : Prop where
  grows : before.redactionCount ≤ after.redactionCount
  keeps : after.redactionCount = before.redactionCount → after.content = content

theorem redactPattern_careful (pattern : SecretPattern) (fuel : Nat) (p : Place)
    (found : Redaction) :
    Careful (p.before.reverse ++ p.after) found (redactPattern pattern fuel p found) := by
  induction fuel generalizing p found with
  | zero => exact ⟨le_rfl, fun _ => rfl⟩
  | succ fuel ih =>
    unfold redactPattern
    cases pattern.regex.exec p with
    | none => exact ⟨le_rfl, fun _ => rfl⟩
    | some places =>
      dsimp only
      generalize placed : (⟨_, _, _⟩ : Redaction) = counted
      have one : counted.redactionCount = found.redactionCount + 1 := placed ▸ rfl
      have more := (ih ⟨(text pattern.placeholder).reverse ++ places.1.before,
        places.2.after⟩ counted).grows
      rw [one] at more
      refine ⟨Nat.le_of_succ_le more, fun same => ?_⟩
      rw [same] at more
      exact absurd more (Nat.not_succ_le_self _)

theorem redactPatterns_careful (patterns : List SecretPattern) (found : Redaction) :
    Careful found.content found (patterns.foldl (fun found pattern =>
      redactPattern pattern (found.content.length + 1) ⟨[], found.content⟩ found) found) := by
  induction patterns generalizing found with
  | nil => exact ⟨le_rfl, fun _ => rfl⟩
  | cons pattern patterns ih =>
    have first := redactPattern_careful pattern (found.content.length + 1) ⟨[], found.content⟩ found
    have rest := ih (redactPattern pattern (found.content.length + 1) ⟨[], found.content⟩ found)
    refine ⟨Nat.le_trans first.grows rest.grows, fun same => ?_⟩
    have middle := Nat.le_antisymm (same ▸ rest.grows) first.grows
    rw [List.foldl_cons] at same ⊢
    rw [rest.keeps (same.trans middle.symm), first.keeps middle]
    rfl

theorem redactLine_counts (lineNumber : Nat) (line : Text) :
    (redactLine shannonEntropy lineNumber line).findings.length =
      (redactLine shannonEntropy lineNumber line).redactionCount := by
  refine List.foldlRecOn (motive := fun found : Redaction => found.findings.length = found.redactionCount)
    _ _ rfl fun found counts isMatch _ => ?_
  unfold redactQuoted
  dsimp only
  split
  · rw [List.length_append, counts]
    rfl
  · exact counts

theorem scanAndRedactEntropy_counts (content : Text) :
    (scanAndRedactEntropy shannonEntropy content).findings.length =
      (scanAndRedactEntropy shannonEntropy content).redactionCount := by
  simp only [scanAndRedactEntropy, List.length_flatMap, List.map_map]
  exact congrArg List.sum (List.map_congr_left fun _ _ => redactLine_counts shannonEntropy _ _)

theorem redactPatterns_unredacted (none' : (redactPatterns patterns content).redactionCount = 0) :
    (redactPatterns patterns content).content = content :=
  (redactPatterns_careful patterns ⟨content, [], 0⟩).keeps none'

theorem scanLayers_unredacted
    (none' : (scanLayers shannonEntropy patterns content).redactionCount = 0) :
    (scanLayers shannonEntropy patterns content).content = content := by
  have counts := scanAndRedactEntropy_counts shannonEntropy (redactPatterns patterns content).content
  unfold scanLayers at none' ⊢
  dsimp only at none' ⊢
  split at none'
  · rename_i found
    rw [Nat.add_eq_zero_iff, ← counts] at none'
    exact absurd none'.2 (Nat.ne_of_gt found)
  · rename_i nothing
    rw [if_neg nothing]
    exact redactPatterns_unredacted none'

/-- The firewall passes a text on as it is, or it redacts something. -/
theorem scanText_unredacted (none' : (scanText shannonEntropy content).redactionCount = 0) :
    (scanText shannonEntropy content).content = content :=
  scanLayers_unredacted shannonEntropy none'

end

end LetAgents.Rental.SecretFirewall

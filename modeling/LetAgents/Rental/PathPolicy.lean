import LetAgents.Lib.PathSegments
import LetAgents.Rental.PathDenylist

/-!
# Path policies

Source: src/src/api/rental/patch-gate/path-policy.ts, exposure-ledger.ts:97-133. The patch gate
and the exposure ledger have a normaliser each, and the denylist reads the path as it is spelled.
-/
namespace LetAgents.Rental.PathPolicy

open Lib.RegExp

/-! ## The patch gate -/

def SENSITIVE_PATH_PATTERNS : List Compiled :=
  [.literal "^\\.github\\/" false (by decide +kernel),
    .literal "^\\.gitlab-ci" false (by decide +kernel),
    .literal "Dockerfile$" true (by decide +kernel),
    .literal "^docker-compose" true (by decide +kernel),
    .literal "^Makefile$" true (by decide +kernel),
    .literal "^\\.env" false (by decide +kernel),
    .literal "^package\\.json$" false (by decide +kernel),
    .literal "^package-lock\\.json$" false (by decide +kernel),
    .literal "^yarn\\.lock$" false (by decide +kernel),
    .literal "^pnpm-lock\\.yaml$" false (by decide +kernel),
    .literal "^tsconfig.*\\.json$" false (by decide +kernel),
    .literal "^\\.eslintrc" false (by decide +kernel),
    .literal "^\\.prettierrc" false (by decide +kernel)]

structure PathCheck where
  valid : Bool
  reason : Option Text := none
  sensitive : Bool

/-- `filePath.replace(/\\/g, "/")` -/
def slashed (filePath : Text) : Text := filePath.replaceUnit (u '\\') (u '/')

/-- A segment that is neither empty nor a dot. -/
def kept (segment : Text) : Bool := segment ≠ [] && segment ≠ text "."

def patchPathSegments (filePath : Text) : List Text :=
  let stripped := if Text.startsWith filePath (text "./") then filePath.drop 2 else filePath
  (Text.split (u '/') stripped).filter kept

def validatePatchPath (filePath : Text) : PathCheck :=
  let normalized := slashed filePath
  if Text.includes normalized [0] then ⟨false, some (text "Null byte in path"), false⟩
  else if Text.startsWith normalized (text "/") || Text.hasDrive normalized then
    ⟨false, some (text "Absolute path rejected: \"" ++ filePath ++ text "\""), false⟩
  else
    let segments := patchPathSegments normalized
    if segments.contains (text "..") then
      ⟨false, some (text "Path traversal detected: \"" ++ filePath ++ text "\""), false⟩
    else
      let normalizedPath := Text.join (u '/') segments
      if normalizedPath = [] then
        ⟨false, some (text "Empty path rejected: \"" ++ filePath ++ text "\""), false⟩
      else ⟨true, none, SENSITIVE_PATH_PATTERNS.any (·.test normalizedPath)⟩

/-- The path, or the message of the error that is thrown. -/
def normalizePatchPath (filePath : Text) : Except (Option Text) Text :=
  let pathCheck := validatePatchPath filePath
  if pathCheck.valid then .ok (Text.join (u '/') (patchPathSegments (slashed filePath)))
  else .error pathCheck.reason

/-! ## The exposure ledger -/

/-- `normalizePath` of the ledger. -/
def normalizePath (filePath : Text) : Except Text Text :=
  let normalized := slashed filePath
  if Text.startsWith normalized (text "/") || Text.hasDrive normalized then
    .error (text "Absolute path rejected: \"" ++ filePath ++
      text "\" — paths must be repo-relative")
  else
    match resolve [] (Text.split (u '/') normalized) with
    | none => .error (text "Path traversal detected: \"" ++ filePath ++ text "\" escapes repo root")
    | some resolved =>
      let result := Text.join (u '/') resolved
      if result = [] then .error (text "Empty path after normalization: \"" ++ filePath ++ text "\"")
      else .ok result

end LetAgents.Rental.PathPolicy

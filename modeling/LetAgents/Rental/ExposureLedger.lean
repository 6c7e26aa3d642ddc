import LetAgents.Rental.PathPolicy
import Mathlib.Data.List.Sort

/-!
# The exposure ledger

Source: src/api/rental/exposure-ledger.ts:136-253.

The rows of a session and a path come newest first by `created_at`; rows of one millisecond
come in any order, so `select` is any function that answers so. What `recordExposure` stores of
the content, its size and its hash, is not read here.
-/
namespace LetAgents.Rental.ExposureLedger

open Lib.RegExp PathPolicy

inductive ExposureType where
  | file | search_result | directory_listing | command_output
  deriving DecidableEq

inductive SecretScanStatus where
  | passed | redacted | blocked
  deriving DecidableEq

structure RecordExposureInput where
  sessionId : Text
  path : Text
  exposureType : ExposureType
  reason : Option Text := none
  redactionCount : Option Nat := none
  secretScanStatus : Option SecretScanStatus := none
  requestedBy : Option Text := none
  approvedBy : Option Text := none
  scopeId : Option Text := none

structure ExposureRecord where
  id : Text
  session_id : Text
  path : Text
  exposure_type : ExposureType
  reason : Option Text
  redaction_count : Nat
  secret_scan_status : SecretScanStatus
  requested_by : Option Text
  approved_by : Option Text
  scope_id : Option Text
  created_at : Nat
  deriving DecidableEq

/-- A call of `recordExposure`, its id and its time. -/
structure Recording where
  input : RecordExposureInput
  id : Text
  now : Nat

def recordExposure (ledger : List ExposureRecord) (call : Recording) :
    Except Text (List ExposureRecord) := do
  let path ← normalizePath call.input.path
  .ok (ledger ++ [{
    id := call.id
    session_id := call.input.sessionId
    path
    exposure_type := call.input.exposureType
    reason := call.input.reason
    redaction_count := call.input.redactionCount.getD 0
    secret_scan_status := call.input.secretScanStatus.getD .passed
    requested_by := call.input.requestedBy
    approved_by := call.input.approvedBy
    scope_id := call.input.scopeId
    created_at := call.now }])

/-- The ledger after some calls; one that throws stores nothing. -/
def recorded (ledger : List ExposureRecord) (calls : List Recording) : List ExposureRecord :=
  calls.foldl (fun ledger call => (recordExposure ledger call).toOption.getD ledger) ledger

section Lookup

variable (select : Text → Text → List ExposureRecord)

def findExposure (sessionId filePath : Text) : Except Text (Option ExposureRecord) :=
  (normalizePath filePath).map fun path => (select sessionId path).head?

def ExposureRecord.authorizes (exposure : ExposureRecord) : Bool :=
  exposure.exposure_type = .file && exposure.secret_scan_status ≠ .blocked

def isPathExposed (sessionId filePath : Text) : Except Text Bool :=
  (findExposure select sessionId filePath).map fun exposure =>
    exposure.any ExposureRecord.authorizes

end Lookup

/-- The rows of a session and a path. -/
def rowsOf (ledger : List ExposureRecord) (sessionId path : Text) : List ExposureRecord :=
  ledger.filter fun row => row.session_id = sessionId ∧ row.path = path

/-- The database answers with the rows, newest first. -/
def Answers (ledger : List ExposureRecord) (select : Text → Text → List ExposureRecord) : Prop :=
  ∀ sessionId path, (select sessionId path).Perm (rowsOf ledger sessionId path) ∧
    (select sessionId path).Pairwise fun newer older => older.created_at ≤ newer.created_at

/-- One such database keeps rows of one millisecond in the order of their insertion. -/
def newestFirst (ledger : List ExposureRecord) (sessionId path : Text) : List ExposureRecord :=
  (rowsOf ledger sessionId path).insertionSort fun newer older => older.created_at ≤ newer.created_at

/-! ## The law -/

/-- The newest of the file exposures. -/
def newestFile (rows : List ExposureRecord) : Option ExposureRecord :=
  rows.find? fun row => row.exposure_type = .file

/-- A file exposure of the path that no other is newer than. -/
structure Newest (ledger : List ExposureRecord) (sessionId path : Text) (row : ExposureRecord) :
    Prop where
  stored : row ∈ rowsOf ledger sessionId path
  file : row.exposure_type = .file
  newest : ∀ other ∈ rowsOf ledger sessionId path, other.exposure_type = .file →
    other.created_at ≤ row.created_at

/-- The newest file exposure is there and not blocked. -/
def Authorised (rows : List ExposureRecord) : Prop :=
  ∃ row, newestFile rows = some row ∧ row.secret_scan_status ≠ .blocked

/-- The newest exposure, if there is one, is of a file. -/
def FileFirst (rows : List ExposureRecord) : Prop :=
  ∀ row ∈ rows.head?, row.exposure_type = .file

/-- What the ledger should say of a path. -/
structure Lawful (ledger : List ExposureRecord) (select : Text → Text → List ExposureRecord)
    (sessionId filePath path : Text) : Prop where
  found : ∀ row, newestFile (select sessionId path) = some row → Newest ledger sessionId path row
  missed : newestFile (select sessionId path) = none →
    ∀ row ∈ rowsOf ledger sessionId path, row.exposure_type ≠ .file
  exposed : isPathExposed select sessionId filePath = .ok true ↔ Authorised (select sessionId path)

/-! ## Lookup -/

theorem newestFirst_answers (ledger : List ExposureRecord) : Answers ledger (newestFirst ledger) := by
  intro sessionId path
  constructor
  · exact List.perm_insertionSort _ _
  · have : IsTrans ExposureRecord fun newer older => older.created_at ≤ newer.created_at :=
      ⟨fun _ _ _ first second => Nat.le_trans second first⟩
    exact List.pairwise_insertionSort _ _

theorem newestFile_newest (answers : Answers ledger select)
    (first : newestFile (select sessionId path) = some row) : Newest ledger sessionId path row := by
  obtain ⟨same, sorted⟩ := answers sessionId path
  obtain ⟨file, before, after, split, earlier⟩ := List.find?_eq_some_iff_append.mp first
  constructor
  · exact same.mem_iff.mp (List.mem_of_find?_eq_some first)
  · exact of_decide_eq_true file
  · intro other stored isFile
    have listed := same.mem_iff.mpr stored
    rw [split] at listed sorted
    rcases List.mem_append.mp listed with ahead | behind
    · have another := earlier other ahead
      simp [isFile] at another
    · rcases List.mem_cons.mp behind with rfl | behind
      · exact le_rfl
      · exact List.rel_of_pairwise_cons (List.pairwise_append.mp sorted).2.1 behind

theorem isPathExposed_true (normal : normalizePath filePath = .ok path) :
    isPathExposed select sessionId filePath = .ok true ↔
      ∃ row, (select sessionId path).head? = some row ∧ row.authorizes = true := by
  simp only [isPathExposed, findExposure, normal, Except.map, Except.ok.injEq, Option.any_eq_true]

theorem newestFile_of_head (first : rows.head? = some row) (file : row.exposure_type = .file) :
    newestFile rows = some row := by
  cases rows with
  | nil => cases first
  | cons head rest =>
    obtain rfl := Option.some.inj first
    exact List.find?_cons_of_pos (decide_eq_true file)

/-- The ledger answers by its law exactly where the newest exposure of the path is of a file, or
there is no unblocked newest file exposure. -/
theorem isPathExposed_lawful (history : List Recording)
    (answers : Answers (recorded [] history) select) (normal : normalizePath filePath = .ok path) :
    Lawful (recorded [] history) select sessionId filePath path ↔
      FileFirst (select sessionId path) ∨ ¬Authorised (select sessionId path) := by
  constructor
  · intro lawful
    by_cases authorised : Authorised (select sessionId path)
    · left
      obtain ⟨row, first, authorizes⟩ := (isPathExposed_true normal).mp (lawful.exposed.mpr authorised)
      intro newest member
      obtain rfl := Option.some.inj (member.symm.trans first)
      simp only [ExposureRecord.authorizes, Bool.and_eq_true, decide_eq_true_eq] at authorizes
      exact authorizes.1
    · exact .inr authorised
  · intro condition
    constructor
    · exact fun row first => newestFile_newest answers first
    · intro none row stored file
      have listed := (answers sessionId path).1.mem_iff.mpr stored
      exact List.find?_eq_none.mp none row listed (decide_eq_true file)
    · rw [isPathExposed_true normal]
      constructor
      · rintro ⟨row, first, authorizes⟩
        simp only [ExposureRecord.authorizes, Bool.and_eq_true, decide_eq_true_eq] at authorizes
        exact ⟨row, newestFile_of_head first authorizes.1, authorizes.2⟩
      · rintro ⟨row, newest, unblocked⟩
        rcases condition with fileFirst | unauthorised
        · cases head : (select sessionId path).head? with
          | none =>
            rw [List.head?_eq_none_iff.mp head] at newest
            cases newest
          | some first =>
            have file := fileFirst first head
            obtain rfl := Option.some.inj ((newestFile_of_head head file).symm.trans newest)
            exact ⟨first, rfl, by simp [ExposureRecord.authorizes, file, unblocked]⟩
        · exact absurd ⟨row, newest, unblocked⟩ unauthorised

/-- A file that is read again after a search. -/
def readAgain : List Recording :=
  [⟨{ sessionId := text "s", path := text "src/a.ts", exposureType := .file }, text "1", 1⟩,
    ⟨{ sessionId := text "s", path := text "src/a.ts", exposureType := .search_result }, text "2", 2⟩,
    ⟨{ sessionId := text "s", path := text "./src/a.ts", exposureType := .file }, text "3", 3⟩]

theorem isPathExposed_lawful_readAgain :
    Lawful (recorded [] readAgain) (newestFirst (recorded [] readAgain)) (text "s") (text "src/a.ts")
      (text "src/a.ts") :=
  (isPathExposed_lawful readAgain (newestFirst_answers _) (by decide +kernel)).mpr
    (.inl (by unfold FileFirst; decide +kernel))

/-- A search after a read: the file was exposed, and an edit of it is refused. -/
def searched : List Recording := readAgain.take 2

theorem searched_unlawful :
    ¬Lawful (recorded [] searched) (newestFirst (recorded [] searched)) (text "s") (text "src/a.ts")
      (text "src/a.ts") := by
  intro lawful
  have refused : isPathExposed (newestFirst (recorded [] searched)) (text "s") (text "src/a.ts") =
      .ok false := by decide +kernel
  have authorised : Authorised (newestFirst (recorded [] searched) (text "s") (text "src/a.ts")) :=
    ⟨⟨text "1", text "s", text "src/a.ts", .file, none, 0, .passed, none, none, none, 1⟩,
      by decide +kernel, by decide⟩
  rw [lawful.exposed.mpr authorised] at refused
  cases refused

end LetAgents.Rental.ExposureLedger

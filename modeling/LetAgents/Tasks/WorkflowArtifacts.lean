import LetAgents.Lib.Js
import LetAgents.Lib.Texts

/-!
# Workflow artifacts of a task

Source: src/api/repo-workflow/task-artifacts.ts:46, 60-75, 151-242, 442-469.

The artifacts of a task are merged without repetitions, the pull request of its `pr_url` last,
and the newest 32 are kept. The pull request is looked for before that cut: one that 32 others
follow is lost.

Modelling boundary: `undefined` and `null` are both `none`; `new URL` is the argument `parseUrl`,
with the host name and the path of what it accepts.
-/
namespace LetAgents.Tasks.WorkflowArtifacts

open Lib Lib.RegExp

inductive TaskWorkflowRefProvider where
  | git | github | gitlab | bitbucket | unknown
  deriving DecidableEq

inductive TaskWorkflowArtifactKind where
  | issue | branch | commit | diff | change_summary | pull_request | merge_request | review
  | check_run | merge
  deriving DecidableEq

structure TaskWorkflowArtifact where
  provider : TaskWorkflowRefProvider
  kind : TaskWorkflowArtifactKind
  id : Option Text := none
  number : Option Rat := none
  title : Option Text := none
  url : Option Text := none
  ref : Option Text := none
  state : Option Text := none
  detail : Option Js.JsValue := none

def MAX_TASK_WORKFLOW_ARTIFACTS : Nat := 32

/-- A text as a condition. -/
def present (value : Option Text) : Option Text := value.filter fun text => text ≠ []

def areSameTaskWorkflowArtifact (left right : TaskWorkflowArtifact) : Bool :=
  match present left.url, present right.url with
  | some url, some url' => url = url'
  | _, _ => left.provider = right.provider && left.kind = right.kind &&
      left.number = right.number && left.ref = right.ref && left.id = right.id

structure Url where
  hostname : Text
  pathname : Text

/-- `Number(match[1])` for `(\d+)`. -/
def number (digits : Text) : Option Rat :=
  if digits ≠ [] ∧ digits.all isDigit then
    some (Js.double (digits.foldl (fun value c => value * 10 + (c - u '0')) 0 : Nat))
  else none

/-- `/^\/[^/]+\/[^/]+\/marker\/(\d+)$/`. -/
def pullNumber (marker : String) (path : Text) : Option Rat :=
  match Text.split (u '/') path with
  | [first, owner, repo, kind, digits] =>
    if first = [] ∧ owner ≠ [] ∧ repo ≠ [] ∧ kind = text marker then number digits else none
  | _ => none

/-- The same of GitLab: any groups, then the parts `-`, `merge_requests` and the number. -/
def mergeRequestNumber (path : Text) : Option Rat :=
  match (Text.split (u '/') path).reverse with
  | digits :: kind :: dash :: groups =>
    let groups := groups.reverse
    if kind = text "merge_requests" ∧ dash = text "-" ∧ groups.head? = some [] ∧
        Text.join (u '/') groups.tail ≠ [] ∧ (groups.all fun group => !group.any isLineTerminator) then
      number digits
    else none
  | _ => none

section

variable (parseUrl : Text → Option Url)

def buildLegacyTaskWorkflowArtifacts (prUrl : Option Text) : List TaskWorkflowArtifact :=
  match present prUrl with
  | none => []
  | some prUrl =>
    let named := (parseUrl prUrl).bind fun url =>
      let hostname := url.hostname.toLowerCase
      let path := (url.pathname.reverse.dropWhile (· == u '/')).reverse
      if hostname = text "github.com" then
        (pullNumber "pull" path).map ((.github, .pull_request, ·))
      else if hostname = text "gitlab.com" then
        (mergeRequestNumber path).map ((.gitlab, .merge_request, ·))
      else if hostname = text "bitbucket.org" then
        (pullNumber "pull-requests" path).map ((.bitbucket, .pull_request, ·))
      else none
    match named with
    | some (provider, kind, number) =>
      [{ provider, kind, number := some number, url := some prUrl }]
    | none => [{ provider := .unknown, kind := .pull_request, url := some prUrl }]

/-- An artifact that is not there yet is appended. -/
def mergeArtifacts (merged artifacts : List TaskWorkflowArtifact) : List TaskWorkflowArtifact :=
  artifacts.foldl (fun merged artifact =>
    if merged.any fun existing => areSameTaskWorkflowArtifact existing artifact then merged
    else merged ++ [artifact]) merged

def normalizeTaskWorkflowArtifacts (artifacts : Option (List TaskWorkflowArtifact))
    (prUrl : Option Text) : List TaskWorkflowArtifact :=
  let merged := mergeArtifacts (mergeArtifacts [] (artifacts.getD []))
    (buildLegacyTaskWorkflowArtifacts parseUrl prUrl)
  merged.drop (merged.length - MAX_TASK_WORKFLOW_ARTIFACTS)

def synchronizeTaskWorkflowArtifactsWithPrUrl (artifacts : Option (List TaskWorkflowArtifact))
    (previousPrUrl nextPrUrl : Option Text) : List TaskWorkflowArtifact :=
  let baseArtifacts := artifacts.getD []
  if (present previousPrUrl).isSome ∧ previousPrUrl ≠ nextPrUrl then
    let previousLegacyArtifacts := buildLegacyTaskWorkflowArtifacts parseUrl previousPrUrl
    normalizeTaskWorkflowArtifacts parseUrl
      (some (baseArtifacts.filter fun artifact => !previousLegacyArtifacts.any fun previous =>
        areSameTaskWorkflowArtifact artifact previous)) nextPrUrl
  else normalizeTaskWorkflowArtifacts parseUrl (some baseArtifacts) nextPrUrl

end

/-! ## Merging -/

/-- No two are the same artifact. -/
def Distinct (artifacts : List TaskWorkflowArtifact) : Prop :=
  artifacts.Pairwise fun a b => areSameTaskWorkflowArtifact a b = false

variable {parseUrl : Text → Option Url} {prUrl : Option Text} {a b : TaskWorkflowArtifact}
  {merged artifacts : List TaskWorkflowArtifact}

theorem same_refl (a : TaskWorkflowArtifact) : areSameTaskWorkflowArtifact a a = true := by
  unfold areSameTaskWorkflowArtifact
  cases present a.url <;> simp

theorem mergeArtifacts_distinct (distinct : Distinct merged) :
    Distinct (mergeArtifacts merged artifacts) := by
  induction artifacts generalizing merged with
  | nil => exact distinct
  | cons a artifacts ih =>
    rw [mergeArtifacts, List.foldl_cons]
    apply ih
    split
    · exact distinct
    · next fresh =>
      rw [List.any_eq_true, not_exists] at fresh
      refine List.pairwise_append.mpr ⟨distinct, List.pairwise_singleton _ _, fun b member c here => ?_⟩
      rw [List.mem_singleton.mp here]
      simpa using fun same => fresh b ⟨member, same⟩

/-- Artifacts without repetitions are all appended. -/
theorem mergeArtifacts_of_distinct (distinct : Distinct (merged ++ artifacts)) :
    mergeArtifacts merged artifacts = merged ++ artifacts := by
  induction artifacts generalizing merged with
  | nil => simp [mergeArtifacts]
  | cons a artifacts ih =>
    have fresh : (merged.any fun b => areSameTaskWorkflowArtifact b a) = false := by
      rw [List.any_eq_false]
      intro b member
      simp [(List.pairwise_append.mp distinct).2.2 b member a List.mem_cons_self]
    rw [mergeArtifacts, List.foldl_cons, fresh, if_neg Bool.false_ne_true]
    rw [List.append_cons merged a artifacts] at distinct ⊢
    exact ih distinct

theorem buildLegacy_cases (parseUrl : Text → Option Url) (prUrl : Option Text) :
    (present prUrl = none ∧ buildLegacyTaskWorkflowArtifacts parseUrl prUrl = []) ∨
      ∃ pr, buildLegacyTaskWorkflowArtifacts parseUrl prUrl = [pr] := by
  unfold buildLegacyTaskWorkflowArtifacts
  split
  · next absent => exact .inl ⟨absent, rfl⟩
  · refine .inr ?_
    dsimp only
    split
    · exact ⟨_, rfl⟩
    · exact ⟨_, rfl⟩

/-- The persisted artifacts without their repetitions. -/
def kept (artifacts : Option (List TaskWorkflowArtifact)) : List TaskWorkflowArtifact :=
  mergeArtifacts [] (artifacts.getD [])

variable {persisted : Option (List TaskWorkflowArtifact)} {pr : TaskWorkflowArtifact}

theorem kept_distinct : Distinct (kept persisted) := mergeArtifacts_distinct List.Pairwise.nil

theorem normalize_distinct :
    Distinct (normalizeTaskWorkflowArtifacts parseUrl persisted prUrl) :=
  (mergeArtifacts_distinct kept_distinct).sublist (List.drop_sublist _ _)

theorem normalize_length : (normalizeTaskWorkflowArtifacts parseUrl persisted prUrl).length ≤
    MAX_TASK_WORKFLOW_ARTIFACTS := by
  unfold normalizeTaskWorkflowArtifacts
  simp only [List.length_drop]
  omega

theorem kept_normalize : kept (some (normalizeTaskWorkflowArtifacts parseUrl persisted prUrl)) =
    normalizeTaskWorkflowArtifacts parseUrl persisted prUrl :=
  mergeArtifacts_of_distinct normalize_distinct

theorem mergeArtifacts_single : mergeArtifacts merged [pr] =
    if merged.any fun a => areSameTaskWorkflowArtifact a pr then merged else merged ++ [pr] := rfl

/-- What is there already is not appended again. -/
theorem normalize_stable (linked : ∀ pr ∈ buildLegacyTaskWorkflowArtifacts parseUrl prUrl,
      ∃ a ∈ normalizeTaskWorkflowArtifacts parseUrl persisted prUrl,
        areSameTaskWorkflowArtifact a pr = true) :
    normalizeTaskWorkflowArtifacts parseUrl
        (some (normalizeTaskWorkflowArtifacts parseUrl persisted prUrl)) prUrl =
      normalizeTaskWorkflowArtifacts parseUrl persisted prUrl := by
  generalize again : normalizeTaskWorkflowArtifacts parseUrl persisted prUrl = result at linked
  have short : result.length - MAX_TASK_WORKFLOW_ARTIFACTS = 0 := by
    rw [← again, Nat.sub_eq_zero_iff_le]
    exact normalize_length
  have whole : kept (some result) = result := again ▸ kept_normalize
  unfold kept at whole
  unfold normalizeTaskWorkflowArtifacts
  rw [whole]
  rcases buildLegacy_cases parseUrl prUrl with ⟨_, none⟩ | ⟨pr, one⟩
  · rw [none]
    simp [mergeArtifacts, short]
  · rw [one, mergeArtifacts_single, if_pos (List.any_eq_true.mpr (linked pr (one ▸ by simp)))]
    simp [short]

/-! ## The pull request -/

/-- Fewer than 32 of the artifacts come after the last that is the pull request. -/
def Recent (pr : TaskWorkflowArtifact) (artifacts : List TaskWorkflowArtifact) : Prop :=
  ∀ before a after, artifacts = before ++ a :: after → areSameTaskWorkflowArtifact a pr = true →
    (∀ b ∈ after, areSameTaskWorkflowArtifact b pr = false) →
      after.length < MAX_TASK_WORKFLOW_ARTIFACTS

theorem last_same (found : ∃ a ∈ artifacts, areSameTaskWorkflowArtifact a pr = true) :
    ∃ before a after, artifacts = before ++ a :: after ∧
      areSameTaskWorkflowArtifact a pr = true ∧
      ∀ b ∈ after, areSameTaskWorkflowArtifact b pr = false := by
  induction artifacts with
  | nil => simp at found
  | cons c artifacts ih =>
    by_cases later : ∃ a ∈ artifacts, areSameTaskWorkflowArtifact a pr = true
    · obtain ⟨before, a, after, rfl, same, none⟩ := ih later
      exact ⟨c :: before, a, after, rfl, same, none⟩
    · obtain ⟨a, member, same⟩ := found
      rcases List.mem_cons.mp member with rfl | member
      · exact ⟨[], a, artifacts, rfl, same, by simpa using later⟩
      · exact absurd ⟨a, member, same⟩ later

theorem recent_iff (found : ∃ a ∈ artifacts, areSameTaskWorkflowArtifact a pr = true) :
    Recent pr artifacts ↔
      ∃ a ∈ artifacts.drop (artifacts.length - MAX_TASK_WORKFLOW_ARTIFACTS),
        areSameTaskWorkflowArtifact a pr = true := by
  constructor
  · intro recent
    obtain ⟨before, a, after, rfl, same, none⟩ := last_same found
    have newer := recent before a after rfl same none
    refine ⟨a, ?_, same⟩
    rw [List.drop_append_of_le_length]
    · simp
    · simp only [List.length_append, List.length_cons]
      omega
  · rintro ⟨b, member, same⟩ before a after rfl _ none
    by_contra older
    have behind : b ∈ after := by
      rw [List.append_cons, List.drop_append] at member
      rw [List.drop_eq_nil_of_le (by simp only [List.length_append, List.length_cons]; omega)] at member
      exact List.mem_of_mem_drop member
    simp [none b behind] at same

/-- The whole claim of the two functions for a task. -/
structure KeepsPullRequest (parseUrl : Text → Option Url)
    (artifacts : Option (List TaskWorkflowArtifact)) (prUrl : Option Text) : Prop where
  bounded : (normalizeTaskWorkflowArtifacts parseUrl artifacts prUrl).length ≤
    MAX_TASK_WORKFLOW_ARTIFACTS
  distinct : Distinct (normalizeTaskWorkflowArtifacts parseUrl artifacts prUrl)
  stable : normalizeTaskWorkflowArtifacts parseUrl
      (some (normalizeTaskWorkflowArtifacts parseUrl artifacts prUrl)) prUrl =
    normalizeTaskWorkflowArtifacts parseUrl artifacts prUrl
  linked : (present prUrl).isSome = true →
    ∃ pr ∈ buildLegacyTaskWorkflowArtifacts parseUrl prUrl,
      ∃ a ∈ normalizeTaskWorkflowArtifacts parseUrl artifacts prUrl,
        areSameTaskWorkflowArtifact a pr = true
  replaced : ∀ previous, (present previous).isSome = true → previous ≠ prUrl →
    ∀ old ∈ buildLegacyTaskWorkflowArtifacts parseUrl previous,
      ∀ a ∈ synchronizeTaskWorkflowArtifactsWithPrUrl parseUrl artifacts previous prUrl,
        areSameTaskWorkflowArtifact a old = true →
          ∃ pr ∈ buildLegacyTaskWorkflowArtifacts parseUrl prUrl,
            areSameTaskWorkflowArtifact a pr = true

theorem mem_mergeArtifacts (member : a ∈ mergeArtifacts merged artifacts) :
    a ∈ merged ∨ a ∈ artifacts := by
  induction artifacts generalizing merged with
  | nil => exact .inl member
  | cons b artifacts ih =>
    rw [mergeArtifacts, List.foldl_cons] at member
    rcases ih member with before | after
    · split at before
      · exact .inl before
      · rcases List.mem_append.mp before with old | new
        · exact .inl old
        · exact .inr (List.mem_singleton.mp new ▸ .head _)
    · exact .inr (.tail _ after)

theorem synchronize_replaced (changed : (present previous).isSome = true ∧ previous ≠ prUrl)
    (made : old ∈ buildLegacyTaskWorkflowArtifacts parseUrl previous)
    (member : a ∈ synchronizeTaskWorkflowArtifactsWithPrUrl parseUrl persisted previous prUrl)
    (same : areSameTaskWorkflowArtifact a old = true) :
    ∃ pr ∈ buildLegacyTaskWorkflowArtifacts parseUrl prUrl,
      areSameTaskWorkflowArtifact a pr = true := by
  rw [synchronizeTaskWorkflowArtifactsWithPrUrl, if_pos changed] at member
  rcases mem_mergeArtifacts (List.mem_of_mem_drop member) with first | new
  · rcases mem_mergeArtifacts first with none | base
    · simp at none
    · have apart := (List.mem_filter.mp base).2
      rw [Bool.not_eq_true', List.any_eq_false] at apart
      exact absurd same (apart old made)
  · exact ⟨a, new, same_refl a⟩

theorem linked_iff (made : buildLegacyTaskWorkflowArtifacts parseUrl prUrl = [pr]) :
    (∃ a ∈ normalizeTaskWorkflowArtifacts parseUrl persisted prUrl,
      areSameTaskWorkflowArtifact a pr = true) ↔ Recent pr (kept persisted) := by
  have unfolded : normalizeTaskWorkflowArtifacts parseUrl persisted prUrl =
      (mergeArtifacts (kept persisted) [pr]).drop
        ((mergeArtifacts (kept persisted) [pr]).length - MAX_TASK_WORKFLOW_ARTIFACTS) := by
    rw [normalizeTaskWorkflowArtifacts, made]
    rfl
  rw [unfolded, mergeArtifacts_single]
  by_cases found : ∃ a ∈ kept persisted, areSameTaskWorkflowArtifact a pr = true
  · rw [if_pos (List.any_eq_true.mpr found)]
    exact (recent_iff found).symm
  · rw [if_neg (fun any => found (List.any_eq_true.mp any))]
    constructor
    · intro _ before a after cut same _
      exact absurd ⟨a, by simp [cut], same⟩ found
    · intro _
      refine ⟨pr, ?_, same_refl pr⟩
      rw [List.drop_append_of_le_length]
      · simp
      · simp only [List.length_append, List.length_singleton, MAX_TASK_WORKFLOW_ARTIFACTS]
        omega

theorem keepsPullRequest_iff (parseUrl : Text → Option Url)
    (artifacts : Option (List TaskWorkflowArtifact)) (prUrl : Option Text) :
    KeepsPullRequest parseUrl artifacts prUrl ↔
      ∀ pr ∈ buildLegacyTaskWorkflowArtifacts parseUrl prUrl, Recent pr (kept artifacts) := by
  constructor
  · intro keeps pr made
    rcases buildLegacy_cases parseUrl prUrl with ⟨_, none⟩ | ⟨own, one⟩
    · simp [none] at made
    · have whole : (present prUrl).isSome = true := by
        cases absent : present prUrl with
        | none => simp [buildLegacyTaskWorkflowArtifacts, absent] at one
        | some _ => rfl
      obtain ⟨linked, inLegacy, kept⟩ := keeps.linked whole
      rw [one, List.mem_singleton] at made inLegacy
      rw [made]
      exact (linked_iff one).mp (inLegacy ▸ kept)
  · intro recent
    have linked : ∀ pr ∈ buildLegacyTaskWorkflowArtifacts parseUrl prUrl,
        ∃ a ∈ normalizeTaskWorkflowArtifacts parseUrl artifacts prUrl,
          areSameTaskWorkflowArtifact a pr = true := by
      intro pr made
      rcases buildLegacy_cases parseUrl prUrl with ⟨_, none⟩ | ⟨own, one⟩
      · simp [none] at made
      · rw [one, List.mem_singleton] at made
        exact (linked_iff (made ▸ one)).mpr (recent pr (made ▸ one ▸ List.mem_singleton.mpr rfl))
    constructor
    · exact normalize_length
    · exact normalize_distinct
    · exact normalize_stable linked
    · intro whole
      rcases buildLegacy_cases parseUrl prUrl with ⟨absent, _⟩ | ⟨pr, one⟩
      · simp [absent] at whole
      · exact ⟨pr, one ▸ List.mem_singleton.mpr rfl, linked pr (one ▸ List.mem_singleton.mpr rfl)⟩
    · intro previous whole changed old made a member same
      exact synchronize_replaced ⟨whole, changed⟩ made member same

/-- A pull request and the 32 checks that the webhook adds after it. -/
theorem pull_request_lost :
    let url := text "https://github.com/team/repo/pull/7"
    let parseUrl := fun prUrl =>
      if prUrl = url then some ⟨text "github.com", text "/team/repo/pull/7"⟩ else none
    let pr : TaskWorkflowArtifact :=
      { provider := .github, kind := .pull_request, number := some 7, url := some url }
    let checks := (List.range 32).map fun n : Nat =>
      { provider := .github, kind := .check_run, number := some n : TaskWorkflowArtifact }
    ¬ KeepsPullRequest parseUrl (some (pr :: checks)) (some url) := by
  intro url parseUrl pr checks keeps
  have lost : ((buildLegacyTaskWorkflowArtifacts parseUrl (some url)).any fun pr' =>
      (normalizeTaskWorkflowArtifacts parseUrl (some (pr :: checks)) (some url)).any fun a =>
        areSameTaskWorkflowArtifact a pr') = false := by decide +kernel
  obtain ⟨pr', made, a, member, same⟩ := keeps.linked rfl
  rw [List.any_eq_false] at lost
  exact lost pr' made (List.any_eq_true.mpr ⟨a, member, same⟩)

end LetAgents.Tasks.WorkflowArtifacts

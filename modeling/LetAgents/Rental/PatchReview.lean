import LetAgents.Lib.Replay
import LetAgents.Rental.SessionLifecycle

/-!
# Renter review of a proposed patch

Source: src/api/rental/patch-review/index.ts:52-240, session-transitions.ts:5-64,
projection.ts:13-51 and the response check of github-pr.ts:183-206.

A decision reads the patch, decides, and writes without a lock: an approval opens the
pull request between its read and its write, and both decisions write the review they
merged with the row they read. Every dependency call is one step. Where nothing changes
under an approval between its read and its write, a patch gets one pull request.

Modelling boundary: the calls are about one patch, which stays in its table; the files
and the texts of the pull request are left out, and a failure to extract them is a
failed call.
-/
namespace LetAgents.Rental.PatchReview

open Lib.Js Lib.Checked Lib.Replay
open LetAgents.Rental.BudgetSentinel (SessionStatus)
open SessionLifecycle

inductive PatchGateStatus where
  | pending | passed | passedWithWarnings | needsRenterApproval | rejected | needsRevision
  | timedOut

structure PatchRow where
  gateStatus : PatchGateStatus
  checkResults : JsValue

/-- A pull request as `parsePullRequestResult` lets it through. -/
structure RentalPatchPullRequest where
  number : Rat
  url : String
  title : String
  headRef : Option String
  baseRef : Option String
  commitSha : Option String
  url_ne : url ≠ ""

/-! ## The review of a patch -/

/-- The value if it is a record, else the empty one. -/
def record : JsValue → JsValue
  | .object properties => .object properties
  | _ => .object []

def reviewRecord (row : PatchRow) : JsValue :=
  record ((record row.checkResults).property "review")

def mergeReview (row : PatchRow) (review : List (String × JsValue)) : JsValue :=
  (record row.checkResults).assign "review"
    (review.foldl (fun merged entry => merged.assign entry.1 entry.2) (reviewRecord row))

def optionalText : Option String → JsValue
  | some text => .string text
  | none => .null

/-- The pull request of an approved review, by its number and its address. -/
def existingApprovedPullRequest (row : PatchRow) : Option (Rat × String) :=
  let review := reviewRecord row
  match review.property "status", review.property "pr_url", review.property "pr_number" with
  | .string "approved", .string url, .number (.finite number) =>
    if url ≠ "" then some (number, url) else none
  | _, _, _ => none

/-! ## Decisions -/

def approvable : PatchGateStatus → Bool
  | .passed | .passedWithWarnings | .needsRenterApproval => true
  | _ => false

def changeRequestable : PatchGateStatus → Bool
  | .pending | .passed | .passedWithWarnings | .needsRenterApproval | .needsRevision => true
  | _ => false

def approvalTransitionPlan : SessionStatus → Except String (List SessionStatus)
  | .active => .ok [.patchReview, .prOpened]
  | .patchReview => .ok [.prOpened]
  | .prOpened => .ok []
  | status => .error ("cannot approve patch while session is " ++ SessionStatus.text status)

def idempotentApprovalRepairPlan : SessionStatus → List SessionStatus
  | .active => [.patchReview, .prOpened]
  | .patchReview => [.prOpened]
  | _ => []

def assertCanRequestChanges (status : SessionStatus) : Except String Unit :=
  require (status = .active ∨ status = .patchReview)
    ("cannot request patch changes while session is " ++ SessionStatus.text status)

inductive Decision where
  | approve | requestChanges
  deriving DecidableEq

/-- A call with the session row that its route has read; `renter`: the account is the
session's renter, `now`: the time that the decision writes. -/
structure ReviewCall where
  decision : Decision
  renter : Bool
  accountId : String
  note : Option String
  now : String

def requireRenter (session : SessionRow) (call : ReviewCall) : Except String Unit := do
  require call.renter "not_renter"
  require session.roomAssigned "room_not_assigned"

/-- What is checked before the patch is read. -/
def checkRequest (session : SessionRow) (call : ReviewCall) : Except String Unit := do
  requireRenter session call
  onlyIf (call.decision = .requestChanges) (assertCanRequestChanges session.status)

def approvedReview (call : ReviewCall) (pullRequest : RentalPatchPullRequest) :
    List (String × JsValue) :=
  [("status", .string "approved"), ("approved_by_account_id", .string call.accountId),
    ("approved_at", .string call.now), ("note", optionalText call.note),
    ("pr_url", .string pullRequest.url), ("pr_number", .number (.finite pullRequest.number)),
    ("pr_title", .string pullRequest.title), ("pr_head_ref", optionalText pullRequest.headRef),
    ("pr_base_ref", optionalText pullRequest.baseRef),
    ("commit_sha", optionalText pullRequest.commitSha)]

def changesReview (call : ReviewCall) : List (String × JsValue) :=
  [("status", .string "needs_revision"), ("requested_by_account_id", .string call.accountId),
    ("requested_at", .string call.now), ("note", optionalText call.note)]

/-! ## Calls -/

/-- Where a call stands between two dependency calls. -/
inductive Phase where
  | idle
  | begun (call : ReviewCall) (session : SessionRow)
  | approving (call : ReviewCall) (session : SessionRow) (patch : PatchRow)
      (transitions : List SessionStatus)
  | opened (call : ReviewCall) (session : SessionRow) (patch : PatchRow)
      (transitions : List SessionStatus) (pullRequest : RentalPatchPullRequest)
  | changing (call : ReviewCall) (session : SessionRow) (patch : PatchRow)
  /-- `applySessionTransitions`; `emits`: an activity event follows. -/
  | moving (current : SessionStatus) (remaining : List SessionStatus) (emits : Bool)
  | emitting
  | finished

/-- The call has not begun, or is over. -/
def Phase.resting : Phase → Bool
  | .idle | .finished => true
  | _ => false

/-- The call has opened a pull request that is not in the review yet. -/
def Phase.unrecorded : Phase → Bool
  | .opened .. => true
  | _ => false

/-- The transitions that are left, then the event. -/
def move (current : SessionStatus) (remaining : List SessionStatus) (emits : Bool) : Phase :=
  match remaining with
  | [] => if emits then .emitting else .finished
  | remaining => .moving current remaining emits

/-- What a call does with the patch it has read. -/
def review (call : ReviewCall) (session : SessionRow) (patch : PatchRow) : Except String Phase :=
  match call.decision with
  | .approve =>
    if (existingApprovedPullRequest patch).isSome then
      .ok (move session.status (idempotentApprovalRepairPlan session.status) false)
    else do
      require (approvable patch.gateStatus) "patch_not_approvable"
      let transitions ← approvalTransitionPlan session.status
      return .approving call session patch transitions
  | .requestChanges => do
    require (changeRequestable patch.gateStatus) "patch_not_reviewable"
    return .changing call session patch

/-- `opened`: the pull requests, with the status that the session had. -/
structure ReviewState where
  session : SessionRow
  patch : PatchRow
  opened : List (RentalPatchPullRequest × SessionStatus)
  phase : Nat → Phase

def initial (session : SessionRow) (patch : PatchRow) : ReviewState where
  session := session
  patch := patch
  opened := []
  phase _ := .idle

def ReviewState.enter (s : ReviewState) (call : Nat) (next : Phase) : ReviewState :=
  { s with phase := Function.update s.phase call next }

/-- The call goes on, or throws. -/
def ReviewState.goOn (s : ReviewState) (call : Nat) (next : Except String Phase) : ReviewState :=
  s.enter call (match next with
    | .ok phase => phase
    | .error _ => .finished)

inductive ReviewStep where
  /-- The route reads the session and calls. -/
  | start (call : Nat) (request : ReviewCall)
  | getPatch (call : Nat)
  | openPullRequest (call : Nat) (pullRequest : RentalPatchPullRequest)
  | updatePatch (call : Nat)
  | updateSessionStatus (call : Nat)
  | emitActivityEvent (call : Nat)
  | fail (call : Nat)
  /-- Any other writer of the session's status. -/
  | otherTransition (status : SessionStatus)

/-- One dependency call; `error` when the call is not there. -/
def reviewStep (s : ReviewState) : ReviewStep → Except Unit ReviewState
  | .start call request =>
    match s.phase call with
    | .idle =>
      .ok (s.goOn call ((checkRequest s.session request).map fun _ => .begun request s.session))
    | _ => .error ()
  | .getPatch call =>
    match s.phase call with
    | .begun request session => .ok (s.goOn call (review request session s.patch))
    | _ => .error ()
  | .openPullRequest call pullRequest =>
    match s.phase call with
    | .approving request session patch transitions =>
      .ok { s.enter call (.opened request session patch transitions pullRequest) with
        opened := s.opened ++ [(pullRequest, s.session.status)] }
    | _ => .error ()
  | .updatePatch call =>
    match s.phase call with
    | .opened request session patch transitions pullRequest =>
      .ok { s.enter call (move session.status transitions true) with
        patch := { s.patch with
          checkResults := mergeReview patch (approvedReview request pullRequest) } }
    | .changing request session patch =>
      .ok { s.enter call (move session.status
          (if session.status = .patchReview then [.active] else []) true) with
        patch :=
          { gateStatus := .needsRevision
            checkResults := mergeReview patch (changesReview request) } }
    | _ => .error ()
  | .updateSessionStatus call =>
    match s.phase call with
    | .moving current (next :: remaining) emits =>
      if isValidTransition current next then
        .ok { s.enter call (move next remaining emits) with
          session := { s.session with status := next } }
      else .ok (s.enter call .finished)
    | _ => .error ()
  | .emitActivityEvent call =>
    match s.phase call with
    | .emitting => .ok (s.enter call .finished)
    | _ => .error ()
  | .fail call =>
    if (s.phase call).resting then .error ()
    else .ok (s.enter call .finished)
  | .otherTransition status => .ok { s with session := { s.session with status := status } }

/-! ## The merged review -/

theorem record_assign (value : JsValue) (key : String) (entry : JsValue) :
    record (value.assign key entry) = value.assign key entry := by
  cases value <;> rfl

/-- The review that was written is the one that is read back. -/
theorem reviewRecord_merged {review : List (String × JsValue)} (some' : review ≠ [])
    (merged : written.checkResults = mergeReview row review) : reviewRecord written =
      review.foldl (fun merged entry => merged.assign entry.1 entry.2) (reviewRecord row) := by
  rw [reviewRecord, merged, mergeReview, record_assign, JsValue.property_assign_self]
  obtain ⟨front, last, rfl⟩ := List.eq_nil_or_concat review |>.resolve_left some'
  rw [List.concat_eq_append, List.foldl_append, List.foldl_cons, List.foldl_nil, record_assign]

/-- The written approval carries its pull request. -/
theorem approved_carries
    (merged : written.checkResults = mergeReview row (approvedReview call pullRequest)) :
    existingApprovedPullRequest written = some (pullRequest.number, pullRequest.url) := by
  have read := reviewRecord_merged (List.cons_ne_nil _ _) merged
  simp only [List.foldl_cons, List.foldl_nil] at read
  have status : (reviewRecord written).property "status" = .string "approved" := by
    rw [read]
    simp only [JsValue.property_assign_self, JsValue.property_assign_ne (by decide : "status" ≠ "commit_sha"),
      JsValue.property_assign_ne (by decide : "status" ≠ "pr_base_ref"),
      JsValue.property_assign_ne (by decide : "status" ≠ "pr_head_ref"),
      JsValue.property_assign_ne (by decide : "status" ≠ "pr_title"),
      JsValue.property_assign_ne (by decide : "status" ≠ "pr_number"),
      JsValue.property_assign_ne (by decide : "status" ≠ "pr_url"),
      JsValue.property_assign_ne (by decide : "status" ≠ "note"),
      JsValue.property_assign_ne (by decide : "status" ≠ "approved_at"),
      JsValue.property_assign_ne (by decide : "status" ≠ "approved_by_account_id")]
  have url : (reviewRecord written).property "pr_url" = .string pullRequest.url := by
    rw [read]
    simp only [JsValue.property_assign_self, JsValue.property_assign_ne (by decide : "pr_url" ≠ "commit_sha"),
      JsValue.property_assign_ne (by decide : "pr_url" ≠ "pr_base_ref"),
      JsValue.property_assign_ne (by decide : "pr_url" ≠ "pr_head_ref"),
      JsValue.property_assign_ne (by decide : "pr_url" ≠ "pr_title"),
      JsValue.property_assign_ne (by decide : "pr_url" ≠ "pr_number")]
  have number : (reviewRecord written).property "pr_number" =
      .number (.finite pullRequest.number) := by
    rw [read]
    simp only [JsValue.property_assign_self, JsValue.property_assign_ne (by decide : "pr_number" ≠ "commit_sha"),
      JsValue.property_assign_ne (by decide : "pr_number" ≠ "pr_base_ref"),
      JsValue.property_assign_ne (by decide : "pr_number" ≠ "pr_head_ref"),
      JsValue.property_assign_ne (by decide : "pr_number" ≠ "pr_title")]
  unfold existingApprovedPullRequest
  simp only [status, url, number, ne_eq, pullRequest.url_ne, not_false_eq_true, if_true]

/-! ## One step -/

/-- Between its read and its pull request an approval finds the patch and a plan for the
session as they were, no other approval is about to write its review, and no call fails
there; changes are requested where no approval has opened a pull request. -/
def Undisturbed (s : ReviewState) : ReviewStep → Prop
  | .openPullRequest call _ =>
    ∀ request session patch transitions,
      s.phase call = .approving request session patch transitions →
        s.patch = patch ∧ (∀ other, (s.phase other).unrecorded = false) ∧
          (approvalTransitionPlan s.session.status).isOk = true
  | .updatePatch call =>
    ∀ request session patch, s.phase call = .changing request session patch →
      existingApprovedPullRequest s.patch = none ∧ ∀ other, (s.phase other).unrecorded = false
  | .fail call => (s.phase call).unrecorded = false
  | _ => True

/-- How far the patch has come. -/
inductive Progress (s : ReviewState) : Prop
  | unopened (opened : s.opened = []) (quiet : ∀ call, (s.phase call).unrecorded = false)
  | unrecorded (call : Nat) (request : ReviewCall) (session : SessionRow) (patch : PatchRow)
      (transitions : List SessionStatus) (pullRequest : RentalPatchPullRequest)
      (status : SessionStatus) (opened : s.opened = [(pullRequest, status)])
      (alive : isTerminal status = false)
      (at' : s.phase call = .opened request session patch transitions pullRequest)
      (approves : approvable s.patch.gateStatus = true)
      (others : ∀ other, other ≠ call → (s.phase other).unrecorded = false)
  | recorded (pullRequest : RentalPatchPullRequest) (status : SessionStatus)
      (opened : s.opened = [(pullRequest, status)]) (alive : isTerminal status = false)
      (carries : existingApprovedPullRequest s.patch = some (pullRequest.number, pullRequest.url))
      (gate : s.patch.gateStatus ≠ .needsRevision)
      (quiet : ∀ call, (s.phase call).unrecorded = false)

/-- An approval has read a patch without a pull request that may be approved. -/
def Phase.Sound : Phase → Prop
  | .approving _ _ patch _ =>
    existingApprovedPullRequest patch = none ∧ approvable patch.gateStatus = true
  | _ => True

structure Sound (s : ReviewState) : Prop where
  phases : ∀ call, (s.phase call).Sound
  progress : Progress s

theorem enter_phase (s : ReviewState) (call other : Nat) (next : Phase) :
    (s.enter call next).phase other = if other = call then next else s.phase other := by
  simp only [ReviewState.enter, Function.update_apply]

theorem enter_quiet {s : ReviewState}
    (others : ∀ other, other ≠ call → (s.phase other).unrecorded = false)
    (recorded : next.unrecorded = false) (other : Nat) :
    ((s.enter call next).phase other).unrecorded = false := by
  rw [enter_phase]
  split
  · exact recorded
  · rename_i different
    exact others other different

theorem enter_phases (sound : Sound s) (facts : next.Sound) (other : Nat) :
    ((s.enter call next).phase other).Sound := by
  rw [enter_phase]
  split
  · exact facts
  · exact sound.phases other

/-- A call goes on without touching the patch. -/
theorem Sound.enter (sound : Sound s) (before : (s.phase call).unrecorded = false)
    (after : next.unrecorded = false) (facts : next.Sound) : Sound (s.enter call next) := by
  refine ⟨enter_phases sound facts, ?_⟩
  cases sound.progress with
  | unopened opened quiet => exact .unopened opened (enter_quiet (fun other _ => quiet other) after)
  | unrecorded opener request session patch transitions pullRequest status opened alive at' approves
      others =>
      have different : opener ≠ call := by
        rintro rfl
        rw [at'] at before
        cases before
      refine .unrecorded opener request session patch transitions pullRequest status opened alive ?_
        approves fun other apart => ?_
      · rw [enter_phase, if_neg different]
        exact at'
      · rw [enter_phase]
        split
        · exact after
        · exact others other apart
  | recorded pullRequest status opened alive carries gate quiet =>
    exact .recorded pullRequest status opened alive carries gate
      (enter_quiet (fun other _ => quiet other) after)

/-- The status of the session is no part of the progress. -/
theorem Sound.transition (sound : Sound s) (status : SessionStatus) :
    Sound { s with session := { s.session with status := status } } := by
  refine ⟨sound.phases, ?_⟩
  cases sound.progress with
  | unopened opened quiet => exact .unopened opened quiet
  | unrecorded opener request session patch transitions pullRequest status opened alive at' approves
      others =>
      exact .unrecorded opener request session patch transitions pullRequest status opened alive at'
        approves others
  | recorded pullRequest status opened alive carries gate quiet =>
    exact .recorded pullRequest status opened alive carries gate quiet

theorem move_quiet (current : SessionStatus) (remaining : List SessionStatus) (emits : Bool) :
    (move current remaining emits).unrecorded = false ∧ (move current remaining emits).Sound := by
  cases remaining with
  | nil => cases emits <;> exact ⟨rfl, trivial⟩
  | cons next rest => exact ⟨rfl, trivial⟩

theorem review_quiet (ok : review call session patch = .ok next) :
    next.unrecorded = false ∧ next.Sound := by
  unfold review at ok
  split at ok
  · split at ok
    · cases ok
      exact move_quiet _ _ _
    · rename_i missing
      obtain ⟨approves, ok⟩ := require_bind_ok ok
      obtain ⟨_, _, ok⟩ := bind_ok ok
      cases ok
      exact ⟨rfl, by simpa using missing, approves⟩
  · obtain ⟨_, ok⟩ := require_bind_ok ok
    cases ok
    exact ⟨rfl, trivial⟩

/-- A call that goes on from a phase without a pull request of its own. -/
theorem Sound.goOn (sound : Sound s) (before : (s.phase call).unrecorded = false)
    (facts : ∀ after, next = .ok after → after.unrecorded = false ∧ after.Sound) :
    Sound (s.goOn call next) := by
  cases next with
  | error thrown => exact sound.enter before rfl trivial
  | ok after => exact sound.enter before (facts after rfl).1 (facts after rfl).2

theorem plan_alive (plan : (approvalTransitionPlan status).isOk = true) :
    isTerminal status = false := by
  cases status <;> first | rfl | cases plan

theorem openPullRequest_sound (sound : Sound s)
    (undisturbed : Undisturbed s (.openPullRequest call pullRequest))
    (at' : s.phase call = .approving request session patch transitions) :
    Sound { s.enter call (.opened request session patch transitions pullRequest) with
      opened := s.opened ++ [(pullRequest, s.session.status)] } := by
  obtain ⟨rfl, quiet, plan⟩ := undisturbed request session patch transitions at'
  have facts := sound.phases call
  rw [at'] at facts
  have none' : s.opened = [] := by
    cases sound.progress with
    | unopened opened _ => exact opened
    | unrecorded opener _ _ _ _ _ _ _ _ position =>
      have loud := quiet opener
      rw [position] at loud
      cases loud
    | recorded _ _ _ _ carries =>
      rw [facts.1] at carries
      cases carries
  refine ⟨enter_phases sound trivial, ?_⟩
  refine .unrecorded call request session s.patch transitions pullRequest s.session.status ?_
    (plan_alive plan) ?_ facts.2 fun other different => ?_
  · change s.opened ++ _ = _
    rw [none']
    rfl
  · change (s.enter call _).phase call = _
    rw [enter_phase, if_pos rfl]
  · change ((s.enter call _).phase other).unrecorded = false
    rw [enter_phase, if_neg different]
    exact quiet other

theorem approve_sound (sound : Sound s)
    (at' : s.phase call = .opened request session patch transitions pullRequest) :
    Sound { s.enter call (move session.status transitions true) with
      patch := { s.patch with
        checkResults := mergeReview patch (approvedReview request pullRequest) } } := by
  have quiet := move_quiet session.status transitions true
  refine ⟨enter_phases sound quiet.2, ?_⟩
  have own : (s.phase call).unrecorded = true := by rw [at']; rfl
  cases sound.progress with
  | unopened _ silent | recorded _ _ _ _ _ _ silent =>
    rw [silent call] at own
    cases own
  | unrecorded opener _ _ _ _ other status opened alive position approves others =>
    have same : call = opener := by
      by_contra different
      rw [others call different] at own
      cases own
    obtain rfl := same
    rw [at'] at position
    cases position
    refine .recorded pullRequest status opened alive (approved_carries rfl) ?_
      (enter_quiet others quiet.1)
    intro revision
    rw [revision] at approves
    cases approves

theorem change_sound (sound : Sound s) (undisturbed : Undisturbed s (.updatePatch call))
    (at' : s.phase call = .changing request session patch) (after : next.unrecorded = false)
    (facts : next.Sound) : Sound { s.enter call next with patch := row } := by
  obtain ⟨missing, quiet⟩ := undisturbed request session patch at'
  refine ⟨enter_phases sound facts, ?_⟩
  have none' : s.opened = [] := by
    cases sound.progress with
    | unopened opened _ => exact opened
    | unrecorded opener _ _ _ _ _ _ _ _ position =>
      have loud := quiet opener
      rw [position] at loud
      cases loud
    | recorded _ _ _ _ carries =>
      rw [missing] at carries
      cases carries
  exact .unopened none' (enter_quiet (fun other _ => quiet other) after)

theorem reviewStep_sound (sound : Sound s) (undisturbed : Undisturbed s step)
    (ok : reviewStep s step = .ok next) : Sound next := by
  cases step with
  | start call request =>
    simp only [reviewStep] at ok
    split at ok
    · rename_i at'
      cases ok
      refine sound.goOn (by rw [at']; rfl) fun after checked => ?_
      obtain ⟨_, _, rfl⟩ := map_ok checked
      exact ⟨rfl, trivial⟩
    · cases ok
  | getPatch call =>
    simp only [reviewStep] at ok
    split at ok
    · rename_i at'
      cases ok
      exact sound.goOn (by rw [at']; rfl) fun _ reviewed => review_quiet reviewed
    · cases ok
  | openPullRequest call pullRequest =>
    simp only [reviewStep] at ok
    split at ok
    · rename_i at'
      cases ok
      exact openPullRequest_sound sound undisturbed at'
    · cases ok
  | updatePatch call =>
    simp only [reviewStep] at ok
    split at ok
    · rename_i at'
      cases ok
      exact approve_sound sound at'
    · rename_i at'
      cases ok
      exact change_sound sound undisturbed at' (move_quiet _ _ _).1 (move_quiet _ _ _).2
    · cases ok
  | updateSessionStatus call =>
    simp only [reviewStep] at ok
    split at ok
    · rename_i current status remaining emits at'
      have before : (s.phase call).unrecorded = false := by rw [at']; rfl
      split at ok
      · cases ok
        exact (sound.enter before (move_quiet _ _ _).1 (move_quiet _ _ _).2).transition status
      · cases ok
        exact sound.enter before rfl trivial
    · cases ok
  | emitActivityEvent call =>
    simp only [reviewStep] at ok
    split at ok
    · rename_i at'
      cases ok
      exact sound.enter (by rw [at']; rfl) rfl trivial
    · cases ok
  | fail call =>
    simp only [reviewStep] at ok
    split at ok
    · cases ok
    · cases ok
      exact sound.enter undisturbed rfl trivial
  | otherTransition status =>
    cases ok
    exact sound.transition status

/-! ## Runs -/

/-- Where nothing changes under an approval: at most one pull request is opened for the
patch, on a session that is not terminal, and when every call is over the review carries
it and no revision is asked for. -/
theorem one_pull_request (session : SessionRow) (patch : PatchRow) (log : List ReviewStep)
    (undisturbed : Meets reviewStep Undisturbed (initial session patch) log) :
    let reached := replay reviewStep (initial session patch) log
    reached.opened.length ≤ 1 ∧
      ((∀ call, (reached.phase call).resting = true) →
        ∀ entry ∈ reached.opened,
          existingApprovedPullRequest reached.patch = some (entry.1.number, entry.1.url) ∧
            reached.patch.gateStatus ≠ .needsRevision ∧ isTerminal entry.2 = false) := by
  have start : Sound (initial session patch) :=
    ⟨fun _ => trivial, .unopened rfl fun _ => rfl⟩
  have sound := replay_preserves Undisturbed Sound
    (fun _ _ _ held met ok => reviewStep_sound held met ok) undisturbed start
  intro reached
  cases sound.progress with
  | unopened opened =>
    refine ⟨by rw [opened]; exact Nat.zero_le 1, fun _ entry member => ?_⟩
    rw [opened] at member
    cases member
  | unrecorded opener _ _ _ _ _ _ opened _ at' =>
    refine ⟨by rw [opened]; exact Nat.le_refl 1, fun resting => ?_⟩
    have ended := resting opener
    rw [at'] at ended
    cases ended
  | recorded pullRequest status opened alive carries gate =>
    refine ⟨by rw [opened]; exact Nat.le_refl 1, fun _ entry member => ?_⟩
    rw [opened, List.mem_singleton] at member
    rw [member]
    exact ⟨carries, gate, alive⟩

/-- An active session. -/
def activeSession : SessionRow where
  status := .active
  requestExpiresAt := none
  directMember := false
  roomAssigned := true
  launchAttempt := 0
  launchState := none
  daemonEntryId := none
  lrtLimit := none
  lrtReserved := 0
  lrtUsed := 0
  budgetStopThreshold := none
  meterConfidence := none
  heartbeatCount := 0

def passedPatch : PatchRow := ⟨.passed, .object []⟩

def approveCall : ReviewCall := ⟨.approve, true, "acct_renter", none, "2026-05-12T10:00:00.000Z"⟩

def pullRequest (number : Rat) : RentalPatchPullRequest :=
  ⟨number, "https://github.com/BrosInCode/letagents/pull", "Rental patch", none, none, none, by decide⟩

/-- Two approvals read the patch before either has written its review: each opens a
pull request. -/
theorem two_pull_requests :
    (replay reviewStep (initial activeSession passedPatch)
      [.start 0 approveCall, .start 1 approveCall, .getPatch 0, .getPatch 1,
        .openPullRequest 0 (pullRequest 1), .openPullRequest 1 (pullRequest 2), .updatePatch 0,
        .updatePatch 1]).opened.length = 2 := by
  decide +kernel

/-- One approval alone. -/
def approvedOnce : List ReviewStep :=
  [.start 0 approveCall, .getPatch 0, .openPullRequest 0 (pullRequest 1), .updatePatch 0]

theorem approved_patch_once :
    (replay reviewStep (initial activeSession passedPatch) approvedOnce).opened.length ≤ 1 := by
  have undisturbed : Meets reviewStep Undisturbed (initial activeSession passedPatch) approvedOnce := by
    refine And.intro trivial (And.intro trivial (And.intro ?_ (And.intro ?_ trivial)))
    · rintro _ _ _ _ ⟨⟩
      refine ⟨rfl, fun other => ?_, rfl⟩
      exact enter_quiet (fun other _ => enter_quiet (fun _ _ => rfl) rfl other) rfl other
    · rintro _ _ _ ⟨⟩
  exact (one_pull_request activeSession passedPatch approvedOnce undisturbed).1

end LetAgents.Rental.PatchReview

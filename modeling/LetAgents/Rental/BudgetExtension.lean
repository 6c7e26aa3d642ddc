import LetAgents.Rental.BudgetExhaustion

/-!
# Budget extension requests

Source: src/api/rental/budget-extension.ts:87-431 and activity-emitter.ts:73-117.

A decision runs in one transaction under the session's advisory lock, but its event
goes through another connection: it is in the journal at once and stays there when the
transaction rolls back. A call has no effect before it holds the lock, so the calls
that wait for it are left out of the state. The limit follows the approvals as long as
no approval fails after its event.
-/
namespace LetAgents.Rental.BudgetExtension

open Lib.Js Lib.Checked Lib.Replay SessionLifecycle
open LetAgents.Rental.BudgetAgreement (integerColumn_some)
open LetAgents.Rental.BudgetExhaustion (assertPositiveLrt set_written)

/-! ## Events and calls -/

/-- The extension events of the session, with what the calls read back of them. -/
inductive ExtensionEvent where
  | requested (id : String) (payload : JsValue)
  | approved (requestId : String) (approvedAdditionalLrt : Int)
  | denied (requestId : String)

/-- `payload->>'request_id'` of a decision. -/
def ExtensionEvent.decides (requestId : String) : ExtensionEvent → Bool
  | .requested _ _ => false
  | .approved id _ | .denied id => id = requestId

def ExtensionEvent.approvedAdditionalLrt : ExtensionEvent → Int
  | .approved _ amount => amount
  | .requested _ _ | .denied _ => 0

/-- An approval may name another amount than the requested one. -/
inductive Decision where
  | approve (approvedAdditionalLrt : Option JsNumber)
  | deny

/-- `renter`: the role of the caller's account, `none` for a stranger. -/
structure ExtensionCall where
  renter : Option Bool
  requestId : String
  decision : Decision

/-! ## Decisions -/

def ensureParticipant (session : Option SessionRow) (renter : Option Bool) :
    Except String SessionRow := do
  let row ← found session "session_not_found"
  require (renter ≠ none) "session_not_found"
  require (¬ isTerminal row.status) "session_terminal"
  require row.roomAssigned "room_not_assigned"
  return row

/-- The head of both decisions: only the renter decides. -/
def renterSession (session : Option SessionRow) (call : ExtensionCall) :
    Except String SessionRow := do
  let row ← ensureParticipant session call.renter
  require (call.renter = some true) "not_renter"
  return row

def getRequestEvent (journal : List ExtensionEvent) (requestId : String) : Option JsValue :=
  journal.findSome? fun event =>
    match event with
    | .requested id payload => if id = requestId then some payload else none
    | .approved _ _ | .denied _ => none

def hasDecision (journal : List ExtensionEvent) (requestId : String) : Bool :=
  journal.any (·.decides requestId)

def requestedLrtFrom (payload : JsValue) : Except String Int :=
  match payload.property "requested_additional_lrt" with
  | .number (.finite value) =>
    if value.den = 1 ∧ 0 < value then .ok value.num else .error "invalid_extension_request"
  | _ => .error "invalid_extension_request"

/-- The amount that an approval of the request adds. -/
def approvedLrt (payload : JsValue) (approvedAdditionalLrt : Option JsNumber) :
    Except String Int := do
  let requestedAdditionalLrt ← requestedLrtFrom payload
  assertPositiveLrt (approvedAdditionalLrt.getD (.finite requestedAdditionalLrt))
    "approvedAdditionalLrt"

/-- `incrementSessionBudget`, with the status that the approval writes. -/
def incrementSessionBudget (session : SessionRow) (additionalLrt : Int) : SessionUpdate where
  additionalLrt := some additionalLrt
  status := some (if session.status = .budgetExhausted then .active else session.status)

/-! ## Calls -/

/-- Where the call that holds the lock stands between two statements. -/
inductive Phase where
  | locked
  | loaded (session : SessionRow)
  | found (session : SessionRow) (payload : JsValue)
  | approving (session : SessionRow) (amount : Int)
  | updated (row : SessionRow) (amount : Int)
  | denying
  /-- The event is in the journal; `none`: nothing was updated. -/
  | emitted (update : Option (SessionRow × Int))

/-- `running`: the call that holds the session's advisory lock. `returned`: the
decision events of the calls that returned. -/
structure ExtensionState where
  session : Option SessionRow
  journal : List ExtensionEvent
  running : Option (ExtensionCall × Phase)
  returned : List ExtensionEvent

def initial (session : Option SessionRow) : ExtensionState where
  session := session
  journal := []
  running := none
  returned := []

/-- The call goes on, or throws and is rolled back. -/
def ExtensionState.goOn (s : ExtensionState) (call : ExtensionCall) (next : Except String Phase) :
    ExtensionState :=
  { s with running := next.toOption.map fun phase => (call, phase) }

/-- What follows the look for a decision. -/
def afterDecisions (journal : List ExtensionEvent) (call : ExtensionCall) (session : SessionRow)
    (payload : JsValue) : Except String Phase := do
  require (hasDecision journal call.requestId = false) "request_already_decided"
  match call.decision with
  | .approve approvedAdditionalLrt =>
    let amount ← approvedLrt payload approvedAdditionalLrt
    return .approving session amount
  | .deny =>
    let _ ← requestedLrtFrom payload
    return .denying

inductive ExtensionStep where
  /-- `requestBudgetExtension`, or the participants' route. -/
  | postRequest (id : String) (payload : JsValue)
  | acquireLock (call : ExtensionCall)
  | getSession
  | getRequestEvent
  | hasDecision
  | incrementSessionBudget
  | emitActivityEvent
  | commit
  | fail

/-- One statement; `error` when the running call is not at that statement. -/
def extensionStep (s : ExtensionState) : ExtensionStep → Except Unit ExtensionState
  | .postRequest id payload =>
    if (getRequestEvent s.journal id).isSome then .error ()
    else .ok { s with journal := s.journal ++ [.requested id payload] }
  | .acquireLock call =>
    match s.running with
    | none => .ok { s with running := some (call, .locked) }
    | some _ => .error ()
  | .getSession =>
    match s.running with
    | some (call, .locked) => .ok (s.goOn call ((renterSession s.session call).map .loaded))
    | _ => .error ()
  | .getRequestEvent =>
    match s.running with
    | some (call, .loaded session) =>
      .ok (s.goOn call
        ((found (getRequestEvent s.journal call.requestId) "request_not_found").map
          (.found session)))
    | _ => .error ()
  | .hasDecision =>
    match s.running with
    | some (call, .found session payload) =>
      .ok (s.goOn call (afterDecisions s.journal call session payload))
    | _ => .error ()
  | .incrementSessionBudget =>
    match s.running with
    | some (call, .approving session amount) =>
      .ok (s.goOn call do
        let current ← found s.session "session_not_found"
        let row ← found ((incrementSessionBudget session amount).set current) "database error"
        return .updated row amount)
    | _ => .error ()
  | .emitActivityEvent =>
    match s.running with
    | some (call, .updated row amount) =>
      .ok { s with
        journal := s.journal ++ [.approved call.requestId amount]
        running := some (call, .emitted (some (row, amount))) }
    | some (call, .denying) =>
      .ok { s with
        journal := s.journal ++ [.denied call.requestId]
        running := some (call, .emitted none) }
    | _ => .error ()
  | .commit =>
    match s.running with
    | some (call, .emitted (some (row, amount))) =>
      .ok { s with
        session := some row
        running := none
        returned := s.returned ++ [.approved call.requestId amount] }
    | some (call, .emitted none) =>
      .ok { s with
        running := none
        returned := s.returned ++ [.denied call.requestId] }
    | _ => .error ()
  | .fail =>
    match s.running with
    | some _ => .ok { s with running := none }
    | none => .error ()

/-! ## What the state means -/

/-- `COALESCE(lrt_limit, 0)` -/
def lrtLimit (session : Option SessionRow) : Int := (session.bind (·.lrtLimit)).getD 0

/-- The sum of `approved_additional_lrt` over the approvals. -/
def approvedTotal (journal : List ExtensionEvent) : Int :=
  (journal.map (·.approvedAdditionalLrt)).sum

def decisions (journal : List ExtensionEvent) (requestId : String) : List ExtensionEvent :=
  journal.filter (·.decides requestId)

/-- What an approval has in the journal but not yet in the session. -/
def pendingLrt : Option (ExtensionCall × Phase) → Int
  | some (_, .emitted (some (_, amount))) => amount
  | _ => 0

/-- The approval is in the journal, and its update not committed. -/
def Phase.approved : Phase → Bool
  | .emitted (some _) => true
  | _ => false

/-- No approval fails between its event and its commit. -/
def Intact (s : ExtensionState) : ExtensionStep → Prop
  | .fail => (s.running.any fun running => running.2.approved) = false
  | _ => True

instance (s : ExtensionState) (step : ExtensionStep) : Decidable (Intact s step) := by
  cases step <;> unfold Intact <;> infer_instance

/-! ## One step -/

/-- What holds of the call that has the lock. -/
def PhaseSound (session : Option SessionRow) (journal : List ExtensionEvent) (call : ExtensionCall) :
    Phase → Prop
  | .locked | .loaded _ | .found _ _ => True
  | .approving _ _ | .denying => decisions journal call.requestId = []
  | .updated row amount => decisions journal call.requestId = [] ∧
      lrtLimit (some row) = lrtLimit session + amount
  | .emitted (some (row, amount)) => .approved call.requestId amount ∈ journal ∧
      lrtLimit (some row) = lrtLimit session + amount
  | .emitted none => .denied call.requestId ∈ journal

structure Sound (start : Int) (s : ExtensionState) : Prop where
  limit : lrtLimit s.session + pendingLrt s.running = start + approvedTotal s.journal
  once : ∀ requestId, (decisions s.journal requestId).length ≤ 1
  running : ∀ call phase, s.running = some (call, phase) →
    PhaseSound s.session s.journal call phase
  returned : ∀ event ∈ s.returned, event ∈ s.journal

theorem decisions_append (journal : List ExtensionEvent) (event : ExtensionEvent)
    (requestId : String) : decisions (journal ++ [event]) requestId =
      decisions journal requestId ++ if event.decides requestId then [event] else [] := by
  rw [decisions, List.filter_append, decisions]
  cases decides : event.decides requestId with
  | true => rw [List.filter_cons_of_pos decides, List.filter_nil, if_pos rfl]
  | false => rw [List.filter_cons_of_neg (by rw [decides]; exact Bool.false_ne_true),
      List.filter_nil, if_neg Bool.false_ne_true]

theorem approvedTotal_append (journal : List ExtensionEvent) (event : ExtensionEvent) :
    approvedTotal (journal ++ [event]) = approvedTotal journal + event.approvedAdditionalLrt := by
  rw [approvedTotal, List.map_append, List.sum_append, List.map_singleton, List.sum_singleton]
  rfl

variable {journal : List ExtensionEvent} {call : ExtensionCall} {start : Int} {s : ExtensionState}

theorem hasDecision_false (none' : hasDecision journal requestId = false) :
    decisions journal requestId = [] :=
  List.filter_eq_nil_iff.mpr fun event member decides => by
    rw [hasDecision, List.any_eq_false] at none'
    exact none' event member decides

/-- A decision on an undecided request is its only one. -/
theorem once_append (once : ∀ other, (decisions journal other).length ≤ 1)
    (decides : ∀ other, event.decides other = true → other = requestId)
    (undecided : decisions journal requestId = []) (other : String) :
    (decisions (journal ++ [event]) other).length ≤ 1 := by
  rw [decisions_append]
  split
  · rename_i here
    rw [decides other here, undecided]
    exact Nat.le_refl 1
  · rw [List.append_nil]
    exact once other

/-- A request changes nothing that the calls rely on. -/
theorem PhaseSound.post (id : String) (payload : JsValue)
    (sound : PhaseSound session journal call phase) :
    PhaseSound session (journal ++ [.requested id payload]) call phase := by
  have same : decisions (journal ++ [.requested id payload]) call.requestId =
      decisions journal call.requestId := by
    rw [decisions_append]
    exact List.append_nil _
  match phase, sound with
  | .locked, _ | .loaded _, _ | .found _ _, _ => trivial
  | .approving _ _, undecided | .denying, undecided => exact same.trans undecided
  | .updated _ _, ⟨undecided, limit⟩ => exact ⟨same.trans undecided, limit⟩
  | .emitted (some _), ⟨member, limit⟩ => exact ⟨List.mem_append_left _ member, limit⟩
  | .emitted none, member => exact List.mem_append_left _ member

theorem Sound.of_idle (idle : s.running = none)
    (limit : lrtLimit s.session = start + approvedTotal s.journal)
    (once : ∀ requestId, (decisions s.journal requestId).length ≤ 1)
    (returned : ∀ event ∈ s.returned, event ∈ s.journal) : Sound start s := by
  refine ⟨?_, once, fun call phase at' => ?_, returned⟩
  · rw [idle]
    exact (add_zero _).trans limit
  · rw [idle] at at'
    cases at'

theorem pendingLrt_of_not_approved (quiet : running.2.approved = false) :
    pendingLrt (some running) = 0 := by
  obtain ⟨call, phase⟩ := running
  cases phase with
  | emitted update =>
    cases update with
    | none => rfl
    | some written => cases quiet
  | locked | loaded | found | approving | updated | denying => rfl

/-- A call that goes on from where nothing is pending to where nothing is. -/
theorem Sound.goOn (sound : Sound start s) (at' : s.running = some (call, phase))
    (settled : pendingLrt (some (call, phase)) = 0)
    (facts : ∀ after, next = .ok after → pendingLrt (some (call, after)) = 0 ∧
      PhaseSound s.session s.journal call after) :
    Sound start (s.goOn call next) := by
  have limit := sound.limit
  rw [at', settled, add_zero] at limit
  cases next with
  | error thrown => exact .of_idle rfl limit sound.once sound.returned
  | ok after =>
    obtain ⟨pending, held⟩ := facts after rfl
    refine ⟨?_, sound.once, ?_, sound.returned⟩
    · change lrtLimit s.session + pendingLrt (some (call, after)) = _
      rw [pending, add_zero]
      exact limit
    · rintro _ _ ⟨⟩
      exact held

theorem afterDecisions_sound (current : Option SessionRow)
    (ok : afterDecisions journal call session payload = .ok after) :
    pendingLrt (some (call, after)) = 0 ∧ PhaseSound current journal call after := by
  obtain ⟨undecided, ok⟩ := require_bind_ok ok
  have none' := hasDecision_false undecided
  split at ok
  · obtain ⟨amount, _, ok⟩ := bind_ok ok
    cases ok
    exact ⟨rfl, none'⟩
  · obtain ⟨_, _, ok⟩ := bind_ok ok
    cases ok
    exact ⟨rfl, none'⟩

/-- The update adds its amount to the limit. -/
theorem incrementSessionBudget_limit
    (ok : (incrementSessionBudget session amount).set current = some row) :
    lrtLimit (some row) = lrtLimit (some current) + amount := by
  have written := (set_written ok).limit
  obtain ⟨sum, column, same⟩ := Option.map_eq_some_iff.mp written
  have value : ((current.lrtLimit.getD 0 + amount : Int) : Rat) = sum := by
    exact_mod_cast (integerColumn_some column).1
  change row.lrtLimit.getD 0 = current.lrtLimit.getD 0 + amount
  rw [← same, Option.getD_some]
  exact_mod_cast value.symm

theorem extensionStep_sound (sound : Sound start s) (intact : Intact s step)
    (ok : extensionStep s step = .ok next) : Sound start next := by
  cases step with
  | postRequest id payload =>
    simp only [extensionStep] at ok
    split at ok
    · cases ok
    · cases ok
      refine ⟨?_, fun requestId => ?_, fun call phase at' => (sound.running call phase at').post _ _,
        fun event member => List.mem_append_left _ (sound.returned event member)⟩
      · rw [approvedTotal_append]
        exact sound.limit.trans (congrArg _ (add_zero _).symm)
      · rw [decisions_append]
        exact (congrArg List.length (List.append_nil _)).trans_le (sound.once requestId)
  | acquireLock call =>
    simp only [extensionStep] at ok
    split at ok
    · rename_i free
      cases ok
      have limit := sound.limit
      rw [free] at limit
      refine ⟨limit, sound.once, ?_, sound.returned⟩
      rintro _ _ ⟨⟩
      trivial
    · cases ok
  | getSession =>
    simp only [extensionStep] at ok
    split at ok
    · rename_i call at'
      cases ok
      refine sound.goOn at' rfl fun after loaded => ?_
      obtain ⟨_, _, rfl⟩ := map_ok loaded
      exact ⟨rfl, trivial⟩
    · cases ok
  | getRequestEvent =>
    simp only [extensionStep] at ok
    split at ok
    · rename_i call session at'
      cases ok
      refine sound.goOn at' rfl fun after loaded => ?_
      obtain ⟨_, _, rfl⟩ := map_ok loaded
      exact ⟨rfl, trivial⟩
    · cases ok
  | hasDecision =>
    simp only [extensionStep] at ok
    split at ok
    · rename_i call session payload at'
      cases ok
      exact sound.goOn at' rfl fun _ decided => afterDecisions_sound _ decided
    · cases ok
  | incrementSessionBudget =>
    simp only [extensionStep] at ok
    split at ok
    · rename_i call session amount at'
      cases ok
      refine sound.goOn at' rfl fun after updated => ?_
      obtain ⟨current, present, updated⟩ := found_bind_ok updated
      obtain ⟨row, set, updated⟩ := found_bind_ok updated
      cases updated
      rw [present]
      exact ⟨rfl, sound.running _ _ at', incrementSessionBudget_limit set⟩
    · cases ok
  | emitActivityEvent =>
    simp only [extensionStep] at ok
    split at ok
    · rename_i call row amount at'
      cases ok
      obtain ⟨undecided, added⟩ := sound.running _ _ at'
      have limit := sound.limit
      rw [at'] at limit
      refine ⟨?_, once_append sound.once (fun other decides => ?_) undecided, ?_,
        fun event member => List.mem_append_left _ (sound.returned event member)⟩
      · change lrtLimit s.session + amount = _
        change lrtLimit s.session + 0 = _ at limit
        rw [approvedTotal_append]
        change _ = start + (approvedTotal s.journal + amount)
        omega
      · exact (of_decide_eq_true decides).symm
      · rintro _ _ ⟨⟩
        exact ⟨List.mem_append_right _ List.mem_cons_self, added⟩
    · rename_i call at'
      cases ok
      have undecided := sound.running _ _ at'
      have limit := sound.limit
      rw [at'] at limit
      refine ⟨?_, once_append sound.once (fun other decides => ?_) undecided, ?_,
        fun event member => List.mem_append_left _ (sound.returned event member)⟩
      · rw [approvedTotal_append]
        exact limit.trans (congrArg _ (add_zero _).symm)
      · exact (of_decide_eq_true decides).symm
      · rintro _ _ ⟨⟩
        exact List.mem_append_right _ List.mem_cons_self
    · cases ok
  | commit =>
    simp only [extensionStep] at ok
    split at ok
    · rename_i call row amount at'
      cases ok
      obtain ⟨member, added⟩ := sound.running _ _ at'
      have limit := sound.limit
      rw [at'] at limit
      refine .of_idle rfl (added.trans limit) sound.once fun event returned => ?_
      · rcases List.mem_append.mp returned with before | now
        · exact sound.returned event before
        · rw [List.mem_singleton.mp now]
          exact member
    · rename_i call at'
      cases ok
      have member := sound.running _ _ at'
      have limit := sound.limit
      rw [at'] at limit
      refine .of_idle rfl ((add_zero _).symm.trans limit) sound.once fun event returned => ?_
      rcases List.mem_append.mp returned with before | now
      · exact sound.returned event before
      · rw [List.mem_singleton.mp now]
        exact member
    · cases ok
  | fail =>
    simp only [extensionStep] at ok
    split at ok
    · rename_i running at'
      cases ok
      have limit := sound.limit
      rw [at'] at limit
      rw [Intact, at', Option.any_some] at intact
      rw [pendingLrt_of_not_approved intact, add_zero] at limit
      exact .of_idle rfl limit sound.once sound.returned
    · cases ok

/-! ## Runs -/

/-- While no approval fails between its event and its commit: when no call is in
flight, the limit has moved by the approvals, every request has at most one decision,
and the decisions that were returned are among those counted. -/
theorem limit_follows_approvals (session : Option SessionRow) (log : List ExtensionStep)
    (intact : Meets extensionStep Intact (initial session) log) :
    let reached := replay extensionStep (initial session) log
    reached.running = none →
      lrtLimit reached.session = lrtLimit session + approvedTotal reached.journal ∧
        (∀ requestId, (decisions reached.journal requestId).length ≤ 1) ∧
        ∀ event ∈ reached.returned, event ∈ reached.journal := by
  have start : Sound (lrtLimit session) (initial session) :=
    .of_idle rfl (add_zero _).symm (fun _ => Nat.zero_le 1) fun _ member =>
      absurd member List.not_mem_nil
  have sound := replay_preserves Intact (Sound (lrtLimit session))
    (fun _ _ _ held met ok => extensionStep_sound held met ok) intact start
  intro reached idle
  have limit := sound.limit
  rw [idle] at limit
  exact ⟨(add_zero _).symm.trans limit, sound.once, sound.returned⟩

/-- The renter approves a request for 50 LRT. -/
def approval : List ExtensionStep :=
  [.postRequest "evt_1" (.object [("requested_additional_lrt", .number (.finite 50))]),
    .acquireLock ⟨some true, "evt_1", .approve none⟩, .getSession, .getRequestEvent, .hasDecision,
    .incrementSessionBudget, .emitActivityEvent]

/-- The transaction fails after the approval's event: no call is in flight, 50 LRT are
approved and the limit is what it was. -/
theorem failed_approval_recorded :
    let reached := replay extensionStep (initial (some BudgetExhaustion.exactSession))
      (approval ++ [.fail])
    reached.running.isNone = true ∧ approvedTotal reached.journal = 50 ∧
      lrtLimit reached.session = 100 := by
  decide +kernel

theorem approval_added :
    lrtLimit (replay extensionStep (initial (some BudgetExhaustion.exactSession))
        (approval ++ [.commit])).session =
      100 + approvedTotal (replay extensionStep (initial (some BudgetExhaustion.exactSession))
        (approval ++ [.commit])).journal :=
  (limit_follows_approvals (some BudgetExhaustion.exactSession) (approval ++ [.commit])
    (by decide +kernel) (Option.isNone_iff_eq_none.mp (by decide +kernel))).1

end LetAgents.Rental.BudgetExtension

import LetAgents.Coordination.BoardManagers
import LetAgents.Lib.Footprint

/-!
# Succession of board managers

A released assignment stays released, and a failover replaces a manager that is gone by a
worker that is present, in one commit. A manual assignment commits the release of the
present manager before it installs the next, and installs a session that it read first.
-/
namespace LetAgents.Coordination.BoardManagers

open Lib.ReadCommitted Lib.ReadCommitted.Discipline

/-! ## The discipline -/

/-- The assignments that a call may release. -/
def Call.releases : Call → String → Assignment → Prop
  | .assignBoardManager input, _, row => row.room_id = input.room_id
  | .releaseBoardManager input, _, row => row.room_id = input.room_id
  | .announceFailover input, id, _ => id = input.dead_assignment_id
  | _, _, _ => False

/-- The deliveries that a call may write. -/
def Call.delivers : Call → String → String → Prop
  | .recordDelivery input, room, session => room = input.room_id ∧ session = input.session_id
  | .endRoomAgentSession input, _, session => session = input.session_id
  | _, _, _ => False

def law (c : Call) : ∀ k, Row k → Row k → Prop
  | .assignment id, v, v' =>
    v'.room_id = v.room_id ∧ v'.agent_session_id = v.agent_session_id ∧
      (v'.status = v.status ∧ v'.released_at = v.released_at ∨
        v'.status = .released ∧ c.releases id v)
  | .session _, v, v' => v'.room_id = v.room_id ∧ (v.ended_at ≠ none → v'.ended_at ≠ none)
  | .delivery room session, _, _ => c.delivers room session
  | .grant _, _, _ => True

def born (c : Call) : ∀ k, Row k → Prop
  | .assignment id, _ =>
    match c with
    | .assignBoardManager input => id = input.id
    | .announceFailover input => id = input.id
    | _ => False
  | .delivery room session, _ => c.delivers room session
  | .session _, _ | .grant _, _ => True

theorem Call.releases_trans {c : Call} {id : String} (room : v'.room_id = v.room_id)
    (releases : c.releases id v') : c.releases id v := by
  cases c with
  | assignBoardManager | releaseBoardManager => exact room.symm.trans releases
  | announceFailover => exact releases
  | _ => exact releases.elim

theorem law_trans (first : law c k v v') (second : law c k v' v'') : law c k v v'' := by
  cases k with
  | assignment id =>
    obtain ⟨room, session, first⟩ := first
    obtain ⟨room', session', second⟩ := second
    refine ⟨room'.trans room, session'.trans session, ?_⟩
    rcases second with ⟨status', at''⟩ | ⟨released, may⟩
    · rcases first with ⟨status, at'⟩ | ⟨released, may⟩
      · exact .inl ⟨status'.trans status, at''.trans at'⟩
      · exact .inr ⟨status'.trans released, may⟩
    · exact .inr ⟨released, Call.releases_trans room may⟩
  | session id => exact ⟨second.1.trans first.1, fun ended => second.2 (first.2 ended)⟩
  | delivery room session => exact first
  | grant id => trivial

theorem law_shrinks (law : law c k v v') (clashes : clash k v' k' x = true) :
    clash k v k' x = true := by
  cases k with
  | assignment id =>
    cases k' with
    | assignment id' =>
      obtain ⟨room, _, kept | ⟨released, _⟩⟩ := law
      · simp only [clash, room, kept] at clashes ⊢
        exact clashes
      · simp [clash, released] at clashes
    | session | delivery | grant => cases clashes
  | session | delivery | grant => cases k' <;> cases clashes

/-- The session has ended, or its delivery is unreachable. -/
def Gone (rows : Rows Row) (room session : String) (now : Nat) : Prop :=
  (∃ row : Session, rows (.session session) = some row ∧ row.ended_at ≠ none) ∨
    ∃ row : Delivery, rows (.delivery room session) = some row ∧ row.reachable now = false

/-- The session serves the room, and its delivery is reachable. -/
def Present (rows : Rows Row) (room session : String) (now : Nat) : Prop :=
  (∃ row : Session, rows (.session session) = some row ∧ row.serves room = true) ∧
    ∃ row : Delivery, rows (.delivery room session) = some row ∧ row.reachable now = true

/-- One commit releases a manager that is gone and promotes a worker that is present. -/
structure Replaces (p : Commit) (input : FailoverInput) (dead manager : Assignment) : Prop where
  was : p.footing.base (.assignment input.dead_assignment_id) = some dead
  active : dead.status = .active
  released : ∃ row : Assignment, p.rows (.assignment input.dead_assignment_id) = some row ∧
    row.status = .released
  gone : Gone p.footing.base dead.room_id dead.agent_session_id input.released_at
  fresh : p.footing.base (.assignment input.id) = none
  promoted : p.rows (.assignment input.id) = some manager
  status : manager.status = .active
  room : manager.room_id = dead.room_id
  session : manager.agent_session_id = input.successor_agent_session_id
  present : Present p.footing.base dead.room_id input.successor_agent_session_id input.started_at
  only : ∀ k, p.rows k ≠ none → k = .assignment input.dead_assignment_id ∨ k = .assignment input.id

/-- A commit of an assignment releases, or it installs the one new row. -/
def Assigns (p : Commit) (input : AssignInput) : Prop :=
  (p.result = none ∧ ∀ (id : String) (row : Assignment),
      p.rows (.assignment id) = some row → row.status = .released) ∨
    p.result ≠ none ∧ p.footing.base (.assignment input.id) = none ∧
      ∃ row : Assignment, p.rows = Rows.single (.assignment input.id) row ∧
        row.status = .active ∧ row.agent_session_id = input.agent_session_id

/-- A delivery changes under its lock, or with the end of its session. -/
def deliversFenced (p : Commit) : Prop :=
  ∀ room session, p.rows (.delivery room session) ≠ none → (room, session) ∈ p.footing.held ∨
    ∃ row : Session, p.rows (.session session) = some row ∧ row.ended_at ≠ none

def promises (p : Commit) : Prop :=
  deliversFenced p ∧
    match p.call with
    | .assignBoardManager input => Assigns p input
    | .announceFailover input => ∃ dead manager, Replaces p input dead manager
    | _ => True

def boardDiscipline : Discipline board where
  law := law
  born := born
  invariant _ := True
  guarantee := promises
  meets _ := True
  apart _ _ _ := True
  law_trans := law_trans
  born_law {c k _ _} born _ := by cases k <;> exact born
  clash_symm {k v k' v'} := clash_symm k v k' v'
  shrinks := law_shrinks

/-! ## Outlines -/

section Outlines

variable {c : Call} {n : Unit} {A : Footing Row DeliveryKey → Prop} {next : Prog}

theorem lawful_delivery {p : Commit}
    (lawful : boardDiscipline.Lawful p.call p.rows p.footing.base)
    (written : p.rows (.delivery room session) ≠ none) : p.call.delivers room session := by
  obtain ⟨row, is⟩ := Option.ne_none_iff_exists'.mp written
  rcases lawful is with ⟨_, _, delivers⟩ | ⟨_, delivers⟩
  · exact delivers
  · exact delivers

/-- A call that writes no delivery. -/
theorem deliversFenced_of_none (lawful : boardDiscipline.Lawful p.call p.rows p.footing.base)
    (none : ∀ room session, ¬p.call.delivers room session) : deliversFenced p :=
  fun room session written => absurd (lawful_delivery lawful written) (none room session)

theorem lockKeys_outline (stable : boardDiscipline.Stable c n A)
    (hold : ∀ f key, A f → A (f.hold key))
    (rest : boardDiscipline.Outline c next n fun f => A f ∧ ∀ key ∈ keys, key ∈ f.held)
    (settled : ∀ learned after, next ≠ .note learned after) :
    boardDiscipline.Outline c (lockRoomAgentDeliveryKeysTx keys next) n A := by
  have all : ∀ sorted : List DeliveryKey, boardDiscipline.Outline c (sorted.foldr .lock next) n
      fun f => A f ∧ ∀ key ∈ keys, key ∈ sorted ∨ key ∈ f.held := by
    intro sorted
    induction sorted with
    | nil =>
      refine rest.weaken settled ?_ fun f here =>
        ⟨here.1, fun key member => (here.2 key member).resolve_left List.not_mem_nil⟩
      exact stable.and (stable_own c n fun _ _ held => ∀ key ∈ keys, key ∈ [] ∨ key ∈ held)
    | cons first sorted ih =>
      refine Outline.lock (stable.and (stable_own c n fun _ _ held =>
        ∀ key ∈ keys, key ∈ first :: sorted ∨ key ∈ held)) (fun f here => ?_) ih
      refine ⟨hold f first here.1, fun key member => ?_⟩
      rcases here.2 key member with waiting | held
      · rcases List.mem_cons.mp waiting with rfl | waiting
        · exact .inr List.mem_cons_self
        · exact .inl waiting
      · exact .inr (.tail _ held)
  refine (all _).weaken ?_ stable fun f here =>
    ⟨here, fun key member => .inl ((List.mem_insertionSort _).mpr member)⟩
  intro learned after
  cases keys.insertionSort fun a b => a.1 < b.1 ∨ a.1 = b.1 ∧ a.2 ≤ b.2 with
  | nil => exact settled learned after
  | cons first sorted => exact nofun

theorem lockKeys_keeps {law : ∀ k, Row k → Row k → Prop} {born : ∀ k, Row k → Prop}
    (rest : next.Keeps notes law born) :
    (lockRoomAgentDeliveryKeysTx keys next).Keeps notes law born := by
  unfold lockRoomAgentDeliveryKeysTx
  induction keys.insertionSort fun a b => a.1 < b.1 ∨ a.1 = b.1 ∧ a.2 ≤ b.2 with
  | nil => exact rest
  | cons key sorted ih => exact ih

/-- A call that promises no more than the fence of deliveries. -/
def Call.plain : Call → Prop
  | .assignBoardManager _ | .announceFailover _ => False
  | _ => True

theorem promises_of_plain (plain : p.call.plain) (fenced : deliversFenced p) : promises p := by
  refine ⟨fenced, ?_⟩
  cases call : p.call with
  | assignBoardManager | announceFailover =>
    rw [call] at plain
    exact plain.elim
  | _ => trivial

/-! ### Sessions, deliveries and the schedule -/

theorem releaseRoom_within (releases : ∀ id row, row.room_id = room → c.releases id row) :
    Within (law c) (releaseRoom room by' reason now) := by
  intro k v v' made
  cases k with
  | assignment id =>
    obtain ⟨⟨here, _⟩, made⟩ := Option.ite_none_right_eq_some.mp made
    cases made
    exact ⟨rfl, rfl, .inr ⟨rfl, releases id v here⟩⟩
  | session | delivery | grant => cases made

theorem reschedule_within : Within (law c) (reschedule room session due) := by
  intro k v v' made
  cases k with
  | assignment id =>
    obtain ⟨_, made⟩ := Option.ite_none_right_eq_some.mp made
    cases made
    exact ⟨rfl, rfl, .inl ⟨rfl, rfl⟩⟩
  | session | delivery | grant => cases made

theorem rescheduleRoom_within : Within (law c) (rescheduleRoom room due) := by
  intro k v v' made
  cases k with
  | assignment id =>
    obtain ⟨_, made⟩ := Option.ite_none_right_eq_some.mp made
    cases made
    exact ⟨rfl, rfl, .inl ⟨rfl, rfl⟩⟩
  | session | delivery | grant => cases made

theorem releaseBoardManager_outline (input : ReleaseInput) :
    boardDiscipline.Outline (.releaseBoardManager input) (releaseBoardManager input) n
      Footing.Idle := by
  refine outline_of_laws ⟨releaseRoom_within fun _ _ here => here, fun _ _ => trivial⟩
    fun p call rows proper _ => ⟨promises_of_plain (call ▸ trivial) ?_, trivial⟩
  exact deliversFenced_of_none (call ▸ rows ▸ proper.lawful) (call ▸ fun _ _ => not_false)

theorem scheduleCheck_outline (id : String) (due : Option Nat) :
    boardDiscipline.Outline (.scheduleCheck id due) (scheduleCheck id due) n Footing.Idle := by
  refine outline_of_laws ⟨within_atKey fun v v' made => ?_, fun _ _ => trivial⟩
    fun p call rows proper _ => ⟨promises_of_plain (call ▸ trivial) ?_, trivial⟩
  · obtain ⟨_, made⟩ := Option.ite_none_right_eq_some.mp made
    cases made
    exact ⟨rfl, rfl, .inl ⟨rfl, rfl⟩⟩
  · exact deliversFenced_of_none (call ▸ rows ▸ proper.lawful) (call ▸ fun _ _ => not_false)

theorem registerSession_outline (id : String) (session : Session) :
    boardDiscipline.Outline (.registerSession id session) (registerSession id session) n
      Footing.Idle := by
  refine outline_of_laws ⟨trivial, trivial, trivial⟩
    fun p call rows proper _ => ⟨promises_of_plain (call ▸ trivial) ?_, trivial⟩
  exact deliversFenced_of_none (call ▸ rows ▸ proper.lawful) (call ▸ fun _ _ => not_false)

theorem superviseSession_outline (id : String) (grant : Option String) :
    boardDiscipline.Outline (.superviseSession id grant) (superviseSession id grant) n
      Footing.Idle := by
  refine outline_of_laws ⟨within_atKey fun v v' made => ?_, fun _ _ => trivial⟩
    fun p call rows proper _ => ⟨promises_of_plain (call ▸ trivial) ?_, trivial⟩
  · cases made
    exact ⟨rfl, fun ended => ended⟩
  · exact deliversFenced_of_none (call ▸ rows ▸ proper.lawful) (call ▸ fun _ _ => not_false)

theorem recordGrant_outline (id : String) (grant : Grant) :
    boardDiscipline.Outline (.recordGrant id grant) (recordGrant id grant) n Footing.Idle := by
  refine outline_of_laws ⟨within_atKey fun v v' made => trivial, fun _ rows => ?_⟩
    fun p call rows proper _ => ⟨promises_of_plain (call ▸ trivial) ?_, trivial⟩
  · dsimp only
    split
    · exact ⟨trivial, trivial, trivial⟩
    · trivial
  · exact deliversFenced_of_none (call ▸ rows ▸ proper.lawful) (call ▸ fun _ _ => not_false)

theorem recordDelivery_outline (input : DeliveryInput) :
    boardDiscipline.Outline (.recordDelivery input) (recordDelivery input) n Footing.Idle := by
  refine outline_of_lock ⟨within_atKey fun _ _ _ => ⟨rfl, rfl⟩, fun _ rows => ?_⟩
    fun p call rows held proper _ => ⟨promises_of_plain (call ▸ trivial) ?_, trivial⟩
  · have trigger : (rescheduleFromDelivery input).Keeps (fun _ => True)
        (boardDiscipline.law (.recordDelivery input))
        (boardDiscipline.born (.recordDelivery input)) := by
      refine ⟨reschedule_within, fun _ rows => ?_⟩
      dsimp only
      split
      · exact ⟨rescheduleRoom_within, fun _ _ => trivial⟩
      · trivial
    dsimp only
    split
    · exact ⟨⟨rfl, rfl⟩, trigger, trivial⟩
    · exact trigger
  · intro room session written
    obtain ⟨rfl, rfl⟩ : room = input.room_id ∧ session = input.session_id := by
      have delivers := lawful_delivery (p := p) (call ▸ rows ▸ proper.lawful) written
      rwa [call] at delivers
    exact .inl held

/-- The session of the call has ended, in its transaction. -/
def Ends (input : EndInput) (f : Footing Row DeliveryKey) : Prop :=
  ∃ row : Session, f.written (.session input.session_id) = some row ∧ row.ended_at ≠ none

theorem ends_kept (input : EndInput) :
    boardDiscipline.Kept (.endRoomAgentSession input) (fun _ => True)
      (law (.endRoomAgentSession input)) (fun _ _ => False) (Ends input) where
  lawful _ _ _ law := law
  bears _ _ never := never.elim
  stable _ _ _ _ here _ _ _ := here
  hold _ _ here := here
  share _ _ here := here
  write f rows here within := by
    obtain ⟨row, own, ended⟩ := here
    cases newly : rows (.session input.session_id) with
    | none => exact ⟨row, (Rows.over_of_none newly).trans own, ended⟩
    | some row' =>
      rcases within newly with ⟨older, seen, law⟩ | never
      · obtain rfl : row = older :=
          Option.some.inj ((Rows.over_of_some own).symm.trans seen)
        exact ⟨row', Rows.over_of_some newly, law.2 ended⟩
      · exact never.elim
  publish p call rows _ here proper _ := by
    refine ⟨promises_of_plain (call ▸ trivial) fun room session written => ?_, trivial⟩
    have delivers := lawful_delivery (p := p) (rows ▸ call.symm ▸ proper.lawful) written
    rw [call] at delivers
    obtain rfl : session = input.session_id := delivers
    exact .inr (rows ▸ here)

theorem endRoomAgentSession_outline (input : EndInput) :
    boardDiscipline.Outline (.endRoomAgentSession input) (endRoomAgentSession input) n
      Footing.Idle := by
  refine Outline.update (boardDiscipline.stable_idle _ _)
    (fun _ _ _ k v v' _ made => within_atKey (fun v v' made => ?_) k v v' made)
    fun f keys idle _ _ => ?_
  · obtain ⟨_, made⟩ := Option.ite_none_right_eq_some.mp made
    cases made
    exact ⟨rfl, fun _ => Option.some_ne_none input.now⟩
  split
  · refine ⟨fun f => ∀ room session, f.written (.delivery room session) = none,
      fun room session => (written_of_ne (by rintro ⟨⟩)).trans (idle.1 _), ?_⟩
    refine Outline.finish (fun _ _ here _ _ _ => here) fun f here _ _ => ⟨?_, trivial⟩
    exact promises_of_plain trivial fun room session written => absurd (here room session) written
  · rename_i session found
    have ran := (Option.filter_eq_some_iff.mp found).2
    obtain ⟨v, v', _, written, made⟩ := revises_of_chosen (idle.1 _) (of_decide_eq_true ran)
    obtain ⟨_, made⟩ := Option.ite_none_right_eq_some.mp made
    cases made
    refine ⟨Ends input, ⟨_, written, Option.some_ne_none input.now⟩, ?_⟩
    refine outline_of_keeps ?_ (ends_kept input) trivial
    refine ⟨reschedule_within, fun _ _ _ => lockKeys_keeps ⟨fun k v v' made => ?_, fun _ _ => trivial⟩⟩
    cases k with
    | delivery room id =>
      obtain ⟨here, _⟩ := Option.ite_none_right_eq_some.mp made
      exact here
    | assignment | session | grant => cases made

/-! ### Manual assignment -/

theorem assignBoardManager_outline (input : AssignInput) :
    boardDiscipline.Outline (.assignBoardManager input) (assignBoardManager input) n
      Footing.Idle := by
  have undelivered : ∀ p : Commit, p.call = .assignBoardManager input →
      boardDiscipline.Lawful p.call p.rows p.footing.base → deliversFenced p := by
    intro p call lawful
    refine deliversFenced_of_none lawful ?_
    rw [call]
    exact fun _ _ => not_false
  refine Outline.select (boardDiscipline.stable_idle _ _) fun f keys idle _ _ => ?_
  split
  · exact ⟨fun _ => True, trivial, Outline.abort⟩
  rename_i session found
  refine ⟨Footing.Idle, idle, Outline.update (boardDiscipline.stable_idle _ _)
    (fun _ _ _ k v v' _ made => releaseRoom_within (c := .assignBoardManager input)
      (fun _ _ here => here) k v v' made) fun f keys idle _ _ => ?_⟩
  refine ⟨fun f => ∀ (id : String) (row : Assignment),
    f.written (.assignment id) = some row → row.status = .released, fun id row written => ?_, ?_⟩
  · rcases Rows.over_eq_some written with newly | ⟨_, older⟩
    · obtain ⟨_, _, made⟩ := revised_eq_some newly
      obtain ⟨_, made⟩ := Option.ite_none_right_eq_some.mp made
      cases made
      rfl
    · rw [idle.1] at older
      cases older
  refine Outline.commit (fun _ _ here _ _ _ => here) fun f here proper _ => ⟨⟨undelivered _ rfl
    proper.lawful, .inl ⟨rfl, here⟩⟩, trivial, Footing.Idle, ⟨fun _ => rfl, rfl, rfl⟩, ?_⟩
  refine Outline.insert (boardDiscipline.stable_idle _ _) rfl
    (fun f keys idle _ _ vacant => ⟨fun f => f.base (.assignment input.id) = none ∧ f.written =
      Rows.single (.assignment input.id) (newAssignment input.room_id input.agent_session_id
        input.assigned_by (input.runtime_source.getD (inferBoardManagerRuntimeSource session))
        input.stall_check_at input.now session), ⟨?_, ?_⟩, ?_⟩)
    fun _ _ _ _ _ _ => ⟨fun _ => True, trivial, Outline.abort⟩
  · have absent : f.view (.assignment input.id) = none := vacant.1
    rwa [Footing.view_of_clean idle.1] at absent
  · refine funext fun k => ?_
    change (Rows.single _ _ k).or (f.written k) = _
    rw [idle.1, Option.or_none]
  · refine Outline.finish (fun f p here _ elsewhere _ => ⟨?_, here.2⟩) fun f here proper _ =>
      ⟨⟨undelivered _ rfl proper.lawful, .inr ⟨nofun, here.1, _, here.2, rfl, rfl⟩⟩,
        trivial⟩
    have mine : f.written (.assignment input.id) ≠ none := by
      rw [here.2, Rows.single_self]
      nofun
    exact (elsewhere.spares mine).trans here.1

/-! ### Failover -/

section Failover

variable {input : FailoverInput} {room sid : String} {now : Nat} {f : Footing Row DeliveryKey}

/-- The assignment to replace is of the room and the session. -/
def Named (input : FailoverInput) (room sid : String) (f : Footing Row DeliveryKey) : Prop :=
  ∃ row : Assignment, f.view (.assignment input.dead_assignment_id) = some row ∧
    row.room_id = room ∧ row.agent_session_id = sid

theorem named_stable : boardDiscipline.Stable c n (Named input room sid) :=
  stable_seen (d := boardDiscipline) c n (k := .assignment input.dead_assignment_id)
    (P := fun row : Assignment => row.room_id = room ∧ row.agent_session_id = sid)
    fun _ _ _ law here => ⟨law.1.trans here.1, law.2.1.trans here.2⟩

/-- A delivery that changes without its lock goes with the end of its session. -/
theorem ended_of_delivered (elsewhere : boardDiscipline.Elsewhere f p) (held : (room, sid) ∈ f.held)
    (written : p.rows (.delivery room sid) ≠ none) :
    ∃ row : Session, p.rows (.session sid) = some row ∧ row.ended_at ≠ none := by
  have promised : promises p := elsewhere.guarantee
  rcases promised.1 room sid written with locked | ended
  · exact absurd held (elsewhere.held _ locked)
  · exact ended

/-- Without its lock a delivery changes only with the end of its session. -/
theorem gone_stable : boardDiscipline.Stable c n fun f =>
    (room, sid) ∈ f.held ∧ Gone f.base room sid now := by
  rintro f p ⟨held, gone⟩ proper elsewhere apart
  refine ⟨held, ?_⟩
  rcases gone with ended | ⟨row, has, lost⟩
  · exact .inl (stable_of_law (d := boardDiscipline) c n (k := .session sid)
      (P := fun row : Session => row.ended_at ≠ none) (fun _ _ _ law ended => law.2 ended) ended
      proper elsewhere apart)
  · cases published : p.rows (.delivery room sid) with
    | none => exact .inr ⟨row, (Rows.over_of_none published).trans has, lost⟩
    | some row' =>
      obtain ⟨session, is, ended⟩ := ended_of_delivered elsewhere held
        (by rw [published]; exact Option.some_ne_none row')
      exact .inl ⟨session, Rows.over_of_some is, ended⟩

/-- A session that is share-locked stays as it is. -/
theorem session_stays (elsewhere : boardDiscipline.Elsewhere f p)
    (shared : Key.session sid ∈ f.shared) : p.rows (.session sid) = none := by
  by_contra written
  obtain ⟨row, is⟩ := Option.ne_none_iff_exists'.mp written
  exact (elsewhere.rows is).2 shared

theorem serves_stable : boardDiscipline.Stable c n fun f => Key.session sid ∈ f.shared ∧
    ∃ row : Session, f.base (.session sid) = some row ∧ row.serves room = true := by
  rintro f p ⟨shared, row, has, serves⟩ _ elsewhere _
  exact ⟨shared, row, (Rows.over_of_none (session_stays elsewhere shared)).trans has, serves⟩

theorem present_stable : boardDiscipline.Stable c n fun f => (Key.session sid ∈ f.shared ∧
    (room, sid) ∈ f.held) ∧ Present f.base room sid now := by
  rintro f p ⟨⟨shared, held⟩, serves, row, has, reachable⟩ proper elsewhere apart
  obtain ⟨_, serves⟩ := serves_stable ⟨shared, serves⟩ proper elsewhere apart
  refine ⟨⟨shared, held⟩, serves, row, ?_, reachable⟩
  refine (Rows.over_of_none ?_).trans has
  by_contra written
  obtain ⟨_, is, _⟩ := ended_of_delivered elsewhere held written
  rw [session_stays elsewhere shared] at is
  cases is

/-- The EXISTS clauses find a session that is gone. -/
theorem gone_of_unreachable (found : unreachable rows row now = true) :
    Gone rows row.room_id row.agent_session_id now := by
  simp only [unreachable, Bool.or_eq_true] at found
  rcases found with ended | lost
  · obtain ⟨session, has, ended⟩ := (Option.any_eq_true _ _).mp ended
    simp only [Bool.and_eq_true] at ended
    exact .inl ⟨session, has, Option.isSome_iff_ne_none.mp ended.2⟩
  · obtain ⟨delivery, has, lost⟩ := (Option.any_eq_true _ _).mp lost
    simp only [Bool.and_eq_true, Bool.not_eq_true'] at lost
    exact .inr ⟨delivery, has, lost.2⟩

/-- The transaction has released the dead manager and holds both delivery keys. -/
structure Releasing (input : FailoverInput) (room sid : String) (f : Footing Row DeliveryKey) :
    Prop where
  revises : f.Revises (.assignment input.dead_assignment_id) fun v v' : Assignment =>
    v.status = .active ∧ v.room_id = room ∧ v.agent_session_id = sid ∧ v'.status = .released
  gone : (room, sid) ∈ f.held ∧ Gone f.base room sid input.released_at
  held : (room, input.successor_agent_session_id) ∈ f.held
  only : ∀ k, f.written k ≠ none → k = .assignment input.dead_assignment_id

theorem releasing_stable : boardDiscipline.Stable c n (Releasing input room sid) :=
  fun _ _ here proper elsewhere apart =>
    ⟨stable_revises c n _ _ here.revises proper elsewhere apart,
      gone_stable here.gone proper elsewhere apart, here.held, here.only⟩

/-- The release and the new assignment are written. -/
structure Replacing (input : FailoverInput) (room sid : String) (f : Footing Row DeliveryKey) :
    Prop where
  revises : f.Revises (.assignment input.dead_assignment_id) fun v v' : Assignment =>
    v.status = .active ∧ v.room_id = room ∧ v.agent_session_id = sid ∧ v'.status = .released
  gone : (room, sid) ∈ f.held ∧ Gone f.base room sid input.released_at
  present : (Key.session input.successor_agent_session_id ∈ f.shared ∧
    (room, input.successor_agent_session_id) ∈ f.held) ∧
      Present f.base room input.successor_agent_session_id input.started_at
  fresh : f.written (.assignment input.id) ≠ none ∧ f.base (.assignment input.id) = none ∧
    ∃ row : Assignment, f.written (.assignment input.id) = some row ∧ row.status = .active ∧
      row.room_id = room ∧ row.agent_session_id = input.successor_agent_session_id
  only : ∀ k, f.written k ≠ none →
    k = .assignment input.dead_assignment_id ∨ k = .assignment input.id

theorem replacing_stable : boardDiscipline.Stable c n (Replacing input room sid) :=
  fun _ _ here proper elsewhere apart =>
    { revises := stable_revises c n _ _ here.revises proper elsewhere apart
      gone := gone_stable here.gone proper elsewhere apart
      present := present_stable here.present proper elsewhere apart
      fresh := ⟨here.fresh.1, (elsewhere.spares here.fresh.1).trans here.fresh.2.1, here.fresh.2.2⟩
      only := here.only }

theorem replacing_finish :
    boardDiscipline.Outline (.announceFailover input) (.finish .done) n
      (Replacing input room sid) := by
  refine Outline.finish replacing_stable fun f here proper _ => ⟨⟨?_, ?_⟩, trivial⟩
  · refine deliversFenced_of_none proper.lawful fun _ _ => ?_
    exact not_false
  · obtain ⟨dead, released, was, written, active, rfl, rfl, status⟩ := here.revises
    obtain ⟨_, fresh, manager, promoted, serving, room, session⟩ := here.fresh
    exact ⟨dead, manager, was, active, ⟨released, written, status⟩, here.gone.2, fresh, promoted,
      serving, room, session, here.present.2, here.only⟩

theorem promoteBoardManagerTx_outline :
    boardDiscipline.Outline (.announceFailover input) (promoteBoardManagerTx input room) n
      (Releasing input room sid) := by
  have free : ∀ {f : Footing Row DeliveryKey} {k : Key}, Releasing input room sid f →
      k ≠ .assignment input.dead_assignment_id → f.view k = f.base k := by
    intro f k here apart
    refine Rows.over_of_none ?_
    by_contra written
    exact apart (here.only k written)
  refine Outline.share releasing_stable fun f keys here _ lists => ?_
  dsimp only
  split
  · exact ⟨fun _ => True, trivial, Outline.abort⟩
  rename_i session found
  obtain ⟨seen, serves⟩ := Option.filter_eq_some_iff.mp found
  have shared : Key.session input.successor_agent_session_id ∈
      targeted (promoteBoardManagerTx.sessionServing room input.successor_agent_session_id)
        ⟨f.view, keys⟩ := by
    refine mem_targeted (lists.1 _ (by rw [seen]; exact Option.some_ne_none session)) seen ?_
    simp only [promoteBoardManagerTx.sessionServing, serves, decide_true, Bool.and_true]
  refine ⟨fun f => Releasing input room sid f ∧
    Key.session input.successor_agent_session_id ∈ f.shared ∧ ∃ row : Session,
      f.base (.session input.successor_agent_session_id) = some row ∧ row.serves room = true,
    ⟨⟨here.revises, here.gone, here.held, here.only⟩, List.mem_append_left _ shared, session,
      ?_, serves⟩, ?_⟩
  · exact (free here (by rintro ⟨⟩)).symm.trans seen
  refine lockKeys_outline (releasing_stable.and serves_stable)
    (fun f key here => ⟨⟨here.1.revises, ⟨.tail _ here.1.gone.1, here.1.gone.2⟩,
      .tail _ here.1.held, here.1.only⟩, here.2⟩) ?_ (by rintro _ _ ⟨⟩)
  refine Outline.select ((releasing_stable.and serves_stable).and fun _ _ here _ _ _ => here)
    fun f keys here _ lists => ?_
  obtain ⟨⟨here, sharing, serving⟩, _⟩ := here
  split
  · rename_i reachable
    obtain ⟨delivery, has, reachable⟩ := (Option.any_eq_true _ _).mp reachable
    have present : Present f.base room input.successor_agent_session_id input.started_at :=
      ⟨serving, delivery, (free here (by rintro ⟨⟩)).symm.trans has, reachable⟩
    refine ⟨fun f => Releasing input room sid f ∧
      (Key.session input.successor_agent_session_id ∈ f.shared ∧
        (room, input.successor_agent_session_id) ∈ f.held) ∧
          Present f.base room input.successor_agent_session_id input.started_at,
      ⟨here, ⟨sharing, here.held⟩, present⟩, ?_⟩
    refine Outline.insert (releasing_stable.and present_stable) rfl
      (fun f keys here _ _ vacant => ⟨Replacing input room sid, ?_, replacing_finish⟩)
      fun _ _ _ _ _ _ => ⟨fun _ => True, trivial, Outline.abort⟩
    obtain ⟨dead, released, was, written, marks⟩ := here.1.revises
    have absent : f.view (.assignment input.id) = none := vacant.1
    have apart : Key.assignment input.dead_assignment_id ≠ .assignment input.id := by
      intro same
      have seen : f.view (.assignment input.dead_assignment_id) ≠ none := by
        rw [Footing.view, Rows.over_of_some written]
        exact Option.some_ne_none released
      rw [same] at seen
      exact seen absent
    refine ⟨⟨dead, released, was, (Rows.over_of_none (Rows.single_ne _ apart)).trans written, marks⟩,
      here.1.gone, here.2, ⟨?_, ?_, _, Rows.over_of_some (Rows.single_self _ _), rfl, rfl, rfl⟩, ?_⟩
    · change (Rows.single _ _).over f.written _ ≠ none
      rw [Rows.over_of_some (Rows.single_self _ _)]
      exact Option.some_ne_none _
    · exact (Option.or_eq_none_iff.mp absent).2
    · intro k mine
      by_cases new : k = .assignment input.id
      · exact .inr new
      · change (Rows.single _ _).over f.written k ≠ none at mine
        rw [Rows.over_of_none (Rows.single_ne _ new)] at mine
        exact .inl (here.1.only k mine)
  · exact ⟨fun _ => True, trivial, Outline.abort⟩

/-- Nothing is written yet, and both delivery keys are held. -/
structure Claiming (input : FailoverInput) (room sid : String) (f : Footing Row DeliveryKey) :
    Prop where
  clean : ∀ k, f.written k = none
  named : Named input room sid f
  held : (room, sid) ∈ f.held ∧ (room, input.successor_agent_session_id) ∈ f.held

theorem claiming_stable : boardDiscipline.Stable c n (Claiming input room sid) :=
  fun _ _ here proper elsewhere apart =>
    ⟨here.clean, named_stable here.named proper elsewhere apart, here.held⟩

theorem claiming_hold (key : DeliveryKey) (here : Claiming input room sid f) :
    Claiming input room sid (f.hold key) :=
  ⟨here.clean, here.named, .tail _ here.held.1, .tail _ here.held.2⟩

/-- The UPDATE of a release that finds its row. -/
theorem releasing_of_chosen (here : Claiming input room sid f)
    (gone : Gone f.base room sid input.released_at)
    (found : chosen (atKey (.assignment input.dead_assignment_id) fun row : Assignment =>
      if row.claimed check_at ∧ unreachable rows row input.released_at then
        some (row.release failoverActor "Board Manager went offline; automatic failover."
          input.released_at)
      else none) ⟨f.view, keys⟩ ≠ []) :
    Releasing input room sid (f.write (revised (atKey (.assignment input.dead_assignment_id)
      fun row : Assignment =>
        if row.claimed check_at ∧ unreachable rows row input.released_at then
          some (row.release failoverActor "Board Manager went offline; automatic failover."
            input.released_at)
        else none) f.view)) := by
  obtain ⟨v, v', has, written, made⟩ := revises_of_chosen (here.clean _) found
  obtain ⟨⟨claimed, _⟩, made⟩ := Option.ite_none_right_eq_some.mp made
  cases made
  obtain ⟨row, seen, atRoom, ofSession⟩ := here.named
  have same : v = row := by
    rw [Footing.view_of_clean here.clean] at seen
    exact Option.some.inj (has.symm.trans seen)
  subst same
  simp only [Assignment.claimed, Bool.and_eq_true, decide_eq_true_eq] at claimed
  refine ⟨⟨v, _, has, written, claimed.1, atRoom, ofSession, rfl⟩, ⟨here.held.1, gone⟩, here.held.2,
    fun k mine => ?_⟩
  by_contra other
  exact mine ((written_of_ne other).trans (here.clean k))

theorem releaseBoardManagerAssignmentTx_outline
    (rest : boardDiscipline.Outline (.announceFailover input) next n (Releasing input room sid)) :
    boardDiscipline.Outline (.announceFailover input)
      (releaseBoardManagerAssignmentTx input check_at next) n (Claiming input room sid) := by
  refine Outline.select claiming_stable fun f keys here _ _ => ?_
  split
  · exact ⟨fun _ => True, trivial, Outline.abort⟩
  rename_i assignment found
  obtain ⟨row, seen, rfl, rfl⟩ := id here.named
  refine ⟨_, here, Outline.share claiming_stable fun f keys here _ _ =>
    ⟨Claiming input row.room_id row.agent_session_id, ⟨here.clean, here.named, here.held⟩, ?_⟩⟩
  refine lockKeys_outline claiming_stable (fun f key here => claiming_hold key here) ?_
    (by rintro _ _ ⟨⟩)
  refine Outline.select (claiming_stable.and fun _ _ here _ _ _ => here) fun f keys here _ _ => ?_
  have lawful : Within (law (.announceFailover input)) (atKey (.assignment input.dead_assignment_id)
      fun row : Assignment =>
        if row.claimed check_at ∧ unreachable f.view row input.released_at then
          some (row.release failoverActor "Board Manager went offline; automatic failover."
            input.released_at)
        else none) := by
    refine within_atKey fun v v' made => ?_
    obtain ⟨_, made⟩ := Option.ite_none_right_eq_some.mp made
    cases made
    exact ⟨rfl, rfl, .inr ⟨rfl, rfl⟩⟩
  by_cases gone : Gone f.base row.room_id row.agent_session_id input.released_at
  · refine ⟨_, ⟨here.1, here.1.held.1, gone⟩, Outline.update (claiming_stable.and gone_stable)
      (fun _ _ _ k v v' _ made => lawful k v v' made) fun f keys here _ _ => ?_⟩
    split
    · exact ⟨fun _ => True, trivial, Outline.abort⟩
    · rename_i found
      exact ⟨_, releasing_of_chosen here.1 here.2.2 found, rest⟩
  · -- The clauses are false of what was read, so the UPDATE finds no row.
    have clean := here.1.clean
    refine ⟨_, here.1, Outline.update claiming_stable
      (fun _ _ _ k v v' _ made => lawful k v v' made) fun f' keys here _ _ => ?_⟩
    split
    · exact ⟨fun _ => True, trivial, Outline.abort⟩
    · rename_i found
      obtain ⟨v, v', has, made⟩ := of_chosen_atKey found
      obtain ⟨⟨_, lost⟩, _⟩ := Option.ite_none_right_eq_some.mp made
      obtain ⟨_, seen, atRoom, ofSession⟩ := here.named
      obtain rfl := Option.some.inj (seen.symm.trans has)
      rw [Footing.view_of_clean clean] at lost
      have there := gone_of_unreachable lost
      rw [atRoom, ofSession] at there
      exact absurd there gone

theorem announceFailover_outline :
    boardDiscipline.Outline (.announceFailover input) (announceFailover input) n Footing.Idle := by
  refine Outline.select (boardDiscipline.stable_idle _ _) fun f keys idle _ _ => ?_
  split
  · rename_i dead check_at seen _
    have stable : boardDiscipline.Stable (.announceFailover input) n fun f =>
        (∀ k, f.written k = none) ∧ Named input dead.room_id dead.agent_session_id f :=
      Stable.and (fun _ _ here _ _ _ => here) named_stable
    refine ⟨_, ⟨idle.1, dead, seen, rfl, rfl⟩, Outline.share stable fun f keys here _ _ =>
      ⟨fun f => (∀ k, f.written k = none) ∧ Named input dead.room_id dead.agent_session_id f,
        here, ?_⟩⟩
    refine lockKeys_outline stable (fun f key here => here) ?_ (by rintro _ _ ⟨⟩)
    refine (releaseBoardManagerAssignmentTx_outline promoteBoardManagerTx_outline).weaken
      (by rintro _ _ ⟨⟩) (stable.and fun _ _ here _ _ _ => here) fun f here =>
        ⟨here.1.1, here.1.2, here.2 _ List.mem_cons_self,
          here.2 _ (List.mem_cons_of_mem _ List.mem_cons_self)⟩
  · exact ⟨fun _ => True, trivial, Outline.abort⟩

end Failover

theorem board_outlined : boardDiscipline.Outlined := by
  intro c
  cases c with
  | assignBoardManager input => exact assignBoardManager_outline input
  | releaseBoardManager input => exact releaseBoardManager_outline input
  | announceFailover input => exact announceFailover_outline
  | endRoomAgentSession input => exact endRoomAgentSession_outline input
  | recordDelivery input => exact recordDelivery_outline input
  | scheduleCheck id due => exact scheduleCheck_outline id due
  | registerSession id session => exact registerSession_outline id session
  | superviseSession id grant => exact superviseSession_outline id grant
  | recordGrant id grant => exact recordGrant_outline id grant

end Outlines

/-! ## Every run -/

/-- The room has an active manager. -/
def Managed (rows : Rows Row) (room : String) : Prop :=
  ∃ (id : String) (row : Assignment), rows (.assignment id) = some row ∧ row.room_id = room ∧
    row.status = .active

/-- A release by a manual assignment comes with the next manager, so that an assignment
which fails before it leaves the present one. -/
def Undivided (p : Commit) : Prop :=
  ∀ input, p.call = .assignBoardManager input → ∀ (id : String) (row row' : Assignment),
    p.footing.base (.assignment id) = some row → row.status = .active →
      p.rows (.assignment id) = some row' → row'.status = .released →
        ∃ (next : String) (manager : Assignment), p.rows (.assignment next) = some manager ∧
          manager.room_id = row.room_id ∧ manager.status = .active

/-- A manager that a manual assignment installs has not ended. -/
def InstallsLive (p : Commit) : Prop :=
  ∀ input, p.call = .assignBoardManager input → ∀ (id : String) (manager : Assignment),
    p.rows (.assignment id) = some manager → manager.status = .active → ∃ session : Session,
      p.footing.base (.session manager.agent_session_id) = some session ∧ session.ended_at = none

structure Succession (published : List Commit) (s : State Row Call DeliveryKey Unit Outcome) :
    Prop where
  final : ∀ p ∈ published, ∀ (id : String) (row : Assignment),
    p.footing.base (.assignment id) = some row → row.status = .released →
      ∃ row' : Assignment, s.base (.assignment id) = some row' ∧ row'.status = .released
  failover : ∀ p ∈ published, ∀ input, p.call = .announceFailover input →
    ∃ dead manager, Replaces p input dead manager
  undivided : ∀ p ∈ published, Undivided p
  continuous : ∀ earlier p later, published = earlier ++ p :: later → ∀ room,
    Managed p.footing.base room → (∀ q ∈ p :: later, ∀ input,
      q.call = .releaseBoardManager input → input.room_id ≠ room) → Managed s.base room
  installed : ∀ p ∈ published, InstallsLive p

/-- The release of a manual assignment finds no active manager, and the session that it
read has not ended when the next one is committed. -/
def Whole (p : Commit) : Prop :=
  ∀ input, p.call = .assignBoardManager input →
    (∀ (id : String) (row : Assignment), p.footing.base (.assignment id) = some row →
      row.status = .active → p.rows (.assignment id) = none) ∧
    (p.result ≠ none → ∃ session : Session,
      p.footing.base (.session input.agent_session_id) = some session ∧ session.ended_at = none)

section Commits

variable {p : Commit}

section

variable (honoured : boardDiscipline.Honoured p)
include honoured

theorem assigns_of_honoured (call : p.call = .assignBoardManager input) : Assigns p input := by
  have promised : promises p := honoured.guarantee
  rw [promises, call] at promised
  exact promised.2

theorem replaces_of_honoured (call : p.call = .announceFailover input) :
    ∃ dead manager, Replaces p input dead manager := by
  have promised : promises p := honoured.guarantee
  rw [promises, call] at promised
  exact promised.2

theorem whole_of_undivided (undivided : Undivided p) (live : InstallsLive p) : Whole p := by
  intro input call
  rcases assigns_of_honoured honoured call with ⟨pending, releases⟩ | ⟨_, fresh, manager, rows, active, session⟩
  · refine ⟨fun id row has active => ?_, fun returned => absurd pending returned⟩
    by_contra written
    obtain ⟨row', is⟩ := Option.ne_none_iff_exists'.mp written
    obtain ⟨next, manager, made, _, active⟩ :=
      undivided input call id row row' has active is (releases id row' is)
    exact absurd (active.symm.trans (releases next manager made)) (by decide)
  · constructor
    · intro id row has _
      rw [rows]
      refine Rows.single_ne _ fun same => ?_
      obtain rfl := Key.assignment.inj same
      rw [fresh] at has
      cases has
    · intro _
      obtain ⟨found, has, unended⟩ := live input call input.id manager
        (by rw [rows, Rows.single_self]) active
      exact ⟨found, session ▸ has, unended⟩

end

theorem undivided_of_whole (whole : Whole p) : Undivided p := by
  intro input call id row row' has active is _
  rw [(whole input call).1 id row has active] at is
  cases is

section

variable (honoured : boardDiscipline.Honoured p)
include honoured

theorem installsLive_of_whole (whole : Whole p) : InstallsLive p := by
  intro input call id manager is active
  rcases assigns_of_honoured honoured call with ⟨_, releases⟩ | ⟨returned, _, installed, rows, _, session⟩
  · exact absurd (active.symm.trans (releases id manager is)) (by decide)
  · rw [rows] at is
    cases Rows.single_eq_some is
    rw [session]
    exact (whole input call).2 returned

/-- What a commit leaves of a released assignment. -/
theorem released_stays {id : String} (has : p.footing.base (.assignment id) = some row)
    (released : row.status = .released) :
    ∃ row' : Assignment, p.rows.over p.footing.base (.assignment id) = some row' ∧
      row'.status = .released := by
  cases written : p.rows (.assignment id) with
  | none => exact ⟨row, (Rows.over_of_none written).trans has, released⟩
  | some row' =>
    refine ⟨row', Rows.over_of_some written, ?_⟩
    obtain ⟨_, _, kept | gone⟩ : law p.call (.assignment id) row row' :=
      honoured.lawful.of_base has written
    · exact kept.1.trans released
    · exact gone.1

/-- A commit that is whole and no release of the room leaves the room a manager. -/
theorem managed_stays (whole : Whole p) (managed : Managed p.footing.base room)
    (kept : ∀ input, p.call = .releaseBoardManager input → input.room_id ≠ room) :
    Managed (p.rows.over p.footing.base) room := by
  obtain ⟨id, row, has, rfl, active⟩ := managed
  cases written : p.rows (.assignment id) with
  | none => exact ⟨id, row, (Rows.over_of_none written).trans has, rfl, active⟩
  | some row' =>
    obtain ⟨atRoom, _, same | ⟨_, releases⟩⟩ : law p.call (.assignment id) row row' :=
      honoured.lawful.of_base has written
    · exact ⟨id, row', Rows.over_of_some written, atRoom, same.1.trans active⟩
    · cases call : p.call with
      | assignBoardManager input =>
        rw [(whole input call).1 id row has active] at written
        cases written
      | releaseBoardManager input =>
        rw [call] at releases
        exact absurd releases.symm (kept input call)
      | announceFailover input =>
        rw [call] at releases
        obtain rfl : id = input.dead_assignment_id := releases
        obtain ⟨dead, manager, replaces⟩ := replaces_of_honoured honoured call
        obtain rfl : row = dead := Option.some.inj (has.symm.trans replaces.was)
        exact ⟨input.id, manager, Rows.over_of_some replaces.promoted, replaces.room,
          replaces.status⟩
      | _ =>
        rw [call] at releases
        exact releases.elim

end

end Commits

theorem board_succession (db : Database board) {published : List Commit}
    {s : State Row Call DeliveryKey Unit Outcome}
    (run : board.Run (fun _ _ => True) db.state published s) :
    Succession published s ↔ ∀ p ∈ published, Whole p := by
  have run : board.Run (board.Admitted boardDiscipline.meets boardDiscipline.apart) db.state
      published s :=
    run.mono fun s action _ => System.admitted_of (fun _ => trivial) (fun _ _ _ => trivial) s action
  have honoured := (outlined_run board_outlined trivial run).2
  constructor
  · exact fun holds p member => whole_of_undivided (honoured p member) (holds.undivided p member)
      (holds.installed p member)
  · intro whole
    have final : ∀ p ∈ published, ∀ (id : String) (row : Assignment),
        p.footing.base (.assignment id) = some row → row.status = .released →
          ∃ row' : Assignment, s.base (.assignment id) = some row' ∧ row'.status = .released := by
      refine commits_induction board_outlined trivial (P := fun published base => ∀ p ∈ published,
        ∀ (id : String) (row : Assignment), p.footing.base (.assignment id) = some row →
          row.status = .released → ∃ row' : Assignment, base (.assignment id) = some row' ∧
            row'.status = .released) (fun p member => absurd member List.not_mem_nil) ?_ run
      rintro published _ q ih honoured rfl p member id row has released
      rcases List.mem_append.mp member with earlier | now
      · obtain ⟨row', there, released⟩ := ih p earlier id row has released
        exact released_stays honoured there released
      · obtain rfl := List.mem_singleton.mp now
        exact released_stays honoured has released
    have continuous : (∀ p ∈ published, Whole p) → ∀ earlier p later,
        published = earlier ++ p :: later → ∀ room, Managed p.footing.base room →
          (∀ q ∈ p :: later, ∀ input, q.call = .releaseBoardManager input → input.room_id ≠ room) →
            Managed s.base room := by
      refine commits_induction board_outlined trivial (P := fun published base =>
        (∀ p ∈ published, Whole p) → ∀ earlier p later, published = earlier ++ p :: later →
          ∀ room, Managed p.footing.base room → (∀ q ∈ p :: later, ∀ input,
            q.call = .releaseBoardManager input → input.room_id ≠ room) → Managed base room)
        (fun _ earlier p later split => absurd split (by simp)) ?_ run
      rintro published _ q ih honoured rfl whole earlier p later split room managed kept
      have last : Whole q := whole q (List.mem_append_right _ (List.mem_singleton.mpr rfl))
      rcases List.eq_nil_or_concat later with rfl | ⟨before, r, ends⟩
      · obtain ⟨_, same⟩ := List.append_inj' split rfl
        cases same
        exact managed_stays honoured last managed (kept q List.mem_cons_self)
      · rw [List.concat_eq_append] at ends
        subst ends
        obtain ⟨rest, same⟩ : published = earlier ++ p :: before ∧ [q] = [r] :=
          List.append_inj' (split.trans (List.append_assoc earlier (p :: before) [r]).symm) rfl
        cases same
        refine managed_stays honoured last (ih (fun p member => whole p
          (List.mem_append_left _ member)) earlier p before rest room managed fun r member => kept r
            ?_) (kept q (List.mem_cons_of_mem _ (List.mem_append_right _ (List.mem_singleton.mpr rfl))))
        rcases List.mem_cons.mp member with rfl | inner
        · exact List.mem_cons_self
        · exact List.mem_cons_of_mem _ (List.mem_append_left _ inner)
    exact ⟨final, fun p member _ call => replaces_of_honoured (honoured p member) call,
      fun p member => undivided_of_whole (whole p member), continuous whole,
      fun p member => installsLive_of_whole (honoured p member) (whole p member)⟩

/-! ### Runs on fixed inputs -/

def workerSession (agent_key : String) (ended_at : Option Nat) : Session where
  room_id := "room"
  session_kind := .worker
  agent_key := agent_key
  actor_label := agent_key
  runtime := ""
  ide_label := none
  liveness_capability := none
  tool_bridge_id := none
  supervisor_grant_id := none
  last_seen_at := 1
  ended_at := ended_at

/-- Ada manages the room, and Bob is connected. -/
def managedRoom (ended_at : Option Nat) : Database board :=
  (((Database.empty.add (fun {k v k' v'} => clash_symm k v k' v') (.session "ada")
      (workerSession "ada" ended_at) (by simp [System.Vacant, Database.empty])).add
    (fun {k v k' v'} => clash_symm k v k' v') (.session "bob") (workerSession "bob" none)
      (by simp [System.Vacant, Database.empty, Database.add, Rows.over, Rows.single, clash])).add
    (fun {k v k' v'} => clash_symm k v k' v') (.delivery "room" "bob") ⟨.worker, 1, none, 100⟩
      (by simp [System.Vacant, Database.empty, Database.add, Rows.over, Rows.single, clash])).add
    (fun {k v k' v'} => clash_symm k v k' v') (.assignment "bm_1")
      (newAssignment "room" "ada" "owner" .desktop_managed (some 50) 10 (workerSession "ada" none))
      (by simp [System.Vacant, Database.empty, Database.add, Rows.over, Rows.single, clash])

def assignBob : AssignInput where
  room_id := "room"
  agent_session_id := "bob"
  assigned_by := "owner"
  runtime_source := some .desktop_managed
  id := "bm_2"
  stall_check_at := some 200
  now := 101

/-- No active assignment has the key. -/
def Key.unmanaged (rows : Rows Row) : Key → Bool
  | .assignment id => (rows (.assignment id)).all fun row : Assignment => row.status = .released
  | _ => true

/-- The assignment stops after the release of the present manager. -/
theorem stopped_assignment :
    ¬∀ (db : Database board) (published : List Commit) (s : State Row Call DeliveryKey Unit Outcome),
      board.Run (fun _ _ => True) db.state published s → Succession published s := by
  intro all
  have found : (board.replay (fun _ _ => True) (managedRoom none).state
      [.start (.assignBoardManager assignBob), .run 0, .run 0, .run 0, .fail 0]).any
      (fun r => (r.1.getLast?).any (fun p => p.call = .assignBoardManager assignBob &&
          (p.footing.base (.assignment "bm_1")).any fun row : Assignment =>
            row.room_id = "room" && row.status = .active) &&
        r.2.keys.all (Key.unmanaged r.2.base)) = true := by
    decide +kernel
  obtain ⟨published, s, run, checked⟩ := System.exists_run found
  simp only [Bool.and_eq_true] at checked
  obtain ⟨p, last, checked', managed⟩ :
      ∃ p, published.getLast? = some p ∧ p.call = .assignBoardManager assignBob ∧
        Managed p.footing.base "room" := by
    obtain ⟨p, last, checked⟩ := (Option.any_eq_true _ _).mp checked.1
    rw [Bool.and_eq_true, decide_eq_true_eq] at checked
    obtain ⟨row, has, active⟩ := (Option.any_eq_true _ _).mp checked.2
    rw [Bool.and_eq_true, decide_eq_true_eq, decide_eq_true_eq] at active
    exact ⟨p, last, checked.1, "bm_1", row, has, active⟩
  obtain ⟨earlier, split⟩ := List.getLast?_eq_some_iff.mp last
  have listed := (outlined_run board_outlined trivial (run.mono fun s action _ =>
    System.admitted_of (fun _ => trivial) (fun _ _ _ => trivial) s action)).1.lists.1
  obtain ⟨id, row, has, _, active⟩ := (all (managedRoom none) published s run).continuous earlier p []
    split "room" managed fun q member input call => by
      obtain rfl := List.mem_singleton.mp member
      rw [checked'] at call
      cases call
  have released := List.all_eq_true.mp checked.2 _
    (listed (.assignment id) (by rw [has]; exact Option.some_ne_none row))
  rw [Key.unmanaged, has, Option.all_some, decide_eq_true_eq, active] at released
  cases released

def failoverToBob : FailoverInput where
  dead_assignment_id := "bm_1"
  claimed_check_at := some 50
  successor_agent_session_id := "bob"
  id := "bm_2"
  stall_check_at := some 200
  started_at := 101
  released_at := 102
  promoted_at := 103

/-- Ada's session has ended, and Bob succeeds. -/
theorem failover_to_bob :
    ∃ published s, board.Run (fun _ _ => True) (managedRoom (some 60)).state published s ∧
      (s.base (.assignment "bm_2")).any (fun row : Assignment => row.status = .active) = true ∧
        Succession published s := by
  have found : (board.replay (fun _ _ => True) (managedRoom (some 60)).state
      (.start (.announceFailover failoverToBob) :: List.replicate 14 (.run 0))).any
      (fun r => r.1.all (fun p => p.call = .announceFailover failoverToBob) &&
        (r.2.base (.assignment "bm_2")).any fun row : Assignment => row.status = .active) = true := by
    decide +kernel
  obtain ⟨published, s, run, checked⟩ := System.exists_run found
  rw [Bool.and_eq_true, List.all_eq_true] at checked
  refine ⟨published, s, run, checked.2, (board_succession _ run).mpr fun p member input call => ?_⟩
  rw [of_decide_eq_true (checked.1 p member)] at call
  cases call

end LetAgents.Coordination.BoardManagers

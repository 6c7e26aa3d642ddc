import LetAgents.Routing.RoutingAliases
import Mathlib.Data.List.Lex

/-!
# Display names of workers

Source: src/api/rooms/agent-display-name-allocation.ts:4-166.

A room gives a worker the name that it asks for, unless an agent of another identity answers
to it. Names are compared by their key, so what is free depends on the key alone.

Modelling boundary: `Date.parse` and the display name of `pickLocalCodename`, which hashes its
seed, are functions of the host.
-/
namespace LetAgents.Routing.DisplayNames

open Lib.RegExp

def MAX_DISPLAY_NAME_COLLISION_OFFSET : Nat := 1024

/-- The empty key is that of a blank name. -/
def agentDisplayNameKey (displayName : Text) : Text :=
  let handle := normalizeRoutingHandle (some displayName)
  if handle ≠ [] then handle else normalizeRoutingSender (some displayName)

structure Host where
  /-- `none` is `NaN`. -/
  dateParse : Text → Option Int
  pickLocalCodename : Text → Text

structure RoomWorkerNameHolder where
  session_id : Text
  agent_key : Text
  agent_instance_id : Option Text
  display_name : Text
  assigned_base_display_name : Option Text
  created_at : Text
  ended_at : Option Text

/-- A text or `null` as a condition. -/
def truthy (value : Option Text) : Bool := value.any fun text => text ≠ []

structure WorkerNameRequest where
  requested_display_name : Text
  agent_key : Text
  agent_instance_id : Text

structure ResolvedName where
  display_name : Text
  reassigned : Bool

/-- The agent's own live session. -/
def ownHolder (request : WorkerNameRequest) (holders : List RoomWorkerNameHolder) :
    Option RoomWorkerNameHolder :=
  holders.find? fun holder => !truthy holder.ended_at && holder.agent_key = request.agent_key &&
    holder.agent_instance_id = some request.agent_instance_id

section

variable (host : Host)

def pickAgentDisplayName (base agentKey : Text) (collisionOffset : Nat) : Text :=
  if collisionOffset = 0 then base
  else host.pickLocalCodename
    (agentKey ++ text ":" ++ (Nat.toDigits 10 collisionOffset).map Char.toNat)

def allocateAgentDisplayName (base agentKey : Text) (isHeld : Text → Bool) (fromOffset : Nat) :
    Option (Text × Nat) :=
  ((List.range' fromOffset (MAX_DISPLAY_NAME_COLLISION_OFFSET + 1 - fromOffset)).map fun offset =>
    (pickAgentDisplayName host base agentKey offset, offset)).find? fun pick => !isHeld pick.1

/-- `NaN` differs from every date and is before none. -/
def isSenior (left right : RoomWorkerNameHolder) : Bool :=
  match host.dateParse left.created_at, host.dateParse right.created_at with
  | some leftCreated, some rightCreated =>
    if leftCreated ≠ rightCreated then leftCreated < rightCreated
    else left.session_id < right.session_id
  | _, _ => false

def isNameHeldByAnotherAgent (displayName agentKey : Text)
    (ownSessions holders : List RoomWorkerNameHolder) : Bool :=
  let key := agentDisplayNameKey displayName
  if key = [] then false
  else
    let ownUnderName := ownSessions.filter fun own =>
      !truthy own.ended_at && agentDisplayNameKey own.display_name = key
    holders.any fun holder =>
      if holder.agent_key = agentKey then false
      else if agentDisplayNameKey (lastSegment holder.agent_key) = key then true
      else if agentDisplayNameKey holder.display_name ≠ key then false
      else if truthy holder.ended_at then true
      else !ownUnderName.any fun own => isSenior host own holder

variable (request : WorkerNameRequest) (holders : List RoomWorkerNameHolder)
  (additionallyHeld : List Text)

def isHeld (candidate : Text) : Bool :=
  ((additionallyHeld.map agentDisplayNameKey).filter (· ≠ [])).contains
      (agentDisplayNameKey candidate) ||
    isNameHeldByAnotherAgent host candidate request.agent_key (ownHolder request holders).toList
      holders

def resolveSupervisedWorkerDisplayName : Option ResolvedName :=
  let own := ownHolder request holders
  let isHeld := isHeld host request holders additionallyHeld
  let requested := request.requested_display_name
  let requestedKey := agentDisplayNameKey requested
  let repeatsReassignedRequest := own.any fun own =>
    agentDisplayNameKey own.display_name ≠ requestedKey && truthy own.assigned_base_display_name &&
      agentDisplayNameKey (own.assigned_base_display_name.getD []) = requestedKey
  match own.filter fun own => repeatsReassignedRequest && !isHeld own.display_name with
  | some own => some ⟨own.display_name, true⟩
  | none =>
    if !isHeld requested then some ⟨requested, false⟩
    else
      match own.filter fun own =>
          agentDisplayNameKey own.display_name ≠ requestedKey && !isHeld own.display_name with
      | some own => some ⟨own.display_name, true⟩
      | none => (allocateAgentDisplayName host requested request.agent_key isHeld 1).map fun
          allocated => ⟨allocated.1, true⟩

/-! ## Free keys -/

/-- No other agent answers to the key. -/
structure Free (key : Text) : Prop where
  reserved : ∀ name ∈ additionallyHeld, agentDisplayNameKey name ≠ key
  segments : ∀ holder ∈ holders, holder.agent_key ≠ request.agent_key →
    agentDisplayNameKey (lastSegment holder.agent_key) ≠ key
  senior : ∀ holder ∈ holders, holder.agent_key ≠ request.agent_key →
    agentDisplayNameKey holder.display_name = key → truthy holder.ended_at = false ∧
      ∃ own ∈ ownHolder request holders, agentDisplayNameKey own.display_name = key ∧
        isSenior host own holder = true

end

variable {host : Host} {request other : WorkerNameRequest} {key name : Text}
  {holders holders' : List RoomWorkerNameHolder} {held held' : List Text}
  {own a b : RoomWorkerNameHolder} {result : ResolvedName}

theorem own_live (found : ownHolder request holders = some own) :
    own ∈ holders ∧ truthy own.ended_at = false ∧ own.agent_key = request.agent_key := by
  have holds := List.find?_some found
  simp only [Bool.and_eq_true, Bool.not_eq_true', decide_eq_true_eq] at holds
  exact ⟨List.mem_of_find?_eq_some found, holds.1⟩

/-- What the held test says of one holder. -/
theorem holder_frees (holder : RoomWorkerNameHolder) : (if holder.agent_key = request.agent_key
      then false
    else if agentDisplayNameKey (lastSegment holder.agent_key) = key then true
    else if agentDisplayNameKey holder.display_name ≠ key then false
    else if truthy holder.ended_at then true
    else !((ownHolder request holders).toList.filter fun own => !truthy own.ended_at &&
      agentDisplayNameKey own.display_name = key).any fun own => isSenior host own holder) = false ↔
    (holder.agent_key ≠ request.agent_key →
      agentDisplayNameKey (lastSegment holder.agent_key) ≠ key) ∧
    (holder.agent_key ≠ request.agent_key → agentDisplayNameKey holder.display_name = key →
      truthy holder.ended_at = false ∧ ∃ own ∈ ownHolder request holders,
        agentDisplayNameKey own.display_name = key ∧ isSenior host own holder = true) := by
  by_cases itself : holder.agent_key = request.agent_key
  · simp [itself]
  by_cases segment : agentDisplayNameKey (lastSegment holder.agent_key) = key
  · simp [itself, segment]
  by_cases named : agentDisplayNameKey holder.display_name = key
  · cases ended : truthy holder.ended_at with
    | true => simp [segment]
    | false =>
      cases found : ownHolder request holders with
      | none => simp [segment]
      | some own => simp [segment, (own_live found).2.1]
  · simp [named]

theorem isHeld_eq_false : isHeld host request holders held name = false ↔
    (agentDisplayNameKey name ≠ [] →
      Free host request holders held (agentDisplayNameKey name)) := by
  unfold isHeld isNameHeldByAnotherAgent
  generalize agentDisplayNameKey name = key
  by_cases blank : key = []
  · simp [blank]
  have reserved : ((held.map agentDisplayNameKey).filter (· ≠ [])).contains key = false ↔
      ∀ name ∈ held, agentDisplayNameKey name ≠ key := by
    simp [blank]
  rw [Bool.or_eq_false_iff, reserved, if_neg blank, List.any_eq_false]
  simp only [Bool.not_eq_true, holder_frees]
  constructor
  · rintro ⟨reserved, frees⟩ _
    exact ⟨reserved, fun holder member => (frees holder member).1,
      fun holder member => (frees holder member).2⟩
  · intro free
    have free := free blank
    exact ⟨free.reserved, fun holder member => ⟨free.segments holder member,
      free.senior holder member⟩⟩

theorem isSenior_asymm (before : isSenior host a b = true) : isSenior host b a = false := by
  unfold isSenior at before ⊢
  cases left : host.dateParse a.created_at with
  | none => simp [left] at before
  | some l =>
    cases right : host.dateParse b.created_at with
    | none => simp [right] at before
    | some r =>
      simp only [left, right] at before ⊢
      by_cases same : l = r
      · simp only [same, ne_eq, not_true_eq_false, if_false, decide_eq_true_eq] at before ⊢
        exact decide_eq_false (lt_asymm before)
      · simp only [ne_eq, same, not_false_eq_true, if_true, decide_eq_true_eq] at before
        simp only [ne_eq, Ne.symm same, not_false_eq_true, if_true, decide_eq_false_iff_not]
        omega

theorem isHeld_congr (same : agentDisplayNameKey name = agentDisplayNameKey name') :
    isHeld host request holders held name = isHeld host request holders held name' := by
  simp only [isHeld, isNameHeldByAnotherAgent, same]

theorem allocate_free {isHeld : Text → Bool}
    (found : allocateAgentDisplayName host base agentKey isHeld offset = some allocated) :
    isHeld allocated.1 = false := by
  have free := List.find?_some found
  rwa [Bool.not_eq_true'] at free

/-- What is returned is not held; a name of the requested key is the requested one. -/
theorem resolve_spec
    (resolved : resolveSupervisedWorkerDisplayName host request holders held = some result) :
    isHeld host request holders held result.display_name = false ∧
      (agentDisplayNameKey result.display_name =
          agentDisplayNameKey request.requested_display_name →
        result.display_name = request.requested_display_name) := by
  unfold resolveSupervisedWorkerDisplayName at resolved
  dsimp only at resolved
  split at resolved
  · next own repeats =>
    cases resolved
    obtain ⟨found, repeats⟩ := Option.filter_eq_some_iff.mp repeats
    simp only [found, Option.any_some, Bool.and_eq_true, Bool.not_eq_true', decide_eq_true_eq]
      at repeats
    exact ⟨repeats.2, fun same => absurd same repeats.1.1.1⟩
  split at resolved
  · next free =>
    cases resolved
    exact ⟨by simpa using free, fun _ => rfl⟩
  next taken =>
  split at resolved
  · next own keeps =>
    cases resolved
    obtain ⟨_, keeps⟩ := Option.filter_eq_some_iff.mp keeps
    simp only [Bool.and_eq_true, Bool.not_eq_true', decide_eq_true_eq] at keeps
    exact ⟨keeps.2, fun same => absurd same keeps.1⟩
  · obtain ⟨allocated, found, rfl⟩ := Option.map_eq_some_iff.mp resolved
    have free := allocate_free found
    refine ⟨free, fun same => ?_⟩
    rw [isHeld_congr same] at free
    simp [free] at taken

theorem resolve_requested (kept : ∀ own ∈ ownHolder request holders,
      agentDisplayNameKey own.display_name = agentDisplayNameKey request.requested_display_name)
    (free : isHeld host request holders held request.requested_display_name = false) :
    resolveSupervisedWorkerDisplayName host request holders held =
      some ⟨request.requested_display_name, false⟩ := by
  unfold resolveSupervisedWorkerDisplayName
  cases found : ownHolder request holders with
  | none => simp [free]
  | some own => simp [free, kept own found]

/-! ## Names taken over -/

/-- The list after the worker got the name that it asked for or was given. -/
structure Adopted (request : WorkerNameRequest) (holders holders' : List RoomWorkerNameHolder)
    (name : Text) : Prop where
  own : ∃ own' ∈ ownHolder request holders', own'.display_name = name ∧
    own'.assigned_base_display_name = some request.requested_display_name ∧
      ∀ own ∈ ownHolder request holders, own'.session_id = own.session_id ∧
        own'.created_at = own.created_at
  siblings : ∀ holder ∈ holders', holder.agent_key = request.agent_key →
    holder ∈ holders ∨ holder ∈ ownHolder request holders'
  others : (holders'.filter fun holder => holder.agent_key ≠ request.agent_key) =
    holders.filter fun holder => holder.agent_key ≠ request.agent_key

theorem Adopted.mem (adopted : Adopted request holders holders' name)
    (elsewhere : a.agent_key ≠ request.agent_key) : a ∈ holders' ↔ a ∈ holders := by
  have same : a ∈ (holders'.filter fun holder => holder.agent_key ≠ request.agent_key) ↔
      a ∈ (holders.filter fun holder => holder.agent_key ≠ request.agent_key) := by
    rw [adopted.others]
  simpa [List.mem_filter, elsewhere] using same

theorem Adopted.ownHolder (adopted : Adopted request holders holders' name)
    (differ : other.agent_key ≠ request.agent_key) :
    ownHolder other holders' = ownHolder other holders := by
  have within (list : List RoomWorkerNameHolder) : DisplayNames.ownHolder other list =
      DisplayNames.ownHolder other (list.filter fun holder => holder.agent_key ≠ request.agent_key) := by
    unfold DisplayNames.ownHolder
    rw [List.find?_filter]
    congr 1
    funext holder
    by_cases itself : holder.agent_key = other.agent_key
    · simp [itself, differ]
    · simp [itself]
  rw [within holders', within holders, adopted.others]

theorem isSenior_congr (session : a.session_id = b.session_id) (created : a.created_at = b.created_at)
    (holder : RoomWorkerNameHolder) : isSenior host a holder = isSenior host b holder := by
  simp only [isSenior, session, created]

/-- The name stays free for the worker that has it now. -/
theorem Adopted.free (adopted : Adopted request holders holders' name)
    (free : isHeld host request holders held name = false) :
    isHeld host request holders' held name = false := by
  rw [isHeld_eq_false] at free ⊢
  intro whole
  obtain ⟨reserved, segments, senior⟩ := free whole
  constructor
  · exact reserved
  · intro holder member differ
    exact segments holder ((adopted.mem differ).mp member) differ
  · intro holder member differ named
    obtain ⟨live, own, found, _, before⟩ :=
      senior holder ((adopted.mem differ).mp member) differ named
    obtain ⟨own', found', rfl, _, itself⟩ := adopted.own
    obtain ⟨session, created⟩ := itself own found
    exact ⟨live, own', found', rfl, isSenior_congr session created holder ▸ before⟩

theorem resolve_again (asked : request.requested_display_name ≠ [])
    (resolved : resolveSupervisedWorkerDisplayName host request holders held = some result)
    (adopted : Adopted request holders holders' result.display_name) :
    (resolveSupervisedWorkerDisplayName host request holders' held).map (·.display_name) =
      some result.display_name := by
  obtain ⟨free, spelled⟩ := resolve_spec resolved
  have free := adopted.free free
  obtain ⟨own', found, named, base, _⟩ := adopted.own
  by_cases same : agentDisplayNameKey result.display_name =
      agentDisplayNameKey request.requested_display_name
  · rw [spelled same] at free ⊢
    rw [resolve_requested (fun own here => ?_) free]
    · rfl
    · rw [Option.mem_def] at found here
      rw [found, Option.some.injEq] at here
      rw [← here, named, same]
  · unfold resolveSupervisedWorkerDisplayName
    rw [Option.mem_def] at found
    simp [found, named, base, same, free, truthy, asked, Option.filter]

/-- Of two workers, the second does not get the name of the first. -/
theorem resolve_apart (differ : other.agent_key ≠ request.agent_key)
    (resolved : resolveSupervisedWorkerDisplayName host request holders held = some first)
    (adopted : Adopted request holders holders' first.display_name)
    (after : resolveSupervisedWorkerDisplayName host other holders' held' = some second)
    (whole : agentDisplayNameKey first.display_name ≠ []) :
    agentDisplayNameKey first.display_name ≠ agentDisplayNameKey second.display_name := by
  intro same
  have free := isHeld_eq_false.mp (resolve_spec after).1 (same ▸ whole)
  obtain ⟨own', found', named, _, itself⟩ := adopted.own
  obtain ⟨member', _, key'⟩ := own_live found'
  obtain ⟨_, senior, found, shared, before⟩ :=
    free.senior own' member' (key' ▸ differ.symm) (named ▸ same)
  rw [adopted.ownHolder differ] at found
  obtain ⟨member, _, key⟩ := own_live found
  obtain ⟨_, own, mine, _, earlier⟩ := (isHeld_eq_false.mp (resolve_spec resolved).1 whole).senior
    senior member (key ▸ differ) (shared.trans same.symm)
  obtain ⟨session, created⟩ := itself own mine
  rw [← isSenior_congr session created, isSenior_asymm before] at earlier
  cases earlier

/-- Nobody but juniors of the worker answers to its name. -/
structure Eldest (host : Host) (request : WorkerNameRequest) (holders : List RoomWorkerNameHolder)
    (held : List Text) (own : RoomWorkerNameHolder) : Prop where
  found : ownHolder request holders = some own
  asked : request.requested_display_name = own.display_name
  reserved : ∀ name ∈ held, agentDisplayNameKey name ≠ agentDisplayNameKey own.display_name
  segments : ∀ holder ∈ holders, holder.agent_key ≠ request.agent_key →
    agentDisplayNameKey (lastSegment holder.agent_key) ≠ agentDisplayNameKey own.display_name
  juniors : ∀ holder ∈ holders, holder.agent_key ≠ request.agent_key →
    agentDisplayNameKey holder.display_name = agentDisplayNameKey own.display_name →
      truthy holder.ended_at = false ∧ isSenior host own holder = true

theorem Eldest.keeps (eldest : Eldest host request holders held own) :
    resolveSupervisedWorkerDisplayName host request holders held =
      some ⟨own.display_name, false⟩ := by
  rw [← eldest.asked]
  apply resolve_requested
  · intro own' here
    rw [Option.mem_def, eldest.found, Option.some.injEq] at here
    rw [← here, eldest.asked]
  · rw [isHeld_eq_false, eldest.asked]
    intro _
    refine ⟨eldest.reserved, eldest.segments, fun holder member differ named => ?_⟩
    obtain ⟨live, senior⟩ := eldest.juniors holder member differ named
    exact ⟨live, own, eldest.found, rfl, senior⟩

/-- It stays the eldest while another worker gets its name. -/
theorem Eldest.adopted (eldest : Eldest host request holders held own)
    (whole : agentDisplayNameKey own.display_name ≠ [])
    (differ : other.agent_key ≠ request.agent_key) (known : (ownHolder other holders).isSome)
    (resolved : resolveSupervisedWorkerDisplayName host other holders held' = some result)
    (adopted : Adopted other holders holders' result.display_name) :
    Eldest host request holders' held own := by
  obtain ⟨member, _, key⟩ := own_live eldest.found
  obtain ⟨theirs, found⟩ := Option.isSome_iff_exists.mp known
  obtain ⟨theirMember, _, theirKey⟩ := own_live found
  have moved : agentDisplayNameKey result.display_name ≠ agentDisplayNameKey own.display_name := by
    intro same
    obtain ⟨_, senior, here, named, before⟩ :=
      (isHeld_eq_false.mp (resolve_spec resolved).1 (same ▸ whole)).senior own member
        (key ▸ differ.symm) same.symm
    obtain ⟨inHolders, _, seniorKey⟩ := own_live here
    have junior := (eldest.juniors senior inHolders (seniorKey ▸ differ) (named.trans same)).2
    rw [isSenior_asymm before] at junior
    cases junior
  constructor
  · rw [adopted.ownHolder differ.symm, eldest.found]
  · exact eldest.asked
  · exact eldest.reserved
  · intro holder inHolders elsewhere
    by_cases mine : holder.agent_key = other.agent_key
    · rw [mine, ← theirKey]
      exact eldest.segments theirs theirMember (theirKey ▸ differ)
    · exact eldest.segments holder ((adopted.mem mine).mp inHolders) elsewhere
  · intro holder inHolders elsewhere named
    by_cases mine : holder.agent_key = other.agent_key
    · rcases adopted.siblings holder inHolders mine with old | new
      · exact eldest.juniors holder old elsewhere named
      · obtain ⟨own', found', display, _⟩ := adopted.own
        rw [Option.mem_def] at new found'
        rw [new, Option.some.injEq] at found'
        rw [found', display] at named
        exact absurd named moved
    · exact eldest.juniors holder ((adopted.mem mine).mp inHolders) elsewhere named

/-- A live name that no session of the worker is senior under is not given to it. -/
theorem resolve_taken (resolved : resolveSupervisedWorkerDisplayName host request holders held =
      some result) (member : a ∈ holders) (differ : a.agent_key ≠ request.agent_key)
    (whole : agentDisplayNameKey a.display_name ≠ [])
    (first : ∀ own ∈ ownHolder request holders, isSenior host own a = false) :
    agentDisplayNameKey a.display_name ≠ agentDisplayNameKey result.display_name := by
  intro same
  obtain ⟨_, own, found, _, senior⟩ :=
    (isHeld_eq_false.mp (resolve_spec resolved).1 (same ▸ whole)).senior a member differ same
  rw [first own found] at senior
  cases senior

/-! ## The names of a room -/

/-- Names are free, stay, differ between agents, and are left to the eldest. -/
structure NamesSettled (host : Host) : Prop where
  free : ∀ request holders held result,
    resolveSupervisedWorkerDisplayName host request holders held = some result →
    agentDisplayNameKey result.display_name ≠ [] →
    (∀ name ∈ held, agentDisplayNameKey name ≠ agentDisplayNameKey result.display_name) ∧
      ∀ holder ∈ holders, holder.agent_key ≠ request.agent_key →
        agentDisplayNameKey (lastSegment holder.agent_key) ≠
            agentDisplayNameKey result.display_name ∧
          (truthy holder.ended_at = true ∨
            (∀ own ∈ ownHolder request holders, isSenior host holder own = true) →
              agentDisplayNameKey holder.display_name ≠ agentDisplayNameKey result.display_name)
  stable : ∀ request holders held result, request.requested_display_name ≠ [] →
    resolveSupervisedWorkerDisplayName host request holders held = some result →
    ∀ holders', Adopted request holders holders' result.display_name →
      (resolveSupervisedWorkerDisplayName host request holders' held).map (·.display_name) =
        some result.display_name
  apart : ∀ request other holders held held' first second, other.agent_key ≠ request.agent_key →
    resolveSupervisedWorkerDisplayName host request holders held = some first →
    agentDisplayNameKey first.display_name ≠ [] →
    ∀ holders', Adopted request holders holders' first.display_name →
      resolveSupervisedWorkerDisplayName host other holders' held' = some second →
        agentDisplayNameKey first.display_name ≠ agentDisplayNameKey second.display_name
  keeps : ∀ request holders held own, Eldest host request holders held own →
    agentDisplayNameKey own.display_name ≠ [] →
    resolveSupervisedWorkerDisplayName host request holders held = some ⟨own.display_name, false⟩ ∧
      ∀ other held' result, other.agent_key ≠ request.agent_key →
        (ownHolder other holders).isSome = true →
        resolveSupervisedWorkerDisplayName host other holders held' = some result →
        ∀ holders', Adopted other holders holders' result.display_name →
          resolveSupervisedWorkerDisplayName host request holders' held =
            some ⟨own.display_name, false⟩

theorem names_settled (host : Host) : NamesSettled host := by
  constructor
  · intro request holders held result resolved whole
    obtain ⟨reserved, segments, senior⟩ := isHeld_eq_false.mp (resolve_spec resolved).1 whole
    refine ⟨reserved, fun holder member differ => ⟨segments holder member differ, ?_⟩⟩
    intro held same
    obtain ⟨live, own, found, _, before⟩ := senior holder member differ same
    rcases held with ended | above
    · simp [live] at ended
    · exact absurd (above own found) (by simp [isSenior_asymm before])
  · exact fun _ _ _ _ asked resolved _ adopted => resolve_again asked resolved adopted
  · exact fun _ _ _ _ _ _ _ differ resolved whole _ adopted after =>
      resolve_apart differ resolved adopted after whole
  · intro request holders held own eldest whole
    exact ⟨eldest.keeps, fun _ _ _ differ known resolved _ adopted =>
      (eldest.adopted whole differ known resolved adopted).keeps⟩

/-- A worker of the agent under the name "Ash". -/
def ash (session agent created : String) : RoomWorkerNameHolder :=
  ⟨text session, text agent, some (text "1"), text "Ash", none, text created, none⟩

/-- Blank names are shared, and the two that share their name with an elder both change it. -/
theorem elder_moves_both :
    (∀ host : Host, ∃ result, resolveSupervisedWorkerDisplayName host
        ⟨[], text "team/ann", text "1"⟩
        [⟨text "s1", text "team/ben", none, text " ", none, [], some (text "ended")⟩] [] =
          some result ∧
      agentDisplayNameKey result.display_name = agentDisplayNameKey (text " ")) ∧
    ∀ pickLocalCodename : Text → Text,
      let dateParse := fun created => if created = text "2026-01-01T00:00:00.000Z" then
          some 1767225600000
        else if created = text "2026-01-01T00:00:01.000Z" then some 1767225601000
        else if created = text "2026-01-01T00:00:02.000Z" then some 1767225602000 else none
      let host : Host := ⟨dateParse, pickLocalCodename⟩
      let holders := [ash "s1" "team/cal" "2026-01-01T00:00:00.000Z",
        ash "s2" "team/ann" "2026-01-01T00:00:01.000Z",
        ash "s3" "team/ben" "2026-01-01T00:00:02.000Z"]
      let ann : WorkerNameRequest := ⟨text "Ash", text "team/ann", text "1"⟩
      let ben : WorkerNameRequest := ⟨text "Ash", text "team/ben", text "1"⟩
      ∀ first, resolveSupervisedWorkerDisplayName host ann holders [] = some first →
        ∀ holders', Adopted ann holders holders' first.display_name →
          ∀ second, resolveSupervisedWorkerDisplayName host ben holders' [] = some second →
            first.display_name ≠ text "Ash" ∧ second.display_name ≠ text "Ash" := by
  constructor
  · intro host
    refine ⟨⟨[], false⟩, resolve_requested (fun own found => ?_) ?_, by decide⟩
    · have none : ownHolder ⟨[], text "team/ann", text "1"⟩ [⟨text "s1", text "team/ben", none,
          text " ", none, [], some (text "ended")⟩] = none := by decide
      rw [none] at found
      cases found
    · exact isHeld_eq_false.mpr fun whole => absurd (by decide) whole
  · intro pickLocalCodename dateParse host holders ann ben first resolved holders' adopted second after
    have whole : agentDisplayNameKey (text "Ash") ≠ [] := by decide
    have annOwn : ownHolder ann holders = some (ash "s2" "team/ann" "2026-01-01T00:00:01.000Z") := rfl
    have benOwn : ownHolder ben holders = some (ash "s3" "team/ben" "2026-01-01T00:00:02.000Z") := rfl
    have cal : ash "s1" "team/cal" "2026-01-01T00:00:00.000Z" ∈ holders := List.mem_cons_self
    constructor
    · intro same
      have moved := resolve_taken resolved cal (by decide) whole fun own found => by
        rw [Option.mem_def, annOwn, Option.some.injEq] at found
        rw [← found]
        rfl
      rw [same] at moved
      exact moved rfl
    · intro same
      have there := (adopted.mem (by decide)).mpr cal
      have moved := resolve_taken after there (by decide) whole fun own found => by
        rw [adopted.ownHolder (by decide), Option.mem_def, benOwn, Option.some.injEq] at found
        rw [← found]
        rfl
      rw [same] at moved
      exact moved rfl

end LetAgents.Routing.DisplayNames

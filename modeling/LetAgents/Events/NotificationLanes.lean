import LetAgents.Events.NotificationReceiver
import Mathlib.Data.List.Range

/-!
# The lanes of the receiver

Every notification that was accepted and has not finished is in its lane: first the one that
the lane's drain is suspended at, then the queue, in the order of acceptance. A drain that
is in its loop has taken the queue of its lane in hand, so the invariant names what each
lane still holds.
-/
namespace LetAgents.Events

open Lib

variable {options : ReceiverOptions} {s : Receiver} {key : String}
  {w : OrderedNotificationWork} {works rest : List OrderedNotificationWork}

def OrderedNotificationWork.lane (w : OrderedNotificationWork) : String :=
  Receiver.laneKey w.origin w.roomId

/-- The notification has captured the promise. -/
def OrderedNotificationWork.awaits (w : OrderedNotificationWork) (n : Nat) : Prop :=
  w.previousOrigin = some n ∨ n ∈ w.previousGlobalBarrier

instance (w : OrderedNotificationWork) (n : Nat) : Decidable (w.awaits n) :=
  inferInstanceAs (Decidable (_ ∨ _))

namespace Receiver

/-- What a lane holds: the notification its drain is suspended at, and its queue. -/
def own (s : Receiver) (key : String) : List OrderedNotificationWork :=
  ((s.drains key).map Prod.fst).toList ++ s.queue key

/-- The accepted notifications of a lane that have not finished. -/
def pending (s : Receiver) (key : String) : List OrderedNotificationWork :=
  s.accepted.filter fun w => w.lane = key ∧ w.completion ∉ s.finished

theorem own_of_suspended (here : s.drains key = some (w, at')) : s.own key = w :: s.queue key := by
  simp [own, here]

theorem mem_pending : w ∈ s.pending key ↔
    w ∈ s.accepted ∧ w.lane = key ∧ w.completion ∉ s.finished := by
  simp [pending]

end Receiver

/-- `held`: what each lane still holds. -/
structure Sound (s : Receiver) (held : String → List OrderedNotificationWork) : Prop where
  numbered : s.accepted.map (·.completion) = List.range s.accepted.length
  placed : ∀ key, s.pending key = held key
  known : ∀ n ∈ s.finished, n < s.accepted.length
  captured : ∀ w ∈ s.accepted, ∀ n, w.awaits n → n < w.completion
  tails : ∀ origin n, s.originTails.get origin = some n →
    ∃ t ∈ s.accepted, t.origin = origin ∧ t.completion = n ∧ n ∉ s.finished
  barrier : ∀ n, s.globalBarrierTail = some n → n < s.accepted.length
  running : ∀ key w, s.drains key = some (w, .run) → w.completion ∈ s.started
  started : ∀ n ∈ s.started, ∃ w ∈ s.accepted, w.completion = n ∧
    (n ∈ s.finished ∨ s.drains w.lane = some (w, .run))
  once : s.started.Nodup
  closed : s.closed = true → s.lanes = .empty

/-- Between two steps. -/
structure Resting (s : Receiver) : Prop where
  sound : Sound s s.own
  idle : ∀ key, s.drains key = none → s.queue key = []

/-- A drain is in its loop, with these notifications in hand. -/
structure Busy (s : Receiver) (key : String) (works : List OrderedNotificationWork) : Prop where
  sound : Sound s (Function.update s.own key works)
  idle : ∀ other ≠ key, s.drains other = none → s.queue other = []
  unstarted : ∀ w ∈ works, w.completion ∉ s.started

/-! ## Numbers -/

namespace Sound

variable {held : String → List OrderedNotificationWork} (sound : Sound s held)
include sound

theorem increasing : s.accepted.Pairwise (·.completion < ·.completion) := by
  have pairwise : (s.accepted.map (·.completion)).Pairwise (· < ·) := by
    rw [sound.numbered]
    exact List.pairwise_lt_range
  exact List.pairwise_map.mp pairwise

theorem lt_length (accepted : w ∈ s.accepted) : w.completion < s.accepted.length := by
  have member : w.completion ∈ s.accepted.map (·.completion) := List.mem_map_of_mem accepted
  rw [sound.numbered] at member
  exact List.mem_range.mp member

theorem exists_accepted (lt : n < s.accepted.length) : ∃ w ∈ s.accepted, w.completion = n := by
  have member : n ∈ s.accepted.map (·.completion) := by
    rw [sound.numbered]
    exact List.mem_range.mpr lt
  exact List.mem_map.mp member

theorem eq_of_completion (accepted : w ∈ s.accepted) (accepted' : p ∈ s.accepted)
    (same : w.completion = p.completion) : w = p := by
  have distinct : (s.accepted.map (·.completion)).Nodup := by
    rw [sound.numbered]
    exact List.nodup_range
  exact List.inj_on_of_nodup_map distinct accepted accepted' same

theorem mem_held (accepted : w ∈ s.accepted) (unfinished : w.completion ∉ s.finished) :
    w ∈ held w.lane := by
  rw [← sound.placed]
  exact Receiver.mem_pending.mpr ⟨accepted, rfl, unfinished⟩

theorem of_held (member : w ∈ held key) :
    w ∈ s.accepted ∧ w.lane = key ∧ w.completion ∉ s.finished := by
  rw [← sound.placed] at member
  exact Receiver.mem_pending.mp member

/-- The lane's first notification precedes the others. -/
theorem first (here : held key = w :: rest) (member : p ∈ rest) : w.completion < p.completion := by
  have increasing : (s.pending key).Pairwise (·.completion < ·.completion) :=
    sound.increasing.filter _
  rw [sound.placed, here] at increasing
  exact (List.pairwise_cons.mp increasing).1 p member

/-- A notification that finishes leaves its lane. -/
theorem complete (here : held key = w :: rest) :
    Sound (s.complete w) (Function.update held key rest) := by
  obtain ⟨accepted, lane, _⟩ := sound.of_held (w := w) (by rw [here]; exact .head _)
  have finished : (s.complete w).finished = s.finished ++ [w.completion] := rfl
  refine { sound with
    placed := fun other => ?_, known := fun n member => ?_, tails := fun origin n tail => ?_,
    started := fun n member => ?_ }
  · have fewer : (s.complete w).pending other =
        (s.pending other).filter fun p => p.completion ≠ w.completion := by
      simp only [Receiver.pending, finished, List.filter_filter]
      refine List.filter_congr fun p _ => ?_
      simp [and_comm, Bool.and_assoc]
    rw [fewer, sound.placed]
    by_cases same : other = key
    · subst same
      have others : ∀ p ∈ rest, decide (p.completion ≠ w.completion) = true := by
        intro p member
        have lt := sound.first here member
        simp
        omega
      rw [here, Function.update_self, List.filter_cons_of_neg (by simp),
        List.filter_eq_self.mpr others]
    · rw [Function.update_of_ne same]
      refine List.filter_eq_self.mpr fun p member => ?_
      obtain ⟨accepted', lane', _⟩ := sound.of_held member
      have apart : p.completion ≠ w.completion := by
        intro equal
        rw [sound.eq_of_completion accepted' accepted equal, lane] at lane'
        exact same lane'.symm
      simpa using apart
  · rw [finished, List.mem_append, List.mem_singleton] at member
    rcases member with before | rfl
    · exact sound.known n before
    · exact sound.lt_length accepted
  · have origins : (s.complete w).originTails =
        if s.originTails.get w.origin = some w.completion then s.originTails.delete w.origin
        else s.originTails := rfl
    rw [origins] at tail
    have old : s.originTails.get origin = some n ∧ n ≠ w.completion := by
      split at tail
      · by_cases same : origin = w.origin
        · simp [same] at tail
        · rw [OrderedMap.get_delete_of_ne _ same] at tail
          obtain ⟨t, accepted', origin', number, _⟩ := sound.tails origin n tail
          refine ⟨tail, fun equal => same ?_⟩
          rw [← origin', sound.eq_of_completion accepted' accepted (number.trans equal)]
      · rename_i apart
        refine ⟨tail, fun equal => ?_⟩
        obtain ⟨t, accepted', origin', number, _⟩ := sound.tails origin n tail
        rw [← origin', sound.eq_of_completion accepted' accepted (number.trans equal), equal] at tail
        exact apart tail
    obtain ⟨t, accepted', origin', number, unfinished⟩ := sound.tails origin n old.1
    refine ⟨t, accepted', origin', number, ?_⟩
    simp [finished, unfinished, old.2]
  · obtain ⟨p, accepted', number, unfinished⟩ := sound.started n member
    exact ⟨p, accepted', number, unfinished.imp_left fun before => List.mem_append_left _ before⟩

end Sound

/-! ## Drains -/

namespace Busy

/-- Nothing is left in the lane. -/
theorem leave (busy : Busy s key []) : Resting (s.leave key) := by
  have sound := busy.sound
  have holds : (s.leave key).own = Function.update s.own key [] := by
    funext other
    by_cases same : other = key
    · simp [Receiver.own, Receiver.leave, Receiver.queue, same]
    · simp [Receiver.own, Receiver.leave, Receiver.queue, same]
  refine ⟨{ sound with
    placed := fun other => ?_, running := fun other w at' => ?_, started := fun n member => ?_,
    closed := fun closed => ?_ }, fun other free => ?_⟩
  · rw [holds]
    exact sound.placed other
  · by_cases same : other = key
    · simp [Receiver.leave, same] at at'
    · simp only [Receiver.leave, Function.update_of_ne same] at at'
      exact sound.running other w at'
  · obtain ⟨w, accepted, number, finished | runs⟩ := sound.started n member
    · exact ⟨w, accepted, number, .inl finished⟩
    · by_cases same : w.lane = key
      · by_cases done : n ∈ s.finished
        · exact ⟨w, accepted, number, .inl done⟩
        · have held := sound.mem_held accepted (number ▸ done)
          simp [same] at held
      · refine ⟨w, accepted, number, .inr ?_⟩
        simpa [Receiver.leave, same] using runs
  · simp [Receiver.leave, sound.closed closed, OrderedMap.delete, OrderedMap.empty]
  · by_cases same : other = key
    · simp [Receiver.queue, Receiver.leave, same]
    · have kept := busy.idle other same (by simpa [Receiver.leave, same] using free)
      simpa [Receiver.queue, Receiver.leave, same] using kept

/-- The drain waits for what the next notification has captured. -/
theorem suspend (busy : Busy s key (w :: rest)) (opened : s.closed = false) :
    Resting { s.read with
      lanes := s.lanes.set key rest
      drains := Function.update s.drains key (some (w, .predecessors)) } := by
  have sound := busy.sound
  refine ⟨{ sound with
    placed := fun other => ?_, running := fun other w at' => ?_, started := fun n member => ?_,
    closed := fun closed => absurd (opened.symm.trans closed) (by decide) }, fun other free => ?_⟩
  · refine (sound.placed other).trans ?_
    by_cases same : other = key
    · subst same
      simp [Receiver.own, Receiver.queue]
    · simp [Receiver.own, Receiver.queue, same]
  · by_cases same : other = key
    · simp [same] at at'
    · simp only [Function.update_of_ne same] at at'
      exact sound.running other w at'
  · obtain ⟨p, accepted, number, finished | runs⟩ := sound.started n member
    · exact ⟨p, accepted, number, .inl finished⟩
    · by_cases done : n ∈ s.finished
      · exact ⟨p, accepted, number, .inl done⟩
      refine ⟨p, accepted, number, .inr ?_⟩
      by_cases same : p.lane = key
      · have held := sound.mem_held accepted (number ▸ done)
        rw [same, Function.update_self] at held
        exact absurd (number ▸ member) (busy.unstarted p held)
      · simpa [same] using runs
  · by_cases same : other = key
    · simp [same] at free
    · have kept := busy.idle other same (by simpa [same] using free)
      simpa [Receiver.queue, same] using kept

/-- The deadline drops the next notification. -/
theorem expire (busy : Busy s key (w :: rest)) : Busy (s.read.expire w) key rest := by
  have complete := busy.sound.complete (Function.update_self ..)
  rw [Function.update_idem] at complete
  exact ⟨{ complete with }, busy.idle, fun p member => busy.unstarted p (.tail _ member)⟩

theorem drainQueue (busy : Busy s key works) (opened : s.closed = false) :
    Resting (Receiver.drainQueue options key works s) := by
  induction works generalizing s with
  | nil => exact busy.leave
  | cons w rest ih =>
    rw [Receiver.drainQueue]
    split
    · exact ih busy.expire opened
    · exact busy.suspend opened

theorem goOn (busy : Busy s key (s.queue key)) : Resting (s.goOn options key) := by
  rw [Receiver.goOn]
  split
  · rename_i closed
    have none : s.queue key = [] := by simp [Receiver.queue, busy.sound.closed closed]
    rw [none] at busy
    exact busy.leave
  · rename_i opened
    exact busy.drainQueue (by simpa using opened)

end Busy

/-! ## Steps -/

namespace Resting

section

variable (resting : Resting s)
include resting

theorem of_suspended (here : s.drains key = some (w, at')) :
    w ∈ s.accepted ∧ w.lane = key ∧ w.completion ∉ s.finished := by
  refine resting.sound.of_held ?_
  rw [Receiver.own_of_suspended here]
  exact .head _

theorem of_queue (queued : w ∈ s.queue key) :
    w ∈ s.accepted ∧ w.lane = key ∧ w.completion ∉ s.finished := by
  have held : w ∈ s.own key := List.mem_append_right _ queued
  exact resting.sound.of_held held

/-- The notification that a drain is suspended at finishes. -/
theorem complete (here : s.drains key = some (w, at')) : Busy (s.complete w) key (s.queue key) := by
  have holds := Receiver.own_of_suspended here
  refine ⟨?_, fun other _ => resting.idle other, fun p member begun => ?_⟩
  · exact resting.sound.complete holds
  · obtain ⟨accepted, lane, unfinished⟩ := resting.of_queue member
    obtain ⟨p', accepted', number, finished | runs⟩ := resting.sound.started _ begun
    · exact unfinished finished
    · rw [resting.sound.eq_of_completion accepted' accepted number, lane, here] at runs
      cases runs
      exact absurd (resting.sound.first holds member) (Nat.lt_irrefl _)

/-- A waiting notification has not started. -/
theorem unstarted (here : s.drains key = some (w, .predecessors)) : w.completion ∉ s.started := by
  obtain ⟨accepted, lane, unfinished⟩ := resting.of_suspended here
  intro begun
  obtain ⟨p, accepted', number, finished | runs⟩ := resting.sound.started _ begun
  · exact unfinished finished
  · rw [resting.sound.eq_of_completion accepted' accepted number, lane, here] at runs
    cases runs

theorem start (here : s.drains key = some (w, .predecessors)) :
    Resting { s.read with
      drains := Function.update s.drains key (some (w, .run))
      started := s.started ++ [w.completion] } := by
  have sound := resting.sound
  obtain ⟨accepted, lane, unfinished⟩ := resting.of_suspended here
  refine ⟨{ sound with
    placed := fun other => (sound.placed other).trans ?_, running := fun other p at' => ?_,
    started := fun n member => ?_, once := ?_ }, fun other free => ?_⟩
  · by_cases same : other = key
    · simp [Receiver.own, Receiver.queue, Receiver.read, same, here]
    · simp [Receiver.own, Receiver.queue, Receiver.read, same]
  · rw [List.mem_append, List.mem_singleton]
    by_cases same : other = key
    · simp only [same, Function.update_self, Option.some.injEq, Prod.mk.injEq] at at'
      exact .inr (by rw [at'.1])
    · simp only [Function.update_of_ne same] at at'
      exact .inl (sound.running other p at')
  · rw [List.mem_append, List.mem_singleton] at member
    rcases member with before | rfl
    · obtain ⟨p, accepted', number, finished | runs⟩ := sound.started n before
      · exact ⟨p, accepted', number, .inl finished⟩
      · refine ⟨p, accepted', number, .inr ?_⟩
        by_cases same : p.lane = key
        · rw [same, here] at runs
          cases runs
        · simpa [same] using runs
    · exact ⟨w, accepted, rfl, .inr (by simp [lane])⟩
  · exact sound.once.append (List.nodup_singleton _) (by simpa using resting.unstarted here)
  · by_cases same : other = key
    · simp [same] at free
    · exact resting.idle other (by simpa [same] using free)

/-- A new notification captures promises of notifications before it. -/
theorem newWork_awaits (awaits : (s.newWork options origin roomId).awaits n) :
    n < s.accepted.length := by
  have tail : ∀ other, s.originTails.get other = some n → n < s.accepted.length := by
    intro other tail
    obtain ⟨t, accepted, _, number, _⟩ := resting.sound.tails other n tail
    exact number ▸ resting.sound.lt_length accepted
  rcases awaits with previous | captured
  · exact tail origin previous
  · cases roomId with
    | none =>
      simp only [Receiver.newWork, Receiver.barrier, List.mem_append, Option.mem_toList] at captured
      rcases captured with before | value
      · exact resting.sound.barrier n before
      · obtain ⟨other, found⟩ := OrderedMap.exists_of_mem_values value
        exact tail other found
    | some roomId =>
      simp only [Receiver.newWork, Receiver.barrier, Option.mem_toList] at captured
      exact resting.sound.barrier n captured

theorem push_sound (opened : s.closed = false) (number : w.completion = s.accepted.length)
    (captured : ∀ n, w.awaits n → n < w.completion) :
    Sound (s.push w) (Function.update s.own w.lane (s.own w.lane ++ [w])) := by
  have sound := resting.sound
  have unfinished : w.completion ∉ s.finished := fun member =>
    absurd (sound.known _ member) (by omega)
  have accepted : (s.push w).accepted = s.accepted ++ [w] := rfl
  refine { sound with
    numbered := ?_, placed := fun other => ?_, known := fun n member => ?_,
    captured := fun p member n awaits => ?_, tails := fun origin n tail => ?_,
    barrier := fun n tail => ?_, started := fun n member => ?_,
    closed := fun closed => absurd (opened.symm.trans closed) (by decide) }
  · rw [accepted, List.map_append, sound.numbered]
    simp [number, List.range_succ]
  · have grows : (s.push w).pending other =
        s.pending other ++ if w.lane = other then [w] else [] := by
      simp only [Receiver.pending]
      split <;> simp_all [Receiver.push, Receiver.read]
    rw [grows, sound.placed]
    by_cases same : other = w.lane
    · simp [same]
    · simp [same, Ne.symm same]
  · rw [accepted, List.length_append]
    exact Nat.lt_succ_of_lt (sound.known n member)
  · rw [accepted, List.mem_append, List.mem_singleton] at member
    rcases member with before | rfl
    · exact sound.captured p before n awaits
    · exact captured n awaits
  · by_cases same : origin = w.origin
    · have newest : w.completion = n := by simpa [Receiver.push, same] using tail
      exact ⟨w, by simp [accepted], same.symm, newest, newest ▸ unfinished⟩
    · have old : s.originTails.get origin = some n := by simpa [Receiver.push, same] using tail
      obtain ⟨t, before, origin', number', unfinished'⟩ := sound.tails origin n old
      exact ⟨t, by simp [accepted, before], origin', number', unfinished'⟩
  · rw [accepted, List.length_append, List.length_singleton]
    by_cases roomless : w.roomId = none
    · simp only [Receiver.push, roomless, if_true, Option.some.injEq] at tail
      omega
    · have old : s.globalBarrierTail = some n := by simpa [Receiver.push, roomless] using tail
      exact Nat.lt_succ_of_lt (sound.barrier n old)
  · obtain ⟨p, before, number', done⟩ := sound.started n member
    exact ⟨p, by simp [accepted, before], number', done⟩

end

section Push

variable (resting : Resting s) (opened : s.closed = false)
  (number : w.completion = s.accepted.length) (captured : ∀ n, w.awaits n → n < w.completion)

theorem push_queue (other : String) : (s.push w).queue other =
    if other = w.lane then s.queue w.lane ++ [w] else s.queue other := by
  by_cases same : other = w.lane
  · simp [Receiver.queue, Receiver.push, OrderedNotificationWork.lane, same]
  · have apart : other ≠ Receiver.laneKey w.origin w.roomId := same
    simp [Receiver.queue, Receiver.push, same, apart]

theorem push_own : (s.push w).own = Function.update s.own w.lane (s.own w.lane ++ [w]) := by
  have drains : (s.push w).drains = s.drains := rfl
  funext other
  by_cases same : other = w.lane
  · simp [Receiver.own, push_queue, drains, same]
  · simp [Receiver.own, push_queue, drains, same]

include resting opened number captured

/-- A notification that finds its lane suspended is behind it. -/
theorem push_behind (suspended : s.drains w.lane ≠ none) : Resting (s.push w) := by
  refine ⟨?_, fun other free => ?_⟩
  · rw [push_own]
    exact resting.push_sound opened number captured
  · have same : other ≠ w.lane := fun same => suspended (same ▸ free)
    rw [push_queue, if_neg same]
    exact resting.idle other free

/-- A notification that finds its lane empty is the drain's next one. -/
theorem push_first (none : s.drains w.lane = none) :
    Busy (s.push w) w.lane ((s.push w).queue w.lane) := by
  have empty := resting.idle w.lane none
  have alone : s.own w.lane = [] := by simp [Receiver.own, none, empty]
  have sound := resting.push_sound opened number captured
  refine ⟨?_, fun other same free => ?_, fun p member => ?_⟩
  · rw [alone] at sound
    rw [push_queue, if_pos rfl, empty, push_own, Function.update_idem]
    exact sound
  · rw [push_queue, if_neg same]
    exact resting.idle other free
  · rw [push_queue, if_pos rfl, empty, List.nil_append, List.mem_singleton] at member
    subst member
    intro begun
    obtain ⟨p', before, number', _⟩ := resting.sound.started _ begun
    exact absurd (resting.sound.lt_length before) (by omega)

theorem push_drain : Resting ((s.push w).drain options w.lane) := by
  have drains : (s.push w).drains = s.drains := rfl
  rw [Receiver.drain, drains]
  split
  · rename_i suspended
    exact resting.push_behind opened number captured (Option.isSome_iff_ne_none.mp suspended)
  · rename_i free
    exact (resting.push_first opened number captured (by simpa using free)).goOn

end Push

theorem mem_queued : q ∈ s.queued ↔ ∃ key, q ∈ s.queue key := by
  rw [Receiver.queued, List.mem_flatten]
  constructor
  · rintro ⟨lane, member, here⟩
    obtain ⟨key, found⟩ := OrderedMap.exists_of_mem_values member
    exact ⟨key, by simpa [Receiver.queue, found] using here⟩
  · rintro ⟨key, here⟩
    cases found : s.lanes.get key with
    | none => simp [Receiver.queue, found] at here
    | some lane => exact ⟨lane, OrderedMap.mem_values found, by simpa [Receiver.queue, found] using here⟩

section

variable (resting : Resting s)
include resting

theorem of_queued (queued : q ∈ s.queued) :
    q ∈ s.accepted ∧ q ∈ s.queue q.lane ∧ q.completion ∉ s.finished := by
  obtain ⟨key, here⟩ := mem_queued.mp queued
  obtain ⟨accepted, lane, unfinished⟩ := resting.of_queue here
  exact ⟨accepted, lane ▸ here, unfinished⟩

/-- The notifications that a close drops are the queued ones. -/
theorem number_queued (accepted : w ∈ s.accepted) :
    w.completion ∈ s.queued.map (·.completion) ↔ w ∈ s.queue w.lane := by
  rw [List.mem_map]
  constructor
  · rintro ⟨q, queued, same⟩
    obtain ⟨accepted', here, _⟩ := resting.of_queued queued
    rwa [← resting.sound.eq_of_completion accepted' accepted same]
  · exact fun here => ⟨w, mem_queued.mpr ⟨_, here⟩, rfl⟩

/-- The notification that a drain is suspended at is not queued. -/
theorem suspended_not_queued (here : s.drains key = some (w, at')) :
    w.lane = key ∧ w ∉ s.queue key := by
  refine ⟨(resting.of_suspended here).2.1, fun queued => ?_⟩
  exact absurd (resting.sound.first (Receiver.own_of_suspended here) queued) (Nat.lt_irrefl _)

theorem close : Resting s.close := by
  unfold Receiver.close
  split
  · exact resting
  have sound := resting.sound
  refine ⟨{ sound with
    placed := fun key => ?_, known := fun n member => ?_, tails := fun _ _ tail => (by cases tail)
    started := fun n begun => ?_, closed := fun _ => rfl }, fun _ _ => rfl⟩
  · have fewer : (s.pending key).filter (fun p => p.completion ∉ s.queued.map (·.completion)) =
        ((s.drains key).map Prod.fst).toList := by
      rw [sound.placed, Receiver.own, List.filter_append]
      have dropped : (s.queue key).filter
          (fun p => p.completion ∉ s.queued.map (·.completion)) = [] := by
        refine List.filter_eq_nil_iff.mpr fun p here => ?_
        have queued : p.completion ∈ s.queued.map (·.completion) :=
          List.mem_map_of_mem (mem_queued.mpr ⟨key, here⟩)
        simpa using queued
      have left : ((s.drains key).map Prod.fst).toList.filter
          (fun p => p.completion ∉ s.queued.map (·.completion)) =
            ((s.drains key).map Prod.fst).toList := by
        refine List.filter_eq_self.mpr fun p here => ?_
        simp only [Option.mem_toList, Option.map_eq_some_iff] at here
        obtain ⟨⟨p, at'⟩, here, rfl⟩ := here
        obtain ⟨lane, apart⟩ := resting.suspended_not_queued here
        have number := resting.number_queued (resting.of_suspended here).1
        rw [lane] at number
        simpa using fun q queued same => apart (number.mp (List.mem_map.mpr ⟨q, queued, same⟩))
      rw [dropped, left, List.append_nil]
    have own : ({ s with lanes := .empty } : Receiver).own key =
        ((s.drains key).map Prod.fst).toList := by
      simp [Receiver.own, Receiver.queue]
    refine Eq.trans ?_ (fewer.trans own.symm)
    simp only [Receiver.pending, List.filter_filter]
    refine List.filter_congr fun p _ => Bool.eq_iff_iff.mpr ?_
    simp only [List.mem_append, Bool.and_eq_true, decide_eq_true_eq]
    tauto
  · rw [List.mem_append] at member
    rcases member with before | dropped
    · exact sound.known n before
    · obtain ⟨q, queued, rfl⟩ := List.mem_map.mp dropped
      exact sound.lt_length (resting.of_queued queued).1
  · obtain ⟨p, accepted, number, finished⟩ := sound.started n begun
    exact ⟨p, accepted, number, finished.imp_left fun before => List.mem_append_left _ before⟩

theorem proceed : Resting (s.proceed options key) := by
  unfold Receiver.proceed
  split
  · rename_i w here
    split
    · split
      · have busy := resting.complete here
        exact Busy.goOn ⟨{ busy.sound with }, busy.idle, busy.unstarted⟩
      · exact resting.start here
    · exact resting
  · exact resting

theorem note (v : OrderedNotificationWork) (fulfilled : Bool) : Resting (s.note v fulfilled) := by
  unfold Receiver.note
  split
  · split
    · exact ⟨{ resting.sound with }, resting.idle⟩
    · exact ⟨{ resting.sound with }, resting.idle⟩
  · exact ⟨{ resting.sound with }, resting.idle⟩

end

theorem note_drains (s : Receiver) (v : OrderedNotificationWork) (fulfilled : Bool) :
    (s.note v fulfilled).drains = s.drains := by
  unfold Receiver.note
  split
  · split <;> rfl
  · rfl

theorem settle (resting : Resting s) : Resting (s.settle options key fulfilled) := by
  unfold Receiver.settle
  split
  · rename_i w here
    exact ((resting.note w fulfilled).complete (by rwa [note_drains])).goOn
  · exact resting

theorem refusal_none (accepts : s.refusal options origin roomId = none) : s.closed = false := by
  unfold Receiver.refusal at accepts
  split at accepts
  · cases accepts
  · rename_i opened
    simpa using opened

theorem enqueue (resting : Resting s) : Resting (s.enqueue options origin roomId) := by
  unfold Receiver.enqueue
  split
  · exact ⟨{ resting.sound with }, resting.idle⟩
  · rename_i accepts
    exact resting.push_drain (refusal_none accepts) rfl fun n awaits => resting.newWork_awaits awaits

theorem receive (resting : Resting s) (input : ReceiverInput) : Resting (receive options s input) := by
  cases input with
  | enqueue origin roomId => exact resting.enqueue
  | proceed key => exact resting.proceed
  | settle key fulfilled => exact resting.settle
  | close => exact resting.close

end Resting

theorem initial_resting : Resting .initial where
  sound :=
    { numbered := rfl
      placed := fun _ => rfl
      known := nofun
      captured := nofun
      tails := nofun
      barrier := nofun
      running := nofun
      started := nofun
      once := List.nodup_nil
      closed := nofun }
  idle _ _ := rfl

end LetAgents.Events

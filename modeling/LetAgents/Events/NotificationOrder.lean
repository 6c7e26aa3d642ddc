import LetAgents.Events.NotificationLanes

/-!
# The order of notifications

A notification is dropped without running by a deadline, before its drain has waited for
anything, or by the close of the receiver. Its own promise resolves then although what it
waited for may still be running, and what waits for it no longer waits for that. A run
starts in order as long as no notification is dropped so.
-/
namespace LetAgents.Events

open Lib

variable {options : ReceiverOptions} {s : Receiver} {key : String}
  {w : OrderedNotificationWork} {works rest : List OrderedNotificationWork}

/-- The notification is to run after the other one has finished. -/
def OrderedNotificationWork.follows (w p : OrderedNotificationWork) : Prop :=
  p.completion < w.completion ∧
    (w.roomId = none ∨ p.roomId = none ∨ p.origin = w.origin ∨ p.roomId = w.roomId)

instance (w p : OrderedNotificationWork) : Decidable (w.follows p) :=
  inferInstanceAs (Decidable (_ ∧ _))

namespace Receiver

/-- All that the notification is to follow has finished. -/
def nothingBefore (s : Receiver) (w : OrderedNotificationWork) : Prop :=
  ∀ p ∈ s.accepted, w.follows p → p.completion ∈ s.finished

instance : Decidable (s.nothingBefore w) := inferInstanceAs (Decidable (∀ p ∈ s.accepted, _))

/-- The loop of a drain drops only notifications that have nothing before them. -/
def dropsInOrder (options : ReceiverOptions) : List OrderedNotificationWork → Receiver → Prop
  | [], _ => True
  | w :: rest, s =>
    s.overdue options w → s.nothingBefore w ∧ dropsInOrder options rest (s.read.expire w)

instance dropsInOrderDecidable (options : ReceiverOptions) :
    ∀ works s, Decidable (dropsInOrder options works s)
  | [], _ => isTrue trivial
  | w :: rest, s =>
    have := dropsInOrderDecidable options rest (s.read.expire w)
    inferInstanceAs (Decidable (_ → _ ∧ _))

def goesOnInOrder (options : ReceiverOptions) (s : Receiver) (key : String) : Prop :=
  s.closed = false → dropsInOrder options (s.queue key) s

instance : Decidable (s.goesOnInOrder options key) := inferInstanceAs (Decidable (_ → _))

/-- A queued notification that a close drops leaves nothing behind for one that waits for it:
what the dropped one is to follow has finished, or is dropped with it. -/
def closesInOrder (s : Receiver) : Prop :=
  ∀ w ∈ s.accepted, s.drains w.lane = some (w, .predecessors) →
    ∀ q ∈ s.queued, w.awaits q.completion →
      ∀ p ∈ s.accepted, q.follows p → p.completion ∉ s.finished → p ∈ s.queued

instance : Decidable s.closesInOrder := inferInstanceAs (Decidable (∀ w ∈ s.accepted, _))

end Receiver

/-- The step drops no notification ahead of one that it is to follow, and names no room by
the empty string. -/
def inOrder (options : ReceiverOptions) (s : Receiver) : ReceiverInput → Prop
  | .enqueue origin roomId =>
    roomId ≠ some "" ∧ (s.refusal options origin roomId = none →
      s.drains (Receiver.laneKey origin roomId) = none →
        (s.push (s.newWork options origin roomId)).goesOnInOrder options
          (Receiver.laneKey origin roomId))
  | .proceed key =>
    ∀ at' ∈ s.drains key, at'.2 = .predecessors → s.free at'.1 → s.overdue options at'.1 →
      (s.read.expire at'.1).goesOnInOrder options key
  | .settle key fulfilled =>
    ∀ at' ∈ s.drains key, at'.2 = .run →
      ((s.note at'.1 fulfilled).complete at'.1).goesOnInOrder options key
  | .close => s.closesInOrder

instance inOrderDecidable (options : ReceiverOptions) (s : Receiver) :
    ∀ input, Decidable (inOrder options s input)
  | .enqueue _ _ => inferInstanceAs (Decidable (_ ∧ (_ → _ → _)))
  | .proceed _ => inferInstanceAs (Decidable (∀ _ ∈ _, _ → _ → _ → _))
  | .settle _ _ => inferInstanceAs (Decidable (∀ _ ∈ _, _ → _))
  | .close => inferInstanceAs (Decidable (Receiver.closesInOrder _))

/-! ## The invariant -/

/-- `guarded`: a notification that has not started waits for what it is to follow, or for one
that is to follow it as well. -/
structure Ordered (s : Receiver) : Prop where
  tail : s.closed = false → ∀ p ∈ s.accepted, p.completion ∉ s.finished →
    ∃ t ∈ s.accepted, s.originTails.get p.origin = some t.completion ∧ t.origin = p.origin ∧
      (t = p ∨ p.completion < t.completion)
  barrier : s.closed = false → ∀ p ∈ s.accepted, p.roomId = none → p.completion ∉ s.finished →
    ∃ g ∈ s.accepted, s.globalBarrierTail = some g.completion ∧ g.completion ∉ s.finished ∧
      g.roomId = none ∧ (g = p ∨ p.completion < g.completion)
  guarded : ∀ w ∈ s.accepted, w.completion ∉ s.started → w.completion ∉ s.finished →
    ∀ p ∈ s.accepted, w.follows p → p.completion ∉ s.finished →
      ∃ d ∈ s.accepted, d.completion ∉ s.finished ∧ (d = p ∨ d.follows p) ∧
        (w.awaits d.completion ∨ d.lane = w.lane ∧ d.completion < w.completion)
  begun : ∀ w ∈ s.accepted, w.completion ∈ s.started → s.nothingBefore w

namespace Ordered

section

variable (ordered : Ordered s)
include ordered

/-- A notification finishes once all that it is to follow has. -/
theorem complete (sound : Sound s held) (accepted : w ∈ s.accepted) (behind : s.nothingBefore w) :
    Ordered (s.complete w) := by
  have finished : (s.complete w).finished = s.finished ++ [w.completion] := rfl
  have unfinished : ∀ p ∈ s.accepted, p.completion ∉ (s.complete w).finished →
      p.completion ∉ s.finished ∧ p ≠ w := by
    intro p _ open'
    rw [finished, List.mem_append, List.mem_singleton, not_or] at open'
    exact ⟨open'.1, fun same => open'.2 (congrArg _ same)⟩
  have apart : ∀ p ∈ s.accepted, ∀ d ∈ s.accepted, p.completion ∉ (s.complete w).finished →
      d.completion ∉ s.finished → (d = p ∨ d.follows p) → d ≠ w := by
    intro p accepted' d _ open' _ before same
    obtain ⟨still, other⟩ := unfinished p accepted' open'
    rcases before with rfl | follows
    · exact other same
    · exact still (behind p accepted' (same ▸ follows))
  have stays : ∀ d ∈ s.accepted, d.completion ∉ s.finished → d ≠ w →
      d.completion ∉ (s.complete w).finished := by
    intro d accepted' open' other
    rw [finished, List.mem_append, List.mem_singleton, not_or]
    exact ⟨open', fun same => other (sound.eq_of_completion accepted' accepted same)⟩
  refine ⟨fun opened p accepted' open' => ?_, fun opened p accepted' roomless open' => ?_,
    fun v accepted' unstarted open' p before follows open'' => ?_, fun v accepted' begun p before follows => ?_⟩
  · obtain ⟨t, here, tail, origin, newer⟩ := ordered.tail opened p accepted' (unfinished p accepted' open').1
    refine ⟨t, here, ?_, origin, newer⟩
    have follows : t = p ∨ t.follows p :=
      newer.imp_right fun newer => ⟨newer, .inr (.inr (.inl origin.symm))⟩
    obtain ⟨_, _, _, _, open''⟩ := sound.tails _ _ tail
    have other : t ≠ w := apart p accepted' t here open' open'' follows
    have kept : ¬(s.originTails.get w.origin = some w.completion ∧ p.origin = w.origin) := by
      rintro ⟨newest, same⟩
      rw [same, newest, Option.some.injEq] at tail
      exact other (sound.eq_of_completion here accepted tail.symm)
    rw [Receiver.complete]
    split
    · rename_i newest
      rw [OrderedMap.get_delete_of_ne _ fun same => kept ⟨newest, same⟩, tail]
    · exact tail
  · obtain ⟨g, here, newest, open'', roomless', newer⟩ :=
      ordered.barrier opened p accepted' roomless (unfinished p accepted' open').1
    have follows : g = p ∨ g.follows p := newer.imp_right fun newer => ⟨newer, .inl roomless'⟩
    exact ⟨g, here, newest, stays g here open'' (apart p accepted' g here open' open'' follows),
      roomless', newer⟩
  · obtain ⟨d, here, still, before', waits⟩ := ordered.guarded v accepted' unstarted
      (unfinished v accepted' open').1 p before follows (unfinished p before open'').1
    exact ⟨d, here, stays d here still (apart p before d here open'' still before'), before', waits⟩
  · exact List.mem_append_left _ (ordered.begun v accepted' begun p before follows)

/-- A new notification waits for each one that it is to follow, or for a later one that is to
follow it too. -/
theorem newWork_guarded (resting : Resting s) (opened : s.closed = false)
    (named : roomId ≠ some "") (before : p ∈ s.accepted) (open' : p.completion ∉ s.finished)
    (related : roomId = none ∨ p.roomId = none ∨ p.origin = origin ∨ p.roomId = roomId) :
    ∃ d ∈ s.accepted, d.completion ∉ s.finished ∧ (d = p ∨ d.follows p) ∧
      ((s.newWork options origin roomId).awaits d.completion ∨
        d.lane = (s.newWork options origin roomId).lane ∧ d.completion < s.accepted.length) := by
  obtain ⟨t, there, tail, origin', newer⟩ := ordered.tail opened p before open'
  have follows : t = p ∨ t.follows p :=
    newer.imp_right fun newer => ⟨newer, .inr (.inr (.inl origin'.symm))⟩
  obtain ⟨_, _, _, _, still⟩ := resting.sound.tails _ _ tail
  have barred : ∀ n, s.globalBarrierTail = some n → n ∈ s.barrier roomId := by
    intro n last
    cases roomId <;> simp [Receiver.barrier, last]
  rcases related with none | roomless | same | same
  · have value : t.completion ∈ s.barrier roomId := by
      simp [Receiver.barrier, none, OrderedMap.mem_values tail]
    exact ⟨t, there, still, follows, .inl (.inr value)⟩
  · obtain ⟨g, here, last, open'', roomless', newer⟩ := ordered.barrier opened p before roomless open'
    exact ⟨g, here, open'', newer.imp_right fun newer => ⟨newer, .inl roomless'⟩,
      .inl (.inr (barred _ last))⟩
  · exact ⟨t, there, still, follows, .inl (.inl (same ▸ tail))⟩
  · cases roomId with
    | none =>
      have value : t.completion ∈ s.barrier none := by
        simp [Receiver.barrier, OrderedMap.mem_values tail]
      exact ⟨t, there, still, follows, .inl (.inr value)⟩
    | some room =>
      have nonempty : room ≠ "" := fun empty => named (congrArg some empty)
      refine ⟨p, before, open', .inl rfl, .inr ⟨?_, resting.sound.lt_length before⟩⟩
      simp [OrderedNotificationWork.lane, Receiver.newWork, Receiver.laneKey, same, nonempty]

theorem push (options : ReceiverOptions) (origin : String) (resting : Resting s)
    (opened : s.closed = false) (named : roomId ≠ some "") :
    Ordered (s.push (s.newWork options origin roomId)) := by
  have sound := resting.sound
  set v := s.newWork options origin roomId with new
  have accepted : (s.push v).accepted = s.accepted ++ [v] := rfl
  have newest : ∀ p ∈ s.accepted, p.completion < v.completion := fun p => sound.lt_length
  have mem : ∀ p, p ∈ (s.push v).accepted ↔ p ∈ s.accepted ∨ p = v := by
    simp [accepted]
  have unstarted : v.completion ∉ s.started := by
    intro begun
    obtain ⟨p, here, same, _⟩ := sound.started _ begun
    exact absurd (newest p here) (by omega)
  refine ⟨fun _ p here open' => ?_, fun _ p here roomless open' => ?_,
    fun u here idle open' p before follows open'' => ?_, fun u here begun p before follows => ?_⟩
  · rcases (mem p).mp here with old | rfl
    · by_cases same : p.origin = origin
      · exact ⟨v, (mem v).mpr (.inr rfl), by simp [Receiver.push, new, Receiver.newWork, same],
          same.symm, .inr (newest p old)⟩
      · obtain ⟨t, there, tail, origin', newer⟩ := ordered.tail opened p old open'
        refine ⟨t, (mem t).mpr (.inl there), ?_, origin', newer⟩
        simpa [Receiver.push, new, Receiver.newWork, same] using tail
    · exact ⟨_, here, by simp [Receiver.push], rfl, .inl rfl⟩
  · have roomId' : v.roomId = roomId := rfl
    by_cases none : roomId = none
    · refine ⟨v, (mem v).mpr (.inr rfl), by simp [Receiver.push, roomId', none], ?_,
        roomId'.trans none, ?_⟩
      · exact fun done => absurd (sound.known _ done) (Nat.lt_irrefl _)
      · exact ((mem p).mp here).elim (fun old => .inr (newest p old)) fun same => .inl same.symm
    · rcases (mem p).mp here with old | rfl
      · obtain ⟨g, there, last, open'', roomless', newer⟩ := ordered.barrier opened p old roomless open'
        refine ⟨g, (mem g).mpr (.inl there), ?_, open'', roomless', newer⟩
        simpa [Receiver.push, roomId', none] using last
      · exact absurd roomless none
  · rcases (mem u).mp here with old | rfl
    · rcases (mem p).mp before with old' | rfl
      · obtain ⟨d, there, still, before', waits⟩ := ordered.guarded u old idle open' p old' follows open''
        exact ⟨d, (mem d).mpr (.inl there), still, before', waits⟩
      · exact absurd follows.1 (by have := newest u old; omega)
    · rcases (mem p).mp before with old | rfl
      · obtain ⟨d, there, still, before', waits⟩ :=
          ordered.newWork_guarded resting opened named old open'' follows.2
        exact ⟨d, (mem d).mpr (.inl there), still, before', waits⟩
      · exact absurd follows.1 (Nat.lt_irrefl _)
  · rcases (mem u).mp here with old | rfl
    · rcases (mem p).mp before with old' | rfl
      · exact ordered.begun u old begun p old' follows
      · exact absurd follows.1 (by have := newest u old; omega)
    · exact absurd begun unstarted

/-- A waiting notification whose promises have resolved has nothing before it. -/
theorem nothingBefore (resting : Resting s) (here : s.drains key = some (w, .predecessors))
    (free : s.free w = true) : s.nothingBefore w := by
  have holds := Receiver.own_of_suspended here
  obtain ⟨accepted, lane, unfinished⟩ := resting.of_suspended here
  intro p before follows
  by_contra open'
  obtain ⟨d, there, still, _, waits | ⟨lane', earlier⟩⟩ :=
    ordered.guarded w accepted (resting.unstarted here) unfinished p before follows open'
  · simp only [Receiver.free, Bool.and_eq_true, Option.all_eq_true, List.all_eq_true,
      Receiver.resolved, decide_eq_true_eq] at free
    exact still (waits.elim (fun previous => free.1 _ previous) fun captured => free.2 _ captured)
  · have held := resting.sound.mem_held there still
    rw [lane', lane, holds, List.mem_cons] at held
    rcases held with rfl | behind
    · exact absurd earlier (Nat.lt_irrefl _)
    · exact absurd (resting.sound.first holds behind) (by omega)

theorem start (resting : Resting s) (here : s.drains key = some (w, .predecessors))
    (free : s.free w = true) :
    Ordered { s.read with
      drains := Function.update s.drains key (some (w, .run))
      started := s.started ++ [w.completion] } := by
  have accepted := (resting.of_suspended here).1
  refine { ordered with guarded := fun u member idle => ?_, begun := fun u member begun => ?_ }
  · exact ordered.guarded u member fun begun => idle (List.mem_append_left _ begun)
  · rw [List.mem_append, List.mem_singleton] at begun
    rcases begun with before | same
    · exact ordered.begun u member before
    · rw [resting.sound.eq_of_completion member accepted same]
      exact ordered.nothingBefore resting here free

theorem note (v : OrderedNotificationWork) (fulfilled : Bool) : Ordered (s.note v fulfilled) := by
  unfold Receiver.note
  split
  · split
    · exact { ordered with }
    · exact { ordered with }
  · exact { ordered with }

theorem drainQueue (busy : Busy s key works) (drops : Receiver.dropsInOrder options works s) :
    Ordered (Receiver.drainQueue options key works s) := by
  induction works generalizing s with
  | nil => exact { ordered with }
  | cons w rest ih =>
    rw [Receiver.drainQueue]
    split
    · rename_i late
      obtain ⟨behind, drops⟩ := drops late
      have next : w ∈ Function.update s.own key (w :: rest) key := by simp
      have accepted := busy.sound.of_held next
      exact ih { ordered.complete busy.sound accepted.1 behind with } busy.expire drops
    · exact { ordered with }

theorem goOn (busy : Busy s key (s.queue key)) (drops : s.goesOnInOrder options key) :
    Ordered (s.goOn options key) := by
  rw [Receiver.goOn]
  split
  · exact { ordered with }
  · rename_i opened
    exact ordered.drainQueue busy (drops (by simpa using opened))

theorem close (resting : Resting s) (drops : s.closesInOrder) : Ordered s.close := by
  unfold Receiver.close
  split
  · exact ordered
  have sound := resting.sound
  refine ⟨nofun, nofun, fun u accepted idle open' p before follows open'' => ?_,
    fun u accepted begun p before follows => ?_⟩
  · rw [List.mem_append, not_or] at open' open''
    obtain ⟨d, there, still, before', waits⟩ :=
      ordered.guarded u accepted idle open'.1 p before follows open''.1
    -- What neither finished nor was dropped is waiting at the head of its lane.
    have waiting : s.drains u.lane = some (u, .predecessors) := by
      have held := sound.mem_held accepted open'.1
      have unqueued := mt (resting.number_queued accepted).mpr open'.2
      simp only [Receiver.own, List.mem_append, unqueued, or_false, Option.mem_toList,
        Option.map_eq_some_iff] at held
      obtain ⟨⟨v, at'⟩, suspended, rfl⟩ := held
      cases at' with
      | predecessors => exact suspended
      | run => exact absurd (sound.running _ _ suspended) idle
    have kept : d.completion ∉ s.queued.map (·.completion) := by
      intro dropped
      have queued : d ∈ s.queued := Resting.mem_queued.mpr ⟨_, (resting.number_queued there).mp dropped⟩
      rcases waits with awaited | ⟨lane, earlier⟩
      · rcases before' with rfl | follows'
        · exact open''.2 dropped
        · exact open''.2 (List.mem_map_of_mem
            (drops u accepted waiting d queued awaited p before follows' open''.1))
      · have holds := Receiver.own_of_suspended waiting
        have behind := (resting.of_queued queued).2.1
        rw [lane] at behind
        exact absurd (sound.first holds behind) (by omega)
    exact ⟨d, there, by simpa only [List.mem_append, not_or] using ⟨still, kept⟩, before', waits⟩
  · exact List.mem_append_left _ (ordered.begun u accepted begun p before follows)

theorem receive (resting : Resting s) (orderly : inOrder options s input) :
    Ordered (receive options s input) := by
  cases input with
  | enqueue origin roomId =>
    rw [Events.receive, Receiver.enqueue]
    obtain ⟨named, starts⟩ := orderly
    split
    · exact { ordered with }
    · rename_i accepts
      have opened := Resting.refusal_none accepts
      have pushed := ordered.push options origin resting opened named
      rw [Receiver.drain]
      split
      · exact pushed
      · rename_i free
        have none : s.drains (Receiver.laneKey origin roomId) = none := by
          simpa [Receiver.push, Receiver.read] using free
        exact pushed.goOn
          (resting.push_first opened rfl (fun n awaits => resting.newWork_awaits awaits) none)
          (starts accepts none)
  | proceed key =>
    rw [Events.receive, Receiver.proceed]
    split
    · rename_i w here
      split
      · rename_i free
        split
        · rename_i late
          have busy := resting.complete here
          have accepted := (resting.of_suspended here).1
          have behind := ordered.nothingBefore resting here free
          exact Ordered.goOn { ordered.complete resting.sound accepted behind with }
            ⟨{ busy.sound with }, busy.idle, busy.unstarted⟩ (orderly _ here rfl free late)
        · exact ordered.start resting here free
      · exact ordered
    · exact ordered
  | settle key fulfilled =>
    rw [Events.receive, Receiver.settle]
    split
    · rename_i w here
      have noted := resting.note w fulfilled
      have here' : (s.note w fulfilled).drains key = some (w, .run) := by
        rwa [Resting.note_drains]
      have accepted := (noted.of_suspended here').1
      have ordered' := ordered.note w fulfilled
      have behind := ordered'.begun w accepted (noted.sound.running key w here')
      exact (ordered'.complete noted.sound accepted behind).goOn (noted.complete here') (orderly _ here rfl)
    · exact ordered
  | close => exact ordered.close resting orderly

end

end Ordered

end LetAgents.Events

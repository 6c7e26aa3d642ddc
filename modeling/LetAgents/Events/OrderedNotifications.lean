import LetAgents.Events.NotificationOrder

/-!
# Every notification runs in order, is reported, and finishes

The runs of the receiver, for any calls, clock and order in which the event loop takes up
what has settled. A run starts in order as long as no notification is dropped ahead of what
it is to follow; every notification that does not run to its end is reported in the step in
which it finishes; and all finish once every run settles.
-/
namespace LetAgents.Events

open Lib

variable {options : ReceiverOptions} {s s' : Receiver} {key : String}
  {w : OrderedNotificationWork} {works : List OrderedNotificationWork}

/-! ## What a drain's loop does -/

structure GoesOn (s s' : Receiver) (key : String) (works : List OrderedNotificationWork) : Prop where
  accepted : s'.accepted = s.accepted
  started : s'.started = s.started
  ran : s'.ran = s.ran
  drains : ∀ other ≠ key, s'.drains other = s.drains other
  dropped : ∃ dropped, dropped ⊆ works ∧ s'.finished = s.finished ++ dropped.map (·.completion) ∧
    s'.losses = s.losses ++ dropped.map fun w => ("notification_queue_deadline", w.roomId)

theorem drainQueue_goesOn (options : ReceiverOptions) (s : Receiver) (key : String)
    (works : List OrderedNotificationWork) :
    GoesOn s (Receiver.drainQueue options key works s) key works := by
  induction works generalizing s with
  | nil =>
    refine ⟨rfl, rfl, rfl, fun other same => ?_, [], by simp [Receiver.drainQueue, Receiver.leave]⟩
    simp [Receiver.drainQueue, Receiver.leave, same]
  | cons w rest ih =>
    rw [Receiver.drainQueue]
    split
    · obtain ⟨accepted, started, ran, drains, dropped, fewer, finished, losses⟩ := ih (s.read.expire w)
      refine ⟨accepted, started, ran, drains, w :: dropped,
        List.cons_subset_cons w fewer, ?_, ?_⟩
      · rw [finished]
        simp [Receiver.expire, Receiver.complete, Receiver.onLoss, Receiver.read]
      · rw [losses]
        simp [Receiver.expire, Receiver.complete, Receiver.onLoss, Receiver.read]
    · refine ⟨rfl, rfl, rfl, fun other same => ?_, [], by simp [Receiver.read]⟩
      simp [same]

theorem goOn_goesOn (options : ReceiverOptions) (s : Receiver) (key : String) :
    GoesOn s (s.goOn options key) key (s.queue key) := by
  rw [Receiver.goOn]
  split
  · refine ⟨rfl, rfl, rfl, fun other same => ?_, [], by simp [Receiver.leave]⟩
    simp [Receiver.leave, same]
  · exact drainQueue_goesOn options s key (s.queue key)

/-! ## Reports -/

/-- Each notification that finishes in a step has run to its end in the open receiver, or the
step reports its room. -/
def Accounted (s s' : Receiver) : Prop :=
  ∃ calls, s'.losses = s.losses ++ calls ∧
    ∀ n ∈ s'.finished, n ∉ s.finished → ∃ w ∈ s'.accepted, w.completion = n ∧
      (s.closed = false ∧ n ∈ s.started ∧ n ∈ s'.ran ∨ ∃ reason, (reason, w.roomId) ∈ calls)

theorem Accounted.of_same (finished : s'.finished = s.finished)
    (losses : s'.losses = s.losses ++ calls) : Accounted s s' :=
  ⟨calls, losses, fun _ done open' => absurd (finished ▸ done) open'⟩

theorem Accounted.goesOn (accounted : Accounted s s') (goes : GoesOn s' t key works)
    (known : ∀ w ∈ works, w ∈ s'.accepted) : Accounted s t := by
  obtain ⟨calls, losses, reported⟩ := accounted
  obtain ⟨dropped, fewer, finished, losses'⟩ := goes.dropped
  refine ⟨calls ++ dropped.map _, by rw [losses', losses, List.append_assoc], fun n done open' => ?_⟩
  rw [finished, List.mem_append] at done
  rw [goes.accepted, goes.ran]
  rcases done with before | last
  · obtain ⟨w, here, number, how⟩ := reported n before open'
    refine ⟨w, here, number, how.imp_right fun called => ?_⟩
    obtain ⟨reason, call⟩ := called
    exact ⟨reason, List.mem_append_left _ call⟩
  · obtain ⟨w, member, rfl⟩ := List.mem_map.mp last
    exact ⟨w, known w (fewer member), rfl,
      .inr ⟨_, List.mem_append_right _ (List.mem_map_of_mem member)⟩⟩

theorem accounted_complete (accepted : w ∈ s'.accepted) (finished : s'.finished = s.finished)
    (losses : s'.losses = s.losses ++ calls)
    (how : s.closed = false ∧ w.completion ∈ s.started ∧ w.completion ∈ s'.ran ∨
      ∃ reason, (reason, w.roomId) ∈ calls) : Accounted s (s'.complete w) := by
  refine ⟨calls, losses, fun n done open' => ?_⟩
  have done : n ∈ s.finished ++ [w.completion] := finished ▸ done
  rw [List.mem_append, List.mem_singleton] at done
  rcases done with before | rfl
  · exact absurd before open'
  · exact ⟨w, accepted, rfl, how⟩

theorem receive_accounted (options : ReceiverOptions) (resting : Resting s) (input : ReceiverInput) :
    Accounted s (receive options s input) := by
  cases input with
  | enqueue origin roomId =>
    rw [receive, Receiver.enqueue]
    split
    · exact .of_same rfl rfl
    · rw [Receiver.drain]
      have pushed : Accounted s (s.push (s.newWork options origin roomId)) :=
        .of_same rfl (List.append_nil _).symm
      split
      · exact pushed
      · refine pushed.goesOn (goOn_goesOn options _ _) fun p queued => ?_
        rw [show Receiver.laneKey origin roomId = (s.newWork options origin roomId).lane from rfl,
          Resting.push_queue, if_pos rfl, List.mem_append, List.mem_singleton] at queued
        exact List.mem_append.mpr (queued.imp (fun queued => (resting.of_queue queued).1) List.mem_singleton.mpr)
  | proceed key =>
    rw [receive, Receiver.proceed]
    split
    · rename_i w here
      split
      · split
        · have accepted : w ∈ (s.onLoss "notification_queue_deadline" w.roomId).accepted :=
            (resting.of_suspended here).1
          have dropped : Accounted s (s.read.expire w) :=
            accounted_complete accepted rfl rfl (.inr ⟨_, List.mem_singleton_self _⟩)
          exact dropped.goesOn (goOn_goesOn options _ _) fun p queued => (resting.of_queue queued).1
        · exact .of_same rfl (List.append_nil _).symm
      · exact .of_same rfl (List.append_nil _).symm
    · exact .of_same rfl (List.append_nil _).symm
  | settle key fulfilled =>
    rw [receive, Receiver.settle]
    split
    · rename_i w here
      have accepted := (resting.of_suspended here).1
      have noted : Accounted s ((s.note w fulfilled).complete w) := by
        unfold Receiver.note
        split
        · split
          · rename_i current
            rw [Receiver.isCurrent, Bool.and_eq_true, Bool.not_eq_true'] at current
            exact accounted_complete accepted rfl (List.append_nil _).symm
              (.inl ⟨current.1, resting.sound.running key w here,
                List.mem_append_right _ (List.mem_singleton_self _)⟩)
          · exact accounted_complete accepted rfl rfl (.inr ⟨_, List.mem_singleton_self _⟩)
        · exact accounted_complete accepted rfl rfl (.inr ⟨_, List.mem_singleton_self _⟩)
      refine noted.goesOn (goOn_goesOn options _ _) ?_
      have queue : ((s.note w fulfilled).complete w).queue key = (s.note w fulfilled).queue key := rfl
      exact fun p queued => ((resting.note w fulfilled).of_queue queued).1
    · exact .of_same rfl (List.append_nil _).symm
  | close =>
    rw [receive, Receiver.close]
    split
    · exact .of_same rfl (List.append_nil _).symm
    · refine ⟨_, rfl, fun n done open' => ?_⟩
      rw [List.mem_append] at done
      obtain ⟨q, queued, rfl⟩ := List.mem_map.mp (done.resolve_left open')
      refine ⟨q, (resting.of_queued queued).1, rfl, .inr ⟨_, List.mem_map_of_mem ?_⟩⟩
      exact List.mem_eraseDups.mpr (List.mem_map_of_mem queued)

/-! ## Starts -/

/-- A run starts only where a drain goes on that waits for nothing any more. -/
theorem receive_started (s : Receiver) (input : ReceiverInput)
    (begun : n ∈ (receive options s input).started) (idle : n ∉ s.started) :
    ∃ key w, s.drains key = some (w, .predecessors) ∧ s.free w = true ∧ w.completion = n ∧
      (receive options s input).accepted = s.accepted := by
  cases input with
  | enqueue origin roomId =>
    refine absurd ?_ idle
    rw [receive, Receiver.enqueue] at begun
    split at begun
    · exact begun
    · rw [Receiver.drain] at begun
      split at begun
      · exact begun
      · rwa [(goOn_goesOn options _ _).started] at begun
  | proceed key =>
    rw [receive, Receiver.proceed] at begun ⊢
    split at begun
    · rename_i w here
      split at begun
      · rename_i free
        split at begun
        · rw [(goOn_goesOn options _ _).started] at begun
          exact absurd begun idle
        · rename_i timely
          rw [List.mem_append, List.mem_singleton] at begun
          refine ⟨key, w, here, free, (begun.resolve_left idle).symm, ?_⟩
          simp only [if_pos free, if_neg timely]
          rfl
      · exact absurd begun idle
    · exact absurd begun idle
  | settle key fulfilled =>
    refine absurd ?_ idle
    rw [receive, Receiver.settle] at begun
    split at begun
    · rw [(goOn_goesOn options _ _).started] at begun
      unfold Receiver.note at begun
      split at begun
      · split at begun <;> exact begun
      · exact begun
    · exact begun
  | close =>
    refine absurd ?_ idle
    rw [receive, Receiver.close] at begun
    split at begun <;> exact begun

/-! ## Progress -/

theorem goOn_grows {t : Receiver} (accepted : s.accepted ⊆ t.accepted) (finished : s.finished ⊆ t.finished) :
    s.accepted ⊆ (t.goOn options key).accepted ∧ s.finished ⊆ (t.goOn options key).finished := by
  have goes := goOn_goesOn options t key
  obtain ⟨_, _, more, _⟩ := goes.dropped
  rw [goes.accepted, more]
  exact ⟨accepted, fun _ done => List.mem_append_left _ (finished done)⟩

theorem receive_grows (s : Receiver) (input : ReceiverInput) :
    s.accepted ⊆ (receive options s input).accepted ∧ s.finished ⊆ (receive options s input).finished := by
  have unchanged : s.accepted ⊆ s.accepted ∧ s.finished ⊆ s.finished :=
    ⟨List.Subset.refl _, List.Subset.refl _⟩
  cases input with
  | enqueue origin roomId =>
    rw [receive, Receiver.enqueue]
    split
    · exact unchanged
    · rw [Receiver.drain]
      split
      · exact ⟨List.subset_append_left _ _, unchanged.2⟩
      · exact goOn_grows (List.subset_append_left _ _) unchanged.2
  | proceed key =>
    rw [receive, Receiver.proceed]
    split
    · split
      · split
        · exact goOn_grows unchanged.1 (List.subset_append_left _ _)
        · exact unchanged
      · exact unchanged
    · exact unchanged
  | settle key fulfilled =>
    rw [receive, Receiver.settle]
    split
    · rename_i w _
      refine goOn_grows ?_ ?_
      · unfold Receiver.note
        split
        · split <;> exact unchanged.1
        · exact unchanged.1
      · unfold Receiver.note
        split
        · split <;> exact List.subset_append_left _ _
        · exact List.subset_append_left _ _
    · exact unchanged
  | close =>
    rw [receive, Receiver.close]
    split
    · exact unchanged
    · exact ⟨unchanged.1, List.subset_append_left _ _⟩

/-- A suspended drain stays where it is until it is taken up. -/
theorem receive_drains (here : s.drains key = some at') (unmoved : input ≠ .proceed key)
    (unsettled : ∀ fulfilled, input ≠ .settle key fulfilled) :
    (receive options s input).drains key = some at' := by
  cases input with
  | enqueue origin roomId =>
    rw [receive, Receiver.enqueue]
    split
    · exact here
    · rw [Receiver.drain]
      split
      · exact here
      · rename_i free
        have apart : key ≠ Receiver.laneKey origin roomId := by
          rintro rfl
          simp [Receiver.push, Receiver.read, here] at free
        exact ((goOn_goesOn options _ _).drains key apart).trans here
  | proceed other =>
    have apart : key ≠ other := fun same => unmoved (by rw [same])
    rw [receive, Receiver.proceed]
    split
    · split
      · split
        · exact ((goOn_goesOn options _ _).drains key apart).trans here
        · simpa [apart] using here
      · exact here
    · exact here
  | settle other fulfilled =>
    have apart : key ≠ other := fun same => unsettled fulfilled (by rw [same])
    rw [receive, Receiver.settle]
    split
    · rename_i w _
      have noted : ((s.note w fulfilled).complete w).drains key = some at' :=
        (congrFun (Resting.note_drains s w fulfilled) key).trans here
      exact ((goOn_goesOn options _ _).drains key apart).trans noted
    · exact here
  | close =>
    rw [receive, Receiver.close]
    split <;> exact here

/-- What a notification waits for stays resolved. -/
theorem free_grows {t : Receiver} (grows : s.finished ⊆ t.finished) (free : s.free w = true) :
    t.free w = true := by
  simp only [Receiver.free, Receiver.resolved, Bool.and_eq_true, Option.all_eq_true,
    List.all_eq_true, decide_eq_true_eq] at free ⊢
  exact ⟨fun n previous => grows (free.1 n previous), fun n captured => grows (free.2 n captured)⟩

section Runs

variable {inputs : Nat → ReceiverInput}

abbrev receiverAt (options : ReceiverOptions) (inputs : Nat → ReceiverInput) (n : Nat) : Receiver :=
  Machine.states (receive options) .initial inputs n

/-- The event loop takes up every drain whose promises have resolved, and every run settles. -/
def AllSettle (options : ReceiverOptions) (inputs : Nat → ReceiverInput) : Prop :=
  ∀ key w,
    Machine.Fair (receive options) .initial inputs
      (fun s => s.drains key = some (w, .predecessors) ∧ s.free w = true) (· = .proceed key) ∧
    Machine.Fair (receive options) .initial inputs (fun s => s.drains key = some (w, .run))
      fun input => ∃ fulfilled, input = .settle key fulfilled

theorem receiverAt_resting (options : ReceiverOptions) (inputs : Nat → ReceiverInput) (n : Nat) :
    Resting (receiverAt options inputs n) :=
  Machine.invariant initial_resting (fun _ resting => resting.receive _) n

theorem receiverAt_grows (le : n ≤ m) :
    (receiverAt options inputs n).accepted ⊆ (receiverAt options inputs m).accepted ∧
      (receiverAt options inputs n).finished ⊆ (receiverAt options inputs m).finished :=
  Machine.lasts
    (P := fun t : Receiver => (receiverAt options inputs n).accepted ⊆ t.accepted ∧
      (receiverAt options inputs n).finished ⊆ t.finished)
    (fun t input grown => ⟨List.Subset.trans grown.1 (receive_grows t input).1,
      List.Subset.trans grown.2 (receive_grows t input).2⟩)
    le ⟨List.Subset.refl _, List.Subset.refl _⟩

section

variable (settles : AllSettle options inputs)
include settles

/-- A run that is under way settles. -/
theorem running_finishes (here : (receiverAt options inputs n).drains key = some (w, .run)) :
    ∃ m ≥ n, w.completion ∈ (receiverAt options inputs m).finished := by
  refine (settles key w).2.reaches (Q := fun t => w.completion ∈ t.finished) here
    (fun m _ ready idle => ?_) fun m _ ready moves => ?_
  · by_cases moved : inputs m = .proceed key
    · rw [moved, receive, Receiver.proceed, ready]
      exact ready
    · exact receive_drains ready moved fun fulfilled settled => idle ⟨fulfilled, settled⟩
  · obtain ⟨fulfilled, settled⟩ := moves
    rw [settled, receive, Receiver.settle, ready]
    exact (goOn_grows (List.Subset.refl _) (List.Subset.refl _)).2
      (List.mem_append_right _ (List.mem_singleton_self _))

/-- A drain that waits for nothing any more finishes its notification. -/
theorem waiting_finishes
    (here : (receiverAt options inputs n).drains key = some (w, .predecessors))
    (free : (receiverAt options inputs n).free w = true) :
    ∃ m ≥ n, w.completion ∈ (receiverAt options inputs m).finished := by
  have taken : ∃ m ≥ n, w.completion ∈ (receiverAt options inputs m).finished ∨
      (receiverAt options inputs m).drains key = some (w, .run) := by
    refine (settles key w).1.reaches
      (Q := fun t => w.completion ∈ t.finished ∨ t.drains key = some (w, .run)) ⟨here, free⟩
      (fun m _ ready idle => ?_) fun m _ ready moves => ?_
    · refine ⟨?_, free_grows (receive_grows _ _).2 ready.2⟩
      by_cases settled : ∃ fulfilled, inputs m = .settle key fulfilled
      · obtain ⟨fulfilled, settled⟩ := settled
        rw [settled, receive, Receiver.settle, ready.1]
        exact ready.1
      · exact receive_drains ready.1 idle fun fulfilled same => settled ⟨fulfilled, same⟩
    · rw [moves, receive, Receiver.proceed, ready.1]
      simp only [ready.2, if_true]
      split
      · exact .inl ((goOn_grows (List.Subset.refl _) (List.Subset.refl _)).2
          (List.mem_append_right _ (List.mem_singleton_self _)))
      · exact .inr (Function.update_self _ _ _)
  obtain ⟨m, le, done | running⟩ := taken
  · exact ⟨m, le, done⟩
  · obtain ⟨m', le', done⟩ := running_finishes settles running
    exact ⟨m', le.trans le', done⟩

/-- Once all before it have finished, a notification is at the head of its lane and free. -/
theorem finishes_next (accepted : w ∈ (receiverAt options inputs n).accepted)
    (before : ∀ i < w.completion, i ∈ (receiverAt options inputs n).finished) :
    ∃ m ≥ n, w.completion ∈ (receiverAt options inputs m).finished := by
  by_cases done : w.completion ∈ (receiverAt options inputs n).finished
  · exact ⟨n, le_refl n, done⟩
  have resting := receiverAt_resting options inputs n
  have held := resting.sound.mem_held accepted done
  cases at' : (receiverAt options inputs n).drains w.lane with
  | none =>
    rw [Receiver.own, at', resting.idle w.lane at'] at held
    cases held
  | some suspended =>
    obtain ⟨p, awaiting⟩ := suspended
    have holds := Receiver.own_of_suspended at'
    have first : p = w := by
      obtain ⟨_, _, open'⟩ := resting.of_suspended at'
      rw [holds, List.mem_cons] at held
      rcases held with rfl | behind
      · rfl
      · exact absurd (before _ (resting.sound.first holds behind)) open'
    subst first
    cases awaiting with
    | run => exact running_finishes settles at'
    | predecessors =>
      refine waiting_finishes settles at' ?_
      have captured := resting.sound.captured p accepted
      simp only [Receiver.free, Receiver.resolved, Bool.and_eq_true, Option.all_eq_true,
        List.all_eq_true, decide_eq_true_eq]
      exact ⟨fun i previous => before i (captured i (.inl previous)),
        fun i barred => before i (captured i (.inr barred))⟩

/-- No waiting is circular: the notifications finish in the order of their numbers. -/
theorem all_finish :
    ∀ i ≤ (receiverAt options inputs n).accepted.length,
      ∃ m ≥ n, ∀ j < i, j ∈ (receiverAt options inputs m).finished := by
  intro i
  induction i with
  | zero => exact fun _ => ⟨n, le_refl n, fun _ lt => absurd lt (Nat.not_lt_zero _)⟩
  | succ i ih =>
    intro le
    obtain ⟨m, later, done⟩ := ih (Nat.le_of_succ_le le)
    obtain ⟨w, accepted, rfl⟩ := (receiverAt_resting options inputs n).sound.exists_accepted le
    obtain ⟨m', later', last⟩ := finishes_next settles ((receiverAt_grows later).1 accepted) done
    refine ⟨m', later.trans later', fun j lt => ?_⟩
    rcases Nat.lt_succ_iff_lt_or_eq.mp lt with earlier | rfl
    · exact (receiverAt_grows later').2 (done j earlier)
    · exact last

end

theorem receiverAt_ordered (orderly : ∀ n, inOrder options (receiverAt options inputs n) (inputs n))
    (n : Nat) : Ordered (receiverAt options inputs n) := by
  induction n with
  | zero => exact ⟨nofun, nofun, nofun, nofun⟩
  | succ n ih => exact ih.receive (receiverAt_resting options inputs n) (orderly n)

/-! ## The receiver -/

/-- What the receiver promises for all its runs. `ordered`: what starts in a step finds all
that it is to follow finished. `reported`: what finishes in a step has run to its end in the
open -/
structure ReceivesInOrder (options : ReceiverOptions) (inputs : Nat → ReceiverInput) : Prop where
  ordered : ∀ n, ∀ w ∈ (receiverAt options inputs (n + 1)).accepted,
    w.completion ∈ (receiverAt options inputs (n + 1)).started →
      w.completion ∉ (receiverAt options inputs n).started →
        ∀ p ∈ (receiverAt options inputs (n + 1)).accepted, w.follows p →
          p.completion ∈ (receiverAt options inputs n).finished
  once : ∀ n, (receiverAt options inputs n).started.Nodup
  reported : ∀ n, ∀ w ∈ (receiverAt options inputs (n + 1)).accepted,
    w.completion ∈ (receiverAt options inputs (n + 1)).finished →
      w.completion ∉ (receiverAt options inputs n).finished →
        (receiverAt options inputs n).closed = false ∧
            w.completion ∈ (receiverAt options inputs n).started ∧
            w.completion ∈ (receiverAt options inputs (n + 1)).ran ∨
          ∃ reason, (reason, w.roomId) ∈ (receiverAt options inputs (n + 1)).losses.drop
            (receiverAt options inputs n).losses.length
  finishes : AllSettle options inputs → ∀ n, ∀ w ∈ (receiverAt options inputs n).accepted,
    ∃ m ≥ n, w.completion ∈ (receiverAt options inputs m).finished

end Runs

theorem received_in_order (options : ReceiverOptions) (inputs : Nat → ReceiverInput)
    (orderly : ∀ n, inOrder options (receiverAt options inputs n) (inputs n)) :
    ReceivesInOrder options inputs where
  ordered n w accepted begun idle p before follows := by
    have resting := receiverAt_resting options inputs n
    obtain ⟨key, v, here, free, number, same⟩ := receive_started _ (inputs n) begun idle
    have same : (receiverAt options inputs (n + 1)).accepted = (receiverAt options inputs n).accepted :=
      same
    rw [same] at accepted before
    have first := resting.sound.eq_of_completion (resting.of_suspended here).1 accepted number
    subst first
    exact (receiverAt_ordered orderly n).nothingBefore resting here free p before follows
  once n := (receiverAt_resting options inputs n).sound.once
  reported n w accepted done open' := by
    obtain ⟨calls, losses, reported⟩ :=
      receive_accounted options (receiverAt_resting options inputs n) (inputs n)
    obtain ⟨v, accepted', number, how⟩ := reported w.completion done open'
    have next := receiverAt_resting options inputs (n + 1)
    rw [next.sound.eq_of_completion accepted' accepted number] at how
    have losses : (receiverAt options inputs (n + 1)).losses =
        (receiverAt options inputs n).losses ++ calls := losses
    rwa [losses, List.drop_left]
  finishes settles n w accepted := by
    have lt := (receiverAt_resting options inputs n).sound.lt_length accepted
    obtain ⟨m, le, done⟩ := all_finish settles (w.completion + 1) lt
    exact ⟨m, le, done _ (Nat.lt_succ_self _)⟩

/-- Two room notifications and a room-less one, taken up as they come. -/
def timely : ReceiverOptions := ⟨none, none, none, none, fun _ => 0⟩

def settledCalls : List ReceiverInput :=
  [.enqueue "a" (some "room"), .proceed "room:room", .enqueue "b" none, .enqueue "c" (some "room"),
    .settle "room:room" true, .proceed "origin:b", .settle "origin:b" false, .proceed "room:room",
    .settle "room:room" true, .close]

/-- Every run of the calls starts in its turn, and the failed one is reported. -/
theorem barrier_in_order : ∃ options inputs, ReceivesInOrder options inputs ∧
    (receiverAt options inputs 10).started = [0, 1, 2] ∧
    (receiverAt options inputs 10).ran = [0, 2] ∧
    (receiverAt options inputs 10).losses = [("notification_handler_failed", none)] := by
  refine ⟨timely, Machine.finitely settledCalls .close, received_in_order _ _ fun n => ?_,
    by decide +kernel, by decide +kernel, by decide +kernel⟩
  rcases Nat.lt_or_ge n settledCalls.length with lt | ge
  · have listed : ∀ n < settledCalls.length,
        inOrder timely (receiverAt timely (Machine.finitely settledCalls .close) n)
          (Machine.finitely settledCalls .close n) := by decide +kernel
    exact listed n lt
  · have closed : (receiverAt timely (Machine.finitely settledCalls .close) 10).closed = true := by
      decide +kernel
    have rests : receive timely (receiverAt timely (Machine.finitely settledCalls .close) 10) .close =
        receiverAt timely (Machine.finitely settledCalls .close) 10 := Receiver.close_of_closed closed
    have idles : Machine.finitely settledCalls .close n = .close := List.getD_eq_default _ _ ge
    rw [receiverAt, Machine.states_rest rests ge, idles]
    change Receiver.closesInOrder _
    decide +kernel

/-- The deadline drops the second notification of an origin while its first one still runs,
and the third one starts. -/
def latecomer : ReceiverOptions :=
  ⟨none, none, none, none, fun n => if n < 7 then 0 else if n < 9 then 5000 else 10000⟩

def latecomerCalls : List ReceiverInput :=
  [.enqueue "a" (some "slow"), .proceed "room:slow", .enqueue "b" (some "busy"), .proceed "room:busy",
    .enqueue "a" (some "busy"), .enqueue "a" (some "free"), .settle "room:busy" true,
    .proceed "room:free"]

theorem dropped_ahead : ¬∀ options inputs, ReceivesInOrder options inputs := by
  intro always
  have ordered := (always latecomer (Machine.finitely latecomerCalls .close)).ordered 7
  have early : ∃ w ∈ (receiverAt latecomer (Machine.finitely latecomerCalls .close) 8).accepted,
      w.completion ∈ (receiverAt latecomer (Machine.finitely latecomerCalls .close) 8).started ∧
      w.completion ∉ (receiverAt latecomer (Machine.finitely latecomerCalls .close) 7).started ∧
      ∃ p ∈ (receiverAt latecomer (Machine.finitely latecomerCalls .close) 8).accepted,
        w.follows p ∧
        p.completion ∉ (receiverAt latecomer (Machine.finitely latecomerCalls .close) 7).finished := by
    decide +kernel
  obtain ⟨w, accepted, begun, idle, p, before, follows, open'⟩ := early
  exact open' (ordered w accepted begun idle p before follows)

end LetAgents.Events

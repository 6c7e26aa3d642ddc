import LetAgents.Events.BoundedExecutor
import Mathlib.Data.List.Perm.Subperm

/-!
# Slots, the queue and the promises of the bounded executor

A state is sound when the work of every call tells what has happened to it, when the queue
holds the open calls in their order, behind every start, and when the slots account for what
has started. One lemma an operation says that it stays so.
-/
namespace LetAgents.Events.BoundedExecutor

open Lib

/-! ## What a state rests on -/

/-- The function has settled. -/
def Run.past : Run → Bool
  | .idle | .pending => false
  | _ => true

/-- The work of a call tells what has happened to it. -/
structure Entry (history : List Happening) (k : Nat) (work : QueuedWork) : Prop where
  started : work.started = true ↔ .started k ∈ history
  answered : work.consumerSettled = true ↔ ∃ how, .settled k how ∈ history
  idle : work.started = false ↔ work.run = .idle
  done : work.run.past = true ↔ .done k ∈ history
  finished : work.run = .finished ↔ .freed k ∈ history
  heard : work.run = .handled ∨ work.run = .finished → work.consumerSettled = true

structure Sound (options : Options) (s : Executor) : Prop where
  fresh : ∀ k, s.calls ≤ k → s.works k = Executor.uncalled ∧ ∀ happening ∈ s.history, happening.call ≠ k
  entries : ∀ k, Entry s.history k (s.works k)
  armed : ∀ k < s.calls, (s.works k).consumerSettled = false → (s.works k).timeout = true
  placed : ∀ k < s.calls, k ∈ s.queue ∨ .started k ∈ s.history ∨ s.Rejected k
  queued : ∀ k ∈ s.queue, k < s.calls ∧ (s.works k).started = false ∧ (s.works k).consumerSettled = false
  line : s.queue.Pairwise (· < ·)
  behind : ∀ k ∈ s.queue, ∀ j, .started j ∈ s.history → j < k
  ordered : s.starts.Pairwise (· > ·)
  late : s.history.Pairwise Timely
  once : s.answered.Nodup
  slots : s.active + s.frees.length = s.starts.length
  freed : s.frees.Nodup
  active : s.active ≤ options.maxConcurrent

theorem mem_starts {s : Executor} : k ∈ s.starts ↔ .started k ∈ s.history := by
  have own : ∀ happening : Happening, happening.start = some k ↔ happening = .started k := by
    intro happening
    cases happening <;> simp [Happening.start]
  simp [Executor.starts, own]

theorem mem_answered {s : Executor} : k ∈ s.answered ↔ ∃ how, .settled k how ∈ s.history := by
  have own : ∀ happening : Happening, happening.answer = some k ↔ ∃ how, happening = .settled k how := by
    intro happening
    cases happening <;> simp [Happening.answer]
  simp [Executor.answered, own]

theorem mem_frees {s : Executor} : k ∈ s.frees ↔ .freed k ∈ s.history := by
  have own : ∀ happening : Happening, happening.free = some k ↔ happening = .freed k := by
    intro happening
    cases happening <;> simp [Happening.free]
  simp [Executor.frees, own]

/-- What happens to another call does not matter. -/
theorem Entry.others (entry : Entry history j work)
    (apart : ∀ happening ∈ more, happening.call ≠ j) : Entry (more ++ history) j work := by
  have same : ∀ happening : Happening, happening.call = j → (happening ∈ more ++ history ↔ happening ∈ history) := by
    intro happening own
    rw [List.mem_append]
    exact or_iff_right fun member => apart happening member own
  constructor
  case started => rw [entry.started, same _ rfl]
  case answered => simp only [entry.answered, same (.settled j _) rfl]
  case idle => exact entry.idle
  case done => rw [entry.done, same _ rfl]
  case finished => rw [entry.finished, same _ rfl]
  case heard => exact entry.heard

/-- A call of which nothing has happened. -/
theorem Entry.fresh (absent : ∀ happening ∈ history, happening.call ≠ k) (timeout : Bool) :
    Entry history k ⟨timeout, false, false, .idle⟩ := by
  have unseen : ∀ happening : Happening, happening.call = k → happening ∉ history :=
    fun happening own member => absent happening member own
  constructor
  case started => simp [unseen (.started k) rfl]
  case answered =>
    refine iff_of_false Bool.false_ne_true ?_
    rintro ⟨how, settled⟩
    exact unseen _ rfl settled
  case idle => simp
  case done => simp [Run.past, unseen (.done k) rfl]
  case finished => simp [unseen (.freed k) rfl]
  case heard => simp

/-- The promise settles. -/
theorem Entry.settle (entry : Entry history k work) (how : Outcome) (timeout : Bool) :
    Entry (.settled k how :: history) k { work with timeout := timeout, consumerSettled := true } := by
  constructor
  case started => simpa using entry.started
  case answered => exact iff_of_true rfl ⟨how, .head _⟩
  case idle => exact entry.idle
  case done => simpa using entry.done
  case finished => simpa using entry.finished
  case heard => exact fun _ => rfl

/-- A function that has started goes on. -/
theorem Entry.goes (entry : Entry history k work) (begun : work.run ≠ .idle) (still : run ≠ .idle)
    (silent : ∀ happening ∈ more, happening.start = none ∧ happening.answer = none)
    (done : run.past = true ↔ .done k ∈ more ++ history)
    (finished : run = .finished ↔ .freed k ∈ more ++ history)
    (heard : run = .handled ∨ run = .finished → work.consumerSettled = true) :
    Entry (more ++ history) k { work with run := run } := by
  have older : ∀ happening : Happening, (happening.start ≠ none ∨ happening.answer ≠ none) →
      (happening ∈ more ++ history ↔ happening ∈ history) := by
    intro happening loud
    rw [List.mem_append]
    refine or_iff_right fun member => ?_
    obtain ⟨start, answer⟩ := silent happening member
    exact loud.elim (absurd start) (absurd answer)
  constructor
  case started => rw [entry.started, older (.started k) (.inl (Option.some_ne_none k))]
  case answered => simp only [entry.answered, fun how => older (.settled k how) (.inr (Option.some_ne_none k))]
  case idle => exact iff_of_false (fun idle => begun (entry.idle.mp idle)) still
  case done => exact done
  case finished => exact finished
  case heard => exact heard

theorem entries_update (entries : ∀ j, Entry history j (works j))
    (own : ∀ happening ∈ more, happening.call = k) (entry : Entry (more ++ history) k work)
    (j : Nat) : Entry (more ++ history) j (Function.update works k work j) := by
  by_cases same : j = k
  · subst same
    rw [Function.update_self]
    exact entry
  · rw [Function.update_of_ne same]
    exact (entries j).others fun happening member => own happening member ▸ Ne.symm same

theorem late_append {history more : List Happening} (late : history.Pairwise Timely)
    (unstarted : ∀ happening ∈ more, happening.start = none) : (more ++ history).Pairwise Timely := by
  induction more with
  | nil => exact late
  | cons first more ih =>
    obtain ⟨here, rest⟩ := List.forall_mem_cons.mp unstarted
    refine List.pairwise_cons.mpr ⟨fun older _ k how same => ?_, ih rest⟩
    rw [same] at here
    cases here

theorem starts_append {history more : List Happening} (unstarted : ∀ happening ∈ more, happening.start = none) :
    (more ++ history).filterMap Happening.start = history.filterMap Happening.start := by
  rw [List.filterMap_append, List.filterMap_eq_nil_iff.mpr unstarted, List.nil_append]

section

variable {options : Options} {s : Executor}

/-! ## Steps -/

/-- A call that is not of the queue any more goes on. -/
theorem Sound.change (sound : Sound options s) (called : k < s.calls)
    {active : Nat} (loops : Nat)
    (own : ∀ happening ∈ more, happening.call = k ∧ happening.start = none)
    (entry : Entry (more ++ s.history) k work) (armed : work.consumerSettled = false → work.timeout = true)
    (kept : queue.Sublist s.queue) (gone : ∀ j ∈ s.queue, j ∈ queue ∨
      j = k ∧ (.settled k .capacity ∈ more ∨ .settled k .deadline ∈ more))
    (away : k ∉ queue) (once : (more.filterMap Happening.answer ++ s.answered).Nodup)
    (freed : (more.filterMap Happening.free ++ s.frees).Nodup)
    (slots : active + (more.filterMap Happening.free).length = s.active) :
    Sound options ⟨active, queue, loops, s.calls, Function.update s.works k work, more ++ s.history⟩ := by
  have others : ∀ {j : Nat}, j ≠ k → Function.update s.works k work j = s.works j :=
    fun other => Function.update_of_ne other ..
  have unstarted : ∀ happening ∈ more, happening.start = none := fun happening member => (own happening member).2
  constructor
  case fresh =>
    intro j late
    have other : j ≠ k := Nat.ne_of_gt (Nat.lt_of_lt_of_le called late)
    obtain ⟨idle, absent⟩ := sound.fresh j late
    refine ⟨(others other).trans idle, fun happening member => ?_⟩
    obtain new | old := List.mem_append.mp member
    · rw [(own happening new).1]
      exact Ne.symm other
    · exact absent happening old
  case entries => exact entries_update sound.entries (fun happening member => (own happening member).1) entry
  case armed =>
    intro j inside
    change (Function.update s.works k work j).consumerSettled = false →
      (Function.update s.works k work j).timeout = true
    by_cases same : j = k
    · subst same
      rw [Function.update_self]
      exact armed
    · rw [others same]
      exact sound.armed j inside
  case placed =>
    intro j inside
    obtain waits | runs | rejected := sound.placed j inside
    · obtain waits | ⟨rfl, rejected⟩ := gone j waits
      · exact .inl waits
      · exact .inr (.inr (rejected.imp (List.mem_append_left _) (List.mem_append_left _)))
    · exact .inr (.inl (List.mem_append_right _ runs))
    · exact .inr (.inr (rejected.imp (List.mem_append_right _) (List.mem_append_right _)))
  case queued =>
    intro j waits
    change _ ∧ (Function.update s.works k work j).started = false ∧
      (Function.update s.works k work j).consumerSettled = false
    rw [others (fun same => away (same ▸ waits))]
    exact sound.queued j (kept.subset waits)
  case line => exact sound.line.sublist kept
  case behind =>
    intro j waits i started
    obtain new | old := List.mem_append.mp started
    · cases (own _ new).2
    · exact sound.behind j (kept.subset waits) i old
  case ordered =>
    unfold Executor.starts
    rw [starts_append unstarted]
    exact sound.ordered
  case late => exact late_append sound.late unstarted
  case once =>
    unfold Executor.answered at once ⊢
    rw [List.filterMap_append]
    exact once
  case slots =>
    have before := sound.slots
    change active + ((more ++ s.history).filterMap Happening.free).length =
      ((more ++ s.history).filterMap Happening.start).length
    rw [starts_append unstarted, List.filterMap_append, List.length_append]
    unfold Executor.frees Executor.starts at before
    omega
  case freed =>
    unfold Executor.frees at freed ⊢
    rw [List.filterMap_append]
    exact freed
  case active => exact (Nat.le.intro slots).trans sound.active

/-- A new call waits behind the others. -/
theorem Sound.enter (sound : Sound options s) :
    Sound options ⟨s.active, s.queue ++ [s.calls], s.loops, s.calls + 1,
      Function.update s.works s.calls ⟨true, false, false, .idle⟩, s.history⟩ := by
  have others : ∀ {j : Nat}, j ≠ s.calls →
      Function.update s.works s.calls ⟨true, false, false, .idle⟩ j = s.works j :=
    fun other => Function.update_of_ne other ..
  have older : ∀ j ∈ s.queue, j < s.calls := fun j waits => (sound.queued j waits).1
  have earlier : ∀ {j : Nat}, j < s.calls + 1 → j ≠ s.calls → j < s.calls :=
    fun inside other => Nat.lt_of_le_of_ne (Nat.le_of_lt_succ inside) other
  constructor
  case fresh =>
    intro j late
    obtain ⟨idle, absent⟩ := sound.fresh j (Nat.le_of_succ_le late)
    exact ⟨(others (Nat.ne_of_gt late)).trans idle, absent⟩
  case entries =>
    exact entries_update sound.entries (List.forall_mem_nil _) (.fresh (sound.fresh s.calls le_rfl).2 true)
  case armed =>
    intro j inside
    dsimp only
    by_cases same : j = s.calls
    · rw [same, Function.update_self]
      exact fun _ => rfl
    · rw [others same]
      exact sound.armed j (earlier inside same)
  case placed =>
    intro j inside
    by_cases same : j = s.calls
    · exact .inl (List.mem_append_right _ (List.mem_singleton.mpr same))
    · exact (sound.placed j (earlier inside same)).imp_left (List.mem_append_left _)
  case queued =>
    intro j waits
    dsimp only
    obtain old | new := List.mem_append.mp waits
    · rw [others (Nat.ne_of_lt (older j old))]
      obtain ⟨called, rest⟩ := sound.queued j old
      exact ⟨Nat.lt_succ_of_lt called, rest⟩
    · rw [List.mem_singleton.mp new, Function.update_self]
      exact ⟨Nat.lt_succ_self _, rfl, rfl⟩
  case line =>
    refine List.pairwise_append.mpr ⟨sound.line, List.pairwise_singleton .., fun j waits i new => ?_⟩
    rw [List.mem_singleton.mp new]
    exact older j waits
  case behind =>
    intro j waits i started
    obtain before | new := List.mem_append.mp waits
    · exact sound.behind j before i started
    · rw [List.mem_singleton.mp new]
      by_contra beyond
      exact (sound.fresh i (Nat.not_lt.mp beyond)).2 _ started rfl
  case ordered => exact sound.ordered
  case late => exact sound.late
  case once => exact sound.once
  case slots => exact sound.slots
  case freed => exact sound.freed
  case active => exact sound.active

/-- The first of the queue starts. -/
def Executor.launch (s : Executor) (k : Nat) (rest : List Nat) : Executor :=
  ({ s with queue := rest, active := s.active + 1 }.setWork k
    { s.works k with started := true, run := .pending }).log (.started k)

theorem Sound.launch (sound : Sound options s) (first : s.queue = k :: rest)
    (room : s.active < options.maxConcurrent) : Sound options (s.launch k rest) := by
  obtain ⟨called, unstarted, unsettled⟩ := sound.queued k (first ▸ .head _)
  have line := sound.line
  rw [first] at line
  obtain ⟨least, line⟩ := List.pairwise_cons.mp line
  have others : ∀ {j : Nat}, j ≠ k → (s.launch k rest).works j = s.works j :=
    fun other => Function.update_of_ne other ..
  have own : (s.launch k rest).works k = { s.works k with started := true, run := .pending } :=
    Function.update_self ..
  have before := sound.entries k
  have unfreed : .freed k ∉ s.history := by
    intro member
    have finished := before.finished.mpr member
    rw [before.idle.mp unstarted] at finished
    cases finished
  have entry : Entry ([.started k] ++ s.history) k { s.works k with started := true, run := .pending } := by
    constructor
    case started => simp
    case answered => simpa using before.answered
    case idle => simp
    case done => simpa [before.idle.mp unstarted, Run.past] using before.done
    case finished => simp [unfreed]
    case heard => simp
  constructor
  case fresh =>
    intro j late
    have other : j ≠ k := Nat.ne_of_gt (Nat.lt_of_lt_of_le called late)
    obtain ⟨work, absent⟩ := sound.fresh j late
    exact ⟨(others other).trans work, List.forall_mem_cons.mpr ⟨Ne.symm other, absent⟩⟩
  case entries => exact entries_update sound.entries (by simp [Happening.call]) entry
  case armed =>
    intro j inside
    by_cases same : j = k
    · subst same
      rw [own]
      exact sound.armed j inside
    · rw [others same]
      exact sound.armed j inside
  case placed =>
    intro j inside
    obtain waits | runs | rejected := sound.placed j inside
    · rw [first] at waits
      obtain rfl | waits := List.mem_cons.mp waits
      · exact .inr (.inl List.mem_cons_self)
      · exact .inl waits
    · exact .inr (.inl (.tail _ runs))
    · exact .inr (.inr (rejected.imp (List.mem_cons_of_mem _) (List.mem_cons_of_mem _)))
  case queued =>
    intro j waits
    rw [others (Nat.ne_of_gt (least j waits))]
    exact sound.queued j (first ▸ .tail _ waits)
  case line => exact line
  case behind =>
    intro j waits i started
    obtain same | started := List.mem_cons.mp started
    · rw [Happening.started.inj same]
      exact least j waits
    · exact sound.behind j (first ▸ .tail _ waits) i started
  case ordered =>
    refine List.pairwise_cons.mpr ⟨fun j started => ?_, sound.ordered⟩
    exact sound.behind k (first ▸ .head _) j (mem_starts.mp started)
  case late =>
    refine List.pairwise_cons.mpr ⟨fun older member j how same settled => ?_, sound.late⟩
    obtain rfl := Happening.started.inj same
    have answered := before.answered.mpr ⟨how, settled ▸ member⟩
    rw [unsettled] at answered
    cases answered
  case once => exact sound.once
  case slots =>
    change s.active + 1 + s.frees.length = s.starts.length + 1
    have slots := sound.slots
    omega
  case freed => exact sound.freed
  case active => exact room

/-- A loop of `drain` starts the first of the queue, or it ends. -/
theorem drainFrom_spec (sound : Sound options s) : Sound options (s.drainFrom options s.queue) ∧
    ((s.drainFrom options s.queue = { s with loops := s.loops - 1 } ∧
        (s.active < options.maxConcurrent → s.queue = [])) ∨
      ∃ k rest, s.queue = k :: rest ∧ s.active < options.maxConcurrent ∧
        s.drainFrom options s.queue = s.launch k rest) := by
  have rests : Sound options { s with loops := s.loops - 1 } := { sound with }
  suffices step : (s.drainFrom options s.queue = { s with loops := s.loops - 1 } ∧
        (s.active < options.maxConcurrent → s.queue = [])) ∨
      ∃ k rest, s.queue = k :: rest ∧ s.active < options.maxConcurrent ∧
        s.drainFrom options s.queue = s.launch k rest by
    obtain ⟨same, empty⟩ | ⟨k, rest, first, room, same⟩ := step
    · exact ⟨same ▸ rests, .inl ⟨same, empty⟩⟩
    · exact ⟨same ▸ sound.launch first room, .inr ⟨k, rest, first, room, same⟩⟩
  obtain ⟨active, queue, loops, calls, works, history⟩ := s
  cases queue with
  | nil => exact .inl ⟨rfl, fun _ => rfl⟩
  | cons k rest =>
    have unsettled : (works k).consumerSettled = false := (sound.queued k List.mem_cons_self).2.2
    simp only [Executor.drainFrom]
    by_cases room : active < options.maxConcurrent
    · rw [if_pos room, if_neg (by simp [unsettled])]
      exact .inr ⟨k, rest, rfl, room, rfl⟩
    · rw [if_neg room]
      exact .inl ⟨rfl, fun has => absurd has room⟩

/-! ## Runs -/

/-- What holds between two steps. -/
structure Held (options : Options) (s : Executor) : Prop where
  sound : Sound options s
  waiting : s.queue.length ≤ options.maxQueued
  drained : s.loops = 0 → s.active < options.maxConcurrent → s.queue = []

/-- A loop that goes on leaves no slot free that a call waits for. -/
theorem held_drainFrom (sound : Sound options s) (looping : 0 < s.loops)
    (waiting : s.queue.length ≤ options.maxQueued ∨
      s.active < options.maxConcurrent ∧ s.queue.length ≤ options.maxQueued + 1) :
    Held options (s.drainFrom options s.queue) := by
  obtain ⟨sound', ⟨same, empty⟩ | ⟨k, rest, first, -, same⟩⟩ := drainFrom_spec sound
  · refine ⟨sound', ?_, ?_⟩
    · rw [same]
      obtain few | ⟨room, -⟩ := waiting
      · exact few
      · change s.queue.length ≤ _
        rw [empty room]
        exact Nat.zero_le _
    · rw [same]
      exact fun _ room => empty room
  · refine ⟨sound', ?_, ?_⟩
    · rw [same]
      change rest.length ≤ options.maxQueued
      rw [first, List.length_cons] at waiting
      omega
    · rw [same]
      exact fun none => absurd looping (by change s.loops = 0 at none; omega)

theorem Sound.loops (sound : Sound options s) (loops : Nat) : Sound options { s with loops := loops } :=
  { sound with }

theorem Held.runBounded (held : Held options s) : Held options (s.runBounded options) := by
  obtain ⟨-, absent⟩ := held.sound.fresh s.calls le_rfl
  have entered := held.sound.enter
  unfold Executor.runBounded
  split
  next full =>
    have unanswered : s.calls ∉ s.answered := fun member => by
      obtain ⟨how, settled⟩ := mem_answered.mp member
      exact absent _ settled rfl
    have away : s.calls ∉ s.queue := fun waits => Nat.lt_irrefl _ (held.sound.queued _ waits).1
    have own : ∀ happening ∈ [Happening.settled s.calls .capacity],
        happening.call = s.calls ∧ happening.start = none := List.forall_mem_singleton.mpr ⟨rfl, rfl⟩
    have sound := entered.change (Nat.lt_succ_self s.calls) s.loops own ((Entry.fresh absent false).settle .capacity false)
      (fun unsettled => absurd unsettled.symm Bool.false_ne_true) (List.sublist_append_left ..)
      (fun j waits => (List.mem_append.mp waits).imp_right fun new =>
        ⟨List.mem_singleton.mp new, .inl List.mem_cons_self⟩)
      away (List.nodup_cons.mpr ⟨unanswered, held.sound.once⟩) held.sound.freed rfl
    rw [Function.update_idem] at sound
    exact ⟨sound, held.waiting, held.drained⟩
  next room =>
    refine held_drainFrom (entered.loops (s.loops + 1)) (Nat.succ_pos _) ?_
    change (s.queue ++ [s.calls]).length ≤ _ ∨ s.active < _ ∧ (s.queue ++ [s.calls]).length ≤ _
    have waiting := held.waiting
    rw [List.length_append, List.length_singleton]
    omega

section

variable (sound : Sound options s)
include sound

/-- The call of a happening has been made. -/
theorem Sound.called (other : s.works k ≠ Executor.uncalled) : k < s.calls := by
  by_contra late
  exact other (sound.fresh k (Nat.not_lt.mp late)).1

theorem Sound.away (running : (s.works k).run ≠ .idle) : k ∉ s.queue := by
  intro waits
  exact running ((sound.entries k).idle.mp (sound.queued k waits).2.1)

/-- A call whose function runs. -/
theorem Sound.running (running : (s.works k).run ≠ .idle) :
    k < s.calls ∧ k ∉ s.queue ∧ (s.works k).started = true := by
  have entry := sound.entries k
  refine ⟨sound.called fun none => running (none ▸ rfl), sound.away running, ?_⟩
  by_contra idle
  exact running (entry.idle.mp (Bool.not_eq_true _ ▸ idle))

theorem Sound.unfreed (going : (s.works k).run ≠ .finished) :
    .freed k ∉ s.history := fun member => going ((sound.entries k).finished.mpr member)

end

theorem Held.settles (held : Held options s) (ok : Bool) (pending : (s.works k).run = .pending) :
    Held options ((s.setWork k { s.works k with run := .settled ok }).log (.done k)) := by
  have begun : (s.works k).run ≠ .idle := by rw [pending]; exact Run.noConfusion
  have unfreed := held.sound.unfreed (k := k) (by rw [pending]; exact Run.noConfusion)
  obtain ⟨called, away, -⟩ := held.sound.running begun
  have entry : Entry ([.done k] ++ s.history) k { s.works k with run := .settled ok } :=
    (held.sound.entries k).goes begun Run.noConfusion (by simp [Happening.start, Happening.answer])
      (iff_of_true rfl List.mem_cons_self) (by simp [unfreed]) (by simp)
  have sound : Sound options ((s.setWork k { s.works k with run := .settled ok }).log (.done k)) :=
    held.sound.change called s.loops (by simp [Happening.call, Happening.start]) entry (held.sound.armed k called)
      (List.Sublist.refl _) (fun j waits => .inl waits) away held.sound.once held.sound.freed rfl
  exact ⟨sound, held.waiting, held.drained⟩

theorem Held.handle (held : Held options s) (settled : (s.works k).run = .settled ok) :
    Held options (s.handle k ok) := by
  have before := held.sound.entries k
  have begun : (s.works k).run ≠ .idle := by rw [settled]; exact Run.noConfusion
  have unfreed := held.sound.unfreed (k := k) (by rw [settled]; exact Run.noConfusion)
  obtain ⟨called, away, -⟩ := held.sound.running begun
  have done : .done k ∈ s.history := before.done.mp (by rw [settled]; rfl)
  unfold Executor.handle
  dsimp only
  split
  next answered =>
    have entry : Entry ([] ++ s.history) k { s.works k with run := .handled } :=
      before.goes begun Run.noConfusion (nofun) (iff_of_true rfl done) (by simp [unfreed])
        fun _ => answered
    have sound : Sound options (s.setWork k { s.works k with run := .handled }) :=
      held.sound.change called s.loops (List.forall_mem_nil _) entry (held.sound.armed k called) (List.Sublist.refl _)
        (fun j waits => .inl waits) away held.sound.once held.sound.freed rfl
    exact ⟨sound, held.waiting, held.drained⟩
  next unsettled =>
    have entry : Entry ([.settled k (.result ok)] ++ s.history) k
        { s.works k with run := .handled, consumerSettled := true, timeout := false } :=
      (before.settle (.result ok) false).goes begun Run.noConfusion (List.forall_mem_nil _)
        (iff_of_true rfl (.tail _ done)) (by simp [unfreed]) fun _ => rfl
    have fresh : k ∉ s.answered := fun member => unsettled (before.answered.mpr (mem_answered.mp member))
    have sound : Sound options ((s.setWork k
        { s.works k with run := .handled, consumerSettled := true, timeout := false }).log (.settled k (.result ok))) :=
      held.sound.change called s.loops (by simp [Happening.call, Happening.start]) entry
        (fun none => absurd none.symm Bool.false_ne_true) (List.Sublist.refl _) (fun j waits => .inl waits) away
        (List.nodup_cons.mpr ⟨fresh, held.sound.once⟩) held.sound.freed rfl
    exact ⟨sound, held.waiting, held.drained⟩

/-- A function that has settled holds one of the slots. -/
theorem Sound.holds (sound : Sound options s) (started : .started k ∈ s.history)
    (unfreed : .freed k ∉ s.history) : 0 < s.active := by
  have nodup : (k :: s.frees).Nodup := List.nodup_cons.mpr ⟨fun member => unfreed (mem_frees.mp member), sound.freed⟩
  have inside : k :: s.frees ⊆ s.starts := by
    refine List.cons_subset.mpr ⟨mem_starts.mpr started, fun j member => mem_starts.mpr ?_⟩
    have entry := sound.entries j
    have finished := entry.finished.mpr (mem_frees.mp member)
    exact entry.started.mp (sound.running (by rw [finished]; exact Run.noConfusion)).2.2
  have few : s.frees.length + 1 ≤ s.starts.length := (List.subperm_of_subset nodup inside).length_le
  have slots := sound.slots
  omega

theorem Held.finish (held : Held options s) {k : Nat} (handled : (s.works k).run = .handled) :
    Held options (s.finish options k) := by
  have before := held.sound.entries k
  have begun : (s.works k).run ≠ .idle := by rw [handled]; exact Run.noConfusion
  have unfreed := held.sound.unfreed (k := k) (by rw [handled]; exact Run.noConfusion)
  obtain ⟨called, away, started⟩ := held.sound.running begun
  have done : .done k ∈ s.history := before.done.mp (by rw [handled]; rfl)
  have holds := held.sound.holds (before.started.mp started) unfreed
  have settled : (s.works k).consumerSettled = true := before.heard (.inl handled)
  have entry : Entry ([.freed k] ++ s.history) k
      { s.works k with run := .finished, consumerSettled := true, timeout := false } := by
    rw [← settled]
    exact { before.goes begun Run.noConfusion (by simp [Happening.start, Happening.answer])
      (iff_of_true rfl (List.mem_cons_of_mem _ done)) (iff_of_true rfl List.mem_cons_self) fun _ => settled with }
  have freed : (k :: s.frees).Nodup :=
    List.nodup_cons.mpr ⟨fun member => unfreed (mem_frees.mp member), held.sound.freed⟩
  have sound := held.sound.change called (s.loops + 1) (by simp [Happening.call, Happening.start]) entry
    (fun none => absurd none.symm Bool.false_ne_true) (List.Sublist.refl _) (fun j waits => .inl waits) away
    held.sound.once freed (Nat.sub_add_cancel holds)
  exact held_drainFrom sound (Nat.succ_pos _) (.inl held.waiting)

theorem Held.expire (held : Held options s) (timer : (s.works k).timeout = true) :
    Held options (s.expire k) := by
  have before := held.sound.entries k
  have called := held.sound.called (k := k) fun none => by rw [none] at timer; cases timer
  unfold Executor.expire
  dsimp only
  split
  next answered =>
    have away : k ∉ s.queue := fun waits => by
      rw [(held.sound.queued k waits).2.2] at answered
      cases answered
    have entry : Entry ([] ++ s.history) k { s.works k with timeout := false } := { before with }
    have sound : Sound options (s.setWork k { s.works k with timeout := false }) :=
      held.sound.change called s.loops (List.forall_mem_nil _) entry
        (fun none => absurd (none.symm.trans answered) Bool.false_ne_true) (List.Sublist.refl _)
        (fun j waits => .inl waits) away held.sound.once held.sound.freed rfl
    exact ⟨sound, held.waiting, held.drained⟩
  next unsettled =>
    have entry : Entry ([.settled k .deadline] ++ s.history) k
        { s.works k with timeout := false, consumerSettled := true } := before.settle .deadline false
    have fresh : k ∉ s.answered := fun member => unsettled (before.answered.mpr (mem_answered.mp member))
    have distinct : s.queue.Nodup := held.sound.line.imp Nat.ne_of_lt
    have sound : ∀ {queue : List Nat}, queue.Sublist s.queue → (∀ j ∈ s.queue, j ∈ queue ∨ j = k) → k ∉ queue →
        Sound options ⟨s.active, queue, s.loops, s.calls, Function.update s.works k
          { s.works k with timeout := false, consumerSettled := true }, [.settled k .deadline] ++ s.history⟩ :=
      fun kept gone away => held.sound.change called s.loops (by simp [Happening.call, Happening.start]) entry
        (fun none => absurd none.symm Bool.false_ne_true) kept
        (fun j waits => (gone j waits).imp_right fun same => ⟨same, .inr List.mem_cons_self⟩) away
        (List.nodup_cons.mpr ⟨fresh, held.sound.once⟩) held.sound.freed rfl
    have same : (s.setWork k { s.works k with timeout := false }).setWork k
        { s.works k with timeout := false, consumerSettled := true } =
        s.setWork k { s.works k with timeout := false, consumerSettled := true } := by
      simp [Executor.setWork]
    rw [same]
    split
    next started =>
      have away : k ∉ s.queue := fun waits => by
        rw [(held.sound.queued k waits).2.1] at started
        cases started
      exact ⟨sound (List.Sublist.refl _) (fun j waits => .inl waits) away, held.waiting, held.drained⟩
    next =>
      refine ⟨sound List.erase_sublist ?_ distinct.not_mem_erase, ?_, ?_⟩
      · intro j waits
        by_cases same : j = k
        · exact .inr same
        · exact .inl ((List.mem_erase_of_ne same).mpr waits)
      · exact List.length_erase_le.trans held.waiting
      · intro idle room
        rw [held.drained idle room]
        rfl

theorem Held.steps (held : Held options s) (input : Input) : Held options (step options s input) := by
  cases input with
  | call => exact held.runBounded
  | returns =>
    change Held options (if s.loops = 0 then s else _)
    split
    · exact held
    · next looping => exact held_drainFrom held.sound (Nat.pos_of_ne_zero looping) (.inl held.waiting)
  | settles k ok =>
    change Held options (if _ then _ else s)
    split
    · next pending => exact held.settles ok pending
    · exact held
  | handles k =>
    simp only [step]
    split
    · next ok settled =>
      split
      · exact held.handle settled
      · exact held
    · exact held
  | finishes k =>
    change Held options (if _ then _ else s)
    split
    · next ready => exact held.finish ready.1
    · exact held
  | fires k =>
    change Held options (if _ then _ else s)
    split
    · next ready => exact held.expire ready.1
    · exact held

theorem Held.initial : Held options Executor.initial := by
  have entry : ∀ k, Entry [] k Executor.uncalled := fun k => .fresh (List.forall_mem_nil _) false
  refine ⟨?_, Nat.zero_le _, fun _ _ => rfl⟩
  constructor <;> simp [Executor.initial, Executor.starts, Executor.answered, Executor.frees, entry]

theorem Held.bounded (held : Held options s) : Bounded options s := by
  have sound := held.sound
  have called : ∀ happening ∈ s.history, happening.call < s.calls := by
    intro happening member
    by_contra late
    exact (sound.fresh _ (Nat.not_lt.mp late)).2 happening member rfl
  constructor
  case active => exact sound.active
  case waiting => exact held.waiting
  case ordered => exact sound.ordered
  case passed =>
    intro k started j before
    rw [mem_starts] at started
    obtain waits | runs | rejected := sound.placed j (before.trans (called _ started))
    · exact absurd (sound.behind j waits k started) (Nat.lt_asymm before)
    · exact .inl (mem_starts.mpr runs)
    · exact .inr rejected
  case late => exact sound.late
  case once => exact sound.once
  case armed =>
    intro k inside
    cases settled : (s.works k).consumerSettled with
    | true => exact .inl (mem_answered.mpr ((sound.entries k).answered.mp settled))
    | false => exact .inr (sound.armed k inside settled)
  case slots => exact sound.slots
  case freed =>
    refine ⟨sound.freed, fun k member => ?_⟩
    have entry := sound.entries k
    have finished := entry.finished.mpr (mem_frees.mp member)
    refine ⟨mem_starts.mpr (entry.started.mp ?_), entry.done.mp (by rw [finished]; rfl)⟩
    exact (sound.running (by rw [finished]; exact Run.noConfusion)).2.2
  case drained => exact held.drained

theorem drainFrom_kept (s : Executor) (queue : List Nat) :
    s.history <:+ (s.drainFrom options queue).history := by
  induction queue with
  | nil => exact List.suffix_refl _
  | cons k rest ih =>
    unfold Executor.drainFrom
    split
    · split
      · exact ih
      · exact List.suffix_cons ..
    · exact List.suffix_refl _

theorem drain_kept (kept : older <:+ s.history) : older <:+ (s.drain options).history := by
  exact kept.trans (drainFrom_kept { s with loops := s.loops + 1 } s.queue)

theorem step_kept (s : Executor) (input : Input) : s.history <:+ (step options s input).history := by
  cases input with
  | call =>
    simp only [step, Executor.runBounded]
    split
    · exact List.suffix_cons ..
    · exact drain_kept (List.suffix_refl _)
  | returns =>
    simp only [step]
    split
    · exact List.suffix_refl _
    · exact drainFrom_kept _ _
  | settles k ok =>
    simp only [step]
    split
    · exact List.suffix_cons ..
    · exact List.suffix_refl _
  | handles k =>
    simp only [step, Executor.handle]
    split
    · split
      · split
        · exact List.suffix_refl _
        · exact List.suffix_cons ..
      · exact List.suffix_refl _
    · exact List.suffix_refl _
  | finishes k =>
    simp only [step]
    split
    · exact drain_kept (List.suffix_cons ..)
    · exact List.suffix_refl _
  | fires k =>
    simp only [step, Executor.expire]
    split
    · split
      · exact List.suffix_refl _
      · split
        · exact List.suffix_cons ..
        · exact List.suffix_cons ..
    · exact List.suffix_refl _

theorem finishes_freed (handled : (s.works k).run = .handled) (idle : s.loops = 0) :
    .freed k ∈ (step options s (.finishes k)).history := by
  simp only [step, if_pos (And.intro handled idle)]
  exact (drain_kept (List.suffix_refl _)).subset List.mem_cons_self

theorem handle_handled (s : Executor) (k : Nat) (ok : Bool) :
    ((s.handle k ok).works k).run = .handled ∧ (s.handle k ok).loops = s.loops := by
  unfold Executor.handle
  dsimp only
  split
  · exact ⟨by simp [Executor.setWork], rfl⟩
  · exact ⟨by simp [Executor.setWork, Executor.log], rfl⟩

theorem Held.lively (held : Held options s) : Lively options s := by
  have unsettled : ∀ k, k ∉ s.answered → (s.works k).consumerSettled = false := by
    intro k unanswered
    by_contra settled
    exact unanswered (mem_answered.mpr ((held.sound.entries k).answered.mp (Bool.not_eq_false _ ▸ settled)))
  constructor
  case kept => exact step_kept s
  case deadline =>
    intro idle k called unanswered
    have here := unsettled k unanswered
    have timer := held.sound.armed k called here
    simp only [step, if_pos (And.intro timer idle), Executor.expire, here]
    split
    · next wrong => cases wrong
    · split
      · exact .head _
      · exact .head _
  case result =>
    intro idle k ok settled unanswered
    simp only [step, settled, if_pos idle, Executor.handle, unsettled k unanswered]
    exact .head _
  case slot =>
    intro idle k done
    have past := (held.sound.entries k).done.mpr done
    cases run : (s.works k).run with
    | idle | pending =>
      rw [run] at past
      cases past
    | settled ok =>
      have same : step options s (.handles k) = s.handle k ok := by simp only [step, run, if_pos idle]
      obtain ⟨handled, loops⟩ := handle_handled s k ok
      rw [same]
      exact finishes_freed handled (loops.trans idle)
    | handled =>
      have same : step options s (.handles k) = s := by simp only [step, run]
      rw [same]
      exact finishes_freed run idle
    | finished =>
      have freed := (held.sound.entries k).finished.mp run
      exact ((step_kept s _).trans (step_kept _ _)).subset freed

/-- Whatever the calls, the functions and the timers do. -/
theorem executor_bounded (options : Options) (inputs : Nat → Input) (n : Nat) :
    Bounded options (Machine.states (step options) Executor.initial inputs n) ∧
      Lively options (Machine.states (step options) Executor.initial inputs n) := by
  have held : Held options (Machine.states (step options) Executor.initial inputs n) :=
    Machine.invariant Held.initial (fun _ here => here.steps _) n
  exact ⟨held.bounded, held.lively⟩

end

end LetAgents.Events.BoundedExecutor

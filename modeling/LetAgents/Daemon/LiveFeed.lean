import LetAgents.Daemon.AgentStreamRegistry
import Mathlib.Tactic.Common

/-!
# The live feed accounts for every event

The buffer holds the last sequences of its generation without a gap, and the pushes of that
generation are the sequences from its start on. What a watch skips is therefore the distance
of two numbers.
-/
namespace LetAgents.Daemon.AgentStreamRegistry

open Lib

/-! ## Ranges -/

theorem filter_range' (cursor start n : Nat) :
    (List.range' start n).filter (fun x => cursor < x) =
      List.range' (max start (cursor + 1)) (start + n - max start (cursor + 1)) := by
  induction n generalizing start with
  | zero =>
    rw [show start + 0 - max start (cursor + 1) = 0 by omega]
    rfl
  | succ n ih =>
    rw [List.range'_succ, List.filter_cons, ih]
    by_cases above : cursor < start
    · rw [if_pos (decide_eq_true above), show max start (cursor + 1) = start by omega,
        show max (start + 1) (cursor + 1) = start + 1 by omega,
        show start + (n + 1) - start = (start + 1 + n - (start + 1)) + 1 by omega, List.range'_succ]
    · rw [if_neg (by simpa using above), show max (start + 1) (cursor + 1) = max start (cursor + 1) by omega,
        show start + 1 + n = start + (n + 1) by omega]

theorem countP_range' (cursor bound start n : Nat) :
    (List.range' start n).countP (fun x => cursor < x && x < bound) =
      min bound (start + n) - max start (cursor + 1) := by
  induction n with
  | zero =>
    change 0 = _
    omega
  | succ n ih =>
    rw [List.range'_1_concat, List.countP_append, ih, List.countP_singleton]
    split
    · next inside =>
      simp only [Bool.and_eq_true, decide_eq_true_eq] at inside
      omega
    · next outside =>
      simp only [Bool.and_eq_true, decide_eq_true_eq] at outside
      omega

/-! ## The buffer -/

section

variable {Payload : Type} {options : Options} {s : Registry Payload} {buffer : AgentStreamBuffer Payload}
  {pushed : List (Nat × DaemonAgentStreamEvent Payload)}

def sequences (events : List (DaemonAgentStreamEvent Payload)) : List Nat := events.map (·.sequence)

/-- The buffer and the pushes of its generation. -/
structure Counted (buffer : AgentStreamBuffer Payload) (pushed : List (Nat × DaemonAgentStreamEvent Payload)) :
    Prop where
  start : 1 ≤ buffer.generationStartSequence
  few : buffer.generationStartSequence + buffer.events.length ≤ buffer.sequence + 1
  retained : sequences buffer.events =
    List.range' (buffer.sequence + 1 - buffer.events.length) buffer.events.length
  own : ∀ event ∈ buffer.events, (buffer.generation, event) ∈ pushed
  current : sequences ((pushed.filter fun push => push.1 = buffer.generation).map (·.2)) =
    (List.range' buffer.generationStartSequence (buffer.sequence + 1 - buffer.generationStartSequence)).reverse
  below : ∀ push ∈ pushed, push.1 ≤ buffer.generation ∧ push.2.sequence ≤ buffer.sequence

theorem Counted.range (counted : Counted buffer pushed) (member : event ∈ buffer.events) :
    buffer.generationStartSequence ≤ event.sequence ∧ event.sequence ≤ buffer.sequence := by
  have inside : event.sequence ∈ sequences buffer.events := List.mem_map_of_mem member
  rw [counted.retained, List.mem_range'_1] at inside
  have few := counted.few
  omega

theorem Counted.ordered (counted : Counted buffer pushed) :
    buffer.events.Pairwise fun earlier later => earlier.sequence < later.sequence := by
  have sorted : (sequences buffer.events).Pairwise (· < ·) := by
    rw [counted.retained]
    exact List.pairwise_lt_range'
  exact List.pairwise_map.mp sorted

theorem append_members (member : old ∈ (buffer.append options event).events) :
    old ∈ buffer.events ∨ old = event := by
  have inside : old ∈ buffer.events ++ [event] := by
    unfold AgentStreamBuffer.append at member
    dsimp only at member
    split at member
    · exact List.mem_of_mem_drop member
    · exact member
  exact (List.mem_append.mp inside).imp_right List.mem_singleton.mp

theorem Counted.append (counted : Counted buffer pushed)
    (next : event.sequence = buffer.sequence + 1) :
    Counted (buffer.append options event) ((buffer.generation, event) :: pushed) := by
  obtain ⟨dropped, kept, same⟩ : ∃ dropped, dropped ≤ buffer.events.length ∧
      (buffer.append options event).events = (buffer.events ++ [event]).drop dropped := by
    unfold AgentStreamBuffer.append
    dsimp only
    split
    · next full =>
      rw [List.length_append, List.length_singleton] at full ⊢
      have holds := options.holds
      exact ⟨_, by omega, rfl⟩
    · exact ⟨0, Nat.zero_le _, rfl⟩
  have few := counted.few
  have length : (buffer.append options event).events.length = buffer.events.length + 1 - dropped := by
    rw [same, List.length_drop, List.length_append, List.length_singleton]
  have sequence : (buffer.append options event).sequence = buffer.sequence + 1 := next
  constructor
  case start => exact counted.start
  case few =>
    change buffer.generationStartSequence + _ ≤ _
    omega
  case retained =>
    rw [length, sequence, same]
    unfold sequences
    have retained := counted.retained
    unfold sequences at retained
    rw [List.map_drop, List.map_append, retained, List.map_singleton, next]
    have whole : List.range' (buffer.sequence + 1 - buffer.events.length) buffer.events.length ++ [buffer.sequence + 1] =
        List.range' (buffer.sequence + 1 - buffer.events.length) (buffer.events.length + 1) := by
      rw [List.range'_1_concat, show buffer.sequence + 1 - buffer.events.length + buffer.events.length =
        buffer.sequence + 1 by omega]
    rw [whole, List.drop_range', Nat.mul_one]
    congr 1
    omega
  case own =>
    intro old member
    obtain before | rfl := append_members member
    · exact .tail _ (counted.own old before)
    · exact .head _
  case current =>
    change sequences ((((buffer.generation, event) :: pushed).filter fun push =>
      push.1 = buffer.generation).map (·.2)) = _
    rw [List.filter_cons, if_pos (by simp), sequence]
    change event.sequence :: sequences ((pushed.filter fun push => push.1 = buffer.generation).map (·.2)) =
      (List.range' buffer.generationStartSequence (buffer.sequence + 1 + 1 - buffer.generationStartSequence)).reverse
    rw [counted.current, show buffer.sequence + 1 + 1 - buffer.generationStartSequence =
      buffer.sequence + 1 - buffer.generationStartSequence + 1 by omega, List.range'_1_concat, List.reverse_concat,
      next, show buffer.generationStartSequence + (buffer.sequence + 1 - buffer.generationStartSequence) =
        buffer.sequence + 1 by omega]
  case below =>
    rw [sequence]
    refine List.forall_mem_cons.mpr ⟨⟨le_rfl, next.le⟩, fun push member => ?_⟩
    obtain ⟨generation, sequence⟩ := counted.below push member
    exact ⟨generation, Nat.le_succ_of_le sequence⟩

theorem Counted.reset (counted : Counted buffer pushed) :
    Counted { buffer with
      generation := buffer.generation + 1
      generationStartSequence := buffer.sequence + 1
      events := []
      ended := false } pushed := by
  constructor
  case start => exact Nat.succ_pos _
  case few => exact le_rfl
  case retained => rfl
  case own => exact nofun
  case current =>
    have none : pushed.filter (fun push => push.1 = buffer.generation + 1) = [] := by
      refine List.filter_eq_nil_iff.mpr fun push member => ?_
      have below := (counted.below push member).1
      simp only [decide_eq_true_eq]
      omega
    simp only [none, Nat.sub_self]
    rfl
  case below => exact fun push member => (counted.below push member).imp_left Nat.le_succ_of_le

/-! ## A snapshot -/

/-- What a watch returns. -/
structure Taken (options : Options) (buffer : AgentStreamBuffer Payload)
    (pushed : List (Nat × DaemonAgentStreamEvent Payload)) (cursor : Nat) (result : AgentStreamWatchResult Payload) :
    Prop where
  events : result.events = (buffer.events.filter fun event => cursor < event.sequence).take options.maxBatch
  rest : (buffer.events.filter fun event => result.sequence < event.sequence) =
    (buffer.events.filter fun event => cursor < event.sequence).drop options.maxBatch
  forth : cursor ≤ result.sequence
  bounded : cursor ≤ buffer.sequence → result.sequence ≤ buffer.sequence
  upto : ∀ event ∈ result.events, event.sequence ≤ result.sequence
  own : ∀ event ∈ result.events, (result.stream_generation, event) ∈ pushed
  dropped : ∀ first rest, result.events = first :: rest →
    result.dropped_events = pushed.countP (between result.stream_generation cursor first.sequence)
  ended : result.ended = true →
    (buffer.events.filter fun event => result.sequence < event.sequence) = []

theorem Counted.filter (counted : Counted buffer pushed) (cursor : Nat) :
    (buffer.events.filter fun event => max cursor (buffer.generationStartSequence - 1) < event.sequence) =
      buffer.events.filter fun event => cursor < event.sequence := by
  refine List.filter_congr fun event member => ?_
  have range := counted.range member
  refine decide_eq_decide.mpr ?_
  omega

/-- The pushes that a watch skips. -/
theorem Counted.countP (counted : Counted buffer pushed) (cursor bound : Nat) :
    pushed.countP (between buffer.generation cursor bound) =
      min bound (buffer.sequence + 1) - max buffer.generationStartSequence (cursor + 1) := by
  have few := counted.few
  have counts := congrArg (List.countP fun x => cursor < x && x < bound) counted.current
  rw [List.countP_reverse, countP_range', sequences, List.map_map, List.countP_map, List.countP_filter,
    show buffer.generationStartSequence + (buffer.sequence + 1 - buffer.generationStartSequence) =
      buffer.sequence + 1 by omega] at counts
  rw [← counts]
  refine List.countP_congr fun push _ => ?_
  simp [between, and_comm, and_assoc]

theorem Counted.first (counted : Counted buffer pushed) {first : DaemonAgentStreamEvent Payload}
    (here : (buffer.events.filter fun event => cursor < event.sequence) = first :: rest) :
    first.sequence = max (buffer.sequence + 1 - buffer.events.length) (cursor + 1) ∧
      (buffer.events.head?.map (·.sequence)).getD (buffer.sequence + 1) =
        buffer.sequence + 1 - buffer.events.length := by
  have retained := counted.retained
  have kept : sequences (buffer.events.filter fun event => cursor < event.sequence) =
      (sequences buffer.events).filter fun x => cursor < x := by
    unfold sequences
    rw [List.filter_map]
    rfl
  rw [here, retained, filter_range'] at kept
  unfold sequences at kept retained
  have count : buffer.sequence + 1 - buffer.events.length + buffer.events.length -
      max (buffer.sequence + 1 - buffer.events.length) (cursor + 1) ≠ 0 := by
    intro none
    rw [none] at kept
    cases kept
  obtain ⟨n, some⟩ := Nat.exists_eq_succ_of_ne_zero count
  rw [some, List.range'_succ, List.map_cons] at kept
  refine ⟨(List.cons.inj kept).1, ?_⟩
  rw [← List.head?_map, retained, List.head?_range']
  split
  · next empty =>
    omega
  · rfl

theorem filter_last {events : List (DaemonAgentStreamEvent Payload)}
    (ordered : events.Pairwise fun earlier later => earlier.sequence < later.sequence)
    (cut : (events.filter fun event => cursor < event.sequence) = earlier ++ [last] ++ later) :
    (events.filter fun event => last.sequence < event.sequence) = later ∧
      ∀ event ∈ earlier ++ [last], event.sequence ≤ last.sequence := by
  have sorted := ordered.filter fun event => cursor < event.sequence
  rw [cut] at sorted
  obtain ⟨before, -, behind⟩ := List.pairwise_append.mp sorted
  have upto : ∀ event ∈ earlier ++ [last], event.sequence ≤ last.sequence := by
    intro event member
    obtain inside | same := List.mem_append.mp member
    · exact ((List.pairwise_append.mp before).2.2 event inside last (List.mem_singleton_self _)).le
    · rw [List.mem_singleton.mp same]
  have above : cursor < last.sequence := by
    have member : last ∈ events.filter fun event => cursor < event.sequence := by simp [cut]
    simpa using (List.mem_filter.mp member).2
  have twice : (events.filter fun event => last.sequence < event.sequence) =
      (events.filter fun event => cursor < event.sequence).filter fun event => last.sequence < event.sequence := by
    rw [List.filter_filter]
    refine List.filter_congr fun event _ => ?_
    simp only [Bool.and_eq_decide, decide_eq_true_eq]
    refine decide_eq_decide.mpr ?_
    omega
  refine ⟨?_, upto⟩
  rw [twice, cut, List.filter_append, List.filter_eq_nil_iff.mpr, List.nil_append, List.filter_eq_self.mpr]
  · intro event member
    exact decide_eq_true (behind last (by simp) event member)
  · intro event member
    simpa using upto event member

theorem Counted.taken (counted : Counted buffer pushed) (cursor : Nat) :
    Taken options buffer pushed cursor (snapshot options (some buffer) cursor) := by
  have few := counted.few
  have delivers := options.delivers
  have same := counted.filter cursor
  have members : ∀ {event}, event ∈ (buffer.events.filter fun event => cursor < event.sequence).take
      options.maxBatch → event ∈ buffer.events := fun member => (List.mem_filter.mp (List.mem_of_mem_take member)).1
  unfold snapshot
  dsimp only
  rw [same]
  obtain empty | ⟨earlier, last, batch⟩ := List.eq_nil_or_concat
    ((buffer.events.filter fun event => cursor < event.sequence).take options.maxBatch)
  · -- nothing is above the cursor
    have none : (buffer.events.filter fun event => cursor < event.sequence) = [] := by
      obtain zero | none := List.take_eq_nil_iff.mp empty
      · omega
      · exact none
    simp only [none, List.take_nil, List.getLast?_nil, Option.map_none, Option.getD_none]
    constructor
    case events => simp [none]
    case rest => exact same.trans (none.trans (by rw [none, List.drop_nil]))
    case forth => exact le_max_left ..
    case bounded =>
      dsimp only
      omega
    case upto => exact nofun
    case own => exact nofun
    case dropped => exact nofun
    case ended => exact fun _ => same.trans none
  · rw [List.concat_eq_append] at batch
    have whole := List.take_append_drop options.maxBatch (buffer.events.filter fun event => cursor < event.sequence)
    rw [batch] at whole
    obtain ⟨rest, upto⟩ := filter_last counted.ordered whole.symm
    have final : last ∈ buffer.events := members (batch ▸ List.mem_append_right _ (List.mem_singleton_self _))
    have range := counted.range final
    have above : cursor < last.sequence := by
      have member : last ∈ buffer.events.filter fun event => cursor < event.sequence :=
        List.mem_of_mem_take (batch ▸ List.mem_append_right _ (List.mem_singleton_self _))
      simpa using (List.mem_filter.mp member).2
    rw [batch, List.getLast?_concat, Option.map_some, Option.getD_some]
    constructor
    case events => exact batch.symm
    case rest => exact rest
    case forth => exact above.le
    case bounded => exact fun _ => range.2
    case upto => exact upto
    case own => exact fun event member => counted.own event (members (batch ▸ member))
    case dropped =>
      intro first others here
      dsimp only at here ⊢
      have head := whole.symm
      rw [here] at head
      obtain ⟨least, oldest⟩ := counted.first head
      have inside : first ∈ buffer.events := members (by rw [batch, here]; exact .head _)
      rw [oldest, counted.countP, least]
      omega
    case ended =>
      intro ended
      have all : buffer.sequence ≤ last.sequence := of_decide_eq_true (Bool.and_eq_true _ _ ▸ ended).2
      refine List.filter_eq_nil_iff.mpr fun event member => ?_
      have bound := (counted.range member).2
      simp only [decide_eq_true_eq]
      omega

/-! ## States -/

/-- The buffer, or the empty one. -/
def Registry.held (s : Registry Payload) : AgentStreamBuffer Payload := s.buffer.getD ⟨0, 0, 1, [], false⟩

theorem Registry.retained_held (s : Registry Payload) : s.retained = s.held.events := by
  unfold Registry.retained Registry.held
  cases s.buffer with
  | none | some buffer => rfl

theorem Registry.undelivered_held (s : Registry Payload) (cursor : Nat) :
    s.undelivered cursor = s.held.events.filter fun event => cursor < event.sequence := by
  rw [Registry.undelivered, s.retained_held]

theorem snapshot_held (s : Registry Payload) (cursor : Nat) :
    snapshot options s.buffer cursor = snapshot options (some s.held) cursor := by
  unfold Registry.held
  cases s.buffer with
  | none => simp [snapshot]
  | some buffer => rfl

structure Sound (s : Registry Payload) : Prop where
  counted : Counted s.held s.pushed
  absent : s.buffer = none → s.pushed = []
  cursor : s.cursor ≤ s.held.sequence
  behind : ∀ event ∈ s.delivered, event.sequence ≤ s.cursor
  /-- A watch waits for what comes. -/
  quiet : s.consumer = .waiting → s.undelivered s.cursor = []
  accounted : Accounted s

theorem Sound.taken (sound : Sound s) (options : Options) (cursor : Nat) :
    Taken options s.held s.pushed cursor (snapshot options s.buffer cursor) := by
  rw [snapshot_held]
  exact sound.counted.taken cursor

/-- Phases do not matter but for the consumer's watch that waits. -/
theorem Sound.phases (sound : Sound s) (others : List Watch)
    (quiet : consumer = .waiting → s.undelivered s.cursor = []) :
    Sound { s with consumer := consumer, others := others } :=
  ⟨sound.counted, sound.absent, sound.cursor, sound.behind, quiet, { sound.accounted with }⟩

theorem notify_awake (phase : Phase) : phase.notify ≠ .waiting := by
  cases phase with
  | waiting | woken | returned => exact Phase.noConfusion

theorem Registry.delivered_answer (options : Options) (s : Registry Payload) :
    (s.answer options).delivered = s.delivered ++ (snapshot options s.buffer s.cursor).events := by
  simp [Registry.delivered, Registry.answer]

section

variable (sound : Sound s)
include sound

theorem Sound.answer : Sound (s.answer options) := by
  have taken := sound.taken options s.cursor
  have same : (s.answer options).held = s.held := rfl
  have above : ∀ event ∈ (snapshot options s.buffer s.cursor).events, s.cursor < event.sequence := by
    intro event member
    rw [taken.events] at member
    simpa using (List.mem_filter.mp (List.mem_of_mem_take member)).2
  have sorted : ((snapshot options s.buffer s.cursor).events).Pairwise
      fun earlier later => earlier.sequence < later.sequence := by
    rw [taken.events]
    exact (sound.counted.ordered.filter _).sublist (List.take_sublist ..)
  constructor
  case counted => exact sound.counted
  case absent => exact sound.absent
  case cursor => exact taken.bounded sound.cursor
  case behind =>
    rw [Registry.delivered_answer]
    intro event member
    obtain old | new := List.mem_append.mp member
    · exact (sound.behind event old).trans taken.forth
    · exact taken.upto event new
  case quiet => exact Phase.noConfusion
  case accounted =>
    constructor
    case complete =>
      rw [Registry.delivered_answer]
      intro event member passed
      by_cases old : event.sequence ≤ s.cursor
      · exact List.mem_append_left _ (sound.accounted.complete event member old)
      · refine List.mem_append_right _ ?_
        rw [Registry.retained_held, same] at member
        have inside : event ∈ s.held.events.filter fun event => s.cursor < event.sequence :=
          List.mem_filter.mpr ⟨member, decide_eq_true (Nat.not_le.mp old)⟩
        rw [← List.take_append_drop options.maxBatch (s.held.events.filter _), ← taken.events, ← taken.rest] at inside
        obtain here | later := List.mem_append.mp inside
        · exact here
        · exact absurd (of_decide_eq_true (List.mem_filter.mp later).2) (Nat.not_lt.mpr passed)
    case increasing =>
      rw [Registry.delivered_answer]
      exact List.pairwise_append.mpr ⟨sound.accounted.increasing, sorted,
        fun old before new after => Nat.lt_of_le_of_lt (sound.behind old before) (above new after)⟩
    case own =>
      exact List.forall_mem_cons.mpr ⟨taken.own, sound.accounted.own⟩
    case dropped =>
      exact List.forall_mem_cons.mpr ⟨taken.dropped, sound.accounted.dropped⟩

/-- A buffer that goes on, with what is pushed. -/
theorem Sound.goes (others : List Watch) (more : List (Nat × DaemonAgentStreamEvent Payload))
    (counted : Counted buffer (more ++ s.pushed))
    (later : ∀ push ∈ more, s.held.sequence < push.2.sequence)
    (further : s.held.sequence ≤ buffer.sequence)
    (kept : ∀ event ∈ buffer.events, event ∈ s.retained ∨ s.held.sequence < event.sequence) :
    Sound { s with
      buffer := some buffer
      consumer := s.consumer.notify
      others := others
      pushed := more ++ s.pushed } := by
  constructor
  case counted => exact counted
  case absent => exact nofun
  case cursor => exact sound.cursor.trans further
  case behind => exact sound.behind
  case quiet => exact fun waits => absurd waits (notify_awake _)
  case accounted =>
    constructor
    case complete =>
      intro event member passed
      obtain old | new := kept event member
      · exact sound.accounted.complete event old passed
      · exact absurd new (Nat.not_lt.mpr (passed.trans sound.cursor))
    case increasing => exact sound.accounted.increasing
    case own =>
      exact fun answer member event inside => List.mem_append_right _ (sound.accounted.own answer member event inside)
    case dropped =>
      intro answer member first rest here
      have delivered : first ∈ s.delivered :=
        List.mem_flatMap.mpr ⟨answer, List.mem_reverse.mpr member, here ▸ .head _⟩
      have bound := (sound.behind first delivered).trans sound.cursor
      have none : more.countP (between answer.2.stream_generation answer.1 first.sequence) = 0 := by
        refine List.countP_eq_zero.mpr fun push inside counts => ?_
        have beyond := later push inside
        simp only [between, Bool.and_eq_true, decide_eq_true_eq] at counts
        omega
      rw [List.countP_append, none, Nat.zero_add]
      exact sound.accounted.dropped answer member first rest here

theorem Sound.push (event : DaemonActivityEvent Payload) : Sound (s.push options event) := by
  have opened : Counted (s.buffer.getD ⟨0, 1, 1, [], false⟩) s.pushed ∧
      (s.buffer.getD ⟨0, 1, 1, [], false⟩).sequence = s.held.sequence ∧
      (s.buffer.getD ⟨0, 1, 1, [], false⟩).events = s.retained := by
    have counted := sound.counted
    have absent := sound.absent
    unfold Registry.held Registry.retained at *
    cases here : s.buffer with
    | none =>
      rw [absent here]
      refine ⟨?_, rfl, rfl⟩
      constructor <;> simp [sequences]
    | some buffer =>
      rw [here] at counted
      exact ⟨counted, rfl, rfl⟩
  obtain ⟨counted, sequence, events⟩ := opened
  unfold Registry.push
  dsimp only
  split
  · exact sound
  · refine sound.goes _ [_] (counted.append rfl) ?_ ?_ ?_
    · exact List.forall_mem_singleton.mpr (sequence ▸ Nat.lt_succ_self _)
    · exact sequence ▸ Nat.le_succ _
    · intro old member
      obtain before | rfl := append_members member
      · exact .inl (events ▸ before)
      · exact .inr (sequence ▸ Nat.lt_succ_self _)

theorem Sound.reset : Sound s.reset := by
  have same : s.buffer.getD ⟨0, 0, 1, [], false⟩ = s.held := rfl
  unfold Registry.reset
  exact sound.goes _ [] sound.counted.reset (nofun) le_rfl (nofun)

theorem Sound.close : Sound s.close := by
  unfold Registry.close
  split
  · exact sound
  · next buffer here =>
    have same : s.held = buffer := by rw [Registry.held, here, Option.getD_some]
    have counted := sound.counted
    rw [same] at counted
    split
    · exact sound
    · refine sound.goes _ [] { counted with } (nofun) (congrArg (·.sequence) same).le
        fun event member => .inl ?_
      rw [s.retained_held, same]
      exact member

end

/-- Only the consumer's answers move its cursor; its phase changes with them, with what is noted, or
where it waits. -/
theorem step_cases (options : Options) (s : Registry Payload) (input : Input Payload) :
    (step options s input).cursor = s.cursor ∧ (step options s input).answers = s.answers ∧
        ((step options s input).consumer = s.consumer ∨ (step options s input).consumer = s.consumer.notify ∨
          s.consumer = .waiting ∨
          ∃ wait handoff, pends (snapshot options s.buffer s.cursor) wait handoff = true) ∨
      step options s input = s.answer options := by
  cases input with
  | push event =>
    simp only [step, Registry.push]
    split
    · exact .inl ⟨rfl, rfl, .inl rfl⟩
    · exact .inl ⟨rfl, rfl, .inr (.inl rfl)⟩
  | reset => exact .inl ⟨rfl, rfl, .inr (.inl rfl)⟩
  | finish =>
    simp only [step, Registry.close]
    split
    · exact .inl ⟨rfl, rfl, .inl rfl⟩
    · split
      · exact .inl ⟨rfl, rfl, .inl rfl⟩
      · exact .inl ⟨rfl, rfl, .inr (.inl rfl)⟩
  | next wait handoff =>
    simp only [step]
    split
    · split
      · next waits => exact .inl ⟨rfl, rfl, .inr (.inr (.inr ⟨wait, handoff, waits⟩))⟩
      · exact .inr rfl
    · exact .inl ⟨rfl, rfl, .inl rfl⟩
  | watch afterSequence wait handoff =>
    simp only [step]
    split
    · exact .inl ⟨rfl, rfl, .inr (.inl rfl)⟩
    · exact .inl ⟨rfl, rfl, .inl rfl⟩
  | timer other =>
    cases other with
    | none =>
      simp only [step]
      split
      · next waits => exact .inl ⟨rfl, rfl, .inr (.inr (.inl waits))⟩
      · exact .inl ⟨rfl, rfl, .inl rfl⟩
    | some k => exact .inl ⟨rfl, rfl, .inl rfl⟩
  | resume other =>
    cases other with
    | none =>
      simp only [step]
      split
      · exact .inr rfl
      · exact .inl ⟨rfl, rfl, .inl rfl⟩
    | some k => exact .inl ⟨rfl, rfl, .inl rfl⟩

/-- A watch that waits has nothing to deliver. -/
theorem Sound.pends (sound : Sound s) {cursor : Nat}
    (waits : pends (snapshot options s.buffer cursor) wait handoff = true) :
    s.undelivered cursor = [] := by
  have taken := sound.taken options cursor
  simp only [AgentStreamRegistry.pends, Bool.and_eq_true, List.isEmpty_iff] at waits
  have empty := taken.events.symm.trans waits.1.1.2
  rw [s.undelivered_held]
  obtain zero | none := List.take_eq_nil_iff.mp empty
  · have delivers := options.delivers
    omega
  · exact none

theorem Sound.steps (sound : Sound s) (input : Input Payload) : Sound (step options s input) := by
  cases input with
  | push event => exact sound.push event
  | reset => exact sound.reset
  | finish => exact sound.close
  | next wait handoff =>
    simp only [step]
    split
    · split
      · next waits => exact sound.phases _ fun _ => sound.pends waits
      · exact sound.answer
    · exact sound
  | watch afterSequence wait handoff =>
    simp only [step]
    split
    · exact sound.phases _ fun waits => absurd waits (notify_awake _)
    · exact sound.phases _ sound.quiet
  | timer other =>
    cases other with
    | none =>
      simp only [step]
      split
      · exact sound.phases _ Phase.noConfusion
      · exact sound
    | some k => exact sound.phases _ sound.quiet
  | resume other =>
    cases other with
    | none =>
      simp only [step]
      split
      · exact sound.answer
      · exact sound
    | some k => exact sound.phases _ sound.quiet

theorem Sound.initial : Sound (initial : Registry Payload) := by
  have counted : Counted (⟨0, 0, 1, [], false⟩ : AgentStreamBuffer Payload) [] := by constructor <;> simp [sequences]
  refine ⟨counted, fun _ => rfl, le_rfl, nofun, Phase.noConfusion, ?_⟩
  constructor <;> simp [AgentStreamRegistry.initial, Registry.retained, Registry.delivered]

/-! ## What a watch gets -/

section

variable (sound : Sound s)
include sound

theorem Sound.prompt {cursor : Nat} (some : s.undelivered cursor ≠ []) (wait : Option Rat)
    (handoff : Bool) : ¬AgentStreamRegistry.pends (snapshot options s.buffer cursor) wait handoff :=
  fun waits => some (sound.pends waits)

theorem Sound.answer_delivers :
    (s.answer options).delivered = s.delivered ++ (s.undelivered s.cursor).take options.maxBatch ∧
      (s.answer options).undelivered (s.answer options).cursor = (s.undelivered s.cursor).drop options.maxBatch := by
  have taken := sound.taken options s.cursor
  rw [Registry.delivered_answer, taken.events, Registry.undelivered_held, Registry.undelivered_held, ← taken.rest]
  exact ⟨rfl, rfl⟩

theorem Sound.answer_advances (some : s.undelivered s.cursor ≠ []) :
    s.cursor < (s.answer options).cursor := by
  have taken := sound.taken options s.cursor
  obtain ⟨first, rest, here⟩ := List.exists_cons_of_ne_nil some
  rw [s.undelivered_held] at here
  obtain ⟨k, batch⟩ := Nat.exists_eq_succ_of_ne_zero (Nat.ne_of_gt options.delivers)
  have member : first ∈ (snapshot options s.buffer s.cursor).events := by
    rw [taken.events, here, batch]
    exact .head _
  have above : s.cursor < first.sequence := by
    have inside : first ∈ s.held.events.filter fun event => s.cursor < event.sequence := here ▸ .head _
    simpa using (List.mem_filter.mp inside).2
  exact above.trans_le (taken.upto first member)

/-- The next watch delivers a batch, unless nothing is left. -/
theorem Sound.next (options : Options) (wait : Option Rat) (handoff : Bool)
    (ready : s.consumer = .returned ∨ s.undelivered s.cursor = []) :
    (step options s (.next wait handoff)).delivered =
        s.delivered ++ (s.undelivered s.cursor).take options.maxBatch ∧
      (step options s (.next wait handoff)).undelivered (step options s (.next wait handoff)).cursor =
        (s.undelivered s.cursor).drop options.maxBatch ∧
      ((step options s (.next wait handoff)).consumer = .returned ∨
        (step options s (.next wait handoff)).undelivered (step options s (.next wait handoff)).cursor = []) := by
  have unchanged : s.undelivered s.cursor = [] →
      s.delivered = s.delivered ++ (s.undelivered s.cursor).take options.maxBatch ∧
      s.undelivered s.cursor = (s.undelivered s.cursor).drop options.maxBatch := by
    intro none
    simp [none]
  simp only [step]
  split
  · split
    · next waits =>
      have none := sound.pends waits
      exact ⟨(unchanged none).1, (unchanged none).2, .inr none⟩
    · exact ⟨sound.answer_delivers.1, sound.answer_delivers.2, .inl rfl⟩
  · next busy =>
    have none := ready.resolve_left busy
    exact ⟨(unchanged none).1, (unchanged none).2, .inr none⟩

theorem Sound.drains (ready : s.consumer = .returned ∨ s.undelivered s.cursor = [])
    (watches : List (Option Rat × Bool)) :
    (watches.foldl (fun s watch => step options s (.next watch.1 watch.2)) s).delivered =
      s.delivered ++ (s.undelivered s.cursor).take (watches.length * options.maxBatch) := by
  induction watches generalizing s with
  | nil => simp
  | cons watch watches ih =>
    obtain ⟨delivered, left, ready'⟩ := sound.next options watch.1 watch.2 ready
    rw [List.foldl_cons, ih (sound.steps _) ready', delivered, left, List.length_cons, List.append_assoc,
      ← List.take_add]
    rw [Nat.succ_mul, Nat.add_comm]

theorem Sound.lively : Lively options s := by
  constructor
  case ended =>
    intro input answer answers ended
    obtain ⟨-, same, -⟩ | moved := step_cases options s input
    · have longer := congrArg List.length (same.symm.trans answers)
      rw [List.length_cons] at longer
      omega
    · rw [moved] at answers ⊢
      obtain rfl := (List.cons.inj answers).1
      rw [Registry.undelivered_held]
      exact (sound.taken options s.cursor).ended ended
  case prompt =>
    intro wait handoff returned some
    refine ⟨snapshot options s.buffer s.cursor, ?_, ?_⟩
    · simp only [step, if_pos returned, if_neg (sound.prompt some wait handoff)]
      rfl
    · rw [s.undelivered_held]
      exact (sound.taken options s.cursor).events
  case others =>
    intro afterSequence wait handoff some
    simp only [step, if_neg (sound.prompt some wait handoff)]
  case woken =>
    intro event opened
    have unended : (s.buffer.getD ⟨0, 1, 1, [], false⟩).ended = false := by
      unfold Registry.isEnded at opened
      cases here : s.buffer with
      | none => rfl
      | some buffer =>
        rw [here] at opened
        exact opened
    simp only [step, Registry.push, unended]
    refine ⟨notify_awake _, fun watch member => ?_⟩
    obtain ⟨before, -, rfl⟩ := List.mem_map.mp member
    exact notify_awake _
  case drains => exact fun returned => sound.drains (.inl returned)

end

/-! ## Progress -/

/-- Until its cursor moves, a watch that has something to deliver stays as it is. -/
theorem Sound.stays (sound : Sound s) (some : s.undelivered s.cursor ≠ []) (input : Input Payload)
    (still : (step options s input).cursor = s.cursor) : (step options s input).consumer = s.consumer := by
  have awake : s.consumer ≠ .waiting := fun waits => some (sound.quiet waits)
  have notified : s.consumer.notify = s.consumer := by
    cases phase : s.consumer with
    | waiting => exact absurd phase awake
    | woken | returned => rfl
  obtain ⟨-, -, same | noted | waits | ⟨wait, handoff, waits⟩⟩ | moved := step_cases options s input
  · exact same
  · exact noted.trans notified
  · exact absurd waits awake
  · exact absurd waits (sound.prompt some wait handoff)
  · rw [moved] at still
    exact absurd still (Nat.ne_of_gt (sound.answer_advances some))

section

variable {inputs : Nat → Input Payload}

theorem feed_succ (n : Nat) : feed options inputs (n + 1) = step options (feed options inputs n) (inputs n) := rfl

theorem sound_states (n : Nat) : Sound (feed options inputs n) :=
  Machine.invariant Sound.initial (fun _ sound => sound.steps _) n

theorem advances (fair : Fair options inputs)
    (kept : ∀ m ≥ n, event ∈ (feed options inputs m).retained)
    (above : (feed options inputs n).cursor < event.sequence) :
    ∃ m ≥ n, (feed options inputs n).cursor < (feed options inputs m).cursor := by
  by_contra never
  push Not at never
  have forth : ∀ m ≥ n, (feed options inputs m).cursor = (feed options inputs n).cursor := by
    intro m le
    induction le with
    | refl => rfl
    | step le ih =>
      refine (never _ (Nat.le_succ_of_le le)).antisymm ?_
      obtain ⟨same, -⟩ | moved := step_cases options (feed options inputs _) (inputs _)
      · exact (same.trans ih).ge
      · rw [feed_succ, moved, ← ih]
        exact ((sound_states _).taken options _).forth
  have some : ∀ m ≥ n, (feed options inputs m).undelivered (feed options inputs m).cursor ≠ [] := by
    intro m le
    refine List.ne_nil_of_mem (a := event) (List.mem_filter.mpr ⟨kept m le, ?_⟩)
    rw [forth m le]
    exact decide_eq_true above
  have phase : ∀ m ≥ n, (feed options inputs m).consumer = (feed options inputs n).consumer := by
    intro m le
    induction le with
    | refl => rfl
    | step le ih =>
      refine Eq.trans ((sound_states _).stays (some _ le) (inputs _) ?_) ih
      exact (forth _ (Nat.le_succ_of_le le)).trans (forth _ le).symm
  have still : ∀ m ≥ n, step options (feed options inputs m) (inputs m) ≠ (feed options inputs m).answer options := by
    intro m le moved
    have next := forth (m + 1) (Nat.le_succ_of_le le)
    rw [feed_succ, moved, ← forth m le] at next
    exact Nat.ne_of_gt ((sound_states m).answer_advances (some m le)) next
  cases here : (feed options inputs n).consumer with
  | waiting => exact some n le_rfl ((sound_states n).quiet here)
  | woken =>
    obtain ⟨m, le, move⟩ := fair.2 n fun m le => (phase m le).trans here
    refine still m le ?_
    simp only [move, step, if_pos ((phase m le).trans here)]
  | returned =>
    obtain ⟨m, le, wait, handoff, move⟩ := fair.1 n fun m le => (phase m le).trans here
    refine still m le ?_
    simp only [move, step, if_pos ((phase m le).trans here),
      if_neg ((sound_states m).prompt (some m le) wait handoff)]

theorem delivered_at_last (fair : Fair options inputs)
    (kept : ∀ m ≥ n, event ∈ (feed options inputs m).retained) :
    ∃ m ≥ n, event ∈ (feed options inputs m).delivered := by
  -- the distance from the cursor to the event
  induction distance : event.sequence - (feed options inputs n).cursor using
    Nat.strong_induction_on generalizing n with
  | _ d ih =>
    by_cases passed : event.sequence ≤ (feed options inputs n).cursor
    · exact ⟨n, le_rfl, (sound_states n).accounted.complete event (kept n le_rfl) passed⟩
    · obtain ⟨m, le, further⟩ := advances fair kept (Nat.not_le.mp passed)
      obtain ⟨k, later, delivered⟩ := ih _ (by omega) (fun k later => kept k (le.trans later)) rfl
      exact ⟨k, le.trans later, delivered⟩

/-- The feed accounts for every event, and a consumer that goes on misses none that stays. -/
theorem feed_accounts (options : Options) (inputs : Nat → Input Payload) (n : Nat) :
    Accounted (feed options inputs n) ∧ Lively options (feed options inputs n) ∧
      (Fair options inputs → ∀ event,
        (∀ m ≥ n, event ∈ (feed options inputs m).retained) → ∃ m ≥ n, event ∈ (feed options inputs m).delivered) :=
  ⟨(sound_states n).accounted, (sound_states n).lively, fun fair _ kept => delivered_at_last fair kept⟩

end

end

end LetAgents.Daemon.AgentStreamRegistry

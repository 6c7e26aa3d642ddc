import LetAgents.Rooms.LiveAuthorization

/-!
# What a live check may rely on

A check resolves to true only on a call of `authorize` that no invalidation has overtaken.
-/
namespace LetAgents.Rooms.LiveAuthorization

open Lib

/-! ## The law -/

/-- A call of a lease that returned true by some time and that no invalidation of the lease
came after it had begun. -/
def Fresh (calls : List AuthorizeCall) (invalidations : List Invalidation) (l time : Nat) : Prop :=
  ∃ call ∈ calls, call.lease = l ∧ call.outcome = some true ∧ call.settled ≤ time ∧
    ∀ i ∈ invalidations, i.lease = l → i.time < call.started

/-- The calls of a flight so far. -/
def callsOf (calls : List AuthorizeCall) (f : Nat) : Nat := calls.countP fun call => call.flight = f

/-- A call of a lease that an answer of true may rest on: none of the lease's events that came
before it settled came after it had begun, and none came between its settlement and the answer. -/
def Rests (calls : List AuthorizeCall) (invalidations : List Invalidation) (l answered : Nat) :
    Prop :=
  ∃ call ∈ calls, call.lease = l ∧ call.outcome = some true ∧ call.settled ≤ answered ∧
    ∀ i ∈ invalidations, i.lease = l → (i.time < call.settled → i.time < call.started) ∧
      ¬(call.settled ≤ i.time ∧ i.time < answered)

/-- What an answer of true needs. -/
structure Proper (calls : List AuthorizeCall) (invalidations : List Invalidation) (a : Answer) :
    Prop where
  rests : Rests calls invalidations a.lease a.answered
  unretired : ∀ i ∈ invalidations, i.lease = a.lease → i.retires = true → a.resolved < i.time

/-- No answer of true is stale, the calls are bounded, and the map has the leases in use. -/
structure Guarded (s : State) : Prop where
  answers : ∀ a ∈ s.answers, a.value = true → Proper s.calls s.invalidations a
  oneCall : ∀ f g, (s.flight f).phase = .waiting → (s.flight g).phase = .waiting →
    (s.flight f).lease = (s.flight g).lease → f = g
  twoCalls : ∀ f, callsOf s.calls f + (if (s.flight f).phase = .waiting then 1 else 0) ≤
    MAX_AUTHORIZATION_CHECKS_PER_FLIGHT
  map : ∀ key l, s.leases key = some l ↔ l < s.count ∧ (s.lease l).key = key ∧ 0 < (s.lease l).refs

/-- A check does not find a flight whose function returned true before the lease's last event,
and a retirement finds no flight that has returned true and is not resolved. -/
def Prompt (s : State) : Step → Prop
  | .check h _ _ => ∀ handle ∈ s.handles[h]?, ∀ f ∈ (s.lease handle.lease).inFlight,
      (s.flight f).phase = .returned true →
        ∀ i ∈ s.invalidations, i.lease = handle.lease → i.time < (s.flight f).returned
  | .retire _ _ l => ∀ f < s.flights, (s.flight f).lease = l →
      (s.flight f).phase ≠ .returned true ∧ (s.flight f).phase ≠ .cleared true
  | _ => True

instance (s : State) : (a : Step) → Decidable (Prompt s a)
  | .check h _ _ => inferInstanceAs (Decidable (∀ handle ∈ s.handles[h]?, ∀ f ∈
      (s.lease handle.lease).inFlight, (s.flight f).phase = .returned true →
        ∀ i ∈ s.invalidations, i.lease = handle.lease → i.time < (s.flight f).returned))
  | .retire _ _ l => inferInstanceAs (Decidable (∀ f < s.flights, (s.flight f).lease = l →
      (s.flight f).phase ≠ .returned true ∧ (s.flight f).phase ≠ .cleared true))
  | .acquire .. | .release .. | .invalidate .. | .settle .. | .resume .. | .clear .. |
    .resolve .. => inferInstanceAs (Decidable True)

/-! ## The invariant -/

/-- `inFlight` may be a flight in this phase. -/
def FlightPhase.flying : FlightPhase → Bool
  | .waiting | .settled _ | .returned _ => true
  | .cleared _ | .resolved => false

/-- A call of the flight that no invalidation has overtaken while the generations agree. -/
def Current (invalidations : List Invalidation) (flight : Flight)
    (lease : SharedAuthorizationLease) : Prop :=
  flight.checkedGeneration ≤ lease.invalidationGeneration ∧
    (flight.checkedGeneration = lease.invalidationGeneration →
      ∀ i ∈ invalidations, i.lease = flight.lease → i.time < flight.started)

/-- What a flight that returned true is worth. -/
def Proven (calls : List AuthorizeCall) (invalidations : List Invalidation) (flight : Flight)
    (lease : SharedAuthorizationLease) : Prop :=
  lease.credentialRetired = false ∧ Rests calls invalidations flight.lease flight.returned ∧
    ∀ t ∈ flight.joined, Rests calls invalidations flight.lease (max t flight.returned)

def FlightSound (calls : List AuthorizeCall) (invalidations : List Invalidation) (f : Nat)
    (flight : Flight) (lease : SharedAuthorizationLease) : Prop :=
  match flight.phase with
  | .waiting => lease.inFlight = some f ∧ Current invalidations flight lease ∧
      flight.attempt < 2 ∧ callsOf calls f = flight.attempt
  | .settled outcome => lease.inFlight = some f ∧ Current invalidations flight lease ∧
      flight.attempt < 2 ∧ callsOf calls f = flight.attempt + 1 ∧
      ∃ call ∈ calls, call.lease = flight.lease ∧ call.started = flight.started ∧
        call.outcome = outcome
  | .returned value => lease.inFlight = some f ∧ callsOf calls f ≤ 2 ∧
      (value = true → Proven calls invalidations flight lease)
  | .cleared value => callsOf calls f ≤ 2 ∧
      (value = true → Proven calls invalidations flight lease)
  | .resolved => callsOf calls f ≤ 2

structure LeaseSound (calls : List AuthorizeCall) (invalidations : List Invalidation)
    (clock l : Nat) (lease : SharedAuthorizationLease) : Prop where
  cached : lease.invalidated = false → lease.allowed = true → Fresh calls invalidations l clock
  retired : (∃ i ∈ invalidations, i.lease = l ∧ i.retires = true) → lease.credentialRetired = true
  blocked : lease.credentialRetired = true → lease.invalidated = true

/-- What has happened lies behind the clock. -/
structure Past (s : State) : Prop where
  invalidations : ∀ i ∈ s.invalidations, i.time < s.clock ∧ i.lease < s.count
  calls : ∀ c ∈ s.calls, c.started ≤ c.settled ∧ c.settled ≤ s.clock
  answers : ∀ a ∈ s.answers, a.answered ≤ s.clock ∧ a.resolved < s.clock
  flights : ∀ f, (s.flight f).started ≤ s.clock ∧ (s.flight f).returned ≤ s.clock ∧
    ∀ t ∈ (s.flight f).joined, t ≤ s.clock

structure Sound (s : State) : Prop where
  map : ∀ key l, s.leases key = some l ↔ l < s.count ∧ (s.lease l).key = key ∧ 0 < (s.lease l).refs
  handles : ∀ h ∈ s.handles, h.lease < s.count
  unborn : ∀ f, s.flights ≤ f → (s.flight f).phase = .resolved ∧ callsOf s.calls f = 0
  bounded : ∀ f, (s.flight f).phase ≠ .resolved → (s.flight f).lease < s.count
  underway : ∀ l f, (s.lease l).inFlight = some f →
    f < s.flights ∧ (s.flight f).lease = l ∧ (s.flight f).phase.flying = true
  flight : ∀ f, FlightSound s.calls s.invalidations f (s.flight f) (s.lease (s.flight f).lease)
  lease : ∀ l, LeaseSound s.calls s.invalidations s.clock l (s.lease l)
  past : Past s
  answers : ∀ a ∈ s.answers, a.value = true → Proper s.calls s.invalidations a

theorem initial_sound : Sound initial := by
  constructor
  case lease =>
    intro l
    constructor <;> simp [initial, noLease]
  case past => constructor <;> simp [initial]
  all_goals simp [initial, noLease, FlightSound, callsOf]

/-! ## Parts of steps -/

theorem Fresh.later (fresh : Fresh calls invalidations l time) (le : time ≤ time') :
    Fresh calls invalidations l time' := by
  obtain ⟨call, made, own, allowed, settled, ahead⟩ := fresh
  exact ⟨call, made, own, allowed, Nat.le_trans settled le, ahead⟩

theorem Fresh.more (fresh : Fresh calls invalidations l time) (more : List AuthorizeCall) :
    Fresh (calls ++ more) invalidations l time := by
  obtain ⟨call, made, rest⟩ := fresh
  exact ⟨call, List.mem_append_left more made, rest⟩

/-- A write of a lease that a flight does not look at. -/
structure Steady (lease lease' : SharedAuthorizationLease) : Prop where
  key : lease'.key = lease.key
  inFlight : lease'.inFlight = lease.inFlight
  retired : lease'.credentialRetired = lease.credentialRetired
  generation : lease'.invalidationGeneration = lease.invalidationGeneration

theorem FlightSound.steady (sound : FlightSound calls invalidations f flight lease)
    (steady : Steady lease lease') : FlightSound calls invalidations f flight lease' := by
  unfold FlightSound Current Proven at sound ⊢
  rw [steady.inFlight, steady.retired, steady.generation]
  exact sound

theorem callsOf_append (others : ∀ c ∈ more, c.flight ≠ f) :
    callsOf (calls ++ more) f = callsOf calls f := by
  have none : more.countP (fun call => call.flight = f) = 0 := by
    apply List.countP_eq_zero.mpr
    intro c made
    simpa using others c made
  simp only [callsOf, List.countP_append]
  omega

theorem Rests.more (rests : Rests calls invalidations l answered) (more : List AuthorizeCall) :
    Rests (calls ++ more) invalidations l answered := by
  obtain ⟨call, made, rest⟩ := rests
  exact ⟨call, List.mem_append_left more made, rest⟩

theorem Proven.more (proven : Proven calls invalidations flight lease)
    (more : List AuthorizeCall) : Proven (calls ++ more) invalidations flight lease :=
  ⟨proven.1, proven.2.1.more more, fun t joined => (proven.2.2 t joined).more more⟩

/-- The calls of other flights do not matter. -/
theorem FlightSound.more (sound : FlightSound calls invalidations f flight lease)
    {more : List AuthorizeCall} (others : ∀ c ∈ more, c.flight ≠ f) :
    FlightSound (calls ++ more) invalidations f flight lease := by
  unfold FlightSound at sound ⊢
  rw [callsOf_append others]
  cases stage : flight.phase with
  | waiting => simpa only [stage] using sound
  | settled outcome =>
    simp only [stage] at sound ⊢
    obtain ⟨flying, current, attempt, count, call, made, rest⟩ := sound
    exact ⟨flying, current, attempt, count, call, List.mem_append_left more made, rest⟩
  | returned value =>
    simp only [stage] at sound ⊢
    exact ⟨sound.1, sound.2.1, fun allowed => (sound.2.2 allowed).more more⟩
  | cleared value =>
    simp only [stage] at sound ⊢
    exact ⟨sound.1, fun allowed => (sound.2 allowed).more more⟩
  | resolved => simpa only [stage] using sound

/-- A flight that is not `inFlight` has left the lease. -/
theorem FlightSound.grounded (sound : FlightSound calls invalidations f flight lease)
    (grounded : lease.inFlight ≠ some f)
    (retired : lease'.credentialRetired = lease.credentialRetired) :
    FlightSound calls invalidations f flight lease' := by
  unfold FlightSound Proven at sound ⊢
  cases stage : flight.phase with
  | waiting | settled _ | returned _ =>
    simp only [stage] at sound
    exact absurd sound.1 grounded
  | cleared value =>
    simp only [stage] at sound ⊢
    rwa [retired]
  | resolved => simpa only [stage] using sound

theorem LeaseSound.more (sound : LeaseSound calls invalidations clock l lease)
    (more : List AuthorizeCall) : LeaseSound (calls ++ more) invalidations clock l lease :=
  ⟨fun valid allowed => (sound.cached valid allowed).more more, sound.retired, sound.blocked⟩

/-- A flight takes a step, and writes its lease. -/
theorem Sound.turn (sound : Sound s) (next : Flight) (lease' : SharedAuthorizationLease)
    (more : List AuthorizeCall) (reach : f < n) (grown : s.flights ≤ n)
    (origin : f < s.flights → (s.flight f).lease = l) (target : next.lease = l)
    (counted : l < s.count) (alone : ∀ g, (s.lease l).inFlight = some g → g = f)
    (key : lease'.key = (s.lease l).key) (refs : lease'.refs = (s.lease l).refs)
    (retired : lease'.credentialRetired = (s.lease l).credentialRetired)
    (flies : ∀ g, lease'.inFlight = some g → g = f ∧ next.phase.flying = true)
    (made : ∀ c ∈ more, c.flight = f ∧ c.started ≤ c.settled ∧ c.settled ≤ s.clock)
    (own : FlightSound (s.calls ++ more) s.invalidations f next lease')
    (leaseSound : LeaseSound (s.calls ++ more) s.invalidations s.clock l lease')
    (times : next.started ≤ s.clock ∧ next.returned ≤ s.clock ∧ ∀ t ∈ next.joined, t ≤ s.clock) :
    Sound { (s.setLease l lease').setFlight f next with flights := n, calls := s.calls ++ more } := by
  constructor
  case map =>
    intro key' m
    simp only [State.setFlight, State.setLease]
    rw [sound.map]
    by_cases here : m = l
    · subst here
      simp [key, refs]
    · simp [Function.update_of_ne here]
  case handles => exact sound.handles
  case unborn =>
    intro g beyond
    have other : g ≠ f := by
      rintro rfl
      exact absurd reach (Nat.not_lt.mpr beyond)
    have before := sound.unborn g (Nat.le_trans grown beyond)
    have others : ∀ c ∈ more, c.flight ≠ g := fun c member same => other (same ▸ (made c member).1)
    simp only [State.setFlight, Function.update_of_ne other]
    exact ⟨before.1, (callsOf_append others).trans before.2⟩
  case bounded =>
    intro g active
    by_cases here : g = f
    · subst here
      simpa [State.setFlight, State.setLease, target] using counted
    · simp only [State.setFlight, Function.update_of_ne here] at active ⊢
      exact sound.bounded g active
  case underway =>
    intro m g flying
    by_cases here : m = l
    · subst here
      simp only [State.setFlight, State.setLease, Function.update_self] at flying ⊢
      obtain ⟨rfl, up⟩ := flies g flying
      simpa [target] using ⟨reach, up⟩
    · simp only [State.setFlight, State.setLease, Function.update_of_ne here] at flying ⊢
      obtain ⟨born, owner, up⟩ := sound.underway m g flying
      have other : g ≠ f := by
        rintro rfl
        exact here (owner.symm.trans (origin born))
      rw [Function.update_of_ne other]
      exact ⟨Nat.lt_of_lt_of_le born grown, owner, up⟩
  case flight =>
    intro g
    by_cases here : g = f
    · subst here
      simpa [State.setFlight, State.setLease, target] using own
    · have others : ∀ c ∈ more, c.flight ≠ g := fun c member same => here (same ▸ (made c member).1)
      have before := (sound.flight g).more others
      simp only [State.setFlight, State.setLease, Function.update_of_ne here]
      by_cases shared : (s.flight g).lease = l
      · rw [shared] at before ⊢
        rw [Function.update_self]
        exact before.grounded (fun flying => here (alone g flying)) retired
      · rwa [Function.update_of_ne shared]
  case lease =>
    intro m
    simp only [State.setFlight, State.setLease]
    by_cases here : m = l
    · subst here
      simpa using leaseSound
    · rw [Function.update_of_ne here]
      exact (sound.lease m).more more
  case past =>
    have before := sound.past
    constructor
    · exact before.invalidations
    · intro c member
      rcases List.mem_append.mp member with old | new
      · exact before.calls c old
      · exact (made c new).2
    · exact before.answers
    · intro g
      by_cases here : g = f
      · subst here
        simpa [State.setFlight, State.setLease] using times
      · simpa [State.setFlight, State.setLease, Function.update_of_ne here] using before.flights g
  case answers =>
    intro a given allowed
    have proper := sound.answers a given allowed
    exact ⟨proper.rests.more more, proper.unretired⟩

/-- Connections come and go. -/
theorem Sound.hold (sound : Sound s) (steady : Steady (s.lease l) lease')
    (leaseSound : LeaseSound s.calls s.invalidations s.clock l lease')
    (handles : ∀ h ∈ handles', h.lease < s.count)
    (map : ∀ key m, leases' key = some m ↔ m < s.count ∧
      (Function.update s.lease l lease' m).key = key ∧ 0 < (Function.update s.lease l lease' m).refs) :
    Sound { s.setLease l lease' with handles := handles', leases := leases' } := by
  constructor
  case map => exact map
  case handles => exact handles
  case unborn => exact sound.unborn
  case bounded => exact sound.bounded
  case underway =>
    intro m f flying
    by_cases here : m = l
    · subst here
      simp only [State.setLease, Function.update_self, steady.inFlight] at flying
      exact sound.underway m f flying
    · simp only [State.setLease, Function.update_of_ne here] at flying
      exact sound.underway m f flying
  case flight =>
    intro f
    have own := sound.flight f
    by_cases here : (s.flight f).lease = l
    · subst here
      simpa [State.setLease] using own.steady steady
    · simpa [State.setLease, Function.update_of_ne here] using own
  case lease =>
    intro m
    by_cases here : m = l
    · subst here
      simpa [State.setLease] using leaseSound
    · simpa [State.setLease, Function.update_of_ne here] using sound.lease m
  case past => exact ⟨sound.past.invalidations, sound.past.calls, sound.past.answers, sound.past.flights⟩
  case answers => exact sound.answers

theorem Sound.born (sound : Sound s) (active : (s.flight f).phase ≠ .resolved) : f < s.flights := by
  by_contra beyond
  exact active (sound.unborn f (Nat.not_lt.mp beyond)).1

theorem Fresh.rests (fresh : Fresh calls invalidations l answered)
    (past : ∀ c ∈ calls, c.started ≤ c.settled) : Rests calls invalidations l answered := by
  obtain ⟨call, made, own, allowed, settled, ahead⟩ := fresh
  refine ⟨call, made, own, allowed, settled, fun i applied same => ?_⟩
  have before := ahead i applied same
  have order := past call made
  omega

/-- No event has retired a lease that is not retired. -/
theorem LeaseSound.unretired (sound : LeaseSound calls invalidations clock l lease)
    (active : lease.credentialRetired = false) :
    ∀ i ∈ invalidations, i.lease = l → i.retires ≠ true := by
  intro i applied own retires
  have retired := sound.retired ⟨i, applied, own, retires⟩
  rw [active] at retired
  cases retired

theorem Past.later (past : Past s) : Past { s with clock := s.clock + 1 } := by
  constructor
  · exact fun i applied => ⟨Nat.lt_succ_of_lt (past.invalidations i applied).1,
      (past.invalidations i applied).2⟩
  · exact fun c made => ⟨(past.calls c made).1, Nat.le_succ_of_le (past.calls c made).2⟩
  · exact fun a given => ⟨Nat.le_succ_of_le (past.answers a given).1,
      Nat.lt_succ_of_lt (past.answers a given).2⟩
  · intro f
    obtain ⟨started, returned, joined⟩ := past.flights f
    exact ⟨Nat.le_succ_of_le started, Nat.le_succ_of_le returned,
      fun t member => Nat.le_succ_of_le (joined t member)⟩

section

variable (sound : Sound s)
include sound

/-- New answers, of which those of true are proper. -/
theorem Sound.answer (more : List Answer)
    (past : ∀ a ∈ more, a.answered ≤ s.clock ∧ a.resolved ≤ s.clock)
    (proper : ∀ a ∈ more, a.value = true → Proper s.calls s.invalidations a) :
    Sound { s with clock := s.clock + 1, answers := s.answers ++ more } where
  map := sound.map
  handles := sound.handles
  unborn := sound.unborn
  bounded := sound.bounded
  underway := sound.underway
  flight := sound.flight
  lease l := ⟨fun valid allowed => ((sound.lease l).cached valid allowed).later (Nat.le_succ _),
    (sound.lease l).retired, (sound.lease l).blocked⟩
  past := by
    have before := sound.past.later
    refine ⟨before.invalidations, before.calls, fun a given => ?_, before.flights⟩
    rcases List.mem_append.mp given with old | new
    · exact before.answers a old
    · exact ⟨Nat.le_succ_of_le (past a new).1, Nat.lt_succ_of_le (past a new).2⟩
  answers a given true' := by
    rcases List.mem_append.mp given with old | new
    · exact sound.answers a old true'
    · exact proper a new true'

/-- The clock goes on. -/
theorem Sound.tick : Sound { s with clock := s.clock + 1 } := by
  have same := sound.answer [] (by simp) (by simp)
  rwa [List.append_nil] at same

theorem Sound.flying (stage : (s.flight f).phase.flying = true) :
    (s.lease (s.flight f).lease).inFlight = some f := by
  have own := sound.flight f
  unfold FlightSound at own
  cases phase : (s.flight f).phase <;> simp only [phase] at own stage
  case waiting | settled | returned => exact own.1
  all_goals cases stage

/-- A flight in the air takes a step and stays in the air. -/
theorem Sound.fly (next : Flight) (more : List AuthorizeCall)
    (stage : (s.flight f).phase.flying = true) (target : next.lease = (s.flight f).lease)
    (up : next.phase.flying = true)
    (made : ∀ c ∈ more, c.flight = f ∧ c.started ≤ c.settled ∧ c.settled ≤ s.clock)
    (own : FlightSound (s.calls ++ more) s.invalidations f next (s.lease (s.flight f).lease))
    (times : next.started ≤ s.clock ∧ next.returned ≤ s.clock ∧ ∀ t ∈ next.joined, t ≤ s.clock) :
    Sound { s.setFlight f next with calls := s.calls ++ more } := by
  have active : (s.flight f).phase ≠ .resolved := by
    intro resolved
    rw [resolved] at stage
    cases stage
  have alone : ∀ g, (s.lease (s.flight f).lease).inFlight = some g → g = f := fun g flying =>
    Option.some.inj (flying.symm.trans (sound.flying stage))
  have turned := sound.turn next _ more (sound.born active) (Nat.le_refl _) (fun _ => rfl) target
    (sound.bounded f active) alone rfl rfl rfl (fun g flying => ⟨alone g flying, up⟩) made own
    ((sound.lease _).more more) times
  rw [State.setLease, Function.update_eq_self] at turned
  exact turned

theorem Sound.launch (counted : l < s.count) (grounded : (s.lease l).inFlight = none) :
    Sound (s.launch l) := by
  have turned := sound.turn
    ⟨l, 0, (s.lease l).invalidationGeneration, .waiting, s.clock, 0, [s.clock]⟩
    { s.lease l with inFlight := some s.flights } [] (Nat.lt_succ_self s.flights) (Nat.le_succ _)
    (fun born => absurd born (Nat.lt_irrefl _)) rfl counted
    (by simp [grounded]) rfl rfl rfl
    (by
      intro g flying
      exact ⟨(Option.some.inj flying).symm, rfl⟩)
    (by simp)
    (by
      refine ⟨rfl, ⟨Nat.le_refl _, fun _ i applied _ => (sound.past.invalidations i applied).1⟩,
        by simp, ?_⟩
      rw [List.append_nil]
      exact (sound.unborn s.flights (Nat.le_refl _)).2)
    (by
      rw [List.append_nil]
      exact ⟨(sound.lease l).cached, (sound.lease l).retired, (sound.lease l).blocked⟩)
    (by simp)
  rw [List.append_nil] at turned
  exact turned

/-- A call joins, unless an event has overtaken what the flight returned. -/
theorem Sound.join (stage : (s.flight f).phase.flying = true)
    (prompt : (s.flight f).phase = .returned true → ∀ i ∈ s.invalidations, i.lease = (s.flight f).lease → i.time < (s.flight f).returned) :
    Sound (s.join f) := by
  have times := sound.past.flights f
  have flown := sound.fly { s.flight f with joined := (s.flight f).joined ++ [s.clock] } [] stage rfl stage (by simp)
    (by
      have own := sound.flight f
      rw [List.append_nil]
      unfold FlightSound at own ⊢
      cases phase : (s.flight f).phase with
      | returned value =>
        simp only [phase] at own ⊢
        refine ⟨own.1, own.2.1, fun allowed => ?_⟩
        obtain ⟨active, rests, earlier⟩ := own.2.2 allowed
        refine ⟨active, rests, fun t member => ?_⟩
        rcases List.mem_append.mp member with old | new
        · exact earlier t old
        · obtain rfl := List.mem_singleton.mp new
          obtain ⟨call, made, owner, outcome, settled, ahead⟩ := rests
          refine ⟨call, made, owner, outcome, ?_, fun i applied same => ?_⟩
          · exact Nat.le_trans settled (Nat.le_max_right _ _)
          · have overtaken := prompt (by rw [phase, allowed]) i applied same
            have before := ahead i applied same
            omega
      | cleared value =>
        rw [phase] at stage
        cases stage
      | waiting | settled _ | resolved =>
        simp only [phase] at own ⊢
        exact own)
    (by
      refine ⟨times.1, times.2.1, fun t member => ?_⟩
      rcases List.mem_append.mp member with old | new
      · exact times.2.2 t old
      · exact Nat.le_of_eq (List.mem_singleton.mp new))
  rw [List.append_nil] at flown
  exact flown

theorem Sound.settle (waiting : (s.flight f).phase = .waiting) (outcome : Option Bool) :
    Sound (s.settle f outcome) := by
  have times := sound.past.flights f
  have own := sound.flight f
  simp only [FlightSound, waiting] at own
  obtain ⟨flying, current, attempt, count⟩ := own
  refine sound.fly _ _ (by rw [waiting]; rfl) rfl rfl ?_ ?_ times
  · intro c member
    obtain rfl := List.mem_singleton.mp member
    exact ⟨rfl, times.1, Nat.le_refl _⟩
  · refine ⟨flying, current, attempt, ?_, _, List.mem_append_right _ (List.mem_singleton_self _),
      rfl, rfl, rfl⟩
    simp only [callsOf] at count ⊢
    simp [count]

end

theorem FlightSound.calls_le (sound : FlightSound calls invalidations f flight lease) :
    callsOf calls f ≤ 2 := by
  unfold FlightSound at sound
  cases phase : flight.phase <;> simp only [phase] at sound <;> omega

section

variable (sound : Sound s)
include sound

/-- The function of a flight returns, and what it wrote to the lease before. -/
theorem Sound.returns (lease' : SharedAuthorizationLease) (value : Bool)
    (stage : (s.flight f).phase = .settled outcome)
    (key : lease'.key = (s.lease (s.flight f).lease).key)
    (refs : lease'.refs = (s.lease (s.flight f).lease).refs)
    (inFlight : lease'.inFlight = (s.lease (s.flight f).lease).inFlight)
    (retired : lease'.credentialRetired = (s.lease (s.flight f).lease).credentialRetired)
    (leaseSound : LeaseSound s.calls s.invalidations s.clock (s.flight f).lease lease')
    (fresh : value = true → lease'.credentialRetired = false ∧ Fresh s.calls s.invalidations (s.flight f).lease s.clock) :
    Sound ((s.setLease (s.flight f).lease lease').returns f value) := by
  have flying := sound.flying (f := f) (by rw [stage]; rfl)
  have active : (s.flight f).phase ≠ .resolved := by
    rw [stage]
    exact FlightPhase.noConfusion
  have alone : ∀ g, (s.lease (s.flight f).lease).inFlight = some g → g = f := fun g up =>
    Option.some.inj (up.symm.trans flying)
  have times := sound.past.flights f
  have turned := sound.turn
    { s.flight f with phase := .returned value, returned := s.clock } lease' []
    (sound.born active) (Nat.le_refl _) (fun _ => rfl) rfl (sound.bounded f active) alone key refs
    retired (fun g up => ⟨alone g (inFlight.symm.trans up), rfl⟩) (by simp)
    (by
      rw [List.append_nil]
      refine ⟨inFlight.trans flying, (sound.flight f).calls_le, fun allowed => ?_⟩
      obtain ⟨still, known⟩ := fresh allowed
      have rests := known.rests fun c made => (sound.past.calls c made).1
      refine ⟨still, rests, fun t joined => ?_⟩
      have earlier := times.2.2 t joined
      rwa [Nat.max_eq_right earlier])
    (by rwa [List.append_nil])
    ⟨times.1, Nat.le_refl _, times.2.2⟩
  rw [List.append_nil] at turned
  exact turned

theorem Sound.retry (stage : (s.flight f).phase = .settled outcome) : Sound (s.retry f) := by
  have times := sound.past.flights f
  have own := sound.flight f
  simp only [FlightSound, stage] at own
  obtain ⟨flying, current, attempt, count, -⟩ := own
  unfold State.retry
  by_cases again : (s.flight f).attempt + 1 < MAX_AUTHORIZATION_CHECKS_PER_FLIGHT
  · rw [if_pos again]
    have flown := sound.fly (f := f)
      { s.flight f with
        attempt := (s.flight f).attempt + 1
        checkedGeneration := (s.lease (s.flight f).lease).invalidationGeneration
        phase := .waiting
        started := s.clock }
      [] (by rw [stage]; rfl) rfl rfl (by simp)
      (by
        rw [List.append_nil]
        refine ⟨flying, ⟨Nat.le_refl _, fun _ i applied _ => ?_⟩, again, count⟩
        exact (sound.past.invalidations i applied).1)
      ⟨Nat.le_refl _, times.2.1, times.2.2⟩
    rw [List.append_nil] at flown
    exact flown
  · rw [if_neg again]
    have returned := sound.returns (f := f) _ false stage rfl rfl rfl rfl (sound.lease _) (by simp)
    rw [State.setLease, Function.update_eq_self] at returned
    exact returned

theorem Sound.resume (stage : (s.flight f).phase = .settled outcome) (now : Int) :
    Sound (s.resume f outcome now) := by
  have own := sound.flight f
  simp only [FlightSound, stage] at own
  obtain ⟨flying, current, attempt, count, call, made, owner, started, result⟩ := own
  have settled := (sound.past.calls call made).2
  have lease := sound.lease (s.flight f).lease
  have same : ∀ value, value = false → Sound (s.returns f value) := by
    rintro value rfl
    have returned := sound.returns (f := f) _ false stage rfl rfl rfl rfl lease (by simp)
    rw [State.setLease, Function.update_eq_self] at returned
    exact returned
  unfold State.resume
  cases outcome with
  | none =>
    refine sound.returns _ _ stage rfl rfl rfl rfl ?_ (by simp)
    exact ⟨by simp, lease.retired, fun _ => rfl⟩
  | some allowed =>
    simp only
    split
    · exact same false rfl
    · next active =>
      split
      · exact sound.retry stage
      · next agreed =>
        have ahead := current.2 (not_ne_iff.mp agreed)
        have fresh : allowed = true → Fresh s.calls s.invalidations (s.flight f).lease s.clock := by
          rintro rfl
          exact ⟨call, made, owner, result, settled, fun i applied same => started ▸ ahead i applied same⟩
        refine sound.returns _ _ stage rfl rfl rfl rfl ?_ (fun granted => ⟨by simpa using active, fresh granted⟩)
        exact ⟨fun _ granted => fresh granted, lease.retired, fun retired => absurd retired active⟩

theorem Sound.clear (stage : (s.flight f).phase = .returned value) : Sound (s.clear f value) := by
  have flying := sound.flying (f := f) (by rw [stage]; rfl)
  have own := sound.flight f
  simp only [FlightSound, stage] at own
  have active : (s.flight f).phase ≠ .resolved := by
    rw [stage]
    exact FlightPhase.noConfusion
  have lease := sound.lease (s.flight f).lease
  have turned := sound.turn (f := f) { s.flight f with phase := .cleared value }
    { s.lease (s.flight f).lease with inFlight := none } []
    (sound.born active) (Nat.le_refl _) (fun _ => rfl) rfl (sound.bounded f active)
    (fun g up => Option.some.inj (up.symm.trans flying)) rfl rfl rfl (by simp) (by simp)
    (by
      rw [List.append_nil]
      exact own.2)
    (by
      rw [List.append_nil]
      exact ⟨lease.cached, lease.retired, lease.blocked⟩)
    (sound.past.flights f)
  rw [List.append_nil] at turned
  simp only [State.clear, if_pos flying]
  exact turned

/-- The checks that joined a flight get what it returned. -/
theorem Sound.resolve (stage : (s.flight f).phase = .cleared value) :
    Sound { s.resolve f value with clock := s.clock + 1 } := by
  have own := sound.flight f
  simp only [FlightSound, stage] at own
  obtain ⟨count, proven⟩ := own
  have times := sound.past.flights f
  have active : (s.flight f).phase ≠ .resolved := by
    rw [stage]
    exact FlightPhase.noConfusion
  have grounded : ∀ g, (s.lease (s.flight f).lease).inFlight = some g → g ≠ f := by
    rintro g up rfl
    have flying := (sound.underway _ _ up).2.2
    rw [stage] at flying
    cases flying
  have landed : Sound (s.setFlight f { s.flight f with phase := .resolved }) := by
    constructor
    case map => exact sound.map
    case handles => exact sound.handles
    case unborn =>
      intro g beyond
      have other : g ≠ f := by
        rintro rfl
        exact active (sound.unborn g beyond).1
      simpa only [State.setFlight, Function.update_of_ne other] using sound.unborn g beyond
    case bounded =>
      intro g
      by_cases here : g = f
      · subst here
        simp [State.setFlight]
      · simpa only [State.setFlight, Function.update_of_ne here] using sound.bounded g
    case underway =>
      intro l g up
      have before := sound.underway l g up
      have other : g ≠ f := by
        rintro rfl
        exact grounded g (before.2.1 ▸ up) rfl
      simpa only [State.setFlight, Function.update_of_ne other] using before
    case flight =>
      intro g
      by_cases here : g = f
      · subst here
        simpa [State.setFlight, FlightSound] using count
      · simpa only [State.setFlight, Function.update_of_ne here] using sound.flight g
    case lease => exact sound.lease
    case past =>
      refine ⟨sound.past.invalidations, sound.past.calls, sound.past.answers, fun g => ?_⟩
      by_cases here : g = f
      · subst here
        simpa [State.setFlight] using times
      · simpa only [State.setFlight, Function.update_of_ne here] using sound.past.flights g
    case answers => exact sound.answers
  apply landed.answer _
  · intro a given
    obtain ⟨t, joined, rfl⟩ := List.mem_map.mp given
    exact ⟨Nat.max_le.mpr ⟨times.2.2 t joined, times.2.1⟩, Nat.le_refl _⟩
  · intro a given allowed
    obtain ⟨t, joined, rfl⟩ := List.mem_map.mp given
    obtain ⟨still, -, earlier⟩ := proven allowed
    constructor
    · exact earlier t joined
    · intro i applied same retires
      exact absurd retires ((sound.lease _).unretired still i applied same)

/-- A check that does not wait. -/
theorem Sound.answered
    (fresh : value = true → (s.lease l).credentialRetired = false ∧ Fresh s.calls s.invalidations l s.clock) :
    Sound { s.answer l value with clock := s.clock + 1 } := by
  apply sound.answer _
  · intro a given
    obtain rfl := List.mem_singleton.mp given
    exact ⟨Nat.le_refl _, Nat.le_refl _⟩
  · intro a given allowed
    obtain rfl := List.mem_singleton.mp given
    obtain ⟨still, known⟩ := fresh allowed
    constructor
    · exact known.rests fun c made => (sound.past.calls c made).1
    · intro i applied same retires
      exact absurd retires ((sound.lease l).unretired still i applied same)

theorem Sound.check (counted : l < s.count)
    (prompt : ∀ f ∈ (s.lease l).inFlight, (s.flight f).phase = .returned true → ∀ i ∈ s.invalidations, i.lease = l → i.time < (s.flight f).returned)
    (force : Bool) (now : Int) : Sound { s.check l force now with clock := s.clock + 1 } := by
  unfold State.check
  by_cases retired : (s.lease l).credentialRetired = true
  · simp only [retired]
    exact sound.answered (by simp)
  · simp only [retired, if_false, Bool.false_eq_true]
    split
    · next cached =>
      refine sound.answered fun allowed => ⟨by simpa using retired, ?_⟩
      simp only [Bool.and_eq_true, Bool.not_eq_true'] at cached
      exact (sound.lease l).cached cached.1.2 allowed
    · cases up : (s.lease l).inFlight with
      | none => exact (sound.launch counted up).tick
      | some f =>
        obtain ⟨-, owner, stage⟩ := sound.underway l f up
        refine (sound.join stage fun returned i applied same => ?_).tick
        exact prompt f up returned i applied (same.trans owner)

end

/-- An event after the answers so far does not touch what they rest on. -/
theorem Rests.overtaken (rests : Rests calls invalidations l answered) (before : answered ≤ i.time)
    (past : ∀ c ∈ calls, c.settled ≤ i.time) : Rests calls (invalidations ++ [i]) l answered := by
  obtain ⟨call, made, own, allowed, settled, ahead⟩ := rests
  refine ⟨call, made, own, allowed, settled, fun event applied same => ?_⟩
  rcases List.mem_append.mp applied with old | new
  · exact ahead event old same
  · obtain rfl := List.mem_singleton.mp new
    omega

theorem Fresh.elsewhere (fresh : Fresh calls invalidations l time) (other : i.lease ≠ l) :
    Fresh calls (invalidations ++ [i]) l time := by
  obtain ⟨call, made, own, allowed, settled, ahead⟩ := fresh
  refine ⟨call, made, own, allowed, settled, fun event applied same => ?_⟩
  rcases List.mem_append.mp applied with old | new
  · exact ahead event old same
  · obtain rfl := List.mem_singleton.mp new
    exact absurd same other

/-- What an event leaves of a flight of its lease; `i` is the event. -/
theorem FlightSound.overtaken (sound : FlightSound calls invalidations f flight lease)
    (past : ∀ c ∈ calls, c.settled ≤ i.time)
    (times : flight.returned ≤ i.time ∧ ∀ t ∈ flight.joined, t ≤ i.time)
    (inFlight : lease'.inFlight = lease.inFlight)
    (generation : i.lease = flight.lease →
      lease'.invalidationGeneration = lease.invalidationGeneration + 1)
    (steady : i.lease ≠ flight.lease → lease' = lease)
    (retired : flight.phase = .returned true ∨ flight.phase = .cleared true →
      lease'.credentialRetired = lease.credentialRetired) :
    FlightSound calls (invalidations ++ [i]) f flight lease' := by
  have current : Current invalidations flight lease →
      Current (invalidations ++ [i]) flight lease' := by
    rintro ⟨le, ahead⟩
    by_cases own : i.lease = flight.lease
    · have next := generation own
      exact ⟨by omega, fun same => by omega⟩
    · rw [steady own]
      refine ⟨le, fun agreed event applied same => ?_⟩
      rcases List.mem_append.mp applied with old | new
      · exact ahead agreed event old same
      · obtain rfl := List.mem_singleton.mp new
        exact absurd same own
  have proven : lease'.credentialRetired = lease.credentialRetired →
      Proven calls invalidations flight lease →
      Proven calls (invalidations ++ [i]) flight lease' := by
    rintro same ⟨still, rests, earlier⟩
    refine ⟨same.trans still, rests.overtaken times.1 past, fun t joined => ?_⟩
    exact (earlier t joined).overtaken (Nat.max_le.mpr ⟨times.2 t joined, times.1⟩) past
  unfold FlightSound at sound ⊢
  cases phase : flight.phase with
  | waiting | settled _ =>
    simp only [phase] at sound ⊢
    exact ⟨inFlight.trans sound.1, current sound.2.1, sound.2.2⟩
  | returned value =>
    simp only [phase] at sound retired ⊢
    refine ⟨inFlight.trans sound.1, sound.2.1, ?_⟩
    rintro rfl
    exact proven (retired (.inl rfl)) (sound.2.2 rfl)
  | cleared value =>
    simp only [phase] at sound retired ⊢
    refine ⟨sound.1, ?_⟩
    rintro rfl
    exact proven (retired (.inr rfl)) (sound.2 rfl)
  | resolved => simpa only [phase] using sound

theorem Sound.invalidate (sound : Sound s) (counted : l < s.count)
    (prompt : retires = true → ∀ f < s.flights, (s.flight f).lease = l →
      (s.flight f).phase ≠ .returned true ∧ (s.flight f).phase ≠ .cleared true) :
    Sound { s.invalidate l retires with clock := s.clock + 1 } := by
  have past := sound.past
  have elsewhere : ∀ {m}, m ≠ l → Function.update s.lease l
      { s.lease l with
        credentialRetired := (s.lease l).credentialRetired || retires
        invalidated := true
        invalidationGeneration := (s.lease l).invalidationGeneration + 1 } m = s.lease m :=
    fun other => Function.update_of_ne other _ _
  constructor
  case map =>
    intro key m
    simp only [State.invalidate, State.setLease]
    rw [sound.map]
    by_cases here : m = l
    · subst here
      simp
    · rw [elsewhere here]
  case handles => exact sound.handles
  case unborn => exact sound.unborn
  case bounded => exact sound.bounded
  case underway =>
    intro m f up
    apply sound.underway m f
    by_cases here : m = l
    · subst here
      simpa [State.invalidate, State.setLease] using up
    · simpa only [State.invalidate, State.setLease, elsewhere here] using up
  case flight =>
    intro f
    simp only [State.invalidate, State.setLease]
    by_cases here : (s.flight f).lease = l
    · rw [here, Function.update_self]
      have before := here ▸ sound.flight f
      refine before.overtaken (fun c made => (past.calls c made).2) (past.flights f).2 rfl (fun _ => rfl)
        (fun other => absurd here.symm other) fun proven => ?_
      cases retires with
      | false => simp
      | true =>
        have born : f < s.flights := by
          apply sound.born
          rcases proven with stage | stage <;> rw [stage] <;> exact FlightPhase.noConfusion
        have unresolved := prompt rfl f born here
        rcases proven with stage | stage
        · exact absurd stage unresolved.1
        · exact absurd stage unresolved.2
    · rw [elsewhere here]
      exact (sound.flight f).overtaken (fun c made => (past.calls c made).2) (past.flights f).2 rfl
        (fun own => absurd own.symm here) (fun _ => rfl) fun _ => rfl
  case lease =>
    intro m
    simp only [State.invalidate, State.setLease]
    by_cases here : m = l
    · subst here
      rw [Function.update_self]
      refine ⟨by simp, ?_, fun _ => rfl⟩
      rintro ⟨i, applied, own, kind⟩
      rw [Bool.or_eq_true]
      rcases List.mem_append.mp applied with old | new
      · exact .inl ((sound.lease m).retired ⟨i, old, own, kind⟩)
      · obtain rfl := List.mem_singleton.mp new
        exact .inr kind
    · rw [elsewhere here]
      have before := sound.lease m
      refine ⟨fun valid allowed => ?_, ?_, before.blocked⟩
      · exact ((before.cached valid allowed).later (Nat.le_succ _)).elsewhere (Ne.symm here)
      · rintro ⟨i, applied, own, kind⟩
        rcases List.mem_append.mp applied with old | new
        · exact before.retired ⟨i, old, own, kind⟩
        · obtain rfl := List.mem_singleton.mp new
          exact absurd own.symm here
  case past =>
    refine ⟨fun i applied => ?_, past.later.calls, past.later.answers, past.later.flights⟩
    rcases List.mem_append.mp applied with old | new
    · exact past.later.invalidations i old
    · obtain rfl := List.mem_singleton.mp new
      exact ⟨Nat.lt_succ_self _, counted⟩
  case answers =>
    intro a given allowed
    have proper := sound.answers a given allowed
    constructor
    · exact proper.rests.overtaken (past.answers a given).1 fun c made => (past.calls c made).2
    · intro i applied own kind
      rcases List.mem_append.mp applied with old | new
      · exact proper.unretired i old own kind
      · obtain rfl := List.mem_singleton.mp new
        exact (past.answers a given).2

theorem mem_handles {s : State} (handles : ∀ h ∈ s.handles, h.lease < s.count)
    (counted : l < s.count) : ∀ h ∈ s.handles ++ [⟨l, false⟩], h.lease < s.count := by
  intro h member
  rcases List.mem_append.mp member with old | new
  · exact handles h old
  · obtain rfl := List.mem_singleton.mp new
    exact counted

/-- A lease that nothing has used yet. -/
theorem Sound.create (sound : Sound s) (new : made.key = key ∧ made.refs = 1)
    (closed : made.invalidated = true) (grounded : made.inFlight = none)
    (free : s.leases key = none) :
    Sound { s.setLease s.count made with
      leases := Function.update s.leases key (some s.count)
      count := s.count + 1
      handles := s.handles ++ [⟨s.count, false⟩] } := by
  have past := sound.past
  constructor
  case map =>
    intro key' m
    simp only [State.setLease]
    by_cases here : key' = key
    · subst here
      rw [Function.update_self]
      constructor
      · intro same
        obtain rfl := Option.some.inj same
        simp [new]
      · rintro ⟨counted, own, used⟩
        by_cases fresh : m = s.count
        · rw [fresh]
        · rw [Function.update_of_ne fresh] at own used
          have mapped := (sound.map key' m).mpr ⟨by omega, own, used⟩
          rw [free] at mapped
          cases mapped
    · rw [Function.update_of_ne here, sound.map]
      by_cases fresh : m = s.count
      · subst fresh
        simp [new, Ne.symm here]
      · rw [Function.update_of_ne fresh]
        constructor
        · exact fun old => ⟨by omega, old.2⟩
        · exact fun old => ⟨by omega, old.2⟩
  case handles =>
    intro h member
    rcases List.mem_append.mp member with old | added
    · exact Nat.lt_succ_of_lt (sound.handles h old)
    · obtain rfl := List.mem_singleton.mp added
      exact Nat.lt_succ_self _
  case unborn => exact sound.unborn
  case bounded => exact fun f active => Nat.lt_succ_of_lt (sound.bounded f active)
  case underway =>
    intro m f up
    by_cases fresh : m = s.count
    · subst fresh
      simp [State.setLease, grounded] at up
    · simp only [State.setLease, Function.update_of_ne fresh] at up
      exact sound.underway m f up
  case flight =>
    intro f
    have own := sound.flight f
    simp only [State.setLease]
    by_cases fresh : (s.flight f).lease = s.count
    · have resolved : (s.flight f).phase = .resolved := by
        by_contra active
        exact absurd (sound.bounded f active) (by omega)
      simp only [FlightSound, resolved] at own ⊢
      exact own
    · rwa [Function.update_of_ne fresh]
  case lease =>
    intro m
    simp only [State.setLease]
    by_cases fresh : m = s.count
    · subst fresh
      rw [Function.update_self]
      refine ⟨by simp [closed], ?_, fun _ => closed⟩
      rintro ⟨i, applied, own, -⟩
      have known := (past.invalidations i applied).2
      omega
    · rw [Function.update_of_ne fresh]
      exact sound.lease m
  case past =>
    exact ⟨fun i applied => ⟨(past.invalidations i applied).1,
      Nat.lt_succ_of_lt (past.invalidations i applied).2⟩, past.calls, past.answers, past.flights⟩
  case answers => exact sound.answers

theorem LeaseSound.recount (sound : LeaseSound calls invalidations clock l lease) (refs : Nat) :
    LeaseSound calls invalidations clock l { lease with refs } :=
  ⟨sound.cached, sound.retired, sound.blocked⟩

theorem acquire_clock (s : State) (input : AcquireInput) (now : Int) :
    (s.acquire input now).clock = s.clock := by
  unfold State.acquire
  cases found : s.leases input.key <;> simp only [found, State.setLease]

theorem resume_clock (s : State) (f : Nat) (outcome : Option Bool) (now : Int) :
    (s.resume f outcome now).clock = s.clock := by
  unfold State.resume
  cases outcome with
  | none => rfl
  | some allowed =>
    simp only
    split
    · rfl
    · split
      · simp only [State.retry]
        split <;> rfl
      · rfl

theorem Sound.acquire (sound : Sound s) (input : AcquireInput) (now : Int) :
    Sound (s.acquire input now) := by
  unfold State.acquire
  cases found : s.leases input.key with
  | none =>
    simp only [found]
    exact sound.create ⟨rfl, rfl⟩ rfl rfl found
  | some l =>
    have counted := ((sound.map _ l).mp found).1
    simp only [found]
    refine sound.hold ⟨rfl, rfl, rfl, rfl⟩ ((sound.lease l).recount _)
      (mem_handles sound.handles counted) fun key m => ?_
    simp only [State.setLease]
    rw [sound.map]
    by_cases here : m = l
    · subst here
      have used := ((sound.map _ m).mp found).2.2
      simp [used]
    · rw [Function.update_of_ne here]

theorem Sound.release (sound : Sound s) (counted : l < s.count) (h : Nat) :
    Sound (s.release h l) := by
  refine sound.hold ⟨rfl, rfl, rfl, rfl⟩ ((sound.lease l).recount _) ?_ fun key m => ?_
  · intro handle member
    rcases List.mem_or_eq_of_mem_set member with old | new
    · exact sound.handles handle old
    · rw [new]
      exact counted
  · have before := sound.map
    by_cases last : (s.lease l).refs - 1 = 0 ∧ s.leases (s.lease l).key = some l
    · rw [if_pos last]
      by_cases own : key = (s.lease l).key
      · subst own
        constructor
        · simp
        · rintro ⟨below, same, used⟩
          by_cases here : m = l
          · subst here
            rw [Function.update_self] at used
            exact absurd last.1 (Nat.ne_of_gt used)
          · rw [Function.update_of_ne here] at same used
            have mapped := (before _ m).mpr ⟨below, same, used⟩
            exact absurd (Option.some.inj (mapped.symm.trans last.2)) here
      · rw [Function.update_of_ne own, before]
        by_cases here : m = l
        · subst here
          simp [Ne.symm own]
        · rw [Function.update_of_ne here]
    · rw [if_neg last, before]
      by_cases here : m = l
      · subst here
        by_cases own : key = (s.lease m).key
        · subst own
          have mapped := before (s.lease m).key m
          simp only [true_and] at mapped ⊢
          by_cases used : 0 < (s.lease m).refs
          · have more : 0 < (s.lease m).refs - 1 := by
              by_contra none
              exact last ⟨by omega, mapped.mpr ⟨counted, used⟩⟩
            simp [used, more]
          · simp only [Nat.not_lt, Nat.le_zero] at used
            simp [used]
        · simp [Ne.symm own]
      · rw [Function.update_of_ne here]

theorem Sound.guarded (sound : Sound s) : Guarded s := by
  constructor
  case answers => exact sound.answers
  case map => exact sound.map
  case oneCall =>
    intro f g here there shared
    have first := sound.flying (f := f) (by rw [here]; rfl)
    have second := sound.flying (f := g) (by rw [there]; rfl)
    rw [shared, second] at first
    exact (Option.some.inj first).symm
  case twoCalls =>
    intro f
    have own := sound.flight f
    have bound := own.calls_le
    split
    · next waiting =>
      simp only [FlightSound, waiting] at own
      simp only [MAX_AUTHORIZATION_CHECKS_PER_FLIGHT]
      omega
    · exact bound

/-! ## Steps and runs -/

theorem liveStep_sound (sound : Sound s) (prompt : Prompt s a) (ok : liveStep s a = .ok next) :
    Sound next := by
  unfold liveStep at ok
  cases moved : move s a with
  | error e =>
    rw [moved] at ok
    cases ok
  | ok t =>
    rw [moved] at ok
    cases ok
    cases a with
    | acquire input now =>
      cases moved
      have ticked := (sound.acquire input now).tick
      rwa [acquire_clock] at ticked
    | check h force now =>
      simp only [move] at moved
      cases found : s.handles[h]? with
      | none => simp [found] at moved
      | some handle =>
        simp only [found] at moved
        cases moved
        refine sound.check (sound.handles handle (List.mem_of_getElem? found)) ?_ force now
        exact prompt handle found
    | release h =>
      simp only [move] at moved
      split at moved
      · next found =>
        cases moved
        exact (sound.release (sound.handles _ (List.mem_of_getElem? found)) h).tick
      · cases moved
    | invalidate roomName login l =>
      simp only [move] at moved
      split at moved
      · next visited =>
        cases moved
        simp only [State.mapped, Bool.and_eq_true, decide_eq_true_eq] at visited
        exact sound.invalidate visited.1.1.1 Bool.noConfusion
      · cases moved
    | retire roomId fingerprints l =>
      simp only [move] at moved
      split at moved
      · next visited =>
        cases moved
        simp only [State.mapped, Bool.and_eq_true, decide_eq_true_eq] at visited
        exact sound.invalidate visited.1.1.1.1 fun _ => prompt
      · cases moved
    | settle f outcome =>
      simp only [move] at moved
      split at moved
      · next stage =>
        cases moved
        exact (sound.settle stage outcome).tick
      · cases moved
    | resume f now =>
      simp only [move] at moved
      split at moved
      · next stage =>
        cases moved
        have ticked := (sound.resume stage now).tick
        rwa [resume_clock] at ticked
      · cases moved
    | clear f =>
      simp only [move] at moved
      split at moved
      · next stage =>
        cases moved
        exact (sound.clear stage).tick
      · cases moved
    | resolve f =>
      simp only [move] at moved
      split at moved
      · next stage =>
        cases moved
        exact sound.resolve stage
      · cases moved

/-- Where no check overtakes an event and no retirement overtakes a flight, an answer of true
rests on a call that no event has overtaken. -/
theorem authorization_fresh (steps : List Step) (met : Replay.Meets liveStep Prompt initial steps) :
    Guarded (Replay.replay liveStep initial steps) := by
  have sound : Sound (Replay.replay liveStep initial steps) :=
    Replay.replay_preserves Prompt Sound (fun _ _ _ sound prompt ok => liveStep_sound sound prompt ok)
      met initial_sound
  exact sound.guarded

/-- A call that an event overtakes is made again, and its answer is kept until the next event. -/
def trailingCheck : List Step :=
  [.acquire ⟨"r", "k", "r", none, none, true⟩ 0, .check 0 false 0, .invalidate none none 0,
    .settle 0 (some true), .resume 0 1, .settle 0 (some true), .resume 0 2, .clear 0, .resolve 0,
    .check 0 false 3]

theorem authorization_fresh_trailing :
    Guarded (Replay.replay liveStep initial trailingCheck) :=
  authorization_fresh trailingCheck (by decide +kernel)

/-- A check joins a flight whose answer of true an event has overtaken. -/
def staleJoin : List Step :=
  [.acquire ⟨"r", "k", "r", none, none, true⟩ 0, .check 0 false 0, .settle 0 (some true),
    .resume 0 1, .invalidate none none 0, .check 0 false 2, .clear 0, .resolve 0]

theorem staleJoin_not_guarded : ¬Guarded (Replay.replay liveStep initial staleJoin) := by
  intro guarded
  have answers : (Replay.replay liveStep initial staleJoin).answers =
      [⟨0, 1, 3, 7, true⟩, ⟨0, 5, 5, 7, true⟩] := by decide +kernel
  have calls : (Replay.replay liveStep initial staleJoin).calls = [⟨0, 0, 1, 2, some true⟩] := by
    decide +kernel
  have events : (Replay.replay liveStep initial staleJoin).invalidations = [⟨0, 4, false⟩] := by
    decide +kernel
  have proper := guarded.answers ⟨0, 5, 5, 7, true⟩ (by simp [answers]) rfl
  rw [calls, events] at proper
  obtain ⟨call, made, -, -, -, ahead⟩ := proper.rests
  obtain rfl := List.mem_singleton.mp made
  have between := (ahead _ (List.mem_singleton_self _) rfl).2
  simp at between

end LetAgents.Rooms.LiveAuthorization

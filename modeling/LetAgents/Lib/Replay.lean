import Mathlib.Data.List.Induction
import Mathlib.Order.Basic

/-!
# Replaying a log through a fallible transition

A transition `step : σ → α → Except ε σ` accepts a value and produces the next
state, or rejects it and changes nothing. This is the shape of a database
transaction (committed or rolled back) and of a reducer that refuses invalid
events. `replay` runs a whole log, skipping what is rejected. The rules below
turn a statement about one accepted step into a statement about every log, and
about every pair of states where the second is reached from the first.

`Meets` restricts a log to the steps that satisfy a condition in the state they
are attempted from; a rule stated with it covers exactly those logs.
-/
namespace LetAgents.Lib.Replay

section Definitions

variable {σ α ε : Type*} (step : σ → α → Except ε σ)

/-- One attempted transition. A rejected value leaves the state alone. -/
def attempt (s : σ) (a : α) : σ :=
  match step s a with
  | .ok next => next
  | .error _ => s

def replay (s : σ) (log : List α) : σ :=
  log.foldl (attempt step) s

/-- Every step of the log meets the condition where it is attempted. -/
def Meets (condition : σ → α → Prop) : σ → List α → Prop
  | _, [] => True
  | s, a :: rest => condition s a ∧ Meets condition (attempt step s a) rest

instance decidableMeets (condition : σ → α → Prop) [∀ s a, Decidable (condition s a)] :
    (s : σ) → (log : List α) → Decidable (Meets step condition s log)
  | _, [] => .isTrue True.intro
  | s, a :: rest =>
    have : Decidable (Meets step condition (attempt step s a) rest) :=
      decidableMeets condition (attempt step s a) rest
    inferInstanceAs (Decidable (condition s a ∧ Meets step condition (attempt step s a) rest))

end Definitions

section Rules

variable {σ α ε : Type*} {step : σ → α → Except ε σ}

theorem attempt_of_ok (ok : step s a = .ok next) : attempt step s a = next := by
  simp only [attempt, ok]

theorem attempt_of_error (failure : step s a = .error e) : attempt step s a = s := by
  simp only [attempt, failure]

@[simp] theorem replay_nil (s : σ) : replay step s [] = s := rfl

@[simp] theorem replay_cons (s : σ) (a : α) (rest : List α) :
    replay step s (a :: rest) = replay step (attempt step s a) rest := rfl

theorem replay_append (s : σ) (earlier later : List α) :
    replay step s (earlier ++ later) = replay step (replay step s earlier) later := by
  simp only [replay, List.foldl_append]

theorem replay_concat (s : σ) (log : List α) (a : α) :
    replay step s (log ++ [a]) = attempt step (replay step s log) a := by
  rw [replay_append, replay_cons, replay_nil]

theorem meets_append : Meets step condition s (earlier ++ later) ↔
      Meets step condition s earlier ∧
        Meets step condition (replay step s earlier) later := by
  induction earlier generalizing s with
  | nil => simp [Meets]
  | cons a rest ih =>
    simp only [List.cons_append, Meets, replay_cons, ih, and_assoc]

/-- A log is unrestricted when its condition always holds. -/
theorem meets_of_forall (always : ∀ s a, condition s a) (s : σ) (log : List α) :
    Meets step condition s log := by
  induction log generalizing s with
  | nil => exact trivial
  | cons a rest ih => exact ⟨always s a, ih _⟩

/-- A condition on the actions alone is met by a log of such actions. -/
theorem meets_of_mem {allowed : α → Prop} (all : ∀ a ∈ log, allowed a) (s : σ) :
    Meets step (fun _ a => allowed a) s log := by
  induction log generalizing s with
  | nil => exact trivial
  | cons a rest ih =>
    exact ⟨all a List.mem_cons_self, ih (fun b member => all b (.tail _ member)) _⟩

/-- Invariant rule: what every accepted, condition-meeting step keeps, every
condition-meeting log keeps. -/
theorem replay_preserves (condition : σ → α → Prop) (invariant : σ → Prop)
    (keeps : ∀ s a next, invariant s → condition s a → step s a = .ok next → invariant next)
    (met : Meets step condition s log) (before : invariant s) : invariant (replay step s log) := by
  induction log generalizing s with
  | nil => exact before
  | cons a rest ih =>
    refine ih met.2 ?_
    cases result : step s a with
    | ok next => simpa only [attempt, result] using keeps s a next before met.1 result
    | error e => simpa only [attempt, result] using before

/-- Two-state rule: a reflexive and transitive relation that holds across every
accepted step taken under the invariant holds across every log. -/
theorem replay_relates (condition : σ → α → Prop) (invariant : σ → Prop) (related : σ → σ → Prop)
    (keeps : ∀ s a next, invariant s → condition s a → step s a = .ok next → invariant next)
    (refl : ∀ s, related s s) (trans : ∀ {a b c}, related a b → related b c → related a c)
    (advances : ∀ s a next, invariant s → condition s a → step s a = .ok next → related s next)
    (met : Meets step condition s log) (before : invariant s) : related s (replay step s log) := by
  induction log generalizing s with
  | nil => exact refl s
  | cons a rest ih =>
    cases result : step s a with
    | ok next =>
      have tail := ih met.2
      simp only [replay_cons, attempt, result] at tail ⊢
      exact trans (advances s a next before met.1 result)
        (tail (keeps s a next before met.1 result))
    | error e =>
      have tail := ih met.2
      simp only [replay_cons, attempt, result] at tail ⊢
      exact tail before

/-- Invariant rule with the log as history: what the empty log has, and every further
step keeps, holds after every log. -/
theorem replay_history (condition : σ → α → Prop) (invariant : List α → σ → Prop)
    (start : invariant [] s)
    (keeps : ∀ log a next, invariant log (replay step s log) → condition (replay step s log) a →
      step (replay step s log) a = .ok next → invariant (log ++ [a]) next)
    (skips : ∀ log a, invariant log (replay step s log) → invariant (log ++ [a]) (replay step s log))
    (met : Meets step condition s log) : invariant log (replay step s log) := by
  induction log using List.reverseRecOn with
  | nil => exact start
  | append_singleton log a ih =>
    obtain ⟨earlier, last, _⟩ := meets_append.mp met
    have before := ih earlier
    rw [replay_concat]
    cases result : step (replay step s log) a with
    | ok next =>
      rw [attempt_of_ok result]
      exact keeps log a next before last result
    | error e =>
      rw [attempt_of_error result]
      exact skips log a before

end Rules

end LetAgents.Lib.Replay

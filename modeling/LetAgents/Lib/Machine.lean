import Mathlib.Data.Nat.Basic
import Mathlib.Data.List.GetD
import Mathlib.Order.Basic
import Mathlib.Tactic.Push

/-!
# Runs of a machine

A machine is a step function; what it cannot do at a state leaves the state as it is. A run
is given by the inputs that the machine receives, one after the other, without end.
-/
namespace LetAgents.Lib.Machine

variable {S I : Type} (step : S → I → S) (init : S) (inputs : Nat → I)

/-- The state before each of the inputs. -/
def states : Nat → S
  | 0 => init
  | n + 1 => step (states n) (inputs n)

variable {step init inputs}

theorem invariant {P : S → Prop} (initial : P init)
    (keeps : ∀ n, P (states step init inputs n) → P (step (states step init inputs n) (inputs n)))
    (n : Nat) :
    P (states step init inputs n) := by
  induction n with
  | zero => exact initial
  | succ n ih => exact keeps n ih

/-- What every step keeps holds from then on. -/
theorem lasts {P : S → Prop} (keeps : ∀ s i, P s → P (step s i)) (le : n ≤ m)
    (here : P (states step init inputs n)) : P (states step init inputs m) := by
  induction le with
  | refl => exact here
  | step _ ih => exact keeps _ _ ih

/-! ## Progress -/

/-- Weak fairness: what stays ready from some state on moves at last. -/
def Fair (step : S → I → S) (init : S) (inputs : Nat → I) (R : S → Prop) (M : I → Prop) : Prop :=
  ∀ n, (∀ m ≥ n, R (states step init inputs m)) → ∃ m ≥ n, M (inputs m)

/-- What stays ready until it moves reaches what its move leads to. -/
theorem Fair.reaches {R Q : S → Prop} (fair : Fair step init inputs R M)
    (here : R (states step init inputs n))
    (stays : ∀ m ≥ n, R (states step init inputs m) → ¬M (inputs m) →
      R (step (states step init inputs m) (inputs m)))
    (moves : ∀ m ≥ n, R (states step init inputs m) → M (inputs m) →
      Q (step (states step init inputs m) (inputs m))) :
    ∃ m ≥ n, Q (states step init inputs m) := by
  by_contra never
  push Not at never
  have always : ∀ m ≥ n, R (states step init inputs m) := by
    intro m le
    induction le with
    | refl => exact here
    | step le ih =>
      refine stays _ le ih fun moved => ?_
      exact never _ (Nat.le_succ_of_le le) (moves _ le ih moved)
  obtain ⟨m, le, moved⟩ := fair n always
  exact never (m + 1) (Nat.le_succ_of_le le) (moves m le (always m le) moved)

/-! ## Processes

A machine of several processes has them in a list, and a step moves one of them. -/

theorem set_cases {processes : List α} {p p' : α} (here : (processes.set k p)[j]? = some p') :
    j = k ∧ p' = p ∨ j ≠ k ∧ processes[j]? = some p' := by
  rw [List.getElem?_set] at here
  split at here
  · next own =>
      split at here
      · exact .inl ⟨own.symm, (Option.some.inj here).symm⟩
      · cases here
  · next other => exact .inr ⟨Ne.symm other, here⟩

theorem set_self {processes : List α} {p : α} (here : processes[k]? = some p) (p' : α) :
    (processes.set k p')[k]? = some p' := by
  rw [List.getElem?_set_self (List.getElem?_eq_some_iff.mp here).1]

/-- A process that comes in is the last. -/
theorem append_cases (here : (processes ++ [p])[j]? = some p') :
    j = processes.length ∧ p' = p ∨ processes[j]? = some p' := by
  rw [List.getElem?_append] at here
  split at here
  · exact .inr here
  · next beyond =>
      rw [List.getElem?_singleton] at here
      split at here
      · exact .inl ⟨by omega, (Option.some.inj here).symm⟩
      · cases here

/-! ## Runs that come to rest -/

/-- The inputs of the list, and then one and the same input. -/
def finitely (listed : List I) (idle : I) (n : Nat) : I := listed.getD n idle

theorem states_rest (rests : step (states step init (finitely listed idle) listed.length) idle =
      states step init (finitely listed idle) listed.length) (le : listed.length ≤ n) :
    states step init (finitely listed idle) n =
      states step init (finitely listed idle) listed.length := by
  induction le with
  | refl => rfl
  | step le ih =>
    rename_i m
    have idles : finitely listed idle m = idle := List.getD_eq_default _ _ le
    rw [states, ih, idles, rests]

end LetAgents.Lib.Machine

import Mathlib.Tactic.Common

/-!
# Checked computations

Inversion rules for `Except` programs written as a chain of checks: what a
successful bind, check or optional lookup says about its parts.
-/
namespace LetAgents.Lib.Checked

variable {ε α β : Type}

/-- Stop with an error unless the condition holds. -/
def require (condition : Prop) [Decidable condition] (error : ε) : Except ε Unit :=
  if condition then .ok () else .error error

/-- Run a check only when the condition holds. -/
def onlyIf (condition : Prop) [Decidable condition] (check : Except ε Unit) : Except ε Unit :=
  if condition then check else .ok ()

/-- Stop with an error when the optional value is missing. -/
def found (value : Option α) (error : ε) : Except ε α :=
  match value with
  | some a => .ok a
  | none => .error error

theorem bind_ok {next : α → Except ε β} (ok : (first >>= next) = .ok result) :
    ∃ value, first = .ok value ∧ next value = .ok result := by
  cases first with
  | error e => cases ok
  | ok value => exact ⟨value, rfl, ok⟩

/-- A computation that succeeded hands its value on. -/
theorem ok_bind (value : α) (next : α → Except ε β) : (Except.ok value >>= next) = next value := rfl

theorem map_ok {first : Except ε α} {f : α → β} (ok : first.map f = .ok result) :
    ∃ value, first = .ok value ∧ f value = result := by
  cases first with
  | error e => cases ok
  | ok value =>
    cases ok
    exact ⟨value, rfl, rfl⟩

theorem require_ok [Decidable condition] (ok : require condition error = .ok result) :
    condition := by
  by_cases holds : condition
  · exact holds
  · simp only [holds] at ok
    cases ok

theorem require_of [Decidable condition] (holds : condition) :
    require condition error = .ok () := by
  simp only [require, holds, if_true]

theorem found_some (a : α) (error : ε) : found (some a) error = .ok a := rfl

theorem found_ok (ok : found value error = .ok result) : value = some result := by
  cases value with
  | none => cases ok
  | some a =>
    cases ok
    rfl

/-- A check in front of a computation that succeeded was passed. -/
theorem require_bind_ok [Decidable condition] {next : Unit → Except ε β}
    (ok : (require condition error >>= next) = .ok result) : condition ∧ next () = .ok result := by
  obtain ⟨_, passed, rest⟩ := bind_ok ok
  exact ⟨require_ok passed, rest⟩

theorem found_bind_ok {next : α → Except ε β} (ok : (found value error >>= next) = .ok result) :
    ∃ a, value = some a ∧ next a = .ok result := by
  obtain ⟨a, present, rest⟩ := bind_ok ok
  exact ⟨a, found_ok present, rest⟩

/-- A successful fold keeps what each of its successful steps keeps. -/
theorem foldlM_preserves {next : α → β → Except ε α} {motive : α → Prop} {items : List β}
    (keeps : ∀ a b c, b ∈ items → motive a → next a b = .ok c → motive c)
    (ok : items.foldlM next first = .ok last) (start : motive first) : motive last := by
  induction items generalizing first with
  | nil =>
    cases ok
    exact start
  | cons b rest ih =>
    obtain ⟨middle, stepped, continued⟩ := bind_ok ok
    have kept := keeps first b middle List.mem_cons_self start stepped
    exact ih (fun a b' c member => keeps a b' c (.tail _ member)) continued kept

end LetAgents.Lib.Checked

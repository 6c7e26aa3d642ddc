import Mathlib.Data.List.Basic

/-!
# Self-delimiting texts

Values are printed one behind the other. A print is self-delimiting if the text tells the first
value and where it ends, whatever follows; what is put together from such prints is one again.
-/
namespace LetAgents.Lib

variable {α β γ : Type*}

def SelfDelimiting (print : α → List γ) : Prop :=
  ∀ a b rest rest', print a ++ rest = print b ++ rest' → a = b ∧ rest = rest'

namespace SelfDelimiting

variable {print : α → List γ} {other : β → List γ}

theorem both (delimits : SelfDelimiting print) (delimits' : SelfDelimiting other) :
    SelfDelimiting fun pair : α × β => print pair.1 ++ other pair.2 := by
  rintro ⟨a, b⟩ ⟨a', b'⟩ rest rest' same
  simp only [List.append_assoc] at same
  obtain ⟨rfl, tail⟩ := delimits a a' _ _ same
  obtain ⟨rfl, last⟩ := delimits' b b' _ _ tail
  exact ⟨rfl, last⟩

/-- The text for nothing begins unlike every value. -/
theorem optional (delimits : SelfDelimiting print)
    (differs : ∀ a, ∃ first rest, print a = first :: rest ∧ first ≠ absent) :
    SelfDelimiting fun value : Option α => value.elim (absent :: more) print := by
  intro a b rest rest' same
  cases a with
  | none =>
    cases b with
    | none => exact ⟨rfl, List.append_cancel_left same⟩
    | some b =>
      obtain ⟨first, tail, spelled, other⟩ := differs b
      simp only [Option.elim, spelled, List.cons_append, List.cons.injEq] at same
      exact absurd same.1.symm other
  | some a =>
    cases b with
    | none =>
      obtain ⟨first, tail, spelled, other⟩ := differs a
      simp only [Option.elim, spelled, List.cons_append, List.cons.injEq] at same
      exact absurd same.1 other
    | some b =>
      obtain ⟨rfl, tail⟩ := delimits a b _ _ same
      exact ⟨rfl, tail⟩

/-- Each value begins unlike the end. -/
theorem terminated (delimits : SelfDelimiting print)
    (differs : ∀ a, ∃ first rest, print a = first :: rest ∧ first ≠ stop) :
    SelfDelimiting fun values : List α => values.flatMap print ++ [stop] := by
  intro a
  induction a with
  | nil =>
    intro b rest rest' same
    cases b with
    | nil => exact ⟨rfl, List.append_cancel_left same⟩
    | cons value values =>
      obtain ⟨first, tail, spelled, other⟩ := differs value
      simp only [List.flatMap_nil, List.flatMap_cons, spelled, List.nil_append, List.cons_append,
        List.cons.injEq] at same
      exact absurd same.1.symm other
  | cons value values ih =>
    intro b rest rest' same
    cases b with
    | nil =>
      obtain ⟨first, tail, spelled, other⟩ := differs value
      simp only [List.flatMap_nil, List.flatMap_cons, spelled, List.nil_append, List.cons_append,
        List.cons.injEq] at same
      exact absurd same.1 other
    | cons value' values' =>
      simp only [List.flatMap_cons, List.append_assoc] at same ih
      obtain ⟨rfl, tail⟩ := delimits value value' _ _ same
      obtain ⟨rfl, last⟩ := ih values' rest rest' tail
      exact ⟨rfl, last⟩

end SelfDelimiting

/-- Values with a separator between them and an end behind them. -/
def separated (print : α → List γ) (separator stop : γ) : List α → List γ
  | [] => [stop]
  | a :: more => print a ++ (more.flatMap (fun b => separator :: print b) ++ [stop])

theorem SelfDelimiting.separated {print : α → List γ} (delimits : SelfDelimiting print)
    {separator stop : γ} (apart : separator ≠ stop)
    (differs : ∀ a, ∃ first rest, print a = first :: rest ∧ first ≠ stop) :
    SelfDelimiting (separated print separator stop) := by
  have one : SelfDelimiting fun b => separator :: print b := by
    intro a b rest rest' same
    exact delimits a b rest rest' (List.cons.inj same).2
  have others := one.terminated fun b => ⟨separator, print b, rfl, apart⟩
  intro a b rest rest' same
  cases a with
  | nil =>
    cases b with
    | nil => exact ⟨rfl, List.append_cancel_left same⟩
    | cons b more =>
      obtain ⟨first, tail, spelled, other⟩ := differs b
      simp only [Lib.separated, spelled, List.cons_append, List.cons.injEq] at same
      exact absurd same.1.symm other
  | cons a more =>
    cases b with
    | nil =>
      obtain ⟨first, tail, spelled, other⟩ := differs a
      simp only [Lib.separated, spelled, List.cons_append, List.cons.injEq] at same
      exact absurd same.1 other
    | cons b more' =>
      obtain ⟨pair, last⟩ := delimits.both others (a, more) (b, more') rest rest' same
      obtain ⟨rfl, rfl⟩ := Prod.mk.inj pair
      exact ⟨rfl, last⟩

end LetAgents.Lib

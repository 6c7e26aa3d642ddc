import LetAgents.Coordination.Tables
import LetAgents.Lib.Footprint

/-!
# Disciplines over the server's tables

A discipline of the server keeps the unique indexes and adds laws for the tables that a
property speaks of.
-/
namespace LetAgents.Coordination

open Lib.ReadCommitted

variable {C : Type}

abbrev Commit (C : Type) := Publication Row C LockKey Note Outcome

/-- The commit gives the row a version that it did not have. -/
def Changes (p : Commit C) (k : Key) : Prop := ∃ row, p.rows k = some row ∧ p.footing.base k ≠ some row

instance (p : Commit C) (k : Key) : Decidable (Changes p k) :=
  decidable_of_iff ((p.rows k).any fun row => p.footing.base k ≠ some row) <| by
    simp [Changes, Option.any_eq_true]

/-- A commit that does not change a row leaves it to the others as it was. -/
theorem over_of_unchanged (unchanged : ¬Changes p k) :
    (p.rows.over p.footing.base) k = p.footing.base k := by
  cases published : p.rows k with
  | none => exact Rows.over_of_none published
  | some row =>
    have same : p.footing.base k = some row := by
      by_contra other
      exact unchanged ⟨row, published, other⟩
    exact (Rows.over_of_some published).trans same.symm

/-- A discipline of the server, from the laws beyond those of the indexes. -/
def discipline (program : C → Prog) (law : C → ∀ k, Row k → Row k → Prop)
    (born : C → ∀ k, Row k → Prop) (invariant : Rows Row → Prop) (guarantee meets : Commit C → Prop)
    (apart : Commit C → C → Note → Prop)
    (trans : ∀ {c k v v' v''}, law c k v v' → law c k v' v'' → law c k v v'')
    (born_law : ∀ {c k v v'}, born c k v → keepsIndexes k v v' → law c k v v' → born c k v') :
    Discipline (server program) where
  law c k v v' := keepsIndexes k v v' ∧ law c k v v'
  born := born
  invariant := invariant
  guarantee := guarantee
  meets := meets
  apart := apart
  law_trans first second := ⟨keepsIndexes_trans first.1 second.1, trans first.2 second.2⟩
  born_law born law := born_law born law.1 law.2
  clash_symm {k v k' v'} := clash_symm k v k' v'
  shrinks law clashes := keepsIndexes_clash law.1 clashes

/-- A law for leases only. -/
def onLeases (P : String → TaskLease → TaskLease → Prop) : ∀ k, Row k → Row k → Prop
  | .lease id, v, v' => P id v v'
  | _, _, _ => True

theorem onLeases_trans (trans : ∀ id v v' v'', P id v v' → P id v' v'' → P id v v'')
    (first : onLeases P k v v') (second : onLeases P k v' v'') : onLeases P k v v'' := by
  cases k with
  | lease id => exact trans id _ _ _ first second
  | _ => trivial

/-- A law for tasks only. -/
def onTasks (P : Key → Task → Task → Prop) : ∀ k, Row k → Row k → Prop
  | .task room number, v, v' => P (.task room number) v v'
  | _, _, _ => True

theorem onTasks_trans (trans : ∀ k v v' v'', P k v v' → P k v' v'' → P k v v'')
    (first : onTasks P k v v') (second : onTasks P k v' v'') : onTasks P k v v'' := by
  cases k with
  | task room number => exact trans _ _ _ _ first second
  | _ => trivial

/-- A law for grants only. -/
def onGrants (P : String → SupervisorGrant → SupervisorGrant → Prop) : ∀ k, Row k → Row k → Prop
  | .grant id, v, v' => P id v v'
  | _, _, _ => True

theorem onGrants_trans (trans : ∀ id v v' v'', P id v v' → P id v' v'' → P id v v'')
    (first : onGrants P k v v') (second : onGrants P k v' v'') : onGrants P k v v'' := by
  cases k with
  | grant id => exact trans id _ _ _ first second
  | _ => trivial

end LetAgents.Coordination

import LetAgents.Coordination.Disciplines
import LetAgents.Coordination.SupervisorGrants

/-!
# Footprints of the grant transactions

What the statements on supervisor grants may write. No one of them enters a unique
index, and each leaves the grant with its owner.
-/
namespace LetAgents.Coordination

open Lib.ReadCommitted

variable {env : Externals} {notes : Note → Prop} {law : ∀ k, Row k → Row k → Prop}
  {born : ∀ k, Row k → Prop}

/-! ## The writes -/

variable {input : CreateSupervisorHostGrantInput} {v v' : SupervisorGrant}
  {owner_account_id : String} {now : Nat}

theorem recover_spec (made : input.recover env active v = some v') :
    v.token_version = active.token_version ∧ v.revoked_at = none ∧
      v' = { v with
        token_hash := env.sha256 input.token
        token_version := active.token_version + 1
        expires_at := input.expires_at } := by
  simp only [CreateSupervisorHostGrantInput.recover, Option.ite_none_right_eq_some,
    Bool.and_eq_true, decide_eq_true_eq, Option.isNone_iff_eq_none, Option.some.injEq] at made
  exact ⟨made.1.1, made.1.2, made.2.symm⟩

theorem rotate_spec {input : RotateSupervisorHostGrantInput} (made : rotate env input v = some v') :
    v' = { v with
      token_hash := env.sha256 input.token
      token_version := input.expected_token_version + 1
      expires_at := input.expires_at } :=
  (Option.some.inj made).symm

theorem advance_spec {input : AdvanceSupervisorHostGrantInput}
    (made : advance env input v = some v') :
    grantCurrent input.expected_generation input.expected_token_version input.now v = true ∧
      v' = { v with
        current_generation := input.expected_generation + 1
        token_hash := env.sha256 input.token
        token_version := input.expected_token_version + 1 } := by
  simp only [advance, Option.ite_none_right_eq_some, Option.some.injEq] at made
  exact ⟨made.1, made.2.symm⟩

theorem revokeGrant_spec (made : revokeGrant owner_account_id now v = some v') :
    v.revoked_at = none ∧ v' = { v with revoked_at := some now } := by
  simp only [revokeGrant, Option.ite_none_right_eq_some, Bool.and_eq_true, decide_eq_true_eq,
    Option.isNone_iff_eq_none, Option.some.injEq] at made
  exact ⟨made.1.2, made.2.symm⟩

theorem recover_keepsIndexes (id : String) (made : input.recover env active v = some v') :
    keepsIndexes (.grant id) v v' := by
  obtain ⟨_, live, rfl⟩ := recover_spec made
  exact ⟨rfl, rfl, rfl, rfl, fun _ => live⟩

theorem rotate_keepsIndexes {input : RotateSupervisorHostGrantInput} (id : String)
    (made : rotate env input v = some v') : keepsIndexes (.grant id) v v' := by
  obtain rfl := rotate_spec made
  exact ⟨rfl, rfl, rfl, rfl, fun live => live⟩

theorem advance_keepsIndexes {input : AdvanceSupervisorHostGrantInput} (id : String)
    (made : advance env input v = some v') : keepsIndexes (.grant id) v v' := by
  obtain ⟨_, rfl⟩ := advance_spec made
  exact ⟨rfl, rfl, rfl, rfl, fun live => live⟩

theorem revokeGrant_keepsIndexes (id : String)
    (made : revokeGrant owner_account_id now v = some v') : keepsIndexes (.grant id) v v' := by
  obtain ⟨_, rfl⟩ := revokeGrant_spec made
  exact ⟨rfl, rfl, rfl, rfl, nofun⟩

/-! ## The transactions -/

theorem createSupervisorHostGrant_keeps
    (recovers : ∀ id active v v', input.recover env active v = some v' → law (.grant id) v v')
    (bears : born (.grant input.grant_id) (input.record env)) :
    (createSupervisorHostGrant env input).Keeps notes law born := by
  intro seen
  dsimp only
  split
  · exact And.intro bears (And.intro trivial trivial)
  · split
    · trivial
    refine And.intro (within_atKey (recovers _ _)) fun _ recovered => ?_
    dsimp only
    split <;> trivial
  · trivial

theorem rotateSupervisorHostGrant_keeps {input : RotateSupervisorHostGrantInput}
    (rotates : ∀ v v', rotate env input v = some v' → law (.grant input.grant_id) v v') :
    (rotateSupervisorHostGrant env input).Keeps notes law born := by
  intro seen
  dsimp only
  split
  · trivial
  · exact And.intro (within_atKey rotates) fun _ _ => trivial

theorem advanceSupervisorHostGrantGeneration_keeps {input : AdvanceSupervisorHostGrantInput}
    (advances : ∀ v v', advance env input v = some v' → law (.grant input.grant_id) v v') :
    (advanceSupervisorHostGrantGeneration env input).Keeps notes law born :=
  And.intro (within_atKey advances) fun _ _ => trivial

theorem revokeSupervisorHostGrant_keeps
    (revokes : ∀ v v', revokeGrant owner_account_id now v = some v' → law (.grant grant_id) v v') :
    (revokeSupervisorHostGrant grant_id owner_account_id now).Keeps notes law born :=
  And.intro (within_atKey revokes) fun _ _ => trivial

end LetAgents.Coordination

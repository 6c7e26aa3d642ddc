import Mathlib.Algebra.Order.Field.Power
import Mathlib.Tactic.Linarith
import Mathlib.Tactic.NormNum
import Mathlib.Tactic.Positivity
import Mathlib.Tactic.Ring
import LetAgents.Lib.Js

/-!
# Doubles

On the nonnegative numbers `double` is monotone, and it is exact on those of at most
53 binary digits.
-/
namespace LetAgents.Lib.Double

open Js

theorem floor_le_roundHalfEven (value : Rat) : value.floor ≤ roundHalfEven value := by
  unfold roundHalfEven
  dsimp only
  split
  · exact le_rfl
  · split
    · omega
    · split
      · exact le_rfl
      · omega

theorem roundHalfEven_intCast (value : Int) : roundHalfEven (value : Rat) = value := by
  have below : ((value : Rat) - (value : Rat).floor) < 1 / 2 := by
    norm_num
  unfold roundHalfEven
  rw [if_pos below, Rat.floor_intCast]

/-! ## Rounding is monotone -/

theorem roundHalfEven_le_floor_add_one (value : Rat) : roundHalfEven value ≤ value.floor + 1 := by
  unfold roundHalfEven
  dsimp only
  split
  · omega
  · split
    · exact le_rfl
    · split
      · omega
      · exact le_rfl

theorem roundHalfEven_mono (below : x ≤ y) : roundHalfEven x ≤ roundHalfEven y := by
  have floors : x.floor ≤ y.floor := Rat.le_floor_iff.mpr (le_trans (Rat.floor_le x) below)
  rcases lt_or_eq_of_le floors with apart | same
  · have above := roundHalfEven_le_floor_add_one x
    have under := floor_le_roundHalfEven y
    omega
  · have rests : x - x.floor ≤ y - y.floor := by
      rw [same]
      linarith
    unfold roundHalfEven
    dsimp only
    rw [← same] at rests ⊢
    -- The two numbers have one floor, so the rests decide.
    by_cases low : x - x.floor < 1 / 2
    · rw [if_pos low]
      split_ifs <;> omega
    · have low' : ¬y - x.floor < 1 / 2 := by linarith
      rw [if_neg low, if_neg low']
      by_cases high : 1 / 2 < x - x.floor
      · have high' : 1 / 2 < y - x.floor := by linarith
        rw [if_pos high, if_pos high']
      · rw [if_neg high]
        split_ifs <;> omega

/-- A positive number lies between two powers that its exponent names. -/
theorem binaryExponent_spec (positive : 0 < value) :
    (2 : Rat) ^ binaryExponent value ≤ value ∧ value < 2 ^ (binaryExponent value + 1) := by
  have numerator : 0 < value.num := Rat.num_pos.mpr positive
  have nonzero : value.num.toNat ≠ 0 := by omega
  have whole : (value.num.toNat : Rat) = value.num := by
    exact_mod_cast Int.toNat_of_nonneg numerator.le
  have quotient : value * value.den = value.num.toNat := by
    rw [whole]
    exact Rat.mul_den_eq_num value
  have denominator : (0 : Rat) < value.den := by exact_mod_cast value.den_pos
  have numLow : (2 : Rat) ^ (value.num.toNat.log2 : Int) ≤ value.num.toNat := by
    exact_mod_cast Nat.log2_self_le nonzero
  have numHigh : (value.num.toNat : Rat) < 2 ^ ((value.num.toNat.log2 : Int) + 1) := by
    have bound : value.num.toNat < 2 ^ (value.num.toNat.log2 + 1) := Nat.lt_log2_self
    exact_mod_cast bound
  have denLow : (2 : Rat) ^ (value.den.log2 : Int) ≤ value.den := by
    exact_mod_cast Nat.log2_self_le value.den_nz
  have denHigh : (value.den : Rat) < 2 ^ ((value.den.log2 : Int) + 1) := by
    have bound : value.den < 2 ^ (value.den.log2 + 1) := Nat.lt_log2_self
    exact_mod_cast bound
  have two : (2 : Rat) ≠ 0 := by norm_num
  -- The estimate is the exponent, or one too large.
  have high : value < 2 ^ ((value.num.toNat.log2 : Int) - value.den.log2 + 1) := by
    have split' : (2 : Rat) ^ ((value.num.toNat.log2 : Int) + 1) =
        2 ^ ((value.num.toNat.log2 : Int) - value.den.log2 + 1) * 2 ^ (value.den.log2 : Int) := by
      rw [← zpow_add₀ two]
      congr 1
      omega
    by_contra above
    rw [not_lt] at above
    have product := mul_le_mul above denLow (by positivity) positive.le
    linarith
  have low : (2 : Rat) ^ ((value.num.toNat.log2 : Int) - value.den.log2 - 1) < value := by
    have split' : (2 : Rat) ^ (value.num.toNat.log2 : Int) =
        2 ^ ((value.num.toNat.log2 : Int) - value.den.log2 - 1) *
          2 ^ ((value.den.log2 : Int) + 1) := by
      rw [← zpow_add₀ two]
      congr 1
      omega
    by_contra under
    rw [not_lt] at under
    have product := mul_lt_mul' under denHigh denominator.le (by positivity)
    linarith
  unfold binaryExponent
  dsimp only
  split
  · rename_i reached
    exact ⟨reached, high⟩
  · rename_i missed
    refine ⟨low.le, ?_⟩
    rw [sub_add_cancel]
    exact not_le.mp missed

theorem double_of_pos (positive : 0 < value) :
    double value = roundHalfEven (value / 2 ^ (max (binaryExponent value) (-1022) - 52)) *
      2 ^ (max (binaryExponent value) (-1022) - 52) := by
  unfold double
  rw [if_neg positive.ne', if_neg positive.le.not_gt]

/-- The double of a number below a power is at most the power. -/
theorem double_le_zpow (positive : 0 < value) :
    double value ≤ 2 ^ (max (binaryExponent value) (-1022) + 1) := by
  have two : (2 : Rat) ≠ 0 := by norm_num
  have unit : (0 : Rat) < 2 ^ (max (binaryExponent value) (-1022) - 52) := by positivity
  have power : (2 : Rat) ^ (max (binaryExponent value) (-1022) + 1) =
      2 ^ 53 * 2 ^ (max (binaryExponent value) (-1022) - 52) := by
    rw [← zpow_natCast, ← zpow_add₀ two]
    congr 1
    omega
  have bound : value ≤ 2 ^ (max (binaryExponent value) (-1022) + 1) :=
    le_trans (binaryExponent_spec positive).2.le (zpow_le_zpow_right₀ (by norm_num) (by omega))
  have mantissa : value / 2 ^ (max (binaryExponent value) (-1022) - 52) ≤ ((2 ^ 53 : Int) : Rat) := by
    rw [div_le_iff₀ unit, Int.cast_pow, Int.cast_ofNat, ← power]
    exact bound
  have rounded := roundHalfEven_mono mantissa
  rw [roundHalfEven_intCast] at rounded
  rw [double_of_pos positive, power]
  refine mul_le_mul_of_nonneg_right ?_ unit.le
  exact_mod_cast rounded

/-- The double of a number that reaches the power of its exponent is at least the power. -/
theorem zpow_le_double (positive : 0 < value) (normal : -1022 ≤ binaryExponent value) :
    (2 : Rat) ^ binaryExponent value ≤ double value := by
  have two : (2 : Rat) ≠ 0 := by norm_num
  have exponent : max (binaryExponent value) (-1022) = binaryExponent value := by omega
  have unit : (0 : Rat) < 2 ^ (binaryExponent value - 52) := by positivity
  have power : (2 : Rat) ^ binaryExponent value = 2 ^ 52 * 2 ^ (binaryExponent value - 52) := by
    rw [← zpow_natCast, ← zpow_add₀ two]
    congr 1
    omega
  have mantissa : ((2 ^ 52 : Int) : Rat) ≤ value / 2 ^ (binaryExponent value - 52) := by
    rw [le_div_iff₀ unit, Int.cast_pow, Int.cast_ofNat, ← power]
    exact (binaryExponent_spec positive).1
  have rounded := roundHalfEven_mono mantissa
  rw [roundHalfEven_intCast] at rounded
  rw [double_of_pos positive, exponent, power]
  refine mul_le_mul_of_nonneg_right ?_ unit.le
  exact_mod_cast rounded

theorem double_nonneg (nonnegative : 0 ≤ value) : 0 ≤ double value := by
  rcases lt_or_eq_of_le nonnegative with positive | rfl
  · have unit : (0 : Rat) < 2 ^ (max (binaryExponent value) (-1022) - 52) := by positivity
    have rounded := roundHalfEven_mono (div_nonneg nonnegative unit.le)
    rw [← Int.cast_zero, roundHalfEven_intCast] at rounded
    rw [double_of_pos positive]
    exact mul_nonneg (by exact_mod_cast rounded) unit.le
  · exact le_rfl

theorem double_mono (nonnegative : 0 ≤ x) (below : x ≤ y) : double x ≤ double y := by
  rcases lt_or_eq_of_le nonnegative with positive | rfl
  · have positive' : 0 < y := lt_of_lt_of_le positive below
    rcases lt_or_ge (max (binaryExponent x) (-1022)) (max (binaryExponent y) (-1022)) with
      apart | close
    · -- The power between the two numbers is between their doubles.
      have normal : -1022 ≤ binaryExponent y := by omega
      refine le_trans (double_le_zpow positive) (le_trans ?_ (zpow_le_double positive' normal))
      exact zpow_le_zpow_right₀ (by norm_num) (by omega)
    · have exponents : binaryExponent x ≤ binaryExponent y := by
        by_contra above
        have step : (2 : Rat) ^ (binaryExponent y + 1) ≤ 2 ^ binaryExponent x :=
          zpow_le_zpow_right₀ (by norm_num) (by omega)
        have lower := (binaryExponent_spec positive).1
        have upper := (binaryExponent_spec positive').2
        linarith
      have same : max (binaryExponent x) (-1022) = max (binaryExponent y) (-1022) := by omega
      have unit : (0 : Rat) < 2 ^ (max (binaryExponent y) (-1022) - 52) := by positivity
      rw [double_of_pos positive, double_of_pos positive', same]
      refine mul_le_mul_of_nonneg_right ?_ unit.le
      exact_mod_cast roundHalfEven_mono (div_le_div_of_nonneg_right below unit.le)
  · exact double_nonneg below

/-! ## Exact doubles -/

/-- A number of at most 53 binary digits is a double. -/
theorem double_dyadic {n j : Nat} (small : n < 2 ^ 53) (precision : j ≤ 1074) :
    double ((n : Rat) / 2 ^ j) = (n : Rat) / 2 ^ j := by
  have two : (2 : Rat) ≠ 0 := by norm_num
  rcases Nat.eq_zero_or_pos n with rfl | some'
  · rw [Nat.cast_zero, zero_div]
    rfl
  have positive : (0 : Rat) < (n : Rat) / 2 ^ j := by positivity
  have exponent : binaryExponent ((n : Rat) / 2 ^ j) ≤ 52 - j := by
    by_contra above
    have bound : (n : Rat) / 2 ^ j < 2 ^ ((53 : Int) - j) := by
      rw [div_lt_iff₀ (by positivity), ← zpow_natCast 2 j, ← zpow_add₀ two, sub_add_cancel]
      exact_mod_cast small
    have step : (2 : Rat) ^ ((53 : Int) - j) ≤ 2 ^ binaryExponent ((n : Rat) / 2 ^ j) :=
      zpow_le_zpow_right₀ (by norm_num) (by omega)
    have lower := (binaryExponent_spec positive).1
    linarith
  rw [double_of_pos positive]
  generalize binaryExponent ((n : Rat) / 2 ^ j) = e at exponent
  have unit : (2 : Rat) ^ (max e (-1022) - 52) ≠ 0 := by positivity
  obtain ⟨shift, same⟩ : ∃ shift : Nat, max e (-1022) - 52 = -((shift + j : Nat) : Int) :=
    ⟨(52 - j - max e (-1022)).toNat, by omega⟩
  have whole : (n : Rat) / 2 ^ j / 2 ^ (max e (-1022) - 52) = ((n * 2 ^ shift : Nat) : Int) := by
    have power : (2 : Rat) ^ j ≠ 0 := by positivity
    rw [same, zpow_neg, zpow_natCast, pow_add, div_inv_eq_mul, mul_comm (2 ^ shift), ← mul_assoc,
      div_mul_cancel₀ _ power]
    push_cast
    rfl
  rw [whole, roundHalfEven_intCast, ← whole, div_mul_cancel₀ _ unit]

theorem double_exact {n : Nat} (small : n < 2 ^ 53) : double (n : Rat) = n := by
  have exact' := double_dyadic (j := 0) small (by omega)
  rwa [pow_zero, div_one] at exact'

theorem le_double {n : Nat} (large : 2 ^ 53 ≤ n) : (2 : Rat) ^ 53 ≤ double (n : Rat) := by
  have half : double ((2 ^ 53 : Nat) : Rat) = 2 ^ 53 := by decide +kernel
  have bound : ((2 ^ 53 : Nat) : Rat) ≤ n := by exact_mod_cast large
  rw [← half]
  exact double_mono (by positivity) bound

/-- A rounded whole number is exact or too large for 32 bits. -/
theorem double_exact_or_large (n : Nat) : double (n : Rat) = n ∨ (2 : Rat) ^ 53 ≤ double (n : Rat) := by
  rcases Nat.lt_or_ge n (2 ^ 53) with small | large
  · exact .inl (double_exact small)
  · exact .inr (le_double large)

end LetAgents.Lib.Double

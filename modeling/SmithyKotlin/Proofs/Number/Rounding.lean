import Mathlib.Algebra.Order.Field.Power
import Mathlib.Data.Rat.Cast.Order
import Mathlib.Tactic.FieldSimp
import Mathlib.Tactic.Linarith
import Mathlib.Tactic.Positivity
import Mathlib.Tactic.Push
import Mathlib.Tactic.Ring
import SmithyKotlin.Number.Double

/-!
# Rounding to doubles

The doubles are the numbers `m * 2 ^ e` with a mantissa below `2 ^ 53` and an exponent of at least `-1074`.

* `Double.IsNearest`: the double is the nearest one to a number, of two equally near ones the one with an even
  mantissa.
* `Double.divideNearest_spec`, `Double.exists_rounds`: one rounded division, and what `Double.nearest` makes of its
  result.
* `Double.IsNearest.unique`: there is at most one nearest double with a given sign.
* `Double.ofDecimal_eq_some_iff`: a decimal is read as the nearest one, and as none only where there is none.

Arithmetic on doubles is not needed and left out.
-/

namespace SmithyKotlin

@[simp] theorem cast_twoTo (n : Nat) : ((twoTo n : Nat) : ℚ) = 2 ^ n := by
  show ((2 ^ n : Nat) : ℚ) = 2 ^ n
  push_cast
  rfl

@[simp] theorem cast_tenTo (n : Nat) : ((tenTo n : Nat) : ℚ) = 10 ^ n := by
  show ((10 ^ n : Nat) : ℚ) = 10 ^ n
  push_cast
  rfl

namespace Double

/-- The absolute value. -/
def magnitude (d : Double) : ℚ := d.mantissa * 2 ^ d.exponent

/-- A finite double in its only form: the mantissa is full unless the exponent is the least one. -/
structure IsFinite (d : Double) : Prop where
  short : d.mantissa < twoTo 53
  full : d.exponent = leastExponent ∨ twoTo 52 ≤ d.mantissa
  least : leastExponent ≤ d.exponent
  greatest : d.exponent ≤ greatestExponent

/-- The absolute values of doubles, those beyond the finite ones included. -/
def IsGridPoint (value : ℚ) : Prop :=
  ∃ (mantissa : Nat) (exponent : Int), mantissa < twoTo 53 ∧ leastExponent ≤ exponent ∧ value = mantissa * 2 ^ exponent

/-- A finite double is the nearest to a number, also among the doubles beyond the finite ones; if another one is as
near, its mantissa is even. -/
structure IsNearest (number : ℚ) (d : Double) : Prop where
  finite : d.IsFinite
  closest : ∀ value, IsGridPoint value → |number - d.magnitude| ≤ |number - value|
  even : ∀ value, IsGridPoint value → |number - d.magnitude| = |number - value| →
    value = d.magnitude ∨ d.mantissa % 2 = 0

/-! ## Natural numbers -/

/-- What is at most a half away is nearest, and only a half is a tie. -/
theorem closest_of_half {x : ℚ} {r : Nat} (hhalf : |x - r| ≤ 1 / 2) (heven : |x - r| = 1 / 2 → r % 2 = 0) (j : Nat) :
    |x - r| ≤ |x - j| ∧ (|x - r| = |x - j| → j = r ∨ r % 2 = 0) := by
  by_cases hsame : j = r
  · subst hsame
    exact ⟨le_rfl, fun _ => .inl rfl⟩
  · -- other natural numbers are at least one away from it
    have hone : (1 : ℚ) ≤ |(r : ℚ) - j| := by
      have hint : (1 : Int) ≤ |(r : Int) - j| := Int.one_le_abs (by omega)
      exact_mod_cast hint
    have htriangle : |(r : ℚ) - j| ≤ |x - r| + |x - j| := by
      have hsplit : (r : ℚ) - j = (x - j) - (x - r) := by ring
      rw [hsplit, add_comm]
      exact abs_sub _ _
    refine ⟨by linarith, fun htie => .inr (heven ?_)⟩
    linarith

theorem divideNearest_spec (num : Nat) {den : Nat} (hden : 0 < den) :
    |(num / den : ℚ) - divideNearest num den| ≤ 1 / 2 ∧
      (|(num / den : ℚ) - divideNearest num den| = 1 / 2 → divideNearest num den % 2 = 0) := by
  have hpos : (0 : ℚ) < den := by exact_mod_cast hden
  have hquotient : (num / den : ℚ) = (num / den : Nat) + (num % den : Nat) / den := by
    have hdiv : (num : ℚ) = den * (num / den : Nat) + (num % den : Nat) := by
      exact_mod_cast (Nat.div_add_mod num den).symm
    rw [hdiv]
    field_simp
  have hrest : ((num % den : Nat) : ℚ) / den * den = (num % den : Nat) := div_mul_cancel₀ _ hpos.ne'
  have hnonneg : (0 : ℚ) ≤ (num % den : Nat) / den := by positivity
  have hless : ((num % den : Nat) : ℚ) / den < 1 := by
    rw [div_lt_one hpos]
    exact_mod_cast Nat.mod_lt num hden
  have htie (h : ((num % den : Nat) : ℚ) / den = 1 / 2) : 2 * (num % den) = den := by
    rw [h] at hrest
    have hdouble : (2 * (num % den : Nat) : ℚ) = den := by linarith
    exact_mod_cast hdouble
  rw [divideNearest]
  split
  · rename_i hup
    -- the quotient is rounded up, so its fraction is at least a half
    have hhalf : (1 / 2 : ℚ) ≤ (num % den : Nat) / den := by
      rw [div_le_div_iff₀ two_pos hpos]
      have hle : den ≤ num % den * 2 := by omega
      exact_mod_cast (by omega : 1 * den ≤ num % den * 2)
    have hdistance : |(num / den : ℚ) - (num / den + 1 : Nat)| = 1 - (num % den : Nat) / den := by
      rw [hquotient, Nat.cast_add, Nat.cast_one, add_sub_add_left_eq_sub, abs_sub_comm, abs_of_nonneg]
      linarith
    rw [hdistance]
    refine ⟨by linarith, fun hequal => ?_⟩
    have hsame := htie (by linarith)
    omega
  · rename_i hdown
    have hhalf : ((num % den : Nat) : ℚ) / den ≤ 1 / 2 := by
      rw [div_le_div_iff₀ hpos two_pos]
      exact_mod_cast (by omega : num % den * 2 ≤ 1 * den)
    have hdistance : |(num / den : ℚ) - (num / den : Nat)| = (num % den : Nat) / den := by
      rw [hquotient, add_sub_cancel_left, abs_of_nonneg hnonneg]
    rw [hdistance]
    refine ⟨hhalf, fun hequal => ?_⟩
    have hsame := htie hequal
    omega

/-! ## Powers of two -/

theorem zpow_le_div_iff {num den : Nat} (hden : 0 < den) (k : Int) :
    (if 0 ≤ k then den * twoTo k.toNat ≤ num else den ≤ num * twoTo (-k).toNat) ↔ (2 : ℚ) ^ k ≤ num / den := by
  have hpos : (0 : ℚ) < den := by exact_mod_cast hden
  rw [le_div_iff₀ hpos]
  split
  · rename_i hk
    obtain ⟨n, rfl⟩ := Int.eq_ofNat_of_zero_le hk
    rw [Int.toNat_natCast, zpow_natCast, ← cast_twoTo, mul_comm]
    norm_cast
  · rename_i hk
    obtain ⟨n, hn⟩ : ∃ n : Nat, k = -n := ⟨(-k).toNat, by omega⟩
    subst hn
    rw [neg_neg, Int.toNat_natCast, zpow_neg, zpow_natCast, inv_mul_le_iff₀ (by positivity), ← cast_twoTo, mul_comm]
    norm_cast

/-- A nonzero fraction lies between the power of two that it reaches and the next one. -/
theorem binaryOrder_spec {num den : Nat} (hnum : num ≠ 0) (hden : 0 < den) :
    (2 : ℚ) ^ binaryOrder num den ≤ num / den ∧ (num / den : ℚ) < 2 ^ (binaryOrder num den + 1) := by
  have hpos : (0 : ℚ) < den := by exact_mod_cast hden
  have htwo : (2 : ℚ) ≠ 0 := two_ne_zero
  have hnumLow : (2 : ℚ) ^ (num.log2 : Int) ≤ num := by
    rw [zpow_natCast]
    exact_mod_cast Nat.log2_self_le hnum
  have hnumHigh : (num : ℚ) < 2 ^ ((num.log2 : Int) + 1) := by
    have h : num < 2 ^ (num.log2 + 1) := Nat.lt_log2_self
    exact_mod_cast h
  have hdenLow : (2 : ℚ) ^ (den.log2 : Int) ≤ den := by
    rw [zpow_natCast]
    exact_mod_cast Nat.log2_self_le hden.ne'
  have hdenHigh : (den : ℚ) < 2 ^ ((den.log2 : Int) + 1) := by
    have h : den < 2 ^ (den.log2 + 1) := Nat.lt_log2_self
    exact_mod_cast h
  -- the difference of the logarithms is the order, or one more than it
  have hhigh : (num / den : ℚ) < 2 ^ ((num.log2 : Int) - den.log2 + 1) := by
    rw [div_lt_iff₀ hpos]
    calc (num : ℚ) < 2 ^ ((num.log2 : Int) + 1) := hnumHigh
      _ = 2 ^ ((num.log2 : Int) - den.log2 + 1) * 2 ^ (den.log2 : Int) := by
        rw [← zpow_add₀ htwo]
        congr 1
        ring
      _ ≤ 2 ^ ((num.log2 : Int) - den.log2 + 1) * den := by gcongr
  have hlow : (2 : ℚ) ^ ((num.log2 : Int) - den.log2 - 1) ≤ num / den := by
    rw [le_div_iff₀ hpos]
    calc (2 : ℚ) ^ ((num.log2 : Int) - den.log2 - 1) * den
        ≤ 2 ^ ((num.log2 : Int) - den.log2 - 1) * 2 ^ ((den.log2 : Int) + 1) := by gcongr
      _ = 2 ^ (num.log2 : Int) := by
        rw [← zpow_add₀ htwo]
        congr 1
        ring
      _ ≤ num := hnumLow
  rw [binaryOrder]
  have hreached := @zpow_le_div_iff num den hden ((num.log2 : Int) - den.log2)
  by_cases h : (2 : ℚ) ^ ((num.log2 : Int) - den.log2) ≤ num / den
  · rw [if_pos (hreached.mpr h)]
    exact ⟨h, hhigh⟩
  · rw [if_neg (mt hreached.mp h), sub_add_cancel]
    exact ⟨hlow, not_le.mp h⟩

/-! ## The nearest double -/

/-- The quotient is rounded on the grid of any exponent. -/
theorem divideNearest_grid (num : Nat) {den : Nat} (hden : 0 < den) (exponent : Int) :
    let mantissa := if 0 ≤ exponent then divideNearest num (den * twoTo exponent.toNat)
      else divideNearest (num * twoTo (-exponent).toNat) den
    |(num / den : ℚ) / 2 ^ exponent - mantissa| ≤ 1 / 2 ∧
      (|(num / den : ℚ) / 2 ^ exponent - mantissa| = 1 / 2 → mantissa % 2 = 0) := by
  dsimp only
  split
  · rename_i hexponent
    obtain ⟨n, rfl⟩ := Int.eq_ofNat_of_zero_le hexponent
    have hscaled : (num / den : ℚ) / 2 ^ (n : Int) = num / (den * twoTo n : Nat) := by
      rw [Nat.cast_mul, cast_twoTo, zpow_natCast, div_div]
    rw [Int.toNat_natCast, hscaled]
    exact divideNearest_spec num (Nat.mul_pos hden (Nat.pow_pos two_pos))
  · rename_i hexponent
    obtain ⟨n, hn⟩ : ∃ n : Nat, exponent = -n := ⟨(-exponent).toNat, by omega⟩
    subst hn
    have hscaled : (num / den : ℚ) / 2 ^ (-(n : Int)) = (num * twoTo n : Nat) / den := by
      rw [Nat.cast_mul, cast_twoTo, zpow_neg, zpow_natCast, div_inv_eq_mul, div_mul_eq_mul_div]
    rw [neg_neg, Int.toNat_natCast, hscaled]
    exact divideNearest_spec _ hden

/-- The mantissa in its final form: one that is too long by rounding gives the next power of two. -/
def carry (negative : Bool) (mantissa : Nat) (exponent : Int) : Double :=
  if mantissa = twoTo 53 then ⟨negative, twoTo 52, exponent + 1⟩ else ⟨negative, mantissa, exponent⟩

theorem magnitude_carry (negative : Bool) (mantissa : Nat) (exponent : Int) :
    (carry negative mantissa exponent).magnitude = mantissa * 2 ^ exponent := by
  rw [carry]
  split
  · rename_i hlong
    rw [hlong, magnitude, cast_twoTo, cast_twoTo, zpow_add₀ two_ne_zero]
    ring
  · rfl

theorem negative_carry (negative : Bool) (mantissa : Nat) (exponent : Int) :
    (carry negative mantissa exponent).negative = negative := by
  rw [carry]
  split <;> rfl

section Nearest

variable {number : ℚ} {mantissa : Nat} {exponent : Int}
  (hhalf : |number / 2 ^ exponent - mantissa| ≤ 1 / 2)
  (heven : |number / 2 ^ exponent - mantissa| = 1 / 2 → mantissa % 2 = 0)
  (hhigh : number / 2 ^ exponent < 2 ^ 53)
  (hlow : exponent = leastExponent ∨ 2 ^ 52 ≤ number / 2 ^ exponent)

include hhalf

theorem mantissa_le (hhigh : number / 2 ^ exponent < 2 ^ 53) : mantissa ≤ twoTo 53 := by
  by_contra h
  have hlong : twoTo 53 + 1 ≤ mantissa := by omega
  have hcast : (2 : ℚ) ^ 53 + 1 ≤ mantissa := by
    rw [← cast_twoTo]
    exact_mod_cast hlong
  have habs := (abs_le.mp hhalf).1
  linarith

theorem le_mantissa (hlow : 2 ^ 52 ≤ number / 2 ^ exponent) : twoTo 52 ≤ mantissa := by
  by_contra h
  have hshort : mantissa + 1 ≤ twoTo 52 := by omega
  have hcast : (mantissa : ℚ) + 1 ≤ 2 ^ 52 := by
    rw [← cast_twoTo]
    exact_mod_cast hshort
  have habs := (abs_le.mp hhalf).2
  linarith

/-- A rounded mantissa is short and, unless the exponent is the least one, full again. -/
theorem carry_short (hhigh : number / 2 ^ exponent < 2 ^ 53) (negative : Bool) :
    (carry negative mantissa exponent).mantissa < twoTo 53 := by
  rw [carry]
  split
  · exact Nat.pow_lt_pow_right one_lt_two (by decide)
  · exact lt_of_le_of_ne (mantissa_le hhalf hhigh) ‹_›

theorem carry_full (hlow : exponent = leastExponent ∨ 2 ^ 52 ≤ number / 2 ^ exponent) (negative : Bool) :
    (carry negative mantissa exponent).exponent = leastExponent ∨
      twoTo 52 ≤ (carry negative mantissa exponent).mantissa := by
  rw [carry]
  split
  · exact .inr le_rfl
  · exact hlow.imp_right (le_mantissa hhalf)

include heven hlow

/-- On the grid of the right exponent, rounding finds what is nearest among all doubles. -/
theorem closest_on_grid {value : ℚ} (hvalue : IsGridPoint value) :
    |number - mantissa * 2 ^ exponent| ≤ |number - value| ∧
      (|number - mantissa * 2 ^ exponent| = |number - value| →
        value = mantissa * 2 ^ exponent ∨ mantissa % 2 = 0) := by
  have hpos : (0 : ℚ) < 2 ^ exponent := by positivity
  have hscale (y : ℚ) : |number - y * 2 ^ exponent| = |number / 2 ^ exponent - y| * 2 ^ exponent := by
    rw [← abs_of_pos hpos, ← abs_mul, abs_of_pos hpos, sub_mul, div_mul_cancel₀ _ hpos.ne']
  obtain ⟨other, exponent', hshort, hleast, rfl⟩ := hvalue
  rcases le_or_gt exponent exponent' with hle | hlt
  · -- the other double lies on the same grid
    obtain ⟨n, hn⟩ := Int.le.dest hle
    have hgrid : (other : ℚ) * 2 ^ exponent' = ((other * 2 ^ n : Nat) : ℚ) * 2 ^ exponent := by
      rw [← hn, zpow_add₀ two_ne_zero, zpow_natCast]
      push_cast
      ring
    obtain ⟨hclosest, htie⟩ := closest_of_half hhalf heven (other * 2 ^ n)
    rw [hgrid, hscale, hscale]
    refine ⟨mul_le_mul_of_nonneg_right hclosest hpos.le, fun hequal => ?_⟩
    refine (htie (mul_right_cancel₀ hpos.ne' hequal)).imp_left fun hsame => ?_
    rw [hsame]
  · -- the other double is so small that the power of two on the grid lies between it and the number
    have hfull : 2 ^ 52 ≤ number / 2 ^ exponent := by
      refine hlow.resolve_left ?_
      rintro rfl
      omega
    obtain ⟨hclosest, _⟩ := closest_of_half hhalf heven (2 ^ 52)
    have hbetween : (other : ℚ) * 2 ^ exponent' < 2 ^ 52 * 2 ^ exponent := by
      have hcast : (other : ℚ) < 2 ^ 53 := by
        rw [← cast_twoTo]
        exact_mod_cast hshort
      calc (other : ℚ) * 2 ^ exponent' < 2 ^ 53 * 2 ^ exponent' := by gcongr
        _ = 2 ^ 52 * 2 ^ (exponent' + 1) := by
          rw [zpow_add₀ two_ne_zero]
          ring
        _ ≤ 2 ^ 52 * 2 ^ exponent := by
          gcongr
          · exact one_le_two
          · omega
    have hnumber : 2 ^ 52 * 2 ^ exponent ≤ number := (le_div_iff₀ hpos).mp hfull
    have hless : |number - mantissa * 2 ^ exponent| < |number - other * 2 ^ exponent'| := by
      calc |number - mantissa * 2 ^ exponent| ≤ |number - 2 ^ 52 * 2 ^ exponent| := by
            rw [hscale, hscale]
            exact mul_le_mul_of_nonneg_right (by exact_mod_cast hclosest) hpos.le
        _ = number - 2 ^ 52 * 2 ^ exponent := abs_of_nonneg (by linarith)
        _ < number - other * 2 ^ exponent' := by linarith
        _ ≤ |number - other * 2 ^ exponent'| := le_abs_self _
    exact ⟨hless.le, fun hequal => absurd hequal hless.ne⟩

include hhigh

/-- A rounded mantissa that can still be a finite double is the nearest one. -/
theorem isNearest_carry (negative : Bool) (hleast : leastExponent ≤ exponent)
    (hfinite : (carry negative mantissa exponent).exponent ≤ greatestExponent) :
    IsNearest number (carry negative mantissa exponent) := by
  have hclosest {value : ℚ} (hvalue : IsGridPoint value) := closest_on_grid hhalf heven hlow hvalue
  rw [← magnitude_carry negative] at hclosest
  have heven' (h : mantissa % 2 = 0) : (carry negative mantissa exponent).mantissa % 2 = 0 := by
    have hpower : twoTo 52 % 2 = 0 := by
      decide
    rw [carry]
    split
    · exact hpower
    · exact h
  refine ⟨⟨carry_short hhalf hhigh negative, carry_full hhalf hlow negative, ?_, hfinite⟩,
    fun value hvalue => (hclosest hvalue).1, fun value hvalue htie => ?_⟩
  · rw [carry]
    split
    · exact hleast.trans (Int.le_add_one le_rfl)
    · exact hleast
  · exact ((hclosest hvalue).2 htie).imp_right heven'

end Nearest

/-- A number below half of the least double is nearest to zero. -/
theorem isNearest_zero {number : ℚ} (hnonneg : 0 ≤ number) (hsmall : number * 2 ≤ 2 ^ leastExponent)
    (negative : Bool) : IsNearest number (zero negative) := by
  have hzero : (zero negative).magnitude = 0 := by
    rw [magnitude, zero, Nat.cast_zero, zero_mul]
  have hrange : leastExponent ≤ greatestExponent := by
    decide
  refine ⟨⟨Nat.pow_pos two_pos, .inl rfl, le_rfl, hrange⟩, fun value hvalue => ?_, fun _ _ _ => .inr rfl⟩
  obtain ⟨mantissa, exponent, _, hleast, rfl⟩ := hvalue
  rw [hzero, sub_zero, abs_of_nonneg hnonneg]
  cases mantissa with
  | zero => rw [Nat.cast_zero, zero_mul, sub_zero, abs_of_nonneg hnonneg]
  | succ n =>
    have hvalue : (2 : ℚ) ^ leastExponent ≤ (n + 1 : Nat) * 2 ^ exponent := by
      calc (2 : ℚ) ^ leastExponent ≤ 2 ^ exponent := zpow_le_zpow_right₀ one_le_two hleast
        _ = 1 * 2 ^ exponent := (one_mul _).symm
        _ ≤ (n + 1 : Nat) * 2 ^ exponent := by
          gcongr
          exact_mod_cast Nat.le_add_left 1 n
    rw [abs_sub_comm]
    exact le_trans (by linarith) (le_abs_self _)

/-- Rounding a fraction leads to a mantissa on the grid of the right exponent, which is the answer as long as it is
finite. -/
structure Rounds (num den : Nat) (mantissa : Nat) (exponent : Int) : Prop where
  least : leastExponent ≤ exponent
  half : |(num / den : ℚ) / 2 ^ exponent - mantissa| ≤ 1 / 2
  even : |(num / den : ℚ) / 2 ^ exponent - mantissa| = 1 / 2 → mantissa % 2 = 0
  high : (num / den : ℚ) / 2 ^ exponent < 2 ^ 53
  low : exponent = leastExponent ∨ 2 ^ 52 ≤ (num / den : ℚ) / 2 ^ exponent
  answer : ∀ negative, nearest negative num den =
    if (carry negative mantissa exponent).exponent ≤ greatestExponent then some (carry negative mantissa exponent)
    else none

theorem exists_rounds {num den : Nat} (hnum : num ≠ 0) (hden : 0 < den) :
    ∃ mantissa exponent, Rounds num den mantissa exponent := by
  obtain ⟨hreached, hnext⟩ := binaryOrder_spec hnum hden
  obtain ⟨hhalf, heven⟩ := divideNearest_grid num hden (max leastExponent (binaryOrder num den - 52))
  refine ⟨_, _, le_max_left _ _, hhalf, heven, ?_, ?_, fun negative => if_neg hnum⟩
  · rw [div_lt_iff₀ (by positivity)]
    calc (num / den : ℚ) < 2 ^ (binaryOrder num den + 1) := hnext
      _ ≤ 2 ^ (53 + max leastExponent (binaryOrder num den - 52)) :=
        zpow_le_zpow_right₀ one_le_two (by omega)
      _ = 2 ^ 53 * 2 ^ max leastExponent (binaryOrder num den - 52) := by
        rw [zpow_add₀ two_ne_zero]
        rfl
  · rcases max_choice leastExponent (binaryOrder num den - 52) with hmax | hmax
    · exact .inl hmax
    · refine .inr ((le_div_iff₀ (by positivity)).mpr ?_)
      calc (2 : ℚ) ^ 52 * 2 ^ max leastExponent (binaryOrder num den - 52)
          = 2 ^ (52 + max leastExponent (binaryOrder num den - 52)) := by
            rw [zpow_add₀ two_ne_zero]
            rfl
        _ = 2 ^ binaryOrder num den := by
          congr 1
          omega
        _ ≤ num / den := hreached

/-- The double that is found for a fraction is the nearest one. -/
theorem isNearest_of_nearest {negative : Bool} {num den : Nat} (hden : 0 < den) {d : Double}
    (h : nearest negative num den = some d) : IsNearest (num / den) d ∧ d.negative = negative := by
  by_cases hnum : num = 0
  · rw [nearest, if_pos hnum] at h
    cases h
    rw [hnum, Nat.cast_zero, zero_div]
    have hsmall : (0 : ℚ) * 2 ≤ 2 ^ leastExponent := by
      rw [zero_mul]
      positivity
    exact ⟨isNearest_zero le_rfl hsmall negative, rfl⟩
  · obtain ⟨mantissa, exponent, hrounds⟩ := exists_rounds hnum hden
    rw [hrounds.answer, Option.ite_none_right_eq_some, Option.some.injEq] at h
    obtain ⟨hfinite, rfl⟩ := h
    exact ⟨isNearest_carry hrounds.half hrounds.even hrounds.high hrounds.low negative hrounds.least hfinite,
      negative_carry _ _ _⟩

theorem exponent_carry_le (negative : Bool) (mantissa : Nat) (exponent : Int) :
    (carry negative mantissa exponent).exponent ≤ exponent + 1 := by
  rw [carry]
  split
  · exact le_rfl
  · exact Int.le_add_one le_rfl

/-- A fraction below half of the least number beyond the finite doubles has a nearest double. -/
theorem exists_nearest {num den : Nat} (hden : 0 < den) (hsmall : (num / den : ℚ) < 2 ^ (greatestExponent + 52))
    (negative : Bool) : ∃ d, nearest negative num den = some d := by
  rw [nearest]
  split
  · exact ⟨_, rfl⟩
  · rename_i hnum
    have horder : binaryOrder num den < greatestExponent + 52 :=
      (zpow_lt_zpow_iff_right₀ one_lt_two).mp ((binaryOrder_spec hnum hden).1.trans_lt hsmall)
    have hexponent : max leastExponent (binaryOrder num den - 52) + 1 ≤ greatestExponent := by
      have hrange : leastExponent + 1 ≤ greatestExponent := by
        decide
      omega
    exact ⟨_, if_pos ((exponent_carry_le negative _ _).trans hexponent)⟩

/-- An integer that is not too large has a nearest double of either sign. -/
theorem exists_isNearest {n : Nat} (hsmall : n < 2 ^ 1023) (negative : Bool) :
    ∃ d, d.negative = negative ∧ IsNearest n d := by
  have hfraction : ((n : ℚ) / (1 : Nat)) < 2 ^ (greatestExponent + 52) := by
    rw [Nat.cast_one, div_one]
    show (n : ℚ) < 2 ^ ((1023 : Nat) : Int)
    rw [zpow_natCast]
    exact_mod_cast hsmall
  obtain ⟨d, hd⟩ := exists_nearest one_pos hfraction negative
  obtain ⟨hnearest, hsign⟩ := isNearest_of_nearest one_pos hd
  rw [Nat.cast_one, div_one] at hnearest
  exact ⟨d, hsign, hnearest⟩

/-! ## Decimals -/

/-- A decimal of far too small an order is below half of the least double. -/
theorem decimal_small {number : ℚ} {order : Int} (hnumber : number ≤ 10 ^ order) (horder : order < -400) :
    number * 2 ≤ 2 ^ leastExponent := by
  have hpowers : (2 : ℚ) ^ 1075 ≤ 10 ^ 401 := by
    calc (2 : ℚ) ^ 1075 ≤ 2 ^ (3 * 401) := pow_le_pow_right₀ one_le_two (by decide)
      _ = (2 ^ 3) ^ 401 := pow_mul _ _ _
      _ ≤ 10 ^ 401 := pow_le_pow_left₀ (by positivity) (by norm_num) _
  have hten (n : Nat) (hn : order ≤ -(n : Int)) : number ≤ (10 ^ n)⁻¹ := by
    rw [← zpow_natCast, ← zpow_neg]
    exact hnumber.trans (zpow_le_zpow_right₀ (by norm_num) hn)
  have htwo (n : Nat) : ((2 : ℚ) ^ (n + 1))⁻¹ * 2 = 2 ^ (-(n : Int)) := by
    rw [zpow_neg, zpow_natCast, pow_succ, mul_inv, inv_mul_cancel_right₀ two_ne_zero]
  calc number * 2 ≤ (10 ^ 401)⁻¹ * 2 := mul_le_mul_of_nonneg_right (hten 401 (by omega)) two_pos.le
    _ ≤ (2 ^ 1075)⁻¹ * 2 := mul_le_mul_of_nonneg_right (inv_anti₀ (by positivity) hpowers) two_pos.le
    _ = 2 ^ leastExponent := htwo 1074

/-- A decimal that is neither far too small nor far too large is read as a fraction. -/
theorem exists_fraction (digits : Nat) (exponent : Int) : ∃ num den : Nat, 0 < den ∧
    (num / den : ℚ) = digits * 10 ^ exponent ∧ ∀ negative,
      (if 0 ≤ exponent then nearest negative (digits * tenTo exponent.toNat) 1
        else nearest negative digits (tenTo (-exponent).toNat)) = nearest negative num den := by
  rcases le_or_gt 0 exponent with hexponent | hexponent
  · obtain ⟨n, rfl⟩ := Int.eq_ofNat_of_zero_le hexponent
    refine ⟨digits * tenTo n, 1, one_pos, ?_, fun negative => if_pos hexponent⟩
    rw [Nat.cast_mul, cast_tenTo, Nat.cast_one, div_one, zpow_natCast]
  · obtain ⟨n, hn⟩ : ∃ n : Nat, exponent = -n := ⟨(-exponent).toNat, by omega⟩
    refine ⟨digits, tenTo n, Nat.pow_pos (by decide), ?_, fun negative => ?_⟩
    · rw [cast_tenTo, hn, zpow_neg, zpow_natCast, div_eq_mul_inv]
    · rw [if_neg hexponent.not_ge, hn, neg_neg, Int.toNat_natCast]

/-- The digits of a number other than zero lie between two powers of ten. -/
theorem decimalLength_spec (digits : Nat) :
    (digits : ℚ) < 10 ^ (decimalLength digits : Int) ∧
      (digits ≠ 0 → 10 ^ ((decimalLength digits : Int) - 1) ≤ (digits : ℚ)) := by
  have hpos : 0 < decimalLength digits := Nat.length_toDigits_pos
  constructor
  · have hdigits : digits < 10 ^ decimalLength digits :=
      (Nat.length_toDigits_le_iff (by decide) hpos).mp le_rfl
    rw [zpow_natCast]
    exact_mod_cast hdigits
  · intro hne
    obtain ⟨n, hn⟩ : ∃ n, decimalLength digits = n + 1 := ⟨decimalLength digits - 1, by omega⟩
    have hdigits : 10 ^ n ≤ digits := by
      cases n with
      | zero => exact Nat.one_le_iff_ne_zero.mpr hne
      | succ n =>
        have hlong : ¬ decimalLength digits ≤ n + 1 := by
          omega
        exact not_lt.mp fun hlt => hlong ((Nat.length_toDigits_le_iff (by decide) n.succ_pos).mpr hlt)
    rw [hn, Nat.cast_succ, add_sub_cancel_right, zpow_natCast]
    exact_mod_cast hdigits

/-- The double that is found for a decimal is the nearest one. -/
theorem isNearest_of_ofDecimal {negative : Bool} {digits : Nat} {exponent : Int} {d : Double}
    (h : ofDecimal negative digits exponent = some d) :
    IsNearest (digits * 10 ^ exponent) d ∧ d.negative = negative := by
  rw [ofDecimal] at h
  split at h
  · rename_i hsmall
    cases h
    refine ⟨isNearest_zero (by positivity) ?_ negative, rfl⟩
    rcases hsmall with hzero | horder
    · rw [hzero, Nat.cast_zero, zero_mul, zero_mul]
      positivity
    · refine decimal_small ?_ horder
      rw [zpow_add₀ (by norm_num)]
      gcongr
      exact (decimalLength_spec digits).1.le
  · split at h
    · cases h
    · obtain ⟨num, den, hden, hvalue, hfraction⟩ := exists_fraction digits exponent
      rw [hfraction] at h
      exact hvalue ▸ isNearest_of_nearest hden h

/-! ## One nearest double -/

theorem IsFinite.isGridPoint {d : Double} (h : d.IsFinite) : IsGridPoint d.magnitude :=
  ⟨d.mantissa, d.exponent, h.short, h.least, rfl⟩

/-- Behind a finite double there is nothing up to the next step of its grid. -/
theorem IsFinite.gap {d : Double} (h : d.IsFinite) {value : ℚ} (hvalue : IsGridPoint value)
    (hless : d.magnitude < value) : d.magnitude + 2 ^ d.exponent ≤ value := by
  have hpos : (0 : ℚ) < 2 ^ d.exponent := by positivity
  obtain ⟨mantissa, exponent, hshort, hleast, rfl⟩ := hvalue
  rcases le_or_gt d.exponent exponent with hle | hlt
  · obtain ⟨n, hn⟩ := Int.le.dest hle
    have hgrid : (mantissa : ℚ) * 2 ^ exponent = ((mantissa * 2 ^ n : Nat) : ℚ) * 2 ^ d.exponent := by
      rw [← hn, zpow_add₀ two_ne_zero, zpow_natCast]
      push_cast
      ring
    rw [hgrid, magnitude] at hless ⊢
    have hnat : d.mantissa < mantissa * 2 ^ n := by
      exact_mod_cast lt_of_mul_lt_mul_right hless hpos.le
    calc (d.mantissa : ℚ) * 2 ^ d.exponent + 2 ^ d.exponent = (d.mantissa + 1 : Nat) * 2 ^ d.exponent := by
          push_cast
          ring
      _ ≤ (mantissa * 2 ^ n : Nat) * 2 ^ d.exponent := by
        gcongr
        exact hnat
  · -- a smaller exponent gives smaller numbers, as the mantissa is full
    have hfull : twoTo 52 ≤ d.mantissa := by
      refine h.full.resolve_left fun heq => ?_
      rw [heq] at hlt
      omega
    have hcast : (mantissa : ℚ) < 2 ^ 53 ∧ (2 : ℚ) ^ 52 ≤ d.mantissa := by
      rw [← cast_twoTo, ← cast_twoTo]
      exact ⟨by exact_mod_cast hshort, by exact_mod_cast hfull⟩
    have hcontrary : (mantissa : ℚ) * 2 ^ exponent < d.magnitude := by
      calc (mantissa : ℚ) * 2 ^ exponent < 2 ^ 53 * 2 ^ exponent := by
            gcongr
            exact hcast.1
        _ = 2 ^ 52 * 2 ^ (exponent + 1) := by
          rw [zpow_add₀ two_ne_zero]
          ring
        _ ≤ 2 ^ 52 * 2 ^ d.exponent := by
          gcongr
          · exact one_le_two
          · omega
        _ ≤ d.mantissa * 2 ^ d.exponent := by
          gcongr
          exact hcast.2
    exact absurd hless hcontrary.not_gt

/-- A finite double is known by its sign and its absolute value. -/
theorem IsFinite.ext {a b : Double} (ha : a.IsFinite) (hb : b.IsFinite) (hsign : a.negative = b.negative)
    (hvalue : a.magnitude = b.magnitude) : a = b := by
  have hexponent {a b : Double} (ha : a.IsFinite) (hb : b.IsFinite) (hvalue : a.magnitude = b.magnitude) :
      a.exponent ≤ b.exponent := by
    by_contra hlt
    have hfull : twoTo 52 ≤ a.mantissa := by
      refine ha.full.resolve_left fun heq => ?_
      have hleast := hb.least
      omega
    -- the mantissa of the other one would be too long
    obtain ⟨n, hn⟩ : ∃ n : Nat, a.exponent = b.exponent + (n + 1 : Nat) :=
      ⟨(a.exponent - b.exponent - 1).toNat, by omega⟩
    have hpos : (0 : ℚ) < 2 ^ b.exponent := by positivity
    have hmantissa : (b.mantissa : ℚ) = (a.mantissa * 2 ^ (n + 1) : Nat) := by
      refine mul_right_cancel₀ hpos.ne' ?_
      rw [magnitude, magnitude, hn, zpow_add₀ two_ne_zero, zpow_natCast] at hvalue
      push_cast
      linarith
    have hnat : b.mantissa = a.mantissa * 2 ^ (n + 1) := by exact_mod_cast hmantissa
    have hshort := hb.short
    have hlong : twoTo 52 * 2 ≤ a.mantissa * 2 ^ (n + 1) := by
      rw [pow_succ, ← mul_assoc]
      have hone : 1 ≤ 2 ^ n := Nat.one_le_two_pow
      exact Nat.mul_le_mul_right 2 (hfull.trans (Nat.le_mul_of_pos_right _ hone))
    have hpower : twoTo 52 * 2 = twoTo 53 := rfl
    omega
  obtain ⟨negative, mantissa, exponent⟩ := a
  obtain ⟨negative', mantissa', exponent'⟩ := b
  obtain rfl : negative = negative' := hsign
  obtain rfl : exponent = exponent' :=
    le_antisymm (hexponent ha hb hvalue) (hexponent hb ha hvalue.symm)
  have hpos : (0 : ℚ) < 2 ^ exponent := by positivity
  have hmantissa : (mantissa : ℚ) = mantissa' := mul_right_cancel₀ hpos.ne' hvalue
  obtain rfl : mantissa = mantissa' := by exact_mod_cast hmantissa
  rfl

/-- The next step of the grid. -/
def next (d : Double) : Double := { d with mantissa := d.mantissa + 1 }

theorem magnitude_next (d : Double) : d.next.magnitude = d.magnitude + 2 ^ d.exponent := by
  show ((d.mantissa + 1 : Nat) : ℚ) * 2 ^ d.exponent = d.mantissa * 2 ^ d.exponent + 2 ^ d.exponent
  push_cast
  ring

/-- Behind an even mantissa there is another one. -/
theorem IsFinite.next {d : Double} (h : d.IsFinite) (heven : d.mantissa % 2 = 0) : d.next.IsFinite := by
  have hshort : d.mantissa + 1 < twoTo 53 := by
    have hpower : twoTo 53 % 2 = 0 := by
      decide
    have hshort := h.short
    omega
  exact ⟨hshort, h.full.imp_right fun hfull => hfull.trans (Nat.le_succ _), h.least, h.greatest⟩

/-- What is as near as the nearest double and above it is the next step of the grid. -/
theorem IsNearest.next_eq {number : ℚ} {d : Double} (h : IsNearest number d) {value : ℚ} (hvalue : IsGridPoint value)
    (hclosest : |number - value| ≤ |number - d.magnitude|) (hless : d.magnitude < value) :
    d.next.IsFinite ∧ d.next.magnitude = value := by
  have hequal : |number - d.magnitude| = |number - value| := le_antisymm (h.closest _ hvalue) hclosest
  have hfinite := h.finite.next ((h.even _ hvalue hequal).resolve_left hless.ne')
  -- the number lies in the middle
  have hmiddle : number - d.magnitude = value - number := by
    rcases abs_eq_abs.mp hequal with heq | heq
    · linarith
    · linarith
  have hnext := d.magnitude_next
  refine ⟨hfinite, le_antisymm (hnext ▸ h.finite.gap hvalue hless) (not_lt.mp fun hbetween => ?_)⟩
  have hpos : (0 : ℚ) < 2 ^ d.exponent := by positivity
  have hcloser : |number - d.next.magnitude| < |number - d.magnitude| := by
    rw [abs_of_nonneg (by linarith : 0 ≤ number - d.magnitude), abs_lt]
    constructor <;> linarith
  exact absurd (h.closest _ hfinite.isGridPoint) hcloser.not_ge

/-- There is one nearest double for each sign at most. -/
theorem IsNearest.unique {number : ℚ} {a b : Double} (ha : IsNearest number a) (hb : IsNearest number b)
    (hsign : a.negative = b.negative) : a = b := by
  by_contra hne
  wlog hless : a.magnitude < b.magnitude generalizing a b
  · refine this hb ha hsign.symm (Ne.symm hne) (lt_of_le_of_ne (not_lt.mp hless) fun heq => ?_)
    exact hne (ha.finite.ext hb.finite hsign heq.symm)
  have hclosest := hb.closest _ ha.finite.isGridPoint
  have hequal := le_antisymm hclosest (ha.closest _ hb.finite.isGridPoint)
  obtain ⟨hfinite, hsame⟩ := ha.next_eq hb.finite.isGridPoint hclosest hless
  -- two steps of the grid behind each other do not both have an even mantissa
  have hevenA : a.mantissa % 2 = 0 := (ha.even _ hb.finite.isGridPoint hequal.symm).resolve_left hless.ne'
  have hevenB : b.mantissa % 2 = 0 := (hb.even _ ha.finite.isGridPoint hequal).resolve_left hless.ne
  obtain rfl := hfinite.ext hb.finite hsign hsame
  have hodd : (a.mantissa + 1) % 2 = 0 := hevenB
  omega

/-! ## What has a nearest double is read -/

/-- The least power of two beyond the finite doubles. -/
theorem IsFinite.magnitude_lt {d : Double} (h : d.IsFinite) : d.magnitude < 2 ^ (greatestExponent + 53) := by
  have hshort : (d.mantissa : ℚ) < 2 ^ 53 := by
    rw [← cast_twoTo]
    exact_mod_cast h.short
  calc (d.mantissa : ℚ) * 2 ^ d.exponent < 2 ^ 53 * 2 ^ d.exponent := by gcongr
    _ ≤ 2 ^ 53 * 2 ^ greatestExponent := by
      gcongr
      · exact one_le_two
      · exact h.greatest
    _ = 2 ^ (greatestExponent + 53) := by
      rw [zpow_add₀ two_ne_zero, mul_comm]
      rfl

/-- A number with a nearest double lies below it. -/
theorem IsNearest.lt {number : ℚ} {d : Double} (h : IsNearest number d) : number < 2 ^ (greatestExponent + 53) := by
  by_contra hle
  have hmagnitude := h.finite.magnitude_lt
  have hpoint : IsGridPoint (2 ^ (greatestExponent + 53)) := by
    refine ⟨1, greatestExponent + 53, Nat.one_lt_two_pow (by decide), by decide, ?_⟩
    rw [Nat.cast_one, one_mul]
  have hclosest := h.closest _ hpoint
  rw [abs_of_nonneg (by linarith), abs_of_nonneg (by linarith)] at hclosest
  linarith

/-- Rounding a fraction does not lead beyond the finite doubles when one of them is nearest. -/
theorem exists_nearest_of_isNearest {num den : Nat} (hden : 0 < den) {d : Double} (h : IsNearest (num / den) d)
    (negative : Bool) : ∃ found, nearest negative num den = some found := by
  by_cases hnum : num = 0
  · exact ⟨zero negative, if_pos hnum⟩
  obtain ⟨mantissa, exponent, hrounds⟩ := exists_rounds hnum hden
  refine ⟨carry negative mantissa exponent, (hrounds.answer negative).trans (if_pos ?_)⟩
  by_contra hlarge
  -- the rounded number would be as near as the double, so the next step of the grid, which is still finite
  have hleast : leastExponent < greatestExponent := by
    decide
  have hfull : 2 ^ (greatestExponent + 53) ≤ (carry negative mantissa exponent).magnitude := by
    have hmantissa : twoTo 52 ≤ (carry negative mantissa exponent).mantissa :=
      (carry_full hrounds.half hrounds.low negative).resolve_left (by omega)
    have hcast : (2 : ℚ) ^ 52 ≤ (carry negative mantissa exponent).mantissa := by
      rw [← cast_twoTo]
      exact_mod_cast hmantissa
    calc (2 : ℚ) ^ (greatestExponent + 53) = 2 ^ 52 * 2 ^ (greatestExponent + 1) := by
          rw [show greatestExponent + 53 = 52 + (greatestExponent + 1) by omega, zpow_add₀ two_ne_zero]
          rfl
      _ ≤ 2 ^ 52 * 2 ^ (carry negative mantissa exponent).exponent := by
        gcongr
        · exact one_le_two
        · omega
      _ ≤ (carry negative mantissa exponent).magnitude := by
        rw [magnitude]
        gcongr
  have hpoint : IsGridPoint (carry negative mantissa exponent).magnitude :=
    ⟨_, _, carry_short hrounds.half hrounds.high negative, by omega, rfl⟩
  have hclosest : |num / den - (carry negative mantissa exponent).magnitude| ≤ |num / den - d.magnitude| := by
    rw [magnitude_carry]
    exact (closest_on_grid hrounds.half hrounds.even hrounds.low h.finite.isGridPoint).1
  obtain ⟨hfinite, hsame⟩ := h.next_eq hpoint hclosest (h.finite.magnitude_lt.trans_le hfull)
  exact absurd hfinite.magnitude_lt (hsame ▸ hfull).not_gt

/-- A decimal is read as the double that is nearest to it, and as none only where there is no such double. -/
theorem ofDecimal_eq_some_iff {negative : Bool} {digits : Nat} {exponent : Int} {d : Double} :
    ofDecimal negative digits exponent = some d ↔
      IsNearest (digits * 10 ^ exponent) d ∧ d.negative = negative := by
  refine ⟨isNearest_of_ofDecimal, fun h => ?_⟩
  obtain ⟨hnearest, hsign⟩ := h
  have hexists : ∃ found, ofDecimal negative digits exponent = some found := by
    rw [ofDecimal]
    split
    · exact ⟨_, rfl⟩
    · rename_i hsmall
      obtain ⟨hdigits, _⟩ := not_or.mp hsmall
      split
      · rename_i horder
        have hpowers : (2 : ℚ) ^ (greatestExponent + 53) ≤ 10 ^ (400 : Int) := by
          show (2 : ℚ) ^ ((1024 : Nat) : Int) ≤ 10 ^ ((400 : Nat) : Int)
          rw [zpow_natCast, zpow_natCast]
          calc (2 : ℚ) ^ 1024 ≤ 2 ^ (3 * 400) := pow_le_pow_right₀ one_le_two (by decide)
            _ = (2 ^ 3) ^ 400 := pow_mul _ _ _
            _ ≤ 10 ^ 400 := pow_le_pow_left₀ (by positivity) (by norm_num) _
        have hlarge : (10 : ℚ) ^ (400 : Int) ≤ digits * 10 ^ exponent := by
          calc (10 : ℚ) ^ (400 : Int) ≤ 10 ^ ((decimalLength digits : Int) - 1 + exponent) :=
                zpow_le_zpow_right₀ (by norm_num) (by omega)
            _ = 10 ^ ((decimalLength digits : Int) - 1) * 10 ^ exponent := zpow_add₀ (by norm_num) _ _
            _ ≤ digits * 10 ^ exponent := by
              gcongr
              exact (decimalLength_spec digits).2 hdigits
        exact absurd (hpowers.trans hlarge) hnearest.lt.not_ge
      · obtain ⟨num, den, hden, hvalue, hfraction⟩ := exists_fraction digits exponent
        rw [hfraction]
        exact exists_nearest_of_isNearest hden (hvalue.symm ▸ hnearest) negative
  obtain ⟨found, hfound⟩ := hexists
  obtain ⟨hnearest', hsign'⟩ := isNearest_of_ofDecimal hfound
  rw [hfound, hnearest'.unique hnearest (hsign'.trans hsign.symm)]

example : ofDecimal false 1 (-1) = some ⟨false, 7205759403792794, -56⟩ := by decide +kernel

end Double

end SmithyKotlin

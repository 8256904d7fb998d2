import SmithyKotlin.Number.Shortest
import SmithyKotlin.Proofs.Number.Rounding

/-!
# The shortest digits read back

* `Decimal.value_stripZeros`: zeros at the end are a matter of the exponent.
* `Double.isNearest_shortest`: the digits that are printed for a double are a decimal whose nearest double is that
  double again, also where none of the short decimals is: then all its digits are printed
  (`Double.value_exactDecimal`).
* `Double.exponent_shortest_le`: the digit zero is printed for a zero only.

That the digits are as few as can be is not shown.
-/

namespace SmithyKotlin

namespace Decimal

/-- The number itself. -/
def value (d : Decimal) : ℚ := d.digits * 10 ^ d.exponent

/-- A zero at the end of the digits is a power of ten. -/
theorem value_div_ten {digits : Nat} (hzero : digits % 10 = 0) (exponent : Int) :
    value ⟨digits / 10, exponent + 1⟩ = value ⟨digits, exponent⟩ := by
  have hdigits : (digits : ℚ) = (digits / 10 : Nat) * 10 := by
    exact_mod_cast (Nat.div_mul_cancel (Nat.dvd_of_mod_eq_zero hzero)).symm
  rw [value, value, hdigits, zpow_add₀ (by norm_num), zpow_one]
  ring

theorem value_dropZeros (count : Nat) (d : Decimal) : (d.dropZeros count).value = d.value := by
  induction count generalizing d with
  | zero => rfl
  | succ count ih =>
    rw [dropZeros]
    split
    · rename_i hzero
      rw [ih, value_div_ten hzero]
    · rfl

theorem value_stripZeros (d : Decimal) : d.stripZeros.value = d.value := value_dropZeros _ d

end Decimal

namespace Double

/-- A finite double is nearest to its own value. -/
theorem isNearest_self {d : Double} (h : d.IsFinite) : IsNearest d.magnitude d := by
  refine ⟨h, fun value _ => ?_, fun value _ htie => .inl ?_⟩
  · rw [sub_self, abs_zero]
    exact abs_nonneg _
  · rw [sub_self, abs_zero] at htie
    exact (sub_eq_zero.mp (abs_eq_zero.mp htie.symm)).symm

theorem value_exactDecimal (d : Double) : d.exactDecimal.value = d.magnitude := by
  rw [exactDecimal]
  split
  · rename_i hexponent
    obtain ⟨n, hn⟩ := Int.eq_ofNat_of_zero_le hexponent
    rw [Decimal.value, magnitude, hn, Int.toNat_natCast, Nat.cast_mul, cast_twoTo, zpow_zero, mul_one, zpow_natCast]
  · rename_i hexponent
    obtain ⟨n, hn⟩ : ∃ n : Nat, d.exponent = -n := ⟨(-d.exponent).toNat, by omega⟩
    have hfive : ((Nat.pow 5 n : Nat) : ℚ) = 5 ^ n := by
      exact_mod_cast rfl
    rw [Decimal.value, magnitude, hn, neg_neg, Int.toNat_natCast, Nat.cast_mul, hfive, zpow_neg, zpow_neg,
      zpow_natCast, zpow_natCast]
    have hten : (10 : ℚ) ^ n = 5 ^ n * 2 ^ n := by
      rw [← mul_pow]
      norm_num
    rw [hten]
    field_simp

/-- The printed digits have the double for their nearest one. -/
theorem isNearest_shortest {d : Double} (h : d.IsFinite) : IsNearest d.shortest.value d := by
  rw [shortest]
  split
  · rename_i hzero
    have hvalue : Decimal.value ⟨0, 0⟩ = d.magnitude := by
      rw [Decimal.value, magnitude, hzero, Nat.cast_zero, zero_mul, zero_mul]
    rw [hvalue]
    exact isNearest_self h
  · rw [Decimal.value_stripZeros]
    generalize (List.range 17).flatMap _ = candidates
    cases hfound : candidates.find? d.isRead with
    | none =>
      rw [Option.getD_none, value_exactDecimal]
      exact isNearest_self h
    | some decimal =>
      have hread : d.isRead decimal = true := List.find?_some hfound
      exact (isNearest_of_ofDecimal (beq_iff_eq.mp hread)).1

example : shortest ⟨false, 1, -1074⟩ = ⟨5, -324⟩ := by decide +kernel

/-- What reads back as another number than zero is not zero. -/
theorem value_ne_zero_of_isRead {d : Double} {decimal : Decimal} (h : d.isRead decimal = true)
    (hmantissa : d.mantissa ≠ 0) : decimal.value ≠ 0 := by
  intro hvalue
  rw [Decimal.value, mul_eq_zero, Nat.cast_eq_zero] at hvalue
  have hdigits := hvalue.resolve_right (zpow_ne_zero _ (by norm_num))
  have hread : ofDecimal d.negative decimal.digits decimal.exponent = some d := beq_iff_eq.mp h
  rw [ofDecimal, if_pos (.inl hdigits)] at hread
  exact hmantissa (congrArg mantissa (Option.some.inj hread)).symm

/-- Only for a zero the digit zero is printed, and then without a power of ten. -/
theorem exponent_shortest_le {d : Double} (h : d.shortest.digits = 0) : d.shortest.exponent ≤ 0 := by
  by_cases hmantissa : d.mantissa = 0
  · rw [shortest, if_pos hmantissa]
  · have hvalue : d.shortest.value = 0 := by
      rw [Decimal.value, h, Nat.cast_zero, zero_mul]
    rw [shortest, if_neg hmantissa, Decimal.value_stripZeros] at hvalue
    exfalso
    generalize (List.range 17).flatMap _ = candidates at hvalue
    cases hfound : candidates.find? d.isRead with
    | none =>
      rw [hfound, Option.getD_none, value_exactDecimal, magnitude, mul_eq_zero, Nat.cast_eq_zero] at hvalue
      exact hvalue.elim hmantissa (zpow_ne_zero _ two_ne_zero)
    | some decimal =>
      rw [hfound] at hvalue
      exact value_ne_zero_of_isRead (List.find?_some hfound) hmantissa hvalue

end Double

end SmithyKotlin

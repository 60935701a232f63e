import ScriptSyntax.Proofs.Number.Rounding

/-! Integers as binary floating point numbers. The number made of an integer below 2^1023 is
that integer rounded to 53 significant bits, and nothing made of digits is a NaN. -/
namespace ScriptSyntax

namespace Binary64

/-- A finite number that is this integer. -/
structure IsInteger (x : Binary64) (n : Nat) : Prop where
  finite : x.isFinite = true
  positive : x.isNegative = false
  value : x.significand * 2 ^ x.scale.toNat = n * 2 ^ (-x.scale).toNat

theorem IsInteger.unique {x : Binary64} {m n : Nat} (first : x.IsInteger m)
    (second : x.IsInteger n) : m = n :=
  Nat.eq_of_mul_eq_mul_right (Nat.two_pow_pos _) (first.value.symm.trans second.value)

section

variable {bits : Nat} (small : bits < 2047 * 2 ^ 52)

include small

theorem toNat_bits : bits.toUInt64.toNat = bits := by
  rw [Nat.toUInt64, UInt64.toNat_ofNat']
  exact Nat.mod_eq_of_lt (Nat.lt_trans small (by decide))

theorem exponentField_of_bits : exponentField ⟨bits.toUInt64⟩ = bits / 2 ^ 52 := by
  have field : bits / 2 ^ 52 < 2047 := (Nat.div_lt_iff_lt_mul (by decide)).mpr small
  rw [exponentField, toNat_bits small]
  exact Nat.mod_eq_of_lt (Nat.lt_trans field (by decide))

theorem fractionField_of_bits : fractionField ⟨bits.toUInt64⟩ = bits % 2 ^ 52 := by
  rw [fractionField, toNat_bits small]
  rfl

theorem isFinite_of_bits : isFinite ⟨bits.toUInt64⟩ = true := by
  rw [isFinite, exponentField_of_bits small, decide_eq_true_eq]
  exact (Nat.div_lt_iff_lt_mul (by decide)).mpr small

theorem isNegative_of_bits : isNegative ⟨bits.toUInt64⟩ = false := by
  rw [isNegative, decide_eq_false_iff_not, UInt64.le_iff_toNat_le, toNat_bits small]
  exact Nat.not_le_of_lt (Nat.lt_trans small (by decide))

end

theorem isNaN_of_isFinite {x : Binary64} (finite : x.isFinite = true) : x.isNaN = false := by
  have field : x.exponentField < 2047 := by simpa [isFinite] using finite
  simp [isNaN, Nat.ne_of_lt field]

theorem assemble_isNaN (significand : Nat) (scale : Int) :
    (assemble significand scale).isNaN = false := by
  unfold assemble
  dsimp only
  split
  · next small => exact isNaN_of_isFinite (isFinite_of_bits small)
  · decide

theorem ofQuotient_isNaN (numerator denominator : Nat) :
    (ofQuotient numerator denominator).isNaN = false := by
  unfold ofQuotient
  split
  · decide
  · exact assemble_isNaN _ _

theorem ofNat_isNaN (n : Nat) : (ofNat n).isNaN = false := ofQuotient_isNaN n 1

theorem ofDecimal_isNaN (digits : Nat) (exponent : Int) :
    (ofDecimal digits exponent).isNaN = false := by
  unfold ofDecimal
  dsimp only
  repeat' split
  · decide
  · decide
  · decide
  · exact ofQuotient_isNaN _ _
  · exact ofQuotient_isNaN _ _

/-- A number of 53 bits at a scale within bounds is the finite number it is meant to be. -/
theorem assemble_isInteger {leading n : Nat} {scale : Int} (least : 2 ^ 52 ≤ leading)
    (bound : leading < 2 ^ 53) (low : -1074 ≤ scale) (high : scale ≤ 971)
    (value : leading * 2 ^ scale.toNat = n * 2 ^ (-scale).toNat) :
    (assemble leading scale).IsInteger n := by
  obtain ⟨place, placed⟩ : ∃ place : Nat, scale + 1074 = place :=
    ⟨_, (Int.toNat_of_nonneg (by omega)).symm⟩
  have field : place < 2046 := by omega
  have split : place * 2 ^ 52 + leading = (place + 1) * 2 ^ 52 + (leading - 2 ^ 52) := by omega
  have small : place * 2 ^ 52 + leading < 2047 * 2 ^ 52 := by omega
  have whole : assemble leading scale = ⟨(place * 2 ^ 52 + leading).toUInt64⟩ := by
    rw [assemble, placed]
    exact if_pos small
  have exponent : (assemble leading scale).exponentField = place + 1 := by
    rw [whole, exponentField_of_bits small, split]
    omega
  have fraction : (assemble leading scale).fractionField = leading - 2 ^ 52 := by
    rw [whole, fractionField_of_bits small, split]
    omega
  have sameScale : (assemble leading scale).scale = scale := by
    rw [Binary64.scale, exponent]
    omega
  have sameLeading : (assemble leading scale).significand = leading := by
    rw [significand, exponent, fraction, if_neg (Nat.succ_ne_zero place)]
    exact Nat.add_sub_cancel' least
  refine ⟨?_, ?_, ?_⟩
  · rw [whole]
    exact isFinite_of_bits small
  · rw [whole]
    exact isNegative_of_bits small
  · rw [sameScale, sameLeading, value]

/-- Where rounding up carries into a new bit, the scale is one higher. -/
theorem assemble_carry (excess : Nat) :
    assemble (2 ^ 53) excess = assemble (2 ^ 52) (excess + 1 : Nat) := by
  have same : ((excess : Int) + 1074).toNat * Nat.pow 2 52 + 2 ^ 53 =
      (((excess + 1 : Nat) : Int) + 1074).toNat * Nat.pow 2 52 + 2 ^ 52 := by
    simp only [Nat.pow_eq]
    omega
  simp only [assemble, same]

/-- The scale of an integer leaves 53 bits before the point. -/
theorem scaleFor_one {n : Nat} (nonzero : n ≠ 0) : scaleFor n 1 = (n.log2 : Int) - 52 := by
  have one : Nat.log2 1 = 0 := by decide
  have least := Nat.log2_self_le nonzero
  have fits (guess : Int) (last : guess = n.log2 - 53) :
      if 0 ≤ guess then 1 * Nat.pow 2 (53 + guess.toNat) ≤ n
      else 1 * Nat.pow 2 53 ≤ n * Nat.pow 2 (-guess).toNat := by
    split
    · next large =>
      have bits : 53 + guess.toNat = n.log2 := by omega
      rw [bits, Nat.one_mul]
      exact least
    · next small =>
      have bits : n.log2 + (-guess).toNat = 53 := by omega
      calc 1 * Nat.pow 2 53 = 2 ^ n.log2 * 2 ^ (-guess).toNat := by
            rw [← Nat.pow_add, bits, Nat.one_mul]
        _ ≤ n * Nat.pow 2 (-guess).toNat := Nat.mul_le_mul_right _ least
  rw [scaleFor, if_pos (fits _ (by rw [one, Nat.cast_zero, sub_zero])), one]
  omega

theorem ofNat_of_leading {n leading excess behind : Nat} (leads : Leading n leading excess behind) :
    ofNat n = assemble (roundQuotient n (2 ^ excess)) excess := by
  have nonzero : n ≠ 0 := by
    have least := Nat.two_pow_pos (52 + excess)
    have lower := leads.lower_le
    omega
  have scale : scaleFor n 1 = excess := by
    rw [scaleFor_one nonzero, leads.log2_eq]
    omega
  rw [ofNat, ofQuotient, if_neg nonzero, scale]
  simp only [Int.natCast_nonneg, if_true, Int.toNat_natCast, Nat.one_mul, Nat.pow_eq]

/-- A small integer is moved up until it has 53 bits. -/
theorem ofNat_of_small {n : Nat} (nonzero : n ≠ 0) (small : n.log2 < 52) :
    ofNat n = assemble (n * 2 ^ (52 - n.log2)) ((n.log2 : Int) - 52) := by
  have negative : ¬ 0 ≤ (n.log2 : Int) - 52 := by omega
  have bits : (-((n.log2 : Int) - 52)).toNat = 52 - n.log2 := by omega
  rw [ofNat, ofQuotient, if_neg nonzero, scaleFor_one nonzero]
  simp only [if_neg negative, bits, roundQuotient_one, Nat.pow_eq]

/-- Rounding goes to one of the two neighbours. -/
theorem roundQuotient_of_leading {n leading excess behind : Nat}
    (leads : Leading n leading excess behind) :
    roundQuotient n (2 ^ excess) * 2 ^ excess = roundTo53Bits n ∧
      2 ^ 52 ≤ roundQuotient n (2 ^ excess) ∧ roundQuotient n (2 ^ excess) ≤ 2 ^ 53 := by
  have rounded := roundQuotient_eq leading leads.behind_lt
  have least := leads.least
  have bound := leads.bound
  rw [← leads.split] at rounded
  refine ⟨?_, ?_, ?_⟩
  · rw [leads.roundTo53Bits_eq, rounded]
  · rw [rounded]
    split_ifs <;> omega
  · rw [rounded]
    split_ifs <;> omega

/-- The number made of an integer is the integer rounded to 53 significant bits. -/
theorem ofNat_isInteger {n : Nat} (bounded : n < 2 ^ 1023) :
    (ofNat n).IsInteger (roundTo53Bits n) := by
  by_cases zero : n = 0
  · subst zero
    rw [roundTo53Bits_of_lt (Nat.two_pow_pos 53)]
    have value : (ofNat 0).significand = 0 := by decide
    exact ⟨by decide, by decide, by rw [value, Nat.zero_mul, Nat.zero_mul]⟩
  rcases Nat.lt_or_ge n (2 ^ 52) with small | large
  · have bits : n.log2 < 52 := (Nat.log2_lt zero).mpr small
    have least : 2 ^ 52 ≤ n * 2 ^ (52 - n.log2) := by
      calc 2 ^ 52 = 2 ^ n.log2 * 2 ^ (52 - n.log2) := by
            rw [← Nat.pow_add, Nat.add_sub_cancel' bits.le]
        _ ≤ n * 2 ^ (52 - n.log2) := Nat.mul_le_mul_right _ (Nat.log2_self_le zero)
    have bound : n * 2 ^ (52 - n.log2) < 2 ^ 53 := by
      calc n * 2 ^ (52 - n.log2)
          < 2 ^ (n.log2 + 1) * 2 ^ (52 - n.log2) :=
            Nat.mul_lt_mul_of_pos_right Nat.lt_log2_self (Nat.two_pow_pos _)
        _ = 2 ^ 53 := by rw [← Nat.pow_add, show n.log2 + 1 + (52 - n.log2) = 53 by omega]
    rw [roundTo53Bits_of_lt (by omega), ofNat_of_small zero bits]
    apply assemble_isInteger least bound (by omega) (by omega)
    have up : ((n.log2 : Int) - 52).toNat = 0 := by omega
    have down : (-((n.log2 : Int) - 52)).toNat = 52 - n.log2 := by omega
    rw [up, down, Nat.pow_zero, Nat.mul_one]
  · obtain ⟨leading, behind, leads⟩ := exists_leading large
    generalize n.log2 - 52 = excess at leads
    have within : excess ≤ 970 := by
      have lower := Nat.lt_of_le_of_lt leads.lower_le bounded
      have exponents := (Nat.pow_lt_pow_iff_right (by decide)).mp lower
      omega
    obtain ⟨value, least, bound⟩ := roundQuotient_of_leading leads
    have up : ((excess : Int)).toNat = excess := Int.toNat_natCast _
    have down : (-(excess : Int)).toNat = 0 := by omega
    rw [ofNat_of_leading leads]
    rcases Nat.lt_or_eq_of_le bound with below | carry
    · apply assemble_isInteger least below (by omega) (by omega)
      rw [up, down, value, Nat.pow_zero, Nat.mul_one]
    · rw [carry, assemble_carry]
      apply assemble_isInteger (Nat.le_refl _) (by decide) (by omega) (by omega)
      have down : (-((excess + 1 : Nat) : Int)).toNat = 0 := by omega
      rw [← value, carry, down, Int.toNat_natCast, Nat.pow_zero, Nat.mul_one, Nat.pow_succ]
      ring

theorem ofNat_mul {leading : Nat} (least : 2 ^ 52 ≤ leading) (bound : leading < 2 ^ 53)
    (excess : Nat) : ofNat (leading * 2 ^ excess) = assemble leading excess := by
  have leads : Leading (leading * 2 ^ excess) leading excess 0 :=
    ⟨rfl, least, bound, Nat.two_pow_pos _⟩
  have whole := roundQuotient_eq leading (Nat.two_pow_pos excess)
  rw [if_pos (Nat.two_pow_pos _), Nat.add_zero] at whole
  rw [ofNat_of_leading leads, whole]

/-- An integer and what it is rounded to make the same number. -/
theorem ofNat_roundTo53Bits (n : Nat) : ofNat (roundTo53Bits n) = ofNat n := by
  rcases Nat.lt_or_ge n (2 ^ 52) with small | large
  · rw [roundTo53Bits_of_lt (by omega)]
  · obtain ⟨leading, behind, leads⟩ := exists_leading large
    generalize n.log2 - 52 = excess at leads
    obtain ⟨value, least, bound⟩ := roundQuotient_of_leading leads
    rw [ofNat_of_leading leads, ← value]
    rcases Nat.lt_or_eq_of_le bound with below | carry
    · exact ofNat_mul least below excess
    · have up : 2 ^ 53 * 2 ^ excess = 2 ^ 52 * 2 ^ (excess + 1) := by
        rw [Nat.pow_succ]
        ring
      rw [carry, up, ofNat_mul (Nat.le_refl _) (by decide), assemble_carry]

end Binary64

end ScriptSyntax

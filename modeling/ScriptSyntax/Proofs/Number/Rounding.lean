import ScriptSyntax.Number.Binary64
import Mathlib.Tactic.Ring

/-! Rounding integers to 53 significant bits. What is behind the leading bits decides between
two neighbours, and the number made of an integer is the neighbour it is rounded to. -/
namespace ScriptSyntax

theorem roundQuotient_eq (quotient : Nat) {remainder denominator : Nat}
    (small : remainder < denominator) :
    roundQuotient (quotient * denominator + remainder) denominator =
      if 2 * remainder < denominator then quotient
      else if denominator < 2 * remainder then quotient + 1
      else quotient + quotient % 2 := by
  have positive : 0 < denominator := Nat.zero_lt_of_lt small
  have whole : (quotient * denominator + remainder) / denominator = quotient := by
    rw [Nat.add_comm, Nat.add_mul_div_right _ _ positive, Nat.div_eq_of_lt small, Nat.zero_add]
  have left : (quotient * denominator + remainder) % denominator = remainder := by
    rw [Nat.add_comm, Nat.add_mul_mod_self_right, Nat.mod_eq_of_lt small]
  simp only [roundQuotient, whole, left]

theorem roundQuotient_one (n : Nat) : roundQuotient n 1 = n := by
  simpa using roundQuotient_eq n Nat.zero_lt_one

/-- The 53 leading bits of an integer, how many bits are behind them, and their value. -/
structure Leading (n leading excess behind : Nat) : Prop where
  split : n = leading * 2 ^ excess + behind
  least : 2 ^ 52 ≤ leading
  bound : leading < 2 ^ 53
  behind_lt : behind < 2 ^ excess

/-- The integer stands in the middle between two neighbours of 53 bits and goes to the lower,
which is the even one. -/
def TiesDown (n : Nat) : Prop :=
  ∃ lower scale, 2 ^ 52 ≤ lower ∧ lower < 2 ^ 53 ∧ lower % 2 = 0 ∧ n = (2 * lower + 1) * 2 ^ scale

theorem exists_leading {n : Nat} (large : 2 ^ 52 ≤ n) :
    ∃ leading behind, Leading n leading (n.log2 - 52) behind := by
  have nonzero : n ≠ 0 := by omega
  have bits : 52 ≤ n.log2 := (Nat.le_log2 nonzero).mpr large
  have positive : 0 < 2 ^ (n.log2 - 52) := Nat.two_pow_pos _
  have lower : 2 ^ 52 * 2 ^ (n.log2 - 52) ≤ n := by
    rw [← Nat.pow_add, Nat.add_sub_cancel' bits]
    exact Nat.log2_self_le nonzero
  have upper : n < 2 ^ 53 * 2 ^ (n.log2 - 52) := by
    rw [← Nat.pow_add, show 53 + (n.log2 - 52) = n.log2 + 1 by omega]
    exact Nat.lt_log2_self
  exact ⟨_, _, (Nat.div_add_mod' n _).symm, (Nat.le_div_iff_mul_le positive).mpr lower,
    (Nat.div_lt_iff_lt_mul positive).mpr upper, Nat.mod_lt n positive⟩

namespace Leading

variable {n leading excess behind : Nat}

theorem lower_le (leads : Leading n leading excess behind) : 2 ^ (52 + excess) ≤ n := by
  rw [Nat.pow_add, leads.split]
  exact Nat.le_add_right_of_le (Nat.mul_le_mul_right _ leads.least)

theorem lt_upper (leads : Leading n leading excess behind) : n < 2 ^ (52 + excess + 1) := by
  calc n = leading * 2 ^ excess + behind := leads.split
    _ < leading * 2 ^ excess + 2 ^ excess := Nat.add_lt_add_left leads.behind_lt _
    _ = (leading + 1) * 2 ^ excess := (Nat.succ_mul _ _).symm
    _ ≤ 2 ^ 53 * 2 ^ excess := Nat.mul_le_mul_right _ leads.bound
    _ = 2 ^ (52 + excess + 1) := by rw [← Nat.pow_add, Nat.add_right_comm]

theorem log2_eq (leads : Leading n leading excess behind) : n.log2 = 52 + excess := by
  have lower := leads.lower_le
  have nonzero : n ≠ 0 := Nat.pos_iff_ne_zero.mp (Nat.lt_of_lt_of_le (Nat.two_pow_pos _) lower)
  exact (Nat.log2_eq_iff nonzero).mpr ⟨lower, leads.lt_upper⟩

theorem roundTo53Bits_eq (leads : Leading n leading excess behind) :
    roundTo53Bits n =
      (if 2 * behind < 2 ^ excess then leading
        else if 2 ^ excess < 2 * behind then leading + 1
        else leading + leading % 2) * 2 ^ excess := by
  have bits : n.log2 - 52 = excess := by rw [leads.log2_eq, Nat.add_sub_cancel_left]
  have rounded := roundQuotient_eq leading leads.behind_lt
  rw [← leads.split] at rounded
  rw [roundTo53Bits, bits]
  exact congrArg (· * 2 ^ excess) rounded

theorem rounds_down (leads : Leading n leading excess behind) (low : 2 * behind < 2 ^ excess) :
    roundTo53Bits n = leading * 2 ^ excess := by
  rw [leads.roundTo53Bits_eq, if_pos low]

theorem rounds_up (leads : Leading n leading excess behind) (high : 2 ^ excess < 2 * behind) :
    roundTo53Bits n = (leading + 1) * 2 ^ excess := by
  rw [leads.roundTo53Bits_eq, if_neg (by omega), if_pos high]

theorem rounds_to_even (leads : Leading n leading excess behind)
    (middle : 2 * behind = 2 ^ excess) :
    roundTo53Bits n = (leading + leading % 2) * 2 ^ excess := by
  rw [leads.roundTo53Bits_eq, if_neg (by omega), if_neg (by omega)]

/-- More bits below leave the leading ones as they are. -/
theorem shift (leads : Leading n leading excess behind) {bits low : Nat} (small : low < 2 ^ bits) :
    Leading (n * 2 ^ bits + low) leading (excess + bits) (behind * 2 ^ bits + low) where
  split := by
    rw [leads.split, Nat.pow_add]
    ring
  least := leads.least
  bound := leads.bound
  behind_lt := by
    calc behind * 2 ^ bits + low
        < behind * 2 ^ bits + 2 ^ bits := Nat.add_lt_add_left small _
      _ = (behind + 1) * 2 ^ bits := (Nat.succ_mul _ _).symm
      _ ≤ 2 ^ excess * 2 ^ bits := Nat.mul_le_mul_right _ leads.behind_lt
      _ = 2 ^ (excess + bits) := (Nat.pow_add ..).symm

/-- The middle between two neighbours, where the lower one is even. -/
theorem tiesDown (leads : Leading n leading excess behind) (even : leading % 2 = 0)
    (middle : 2 * behind = 2 ^ excess) (cut : 0 < excess) : TiesDown n := by
  obtain ⟨scale, rfl⟩ : ∃ scale, excess = scale + 1 := ⟨excess - 1, by omega⟩
  have half : behind = 2 ^ scale := by
    rw [Nat.pow_succ] at middle
    omega
  refine ⟨leading, scale, leads.least, leads.bound, even, ?_⟩
  rw [leads.split, half, Nat.pow_succ]
  ring

/-- Bits read on later change nothing but a tie that goes down. -/
theorem round_shift (leads : Leading n leading excess behind) (cut : 0 < excess)
    {bits low : Nat} (small : low < 2 ^ bits) (settled : TiesDown n → low = 0) :
    roundTo53Bits (n * 2 ^ bits + low) = roundTo53Bits n * 2 ^ bits := by
  have further := leads.shift small
  have power : 2 ^ (excess + bits) = 2 ^ excess * 2 ^ bits := Nat.pow_add ..
  have even : 2 ∣ 2 ^ excess := dvd_pow_self 2 (Nat.pos_iff_ne_zero.mp cut)
  rcases Nat.lt_trichotomy (2 * behind) (2 ^ excess) with under | middle | past
  · have room : 2 * (behind * 2 ^ bits) + 2 * 2 ^ bits ≤ 2 ^ (excess + bits) := by
      rw [power, ← Nat.mul_assoc, ← Nat.add_mul]
      exact Nat.mul_le_mul_right _ (by omega)
    rw [leads.rounds_down under, further.rounds_down (by omega), power, Nat.mul_assoc]
  · have level : 2 * (behind * 2 ^ bits) = 2 ^ (excess + bits) := by
      rw [power, ← middle, Nat.mul_assoc]
    by_cases more : low = 0
    · rw [leads.rounds_to_even middle, further.rounds_to_even (by omega), power, Nat.mul_assoc]
    · have odd : leading % 2 = 1 := by
        by_contra even
        exact more (settled (leads.tiesDown (by omega) middle cut))
      rw [leads.rounds_to_even middle, odd, further.rounds_up (by omega), power, Nat.mul_assoc]
  · have room : 2 ^ (excess + bits) < 2 * (behind * 2 ^ bits) := by
      rw [power, ← Nat.mul_assoc]
      exact Nat.mul_lt_mul_of_pos_right past (Nat.two_pow_pos bits)
    rw [leads.rounds_up past, further.rounds_up (by omega), power, Nat.mul_assoc]

end Leading

theorem TiesDown.leading {n : Nat} (ties : TiesDown n) :
    ∃ lower scale, lower % 2 = 0 ∧ Leading n lower (scale + 1) (2 ^ scale) := by
  obtain ⟨lower, scale, least, bound, even, rfl⟩ := ties
  refine ⟨lower, scale, even, ?_, least, bound, Nat.pow_lt_pow_succ (by decide)⟩
  rw [Nat.pow_succ]
  ring

/-- A tie stays one when only zeros follow. -/
theorem TiesDown.shift {n : Nat} (ties : TiesDown n) (bits : Nat) : TiesDown (n * 2 ^ bits) := by
  obtain ⟨lower, scale, least, bound, even, rfl⟩ := ties
  exact ⟨lower, scale + bits, least, bound, even, by rw [Nat.pow_add, Nat.mul_assoc]⟩

theorem roundTo53Bits_of_lt {n : Nat} (small : n < 2 ^ 53) : roundTo53Bits n = n := by
  have bits : n.log2 - 52 = 0 := by
    by_cases zero : n = 0
    · subst zero
      rfl
    · have bound : n.log2 < 53 := (Nat.log2_lt zero).mpr small
      omega
  rw [roundTo53Bits, bits]
  exact (Nat.mul_one _).trans (roundQuotient_one n)

/-- An integer with 53 leading bits and only zeros behind them, of which there are some. -/
def Coarse (n : Nat) : Prop := ∃ leading excess, 0 < excess ∧ Leading n leading excess 0

theorem coarse_mul {leading excess : Nat} (least : 2 ^ 52 ≤ leading) (bound : leading ≤ 2 ^ 53)
    (cut : 0 < excess) : Coarse (leading * 2 ^ excess) := by
  rcases Nat.lt_or_eq_of_le bound with below | rfl
  · exact ⟨leading, excess, cut, rfl, least, below, Nat.two_pow_pos _⟩
  · refine ⟨2 ^ 52, excess + 1, Nat.succ_pos _, ?_, Nat.le_refl _, by decide, Nat.two_pow_pos _⟩
    rw [Nat.pow_succ]
    ring

theorem coarse_roundTo53Bits {n : Nat} (large : 2 ^ 53 ≤ n) : Coarse (roundTo53Bits n) := by
  obtain ⟨leading, behind, leads⟩ := exists_leading (Nat.le_trans (by decide) large)
  have bits : 53 ≤ n.log2 := (Nat.le_log2 (by omega)).mpr large
  have least := leads.least
  have bound := leads.bound
  rw [leads.roundTo53Bits_eq]
  apply coarse_mul _ _ (by omega)
  · split_ifs <;> omega
  · split_ifs <;> omega

/-- What follows a coarse integer is less than half the distance to its neighbour. -/
theorem Coarse.absorb {n bits low : Nat} (coarse : Coarse n) (small : low < 2 ^ bits) :
    roundTo53Bits (n * 2 ^ bits + low) = n * 2 ^ bits := by
  obtain ⟨leading, excess, cut, leads⟩ := coarse
  have tiny : 2 * (0 * 2 ^ bits + low) < 2 ^ (excess + bits) := by
    calc 2 * (0 * 2 ^ bits + low) < 2 * 2 ^ bits := by omega
      _ = 2 ^ (1 + bits) := by rw [Nat.pow_add, Nat.pow_one]
      _ ≤ 2 ^ (excess + bits) := Nat.pow_le_pow_right (by decide) (by omega)
  rw [(leads.shift small).rounds_down tiny, leads.split, Nat.pow_add]
  ring

theorem Coarse.roundTo53Bits_eq {n : Nat} (coarse : Coarse n) : roundTo53Bits n = n := by
  simpa using coarse.absorb (Nat.two_pow_pos 0)

@[simp] theorem roundTo53Bits_idem (n : Nat) :
    roundTo53Bits (roundTo53Bits n) = roundTo53Bits n := by
  rcases Nat.lt_or_ge n (2 ^ 53) with small | large
  · rw [roundTo53Bits_of_lt small, roundTo53Bits_of_lt small]
  · exact (coarse_roundTo53Bits large).roundTo53Bits_eq

end ScriptSyntax

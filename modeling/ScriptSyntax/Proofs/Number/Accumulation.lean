import ScriptSyntax.Lexeme.Numeral
import ScriptSyntax.Proofs.Number.Rounding
import Mathlib.Data.List.Induction

/-! Rounding at every digit. Digits of a power-of-two base that are summed up with a rounding at
each step give the integer they spell, rounded once, unless a tie goes down before the last
digit that is not zero. -/
namespace ScriptSyntax

namespace Numeral

/-- The integer spelled by digits, the highest first. -/
def valueIn (base : Nat) (digits : List Nat) : Nat :=
  digits.foldl (fun value digit => value * base + digit) 0

/-- The digits up to some place are a tie that goes down, and a digit behind it is not zero. -/
def CutsTie (base : Nat) (digits : List Nat) : Prop :=
  ∃ head tail, digits = head ++ tail ∧ TiesDown (valueIn base head) ∧ 0 < valueIn base tail

theorem valueIn_concat (base : Nat) (digits : List Nat) (digit : Nat) :
    valueIn base (digits ++ [digit]) = valueIn base digits * base + digit := by
  simp [valueIn]

theorem accumulate_concat (base : Nat) (digits : List Nat) (digit : Nat) :
    accumulate base (digits ++ [digit]) =
      roundTo53Bits (accumulate base digits * base + digit) := by
  simp [accumulate]

theorem valueIn_append (base : Nat) (head tail : List Nat) :
    valueIn base (head ++ tail) = valueIn base head * base ^ tail.length + valueIn base tail := by
  induction tail using List.reverseRecOn with
  | nil => simp [valueIn]
  | append_singleton tail digit ih =>
    rw [← List.append_assoc, valueIn_concat, ih, valueIn_concat, List.length_append,
      List.length_singleton, Nat.pow_succ]
    ring

section

variable {bits digit : Nat} {digits : List Nat}

theorem CutsTie.append (cuts : CutsTie (2 ^ bits) digits) (digit : Nat) :
    CutsTie (2 ^ bits) (digits ++ [digit]) := by
  obtain ⟨head, tail, rfl, ties, more⟩ := cuts
  refine ⟨head, tail ++ [digit], List.append_assoc .., ties, ?_⟩
  rw [valueIn_concat]
  exact Nat.add_pos_left (Nat.mul_pos more (Nat.two_pow_pos bits)) digit

theorem cutsTie_of_tie (ties : TiesDown (valueIn (2 ^ bits) digits)) (more : digit ≠ 0) :
    CutsTie (2 ^ bits) (digits ++ [digit]) := by
  refine ⟨digits, [digit], rfl, ties, ?_⟩
  rw [← List.nil_append [digit], valueIn_concat]
  exact Nat.add_pos_right _ (Nat.pos_of_ne_zero more)

/-- A tie that is cut was cut before the last digit, or is cut by it. -/
theorem CutsTie.cases (cuts : CutsTie (2 ^ bits) (digits ++ [digit])) :
    CutsTie (2 ^ bits) digits ∨ TiesDown (valueIn (2 ^ bits) digits) ∧ digit ≠ 0 := by
  obtain ⟨head, tail, split, ties, more⟩ := cuts
  rcases List.eq_nil_or_concat tail with rfl | ⟨before, last, rfl⟩
  · exact absurd more (Nat.lt_irrefl 0)
  rw [List.concat_eq_append] at split more
  rw [← List.append_assoc] at split
  obtain ⟨rfl, same⟩ := List.append_inj' split rfl
  obtain rfl := List.singleton_inj.mp same
  by_cases early : 0 < valueIn (2 ^ bits) before
  · exact .inl ⟨head, before, rfl, ties, early⟩
  · have none : valueIn (2 ^ bits) before = 0 := Nat.eq_zero_of_not_pos early
    rw [valueIn_concat, none, Nat.zero_mul, Nat.zero_add] at more
    refine .inr ⟨?_, Nat.pos_iff_ne_zero.mp more⟩
    rw [valueIn_append, none, Nat.add_zero, ← Nat.pow_mul]
    exact ties.shift _

/-- The sum so far is the integer rounded once, or the neighbour below the one it is rounded to. -/
structure Sums (bits : Nat) (digits : List Nat) : Prop where
  rounded : ¬ CutsTie (2 ^ bits) digits →
    accumulate (2 ^ bits) digits = roundTo53Bits (valueIn (2 ^ bits) digits)
  low : CutsTie (2 ^ bits) digits → ∃ leading excess behind,
    Leading (valueIn (2 ^ bits) digits) leading excess behind ∧
    2 ^ excess < 2 * behind ∧ accumulate (2 ^ bits) digits = leading * 2 ^ excess

/-- A sum that has gone to the lower neighbour stays there. -/
theorem Sums.concat_of_cutsTie (sums : Sums bits digits) (small : digit < 2 ^ bits)
    (cuts : CutsTie (2 ^ bits) digits) : Sums bits (digits ++ [digit]) where
  rounded settled := absurd (cuts.append digit) settled
  low _ := by
    obtain ⟨leading, excess, behind, leads, past, sum⟩ := sums.low cuts
    have cut : 0 < excess := by
      by_contra none
      have behind_lt := leads.behind_lt
      rw [Nat.eq_zero_of_not_pos none] at past behind_lt
      omega
    have coarse : Coarse (accumulate (2 ^ bits) digits) :=
      sum ▸ coarse_mul leads.least leads.bound.le cut
    refine ⟨leading, excess + bits, _, valueIn_concat .. ▸ leads.shift small, ?_, ?_⟩
    · have room : 2 ^ excess * 2 ^ bits < 2 * behind * 2 ^ bits :=
        Nat.mul_lt_mul_of_pos_right past (Nat.two_pow_pos bits)
      rw [Nat.pow_add, Nat.mul_add, ← Nat.mul_assoc]
      exact Nat.lt_add_right _ room
    · rw [accumulate_concat, coarse.absorb small, sum, Nat.pow_add, Nat.mul_assoc]

theorem Sums.concat_of_tie (sums : Sums bits digits) (small : digit < 2 ^ bits)
    (whole : ¬ CutsTie (2 ^ bits) digits) (ties : TiesDown (valueIn (2 ^ bits) digits))
    (more : digit ≠ 0) : Sums bits (digits ++ [digit]) where
  rounded settled := absurd (cutsTie_of_tie ties more) settled
  low _ := by
    obtain ⟨lower, scale, even, leads⟩ := ties.leading
    have down : accumulate (2 ^ bits) digits = lower * 2 ^ (scale + 1) := by
      rw [sums.rounded whole, leads.rounds_to_even (by rw [Nat.pow_succ, Nat.mul_comm]), even,
        Nat.add_zero]
    have coarse : Coarse (accumulate (2 ^ bits) digits) :=
      down ▸ coarse_mul leads.least leads.bound.le (Nat.succ_pos _)
    refine ⟨lower, scale + 1 + bits, _, valueIn_concat .. ▸ leads.shift small, ?_, ?_⟩
    · have middle : 2 * (2 ^ scale * 2 ^ bits) = 2 ^ (scale + 1 + bits) := by
        rw [Nat.pow_add, Nat.pow_succ]
        ring
      omega
    · rw [accumulate_concat, coarse.absorb small, down, Nat.pow_add _ (scale + 1), Nat.mul_assoc]

theorem Sums.concat_of_settled (sums : Sums bits digits) (small : digit < 2 ^ bits)
    (whole : ¬ CutsTie (2 ^ bits) digits)
    (settled : TiesDown (valueIn (2 ^ bits) digits) → digit = 0) :
    Sums bits (digits ++ [digit]) where
  rounded _ := by
    rw [accumulate_concat, valueIn_concat, sums.rounded whole]
    rcases Nat.lt_or_ge (valueIn (2 ^ bits) digits) (2 ^ 53) with exact_ | large
    · rw [roundTo53Bits_of_lt exact_]
    · obtain ⟨leading, behind, leads⟩ := exists_leading (Nat.le_trans (by decide) large)
      have cut : 53 ≤ (valueIn (2 ^ bits) digits).log2 :=
        (Nat.le_log2 (Nat.pos_iff_ne_zero.mp (Nat.lt_of_lt_of_le (by decide) large))).mpr large
      rw [leads.round_shift (by omega) small settled, (coarse_roundTo53Bits large).absorb small]
  low cuts := by
    rcases cuts.cases with early | ⟨ties, more⟩
    · exact absurd early whole
    · exact absurd (settled ties) more

theorem sums (bits : Nat) {digits : List Nat} (small : ∀ digit ∈ digits, digit < 2 ^ bits) :
    Sums bits digits := by
  induction digits using List.reverseRecOn with
  | nil =>
    refine ⟨fun _ => (roundTo53Bits_of_lt (Nat.two_pow_pos 53)).symm, ?_⟩
    rintro ⟨head, tail, split, -, more⟩
    obtain ⟨-, rfl⟩ := List.append_eq_nil_iff.mp split.symm
    exact absurd more (Nat.lt_irrefl 0)
  | append_singleton digits digit ih =>
    have before := ih fun other member => small other (List.mem_append_left _ member)
    have last : digit < 2 ^ bits := small digit (List.mem_append_right _ List.mem_cons_self)
    -- a tie that goes down is the only sum so far that the next digit could still have lifted
    by_cases cuts : CutsTie (2 ^ bits) digits
    · exact before.concat_of_cutsTie last cuts
    by_cases tie : TiesDown (valueIn (2 ^ bits) digits) ∧ digit ≠ 0
    · exact before.concat_of_tie last cuts tie.1 tie.2
    · exact before.concat_of_settled last cuts fun ties => not_not.mp (not_and.mp tie ties)

variable (small : ∀ digit ∈ digits, digit < 2 ^ bits)

include small

/-- Where a tie is cut the sum is one unit of the last place too low. -/
theorem accumulate_of_cutsTie (cuts : CutsTie (2 ^ bits) digits) :
    accumulate (2 ^ bits) digits + 2 ^ ((valueIn (2 ^ bits) digits).log2 - 52) =
      roundTo53Bits (valueIn (2 ^ bits) digits) := by
  obtain ⟨leading, excess, behind, leads, past, sum⟩ := (sums bits small).low cuts
  rw [leads.rounds_up past, leads.log2_eq, Nat.add_sub_cancel_left, sum, Nat.succ_mul]

theorem accumulate_le_of_cutsTie (cuts : CutsTie (2 ^ bits) digits) :
    accumulate (2 ^ bits) digits ≤ valueIn (2 ^ bits) digits := by
  obtain ⟨leading, excess, behind, leads, -, sum⟩ := (sums bits small).low cuts
  rw [sum, leads.split]
  exact Nat.le_add_right _ _

theorem accumulate_eq_iff :
    accumulate (2 ^ bits) digits = roundTo53Bits (valueIn (2 ^ bits) digits) ↔
      ¬ CutsTie (2 ^ bits) digits := by
  refine ⟨fun same cuts => ?_, (sums bits small).rounded⟩
  have short := accumulate_of_cutsTie small cuts
  have unit := Nat.two_pow_pos ((valueIn (2 ^ bits) digits).log2 - 52)
  omega

end

theorem roundTo53Bits_accumulate (base : Nat) (digits : List Nat) :
    roundTo53Bits (accumulate base digits) = accumulate base digits := by
  induction digits using List.reverseRecOn with
  | nil => exact roundTo53Bits_of_lt (Nat.two_pow_pos 53)
  | append_singleton digits digit _ => rw [accumulate_concat, roundTo53Bits_idem]

end Numeral

end ScriptSyntax

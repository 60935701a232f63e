import ScriptSyntax.Proofs.Lexeme.Numerals
import ScriptSyntax.Proofs.Number.Accumulation

/-! One integer in several bases. Hexadecimal and octal numbers add their digits up with a
rounding at each; the same integer in decimal digits is rounded once. -/
namespace ScriptSyntax

open Numeral

/-- A number in a base that is a power of two, with the values of its digits. -/
inductive RadixAhead (text : List Char) : Nat → List Nat → Prop
  | hex {marker : Char} {digits : List Char} (ahead : HexAhead text marker digits) :
      RadixAhead text 4 (digits.filterMap hexValue?)
  | octal {digits : List Char} (ahead : OctalAhead text digits) :
      RadixAhead text 3 (digits.map digitValue)

/-- How far a character of a range is from the first. -/
theorem place_lt {first last c : Char} {count : Nat}
    (inside : (decide (first ≤ c) && decide (c ≤ last)) = true)
    (room : last.toNat - first.toNat < count) : c.toNat - first.toNat < count := by
  simp only [Bool.and_eq_true, decide_eq_true_eq, Char.le_def, UInt32.le_iff_toNat_le] at inside
  have upper : c.toNat ≤ last.toNat := inside.2
  omega

theorem hexValue?_lt {c : Char} {value : Nat} (found : hexValue? c = some value) : value < 16 := by
  unfold hexValue? at found
  split at found
  · next digit =>
    cases found
    exact place_lt digit (by decide)
  split at found
  · next lower =>
    cases found
    exact Nat.add_lt_add_right (place_lt lower (show 'f'.toNat - 'a'.toNat < 6 by decide)) 10
  split at found
  · next upper =>
    cases found
    exact Nat.add_lt_add_right (place_lt upper (show 'F'.toNat - 'A'.toNat < 6 by decide)) 10
  · cases found

namespace RadixAhead

variable {text : List Char} {bits : Nat} {digits : List Nat}

theorem beginsNumber (ahead : RadixAhead text bits digits) : BeginsNumber text := by
  cases ahead with
  | hex ahead =>
    obtain ⟨-, -⟩ := ahead
    exact .inl rfl
  | octal ahead =>
    obtain ⟨-, -⟩ := ahead
    exact .inl rfl

theorem number_read (ahead : RadixAhead text bits digits) :
    (Numeral.read text).number = .ofNat (accumulate (2 ^ bits) digits) := by
  cases ahead with
  | hex ahead =>
    rw [read_of_hexAhead ahead]
    rfl
  | octal ahead =>
    rw [read_of_octalAhead ahead]
    rfl

theorem digits_lt (ahead : RadixAhead text bits digits) : ∀ digit ∈ digits, digit < 2 ^ bits := by
  cases ahead with
  | hex ahead =>
    intro digit member
    obtain ⟨c, -, found⟩ := List.mem_filterMap.mp member
    exact hexValue?_lt found
  | octal ahead =>
    obtain ⟨-, all⟩ := ahead
    intro digit member
    obtain ⟨c, written, rfl⟩ := List.mem_map.mp member
    exact place_lt (all c written) (by decide)

end RadixAhead

namespace Numeral

/-- The number made of a sum is that sum. -/
theorem ofNat_accumulate_isInteger {bits : Nat} {digits : List Nat}
    (small : ∀ digit ∈ digits, digit < 2 ^ bits)
    (bounded : valueIn (2 ^ bits) digits < 2 ^ 1023) :
    (Binary64.ofNat (accumulate (2 ^ bits) digits)).IsInteger
      (accumulate (2 ^ bits) digits) := by
  by_cases cuts : CutsTie (2 ^ bits) digits
  · have low := Nat.lt_of_le_of_lt (accumulate_le_of_cutsTie small cuts) bounded
    have integer := Binary64.ofNat_isInteger low
    rwa [roundTo53Bits_accumulate] at integer
  · rw [(accumulate_eq_iff small).mpr cuts, Binary64.ofNat_roundTo53Bits]
    exact Binary64.ofNat_isInteger bounded

theorem isDecimalDigit_of_mem_toDigits {value : Nat} {c : Char}
    (member : c ∈ Nat.toDigits 10 value) : isDecimalDigit c = true :=
  Nat.isDigit_of_mem_toDigits (by decide) (Nat.le_refl 10) member

theorem decimalValue_toDigits (value : Nat) : decimalValue (Nat.toDigits 10 value) = value := by
  have back : Nat.ofDigitChars 10 (Nat.toDigits 10 value) 0 = value :=
    Nat.ofDigitChars_toDigits (by decide) (Nat.le_refl 10)
  simp only [Nat.ofDigitChars, Nat.mul_comm 10] at back
  exact back

/-- Only zero begins with a zero. -/
theorem head?_toDigits {value : Nat} (nonzero : value ≠ 0) :
    (Nat.toDigits 10 value).head? ≠ some '0' := by
  induction value using Nat.strongRecOn with
  | ind value ih =>
    rcases Nat.lt_or_ge value 10 with single | more
    · have digit : ∀ value < 10, value ≠ 0 → [value.digitChar].head? ≠ some '0' := by decide
      rw [Nat.toDigits_of_lt_base single]
      exact digit value single nonzero
    · rw [Nat.toDigits_of_base_le (by decide) more,
        List.head?_append_of_ne_nil _ Nat.toDigits_ne_nil]
      exact ih (value / 10) (by omega) (by omega)

theorem ofDecimal_number {value : Nat} (bounded : value < 2 ^ 1023) :
    Binary64.ofDecimal value 0 = .ofNat value := by
  have length : (Nat.toDigits 10 value).length ≤ 310 :=
    (Nat.length_toDigits_le_iff (by decide) (by decide)).mpr
      (Nat.lt_of_lt_of_le bounded (by decide +kernel))
  unfold Binary64.ofDecimal
  dsimp only
  split
  · next zero =>
    subst zero
    rfl
  rw [if_neg (by omega), if_neg (by omega), if_pos (Int.le_refl 0)]
  exact congrArg (Binary64.ofQuotient · 1) (Nat.mul_one value)

theorem beginsNumber_toDigits (value : Nat) : BeginsNumber (Nat.toDigits 10 value) := by
  cases digits : Nat.toDigits 10 value with
  | nil => exact absurd digits Nat.toDigits_ne_nil
  | cons first rest =>
    exact .inl (isDecimalDigit_of_mem_toDigits (digits ▸ List.mem_cons_self))

/-- An integer in decimal digits is read as the number nearest to it. -/
theorem read_toDigits {value : Nat} (bounded : value < 2 ^ 1023) :
    read (Nat.toDigits 10 value) =
      { digits := Nat.toDigits 10 value, number := .ofNat value } := by
  let literal : DecimalLiteral :=
    { whole := Nat.toDigits 10 value, fraction := none, exponent := none
      whole_decimal := fun _ => isDecimalDigit_of_mem_toDigits
      fraction_decimal := by simp
      nonempty := .inl Nat.toDigits_ne_nil }
  have text : literal.text = Nat.toDigits 10 value := by
    simp [literal, DecimalLiteral.text, DecimalLiteral.fractionText, DecimalLiteral.exponentText]
  have number : literal.number = .ofNat value := by
    have digits : decimalValue (literal.whole ++ []) = value := by
      rw [List.append_nil]
      exact decimalValue_toDigits value
    rw [← ofDecimal_number bounded]
    exact congrArg (Binary64.ofDecimal · 0) digits
  have decimal : read (Nat.toDigits 10 value) = ofDecimal (Nat.toDigits 10 value) := by
    by_cases zero : value = 0
    · subst zero
      rfl
    · obtain ⟨first, rest, digits⟩ :=
        List.exists_cons_of_ne_nil (Nat.toDigits_ne_nil (n := value) (b := 10))
      have nonzero := head?_toDigits zero
      rw [digits] at nonzero ⊢
      exact read_of_nonzero (fun same => nonzero (congrArg some same)) rest
  rw [decimal, ← number, ← text]
  exact literal.ofDecimal_text

end Numeral

end ScriptSyntax

import ScriptSyntax.Proofs.Lexeme.Sorts
import ScriptSyntax.Proofs.Number.Integers

/-! Numbers by their grammar. A number is hexadecimal, octal or the longest decimal literal at
the head of a text, and what is stuck to it is the run of identifier characters behind. -/
namespace ScriptSyntax

open Numeral

/-- The exponent of a decimal literal: a marker, a sign or none, and digits. -/
structure DecimalExponent where
  marker : Char
  sign : Option Char
  digits : List Char
  marks : marker = 'e' ∨ marker = 'E'
  signs : ∀ c ∈ sign, c = '+' ∨ c = '-'
  decimal : ∀ c ∈ digits, isDecimalDigit c = true
  nonempty : digits ≠ []

namespace DecimalExponent

def text (exponent : DecimalExponent) : List Char :=
  exponent.marker :: (exponent.sign.toList ++ exponent.digits)

def value (exponent : DecimalExponent) : Int :=
  if exponent.sign = some '-' then -(exponentSize exponent.digits : Int)
  else exponentSize exponent.digits

/-- An exponent is read as it stands. -/
theorem read_text (written : DecimalExponent) :
    Numeral.exponent written.text = written.text ∧
      exponentValue written.text = written.value := by
  obtain ⟨marker, sign, digits, marks, signs, decimal, nonempty⟩ := written
  have marked : marker == 'e' || marker == 'E' := by simpa using marks
  have run : digits.takeWhile isDecimalDigit = digits :=
    List.takeWhile_eq_self_iff.mpr decimal
  have some : digits.isEmpty = false := by simpa using nonempty
  cases sign with
  | none =>
    obtain ⟨d, more, rfl⟩ := List.exists_cons_of_ne_nil nonempty
    have digit : isDecimalDigit d = true := decimal d List.mem_cons_self
    have noPlus : d ≠ '+' := by rintro rfl; cases digit
    have noMinus : d ≠ '-' := by rintro rfl; cases digit
    have unsigned : Numeral.sign (d :: more) = [] := by simp [Numeral.sign, noPlus, noMinus]
    refine ⟨?_, ?_⟩
    · simp [text, exponent_of_marker marked, exponentDigits, unsigned, run]
    · simp [text, value, exponentValue, noPlus, noMinus]
  | some c =>
    rcases signs c rfl with rfl | rfl
    · refine ⟨?_, rfl⟩
      simp [text, exponent_of_marker marked, exponentDigits, Numeral.sign, run, nonempty]
    · refine ⟨?_, rfl⟩
      simp [text, exponent_of_marker marked, exponentDigits, Numeral.sign, run, nonempty]

end DecimalExponent

/-- A decimal literal: digits, with a point and more digits or without, or a point and digits;
behind them an exponent or none. -/
structure DecimalLiteral where
  whole : List Char
  fraction : Option (List Char)
  exponent : Option DecimalExponent
  whole_decimal : ∀ c ∈ whole, isDecimalDigit c = true
  fraction_decimal : ∀ digits ∈ fraction, ∀ c ∈ digits, isDecimalDigit c = true
  nonempty : whole ≠ [] ∨ ∃ digits ∈ fraction, digits ≠ []

namespace DecimalLiteral

def fractionText (literal : DecimalLiteral) : List Char :=
  literal.fraction.elim [] ('.' :: ·)

def exponentText (literal : DecimalLiteral) : List Char :=
  literal.exponent.elim [] (·.text)

def text (literal : DecimalLiteral) : List Char :=
  literal.whole ++ literal.fractionText ++ literal.exponentText

/-- The number nearest to what the literal spells, its exponent counted as `exponentSize` does. -/
def number (literal : DecimalLiteral) : Binary64 :=
  let fraction := literal.fraction.getD []
  .ofDecimal (decimalValue (literal.whole ++ fraction))
    (literal.exponent.elim 0 (·.value) - fraction.length)

/-- The longest literal that the text begins with. -/
structure IsLongest (literal : DecimalLiteral) (text : List Char) : Prop where
  isPrefix : literal.text <+: text
  longest : ∀ other : DecimalLiteral, other.text <+: text →
    other.text.length ≤ literal.text.length

variable (literal : DecimalLiteral)

theorem exponentText_head : ∀ c ∈ literal.exponentText.head?, c = 'e' ∨ c = 'E' := by
  intro c begins
  rw [exponentText] at begins
  cases present : literal.exponent with
  | none => simp [present] at begins
  | some exponent =>
    simp only [present, Option.elim_some, DecimalExponent.text, List.head?_cons,
      Option.mem_some_iff] at begins
    exact begins ▸ exponent.marks

theorem exponent_exponentText :
    Numeral.exponent literal.exponentText = literal.exponentText ∧
      exponentValue literal.exponentText = literal.exponent.elim 0 (·.value) := by
  rw [exponentText]
  cases literal.exponent with
  | none => exact ⟨rfl, rfl⟩
  | some written => exact written.read_text

theorem takeWhile_exponentText : literal.exponentText.takeWhile isDecimalDigit = [] := by
  have head := literal.exponentText_head
  cases begins : literal.exponentText with
  | nil => rfl
  | cons c rest =>
    rcases head c (by rw [begins]; rfl) with rfl | rfl <;> rfl

theorem fraction_behind :
    Numeral.fraction (literal.fractionText ++ literal.exponentText) = literal.fractionText := by
  rw [fractionText]
  cases present : literal.fraction with
  | none =>
    have head := literal.exponentText_head
    cases begins : literal.exponentText with
    | nil => rfl
    | cons c rest => rcases head c (by rw [begins]; rfl) with rfl | rfl <;> rfl
  | some digits =>
    have decimal := literal.fraction_decimal digits present
    simp [Numeral.fraction, List.takeWhile_append_of_pos decimal, literal.takeWhile_exponentText]

theorem takeWhile_text : literal.text.takeWhile isDecimalDigit = literal.whole := by
  have behind : (literal.fractionText ++ literal.exponentText).takeWhile isDecimalDigit = [] := by
    rw [fractionText]
    cases literal.fraction with
    | none => exact literal.takeWhile_exponentText
    | some digits => rfl
  rw [text, List.append_assoc, List.takeWhile_append_of_pos literal.whole_decimal, behind,
    List.append_nil]

/-- A literal alone is read as a whole, as the number that it spells. -/
theorem ofDecimal_text :
    ofDecimal literal.text = { digits := literal.text, number := literal.number } := by
  have behind : literal.text.drop literal.whole.length =
      literal.fractionText ++ literal.exponentText := by
    rw [text, List.append_assoc, List.drop_left]
  have digits : literal.fractionText.drop 1 = literal.fraction.getD [] := by
    rw [fractionText]
    cases literal.fraction <;> rfl
  obtain ⟨exponent, value⟩ := literal.exponent_exponentText
  simp only [ofDecimal, takeWhile_text, behind, fraction_behind, List.drop_left, exponent, value,
    digits]
  rfl

/-- No literal that a text begins with is longer than what is read of the text. -/
theorem length_le {text : List Char} (begins : literal.text <+: text) :
    literal.text.length ≤ (ofDecimal text).digits.length := by
  obtain ⟨more, rfl⟩ := begins
  by_contra shorter
  have alone := ofDecimal_piece literal.text more (Nat.le_of_not_ge shorter)
  rw [← alone, ofDecimal_text] at shorter
  exact shorter (Nat.le_refl _)

/-- One more digit makes a longer literal. -/
theorem exists_concat {digit : Char} (decimal : isDecimalDigit digit = true) :
    ∃ longer : DecimalLiteral, longer.text = literal.text ++ [digit] := by
  have extended {digits : List Char} (all : ∀ c ∈ digits, isDecimalDigit c = true) :
      ∀ c ∈ digits ++ [digit], isDecimalDigit c = true :=
    List.forall_mem_append.mpr ⟨all, List.forall_mem_singleton.mpr decimal⟩
  obtain ⟨whole, fraction, exponent, whole_decimal, fraction_decimal, nonempty⟩ := literal
  cases exponent with
  | some exponent =>
    let longer : DecimalExponent :=
      { exponent with
        digits := exponent.digits ++ [digit]
        decimal := extended exponent.decimal
        nonempty := by simp }
    refine ⟨⟨whole, fraction, some longer, whole_decimal, fraction_decimal, nonempty⟩, ?_⟩
    simp [text, exponentText, fractionText, longer, DecimalExponent.text]
  | none =>
    cases fraction with
    | some digits =>
      refine ⟨⟨whole, some (digits ++ [digit]), none, whole_decimal, ?_,
        .inr ⟨_, rfl, by simp⟩⟩, ?_⟩
      · intro run present
        obtain rfl := Option.mem_some_iff.mp present
        exact extended (fraction_decimal digits rfl)
      · simp [text, exponentText, fractionText]
    | none =>
      refine ⟨⟨whole ++ [digit], none, none, extended whole_decimal, fraction_decimal,
        .inl (by simp)⟩, ?_⟩
      simp [text, exponentText, fractionText]

variable {literal} {text : List Char}

theorem IsLongest.no_digit (longest : literal.IsLongest text) :
    ∀ c ∈ (text.drop literal.text.length).head?, isDecimalDigit c = false := by
  intro c next
  by_contra digit
  obtain ⟨longer, further⟩ := literal.exists_concat (Bool.not_eq_false _ ▸ digit)
  obtain ⟨rest, rfl⟩ := longest.isPrefix
  rw [List.drop_left] at next
  obtain ⟨after, rfl⟩ := List.head?_eq_some_iff.mp next
  have bound := longest.longest longer ⟨after, by simp [further]⟩
  rw [further, List.length_append, List.length_singleton] at bound
  exact Nat.not_succ_le_self _ bound

end DecimalLiteral

/-- A number begins with a digit, or with a point and a digit. -/
def BeginsNumber : List Char → Prop
  | [] => False
  | c :: rest => isDecimalDigit c = true ∨ c = '.' ∧ ∃ d ∈ rest.head?, isDecimalDigit d = true

theorem exists_fraction (text : List Char) :
    ∃ digits : Option (List Char), fraction text = digits.elim [] ('.' :: ·) ∧
      ∀ run ∈ digits, ∀ c ∈ run, isDecimalDigit c = true := by
  unfold fraction
  split
  · next rest =>
    refine ⟨some (rest.takeWhile isDecimalDigit), rfl, ?_⟩
    intro run present
    obtain rfl := Option.mem_some_iff.mp present
    exact List.all_eq_true.mp List.all_takeWhile
  · exact ⟨none, rfl, by simp⟩

theorem exists_exponent (text : List Char) :
    ∃ written : Option DecimalExponent, exponent text = written.elim [] (·.text) := by
  cases text with
  | nil => exact ⟨none, rfl⟩
  | cons marker rest =>
    by_cases marks : marker == 'e' || marker == 'E'
    · rw [exponent_of_marker marks]
      split
      · exact ⟨none, rfl⟩
      · next some =>
        have signs : ∀ c ∈ sign rest, c = '+' ∨ c = '-' := by
          intro c member
          simpa using List.mem_takeWhile_imp member
        have single : (sign rest).head?.toList = sign rest := by
          have short : (sign rest).length ≤ 1 :=
            (List.takeWhile_prefix _).length_le.trans (List.length_take_le 1 rest)
          match sign rest, short with
          | [], _ => rfl
          | [c], _ => rfl
        refine ⟨.some {
          marker, sign := (sign rest).head?, digits := exponentDigits rest
          marks := by simpa using marks
          signs := fun c present => signs c (List.mem_of_mem_head? present)
          decimal := List.all_eq_true.mp List.all_takeWhile
          nonempty := by simpa using some }, ?_⟩
        simp [DecimalExponent.text, single]
    · exact ⟨none, by simp [exponent, marks]⟩

/-- What is read as decimal is the longest literal there, as the number that it spells. -/
theorem exists_longest {text : List Char} (begins : BeginsNumber text) :
    ∃ literal : DecimalLiteral, literal.IsLongest text ∧
      ofDecimal text = { digits := literal.text, number := literal.number } := by
  let behind := text.drop (text.takeWhile isDecimalDigit).length
  obtain ⟨digits, sameFraction, decimal⟩ := exists_fraction behind
  obtain ⟨written, sameExponent⟩ := exists_exponent (behind.drop (fraction behind).length)
  have nonempty : text.takeWhile isDecimalDigit ≠ [] ∨ ∃ run ∈ digits, run ≠ [] := by
    cases text with
    | nil => exact begins.elim
    | cons c rest =>
      rcases begins with digit | ⟨rfl, d, next, digit⟩
      · exact .inl (by simp [digit])
      · obtain ⟨after, rfl⟩ := List.head?_eq_some_iff.mp next
        change '.' :: (d :: after).takeWhile isDecimalDigit = _ at sameFraction
        cases digits with
        | none => cases sameFraction
        | some run =>
          refine .inr ⟨run, rfl, ?_⟩
          rw [← (List.cons.inj sameFraction).2, List.takeWhile_cons_of_pos digit]
          exact List.cons_ne_nil _ _
  -- each part of the literal is the run that the reader takes for it
  let literal : DecimalLiteral :=
    { whole := text.takeWhile isDecimalDigit, fraction := digits, exponent := written
      whole_decimal := List.all_eq_true.mp List.all_takeWhile
      fraction_decimal := decimal
      nonempty }
  have read : (ofDecimal text).digits = literal.text := by
    change _ ++ fraction behind ++ exponent (behind.drop (fraction behind).length) = _
    rw [sameExponent, sameFraction]
    rfl
  have longest : literal.IsLongest text :=
    ⟨read ▸ ofDecimal_isPrefix text, fun other present => read ▸ other.length_le present⟩
  refine ⟨literal, longest, ?_⟩
  obtain ⟨more, split⟩ := longest.isPrefix
  have alone := ofDecimal_piece literal.text more (by rw [split, read])
  rw [← literal.ofDecimal_text, alone, split]

/-- A zero, an `x` and all hexadecimal digits that follow, of which there are some. -/
inductive HexAhead : List Char → Char → List Char → Prop where
  | intro {marker : Char} {rest : List Char} (marks : marker = 'x' ∨ marker = 'X')
      (some : rest.takeWhile isHexDigit ≠ []) :
      HexAhead ('0' :: marker :: rest) marker (rest.takeWhile isHexDigit)

/-- A zero before an octal digit, where all decimal digits that follow are octal. -/
inductive OctalAhead : List Char → List Char → Prop where
  | intro {c : Char} {rest : List Char} (octal : isOctalDigit c = true)
      (all : ∀ d ∈ (c :: rest).takeWhile isDecimalDigit, isOctalDigit d = true) :
      OctalAhead ('0' :: c :: rest) ((c :: rest).takeWhile isDecimalDigit)

/-- The number that a text begins with. Only decimal literals are given to `parse`. -/
inductive NumeralAhead (parse : List Char → Option Binary64) (text : List Char) : Numeral → Prop
  | hex {marker : Char} {digits : List Char} (ahead : HexAhead text marker digits) :
      NumeralAhead parse text {
        digits := '0' :: marker :: digits
        number := .ofNat (accumulate 16 (digits.filterMap hexValue?)) }
  | octal {digits : List Char} (ahead : OctalAhead text digits) :
      NumeralAhead parse text {
        digits := '0' :: digits
        number := .ofNat (accumulate 8 (digits.map digitValue))
        isOctal := true }
  | decimal {literal : DecimalLiteral} {number : Binary64}
      (noHex : ∀ marker digits, ¬ HexAhead text marker digits)
      (noOctal : ∀ digits, ¬ OctalAhead text digits) (longest : literal.IsLongest text)
      (parsed : parse literal.text = some number) :
      NumeralAhead parse text { digits := literal.text, number }

namespace Numeral

variable {text digits : List Char} {marker : Char}

theorem read_of_hexAhead (ahead : HexAhead text marker digits) :
    read text = {
      digits := '0' :: marker :: digits
      number := .ofNat (accumulate 16 (digits.filterMap hexValue?)) } := by
  obtain ⟨marks, some⟩ := ahead
  have marked : marker == 'x' || marker == 'X' := by simpa using marks
  simp only [read, if_pos marked, ofHex]
  exact if_neg (by simpa using some)

theorem read_of_octalAhead (ahead : OctalAhead text digits) :
    read text = {
      digits := '0' :: digits
      number := .ofNat (accumulate 8 (digits.map digitValue))
      isOctal := true } := by
  obtain @⟨c, rest, octal, all⟩ := ahead
  have unmarked : ¬ (c == 'x' || c == 'X') := by
    intro marks
    obtain rfl | rfl : c = 'x' ∨ c = 'X' := by simpa using marks
    · cases octal
    · cases octal
  have found : ofOctal? (c :: rest) = some {
      digits := '0' :: (c :: rest).takeWhile isDecimalDigit
      number := .ofNat (accumulate 8 (((c :: rest).takeWhile isDecimalDigit).map digitValue))
      isOctal := true } := if_pos (List.all_eq_true.mpr all)
  simp only [read, if_neg unmarked, if_pos octal, found, Option.getD_some]

/-- Without hexadecimal digits the zero is all that is read, as a decimal literal. -/
theorem ofHex_of_no_digits {rest : List Char} (marks : marker = 'x' ∨ marker = 'X')
    (none : rest.takeWhile isHexDigit = []) :
    ofHex marker rest = ofDecimal ('0' :: marker :: rest) := by
  have zero : ofHex marker rest = { digits := ['0'], number := .zero } := by
    rw [ofHex, none]
    rfl
  rw [zero]
  rcases marks with rfl | rfl <;> rfl

theorem read_of_neither (noHex : ∀ marker digits, ¬ HexAhead text marker digits)
    (noOctal : ∀ digits, ¬ OctalAhead text digits) : read text = ofDecimal text := by
  unfold read
  split
  · next c rest =>
    by_cases marks : c = 'x' ∨ c = 'X'
    · have none : rest.takeWhile isHexDigit = [] := by
        by_contra some
        exact noHex _ _ ⟨marks, some⟩
      rw [if_pos (by simpa using marks), ofHex_of_no_digits marks none]
    · rw [if_neg (by simpa using marks)]
      split
      -- an octal digit follows, and further on a digit that is not octal
      · next octal =>
        have mixed : ¬ ((c :: rest).takeWhile isDecimalDigit).all isOctalDigit := fun all =>
          noOctal _ ⟨octal, List.all_eq_true.mp all⟩
        rw [ofOctal?, if_neg mixed, Option.getD_none]
      · rfl
  · rfl

end Numeral

/-- Every number is read in one of the three forms. -/
theorem numeralAhead_read {parse : List Char → Option Binary64} {text : List Char}
    (reads : ∀ literal : DecimalLiteral, parse literal.text = some literal.number)
    (begins : BeginsNumber text) : NumeralAhead parse text (Numeral.read text) := by
  by_cases hex : ∃ marker digits, HexAhead text marker digits
  · obtain ⟨marker, digits, ahead⟩ := hex
    rw [read_of_hexAhead ahead]
    exact .hex ahead
  by_cases octal : ∃ digits, OctalAhead text digits
  · obtain ⟨digits, ahead⟩ := octal
    rw [read_of_octalAhead ahead]
    exact .octal ahead
  · have noHex marker digits (ahead : HexAhead text marker digits) : False :=
      hex ⟨marker, digits, ahead⟩
    have noOctal digits (ahead : OctalAhead text digits) : False := octal ⟨digits, ahead⟩
    obtain ⟨literal, longest, read⟩ := exists_longest begins
    rw [read_of_neither noHex noOctal, read]
    exact .decimal noHex noOctal longest (reads literal)

/-- A text begins with one number at most. -/
theorem NumeralAhead.unique {parse : List Char → Option Binary64} {text : List Char}
    {left right : Numeral} (first : NumeralAhead parse text left)
    (second : NumeralAhead parse text right) : left = right := by
  have apart {marker : Char} {hex octal : List Char} (marked : HexAhead text marker hex)
      (eights : OctalAhead text octal) : False := by
    have read := read_of_hexAhead marked
    rw [read_of_octalAhead eights] at read
    cases congrArg isOctal read
  cases first with
  | hex marked =>
    cases second with
    | hex again => rw [← read_of_hexAhead marked, read_of_hexAhead again]
    | octal eights => exact (apart marked eights).elim
    | decimal noHex _ _ _ => exact (noHex _ _ marked).elim
  | octal eights =>
    cases second with
    | hex marked => exact (apart marked eights).elim
    | octal again => rw [← read_of_octalAhead eights, read_of_octalAhead again]
    | decimal _ noOctal _ _ => exact (noOctal _ eights).elim
  | @decimal literal number noHex noOctal longest parsed =>
    cases second with
    | hex marked => exact (noHex _ _ marked).elim
    | octal eights => exact (noOctal _ eights).elim
    | @decimal other value _ _ again parsedAgain =>
      have length : literal.text.length = other.text.length :=
        Nat.le_antisymm (again.longest _ longest.isPrefix) (longest.longest _ again.isPrefix)
      have same : literal.text = other.text :=
        (List.prefix_of_prefix_length_le longest.isPrefix again.isPrefix length.le).eq_of_length
          length
      rw [same] at parsed
      rw [same, Option.some.inj (parsed.symm.trans parsedAgain)]

/-- The character that ends a run. -/
theorem head?_behind_run (test : Char → Bool) (text : List Char) :
    ∀ c ∈ (text.drop (text.takeWhile test).length).head?, test c = false := by
  induction text with
  | nil => simp
  | cons c rest ih =>
    by_cases passes : test c
    · simpa [passes] using ih
    · simp [passes]

theorem isHexDigit_of_isDecimalDigit {c : Char} (digit : isDecimalDigit c) : isHexDigit c := by
  have value : hexValue? c = some (c.toNat - '0'.toNat) := if_pos digit
  rw [isHexDigit, value]
  rfl

/-- A number takes all digits along that it could go on with. -/
theorem NumeralAhead.no_digit {parse : List Char → Option Binary64} {text : List Char}
    {numeral : Numeral} (ahead : NumeralAhead parse text numeral) :
    ∀ c ∈ (text.drop numeral.digits.length).head?, isDecimalDigit c = false := by
  cases ahead with
  | hex ahead =>
    obtain @⟨marker, rest, -, -⟩ := ahead
    intro c next
    have stops : isHexDigit c = false := head?_behind_run isHexDigit rest c next
    by_contra digit
    exact Bool.eq_false_iff.mp stops (isHexDigit_of_isDecimalDigit (Bool.not_eq_false _ ▸ digit))
  | octal ahead =>
    obtain @⟨first, rest, -, -⟩ := ahead
    exact head?_behind_run isDecimalDigit (first :: rest)
  | decimal _ _ longest _ => exact longest.no_digit

theorem NumeralAhead.isNaN {parse : List Char → Option Binary64} {text : List Char}
    {numeral : Numeral} (ahead : NumeralAhead parse text numeral)
    (reads : ∀ literal : DecimalLiteral, parse literal.text = some literal.number) :
    numeral.number.isNaN = false := by
  cases ahead with
  | hex => exact Binary64.ofNat_isNaN _
  | octal => exact Binary64.ofNat_isNaN _
  | @decimal literal number _ _ _ parsed =>
    obtain rfl := Option.some.inj ((reads literal).symm.trans parsed)
    exact Binary64.ofDecimal_isNaN _ _

/-- Where the start of an identifier follows a number, the identifier characters from there on. -/
def stuckTo (behind : List Char) : List Char :=
  if behind.head?.any isIdentifierStart then behind.takeWhile isIdentifierPart else []

theorem tail_eq_stuckTo {behind : List Char}
    (noDigit : ∀ c ∈ behind.head?, isDecimalDigit c = false) : tail behind = stuckTo behind := by
  cases behind with
  | nil => rfl
  | cons c rest =>
    change (if isDecimalDigit c || isIdentifierStart c then _ else _) = _
    rw [noDigit c rfl, Bool.false_or]
    rfl

/-- Behind what is stuck to a number stands neither a digit nor the start of an identifier. -/
theorem tail_stops (behind : List Char) :
    ∀ c ∈ (behind.drop (tail behind).length).head?,
      isDecimalDigit c = false ∧ isIdentifierStart c = false := by
  intro c next
  unfold tail at next
  split at next
  · have stops := Bool.eq_false_iff.mp (head?_behind_run isIdentifierPart behind c next)
    exact ⟨Bool.eq_false_iff.mpr fun digit => stops (isIdentifierPart_of_isDecimalDigit digit),
      Bool.eq_false_iff.mpr fun starts => stops (isIdentifierPart_of_isIdentifierStart starts)⟩
  · next other =>
    change c ∈ behind.head? at next
    rw [Option.mem_def.mp next] at other
    simpa using other

theorem stuckTo_stops {behind : List Char}
    (noDigit : ∀ c ∈ behind.head?, isDecimalDigit c = false) :
    ∀ c ∈ (behind.drop (stuckTo behind).length).head?,
      isDecimalDigit c = false ∧ isIdentifierStart c = false :=
  tail_eq_stuckTo noDigit ▸ tail_stops behind

namespace Lexeme

theorem read_of_beginsNumber {mode : LexMode} {text : List Char}
    (outside : mode.inComment = false) (begins : BeginsNumber text) :
    read mode text = numeral text := by
  cases text with
  | nil => exact begins.elim
  | cons c rest =>
    rcases begins with digit | ⟨rfl, d, next, digit⟩
    · rw [read_of_isIdentifierPart outside (isIdentifierPart_of_isDecimalDigit digit),
        if_pos digit]
    · have follows : rest.head?.any isDecimalDigit = true := by
        rw [Option.mem_def.mp next]
        exact digit
      simp [read.eq_2, outside, isBlank, isLineTerminator, follows]

/-- What is said of a number. -/
theorem numeral_of_ahead {parse : List Char → Option Binary64} {text : List Char}
    {numeral : Numeral} (ahead : NumeralAhead parse text numeral)
    (read : Numeral.read text = numeral) :
    let stuck := stuckTo (text.drop numeral.digits.length)
    let taken := numeral.digits ++ stuck
    Lexeme.numeral text =
      ({ kind := .numeral
         text := taken
         value := taken
         number := numeral.number
         flaws :=
           (if numeral.isOctal then [⟨.octalDeprecated, 0, numeral.digits.length⟩] else []) ++
           (if stuck = [] then [] else [⟨.badNumeral, 0, taken.length⟩]) },
       text.drop taken.length) := by
  intro stuck taken
  have sticks : Numeral.tail (text.drop numeral.digits.length) = stuck :=
    tail_eq_stuckTo ahead.no_digit
  have whole : text.take taken.length = taken := by
    have isPrefix := Numeral.taken_isPrefix text
    rw [Numeral.taken, read, sticks] at isPrefix
    exact (List.prefix_iff_eq_take.mp isPrefix).symm
  have length : numeral.digits.length + stuck.length = taken.length := List.length_append.symm
  simp only [Lexeme.numeral, read, sticks, length, whole, List.isEmpty_iff]

end Lexeme

end ScriptSyntax

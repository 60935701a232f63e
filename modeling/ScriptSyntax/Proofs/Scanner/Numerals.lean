import ScriptSyntax.Proofs.Lexeme.Radixes
import ScriptSyntax.Proofs.Scanner.Lossless

/-! What a scanner makes of a number: how far it goes, what is reported of it, and which
number it is in each of its spellings. -/
namespace ScriptSyntax

namespace Scanner

section

variable {scanner : Scanner} {text : List Char} (outside : scanner.inComment = false)
  (ahead : scanner.rest = text) (begins : BeginsNumber text) (regex : Bool)

include outside ahead begins

theorem scan_of_number :
    scanner.scan regex = scanner.accept (Lexeme.numeral text).1 (Lexeme.numeral text).2 := by
  apply scan_of_read _ rfl
  rw [ahead, Lexeme.read_of_beginsNumber outside begins]

theorem number_of_scan :
    (scanner.scan regex).token.number = (Numeral.read text).number := by
  rw [scan_of_number outside ahead begins]
  rfl

end

end Scanner

open Scanner in
/-- The grammar of numbers. Wherever a digit begins one, or a point before a digit, the text
begins with just one number of the grammar; only decimal literals are given to the parser,
which reads them all. The token is that number with the run of identifier characters stuck to
it, if the start of an identifier follows, and its value is its text. Octal digits are reported
with their own range, and what is stuck with the range of the token, once each; nothing else
is. The number is no NaN, and behind the token neither a digit nor an identifier begins. -/
theorem scan_numeral {scanner : Scanner} {text : List Char} {parse : List Char → Option Binary64}
    (outside : scanner.inComment = false) (ahead : scanner.rest = text)
    (begins : BeginsNumber text)
    (reads : ∀ literal : DecimalLiteral, parse literal.text = some literal.number)
    (regex : Bool) :
    let step := scanner.scan regex
    ∃ numeral, NumeralAhead parse text numeral ∧
      (∀ other, NumeralAhead parse text other → other = numeral) ∧
      let stuck := stuckTo (text.drop numeral.digits.length)
      let taken := numeral.digits ++ stuck
      step.token.kind = .numeral ∧
      step.token.text = String.ofList taken ∧
      step.token.span.start = scanner.position ∧
      step.token.span.stop = scanner.position + taken.length ∧
      taken ++ step.scanner.rest = text ∧
      step.token.value = String.ofList taken ∧
      step.token.number = numeral.number ∧
      step.token.number.isNaN = false ∧
      step.reports.map (fun report => (report.problem, report.span.start, report.span.stop)) =
        (if numeral.isOctal then
          [(.octalDeprecated, scanner.position, scanner.position + numeral.digits.length)]
        else []) ++
        (if stuck = [] then []
        else [(.badNumeral, step.token.span.start, step.token.span.stop)]) ∧
      ∀ c ∈ step.scanner.rest.head?, isDecimalDigit c = false ∧ isIdentifierStart c = false := by
  intro step
  have begun := numeralAhead_read reads begins
  refine ⟨Numeral.read text, begun, fun other found => found.unique begun, ?_⟩
  intro stuck taken
  have read : Lexeme.numeral text = _ := Lexeme.numeral_of_ahead begun rfl
  have whole := Lexeme.numeral_append text
  have accepted : step = _ := scan_of_number outside ahead begins regex
  rw [read] at whole accepted
  have behind : text.drop taken.length =
      (text.drop (Numeral.read text).digits.length).drop stuck.length := by
    rw [List.drop_drop, ← List.length_append]
  rw [accepted]
  refine ⟨rfl, rfl, rfl, rfl, whole, rfl, rfl, begun.isNaN reads, ?_, ?_⟩
  · simp only [accept, List.map_append, List.map_map]
    congr 1
    · split <;> rfl
    · split <;> rfl
  · change ∀ c ∈ (text.drop taken.length).head?, _
    rw [behind]
    exact stuckTo_stops begun.no_digit

open Scanner in
/-- A digit that is not octal, an exponent without digits and a sign behind it. -/
theorem scan_numeral_of_cut_exponent :
    let text := ['0', '8', '.', '5', 'e', '+']
    let parse := fun text => some (Numeral.ofDecimal text).number
    let step := (start {} text).scan false
    (start {} text).inComment = false ∧ (start {} text).rest = text ∧ BeginsNumber text ∧
    (∀ literal : DecimalLiteral, parse literal.text = some literal.number) ∧
    step.token.text = "08.5e" ∧ step.token.number = ⟨0x4021000000000000⟩ ∧
    step.reports.map (fun report => (report.problem, report.span.start, report.span.stop)) =
      [(.badNumeral, 0, 5)] := by
  intro text parse step
  have outside : (start {} text).inComment = false := rfl
  have ahead : (start {} text).rest = text := rfl
  have begins : BeginsNumber text := .inl rfl
  have reads (literal : DecimalLiteral) : parse literal.text = some literal.number :=
    congrArg (fun numeral => some numeral.number) literal.ofDecimal_text
  obtain ⟨numeral, -, only, -, covers, begin, stop, -, -, number, -, reported, -⟩ :=
    scan_numeral outside ahead begins reads false
  have read : Numeral.read text =
      { digits := ['0', '8', '.', '5'], number := ⟨0x4021000000000000⟩ } := by decide +kernel
  obtain rfl : _ = numeral := read ▸ only _ (numeralAhead_read reads begins)
  rw [begin, stop] at reported
  exact ⟨outside, ahead, begins, reads, covers, number, reported⟩

open Scanner in
/-- One integer in two spellings. Hexadecimal or octal digits with a value below 2^1023 make
the number that their sum is, rounded at each digit. The same integer in decimal digits makes
the number that it is, rounded once. The two are the same number just if the digits cut no
tie; otherwise the first is one unit of the last place lower. -/
theorem scan_radix {scanner : Scanner} {text : List Char} {bits : Nat} {digits : List Nat}
    (outside : scanner.inComment = false) (ahead : scanner.rest = text)
    (radix : RadixAhead text bits digits)
    (bounded : Numeral.valueIn (2 ^ bits) digits < 2 ^ 1023) (regex : Bool) :
    let value := Numeral.valueIn (2 ^ bits) digits
    let sum := Numeral.accumulate (2 ^ bits) digits
    let token := (scanner.scan regex).token
    let decimal := ((start {} (Nat.toDigits 10 value)).scan regex).token
    token.number.IsInteger sum ∧
    decimal.text = String.ofList (Nat.toDigits 10 value) ∧
    decimal.number.IsInteger (roundTo53Bits value) ∧
    (token.number = decimal.number ↔ ¬ Numeral.CutsTie (2 ^ bits) digits) ∧
    (Numeral.CutsTie (2 ^ bits) digits → sum + 2 ^ (value.log2 - 52) = roundTo53Bits value) := by
  intro value sum token decimal
  have small := radix.digits_lt
  have begins := Numeral.beginsNumber_toDigits value
  have read := Numeral.read_toDigits bounded
  have number : token.number = .ofNat sum :=
    (number_of_scan outside ahead radix.beginsNumber regex).trans radix.number_read
  have decimalNumber : decimal.number = .ofNat value :=
    (number_of_scan rfl rfl begins regex).trans (congrArg Numeral.number read)
  have covers : decimal.text = String.ofList (Nat.toDigits 10 value) := by
    have taken : Numeral.taken (Nat.toDigits 10 value) = Nat.toDigits 10 value := by
      rw [Numeral.taken, read, List.drop_length]
      exact List.append_nil _
    have reads : (start {} (Nat.toDigits 10 value)).scan regex = _ :=
      scan_of_number rfl rfl begins regex
    rw [← taken, ← Lexeme.numeral_text]
    exact congrArg (·.token.text) reads
  have sumIsInteger := Numeral.ofNat_accumulate_isInteger small bounded
  have valueIsInteger := Binary64.ofNat_isInteger bounded
  rw [number, decimalNumber]
  refine ⟨sumIsInteger, covers, valueIsInteger, ?_, Numeral.accumulate_of_cutsTie small⟩
  rw [← Numeral.accumulate_eq_iff small]
  constructor
  · intro same
    exact sumIsInteger.unique (same ▸ valueIsInteger)
  · intro once
    rw [← Binary64.ofNat_roundTo53Bits value, ← once]

open Scanner in
/-- Octal digits whose sum meets a tie before the last of them. -/
theorem scan_radix_of_octal_tie :
    let digits := [4, 0, 0, 0, 0, 0, 0, 0, 0, 0, 0, 0, 0, 0, 0, 0, 0, 1, 1]
    let scanner := start {} "04000000000000000011".toList
    let number := (scanner.scan false).token.number
    let decimal := ((start {} "72057594037927945".toList).scan false).token.number
    scanner.inComment = false ∧ RadixAhead scanner.rest 3 digits ∧
    Numeral.valueIn (2 ^ 3) digits = 2 ^ 56 + 9 ∧ 2 ^ 56 + 9 < 2 ^ 1023 ∧
    number.IsInteger (2 ^ 56) ∧ decimal.IsInteger (2 ^ 56 + 16) ∧ number ≠ decimal ∧
    Numeral.CutsTie (2 ^ 3) digits := by
  intro digits scanner number decimal
  have outside : scanner.inComment = false := rfl
  have radix : RadixAhead scanner.rest 3 digits := by
    have octal : OctalAhead scanner.rest "4000000000000000011".toList :=
      .intro rfl (List.all_eq_true.mp rfl)
    exact .octal octal
  have value : Numeral.valueIn (2 ^ 3) digits = 2 ^ 56 + 9 := by decide
  have bounded : 2 ^ 56 + 9 < 2 ^ 1023 := by decide +kernel
  obtain ⟨sum, -, once, same, -⟩ :=
    scan_radix outside rfl radix (value ▸ bounded) false
  have low : Numeral.accumulate (2 ^ 3) digits = 2 ^ 56 := by decide +kernel
  have rounded : roundTo53Bits (2 ^ 56 + 9) = 2 ^ 56 + 16 := by decide +kernel
  have written : Nat.toDigits 10 (2 ^ 56 + 9) = "72057594037927945".toList := by decide +kernel
  rw [value, written] at once same
  rw [low] at sum
  rw [rounded] at once
  change number.IsInteger (2 ^ 56) at sum
  have apart : number ≠ decimal := by
    intro equal
    rw [equal] at sum
    exact absurd (sum.unique once) (by decide)
  exact ⟨outside, radix, value, bounded, sum, once, apart, not_not.mp (mt same.mpr apart)⟩

open Scanner in
/-- The hexadecimal spelling of 2^57 + 17 makes 2^57; the decimal one makes 2^57 + 32, which is
that integer rounded to 53 significant bits. -/
theorem not_rounded_once_of_hex_tie :
    let number := ((start {} "0x200000000000011".toList).scan false).token.number
    let decimal := ((start {} "144115188075855889".toList).scan false).token.number
    Numeral.valueIn 16 ("200000000000011".toList.filterMap hexValue?) = 144115188075855889 ∧
    roundTo53Bits 144115188075855889 = 144115188075855904 ∧
    number = .ofNat 144115188075855872 ∧ decimal = .ofNat 144115188075855904 ∧
    number ≠ decimal := by
  intro number decimal
  have hex : number = .ofNat 144115188075855872 := by
    have begins : BeginsNumber "0x200000000000011".toList := Or.inl rfl
    refine (number_of_scan rfl rfl begins false).trans ?_
    decide +kernel
  have integer : decimal = .ofNat 144115188075855904 := by
    have begins : BeginsNumber "144115188075855889".toList := Or.inl rfl
    refine (number_of_scan rfl rfl begins false).trans ?_
    decide +kernel
  refine ⟨by decide +kernel, by decide +kernel, hex, integer, ?_⟩
  rw [hex, integer]
  decide +kernel

end ScriptSyntax

import ScriptSyntax.Proofs.Lexeme.Lookahead
import Mathlib.Data.List.TakeWhile

/-! Pieces of a text. A name, a number or an escape that fits into a piece of a text is the
same in that piece alone: whatever stops it in the text, the end of the piece stops it too. -/
namespace ScriptSyntax

variable {piece more : List Char}

theorem takeWhile_piece {test : Char → Bool}
    (within : ((piece ++ more).takeWhile test).length ≤ piece.length) :
    piece.takeWhile test = (piece ++ more).takeWhile test := by
  rw [List.takeWhile_append] at within ⊢
  split
  · next all =>
    rw [if_pos all, List.length_append] at within
    have none : more.takeWhile test = [] := List.length_eq_zero_iff.mp (by omega)
    rw [none, List.append_nil]
    exact (List.takeWhile_prefix test).eq_of_length all
  · rfl

/-- An empty run is empty in every piece. -/
theorem takeWhile_piece_of_nonempty {test : Char → Bool}
    (within : (piece ++ more).takeWhile test ≠ [] →
      ((piece ++ more).takeWhile test).length ≤ piece.length) :
    piece.takeWhile test = (piece ++ more).takeWhile test := by
  apply takeWhile_piece
  by_cases none : (piece ++ more).takeWhile test = []
  · rw [none]
    exact Nat.zero_le _
  · exact within none

theorem isIdentifierPart_of_isDecimalDigit {c : Char} (digit : isDecimalDigit c) :
    isIdentifierPart c := by
  have ascii : isAscii c := by
    simp only [isDecimalDigit, Bool.and_eq_true, decide_eq_true_eq, Char.le_def,
      UInt32.le_iff_toNat_le] at digit
    simp only [isAscii, decide_eq_true_eq]
    exact Nat.lt_of_le_of_lt digit.2 (by decide)
  simp [isIdentifierPart, ascii, isAsciiIdentifierPart, digit]

theorem isDecimalDigit_of_isOctalDigit {c : Char} (octal : isOctalDigit c) :
    isDecimalDigit c := by
  simp only [isOctalDigit, isDecimalDigit, Bool.and_eq_true, decide_eq_true_eq] at octal ⊢
  exact ⟨octal.1, Char.le_trans octal.2 (by decide)⟩

namespace Numeral

theorem fraction_piece (piece more : List Char)
    (within : (fraction (piece ++ more)).length ≤ piece.length) :
    fraction piece = fraction (piece ++ more) := by
  cases piece with
  | nil => exact (List.length_eq_zero_iff.mp (Nat.le_zero.mp within)).symm
  | cons c piece =>
    by_cases point : c = '.'
    · subst point
      have digits := takeWhile_piece (Nat.le_of_succ_le_succ within)
      simp only [List.cons_append, fraction, digits]
    · simp [fraction, point]

theorem exponentDigits_length_le {marker : Char} (marks : marker == 'e' || marker == 'E')
    {rest : List Char} (nonempty : exponentDigits rest ≠ []) :
    (sign rest).length + (exponentDigits rest).length < (exponent (marker :: rest)).length := by
  rw [exponent_of_marker marks, if_neg (by simpa using nonempty)]
  simp only [List.cons_append, List.length_cons, List.length_append]
  omega

theorem exponent_piece (piece more : List Char)
    (within : (exponent (piece ++ more)).length ≤ piece.length) :
    exponent piece = exponent (piece ++ more) := by
  cases piece with
  | nil => exact (List.length_eq_zero_iff.mp (Nat.le_zero.mp within)).symm
  | cons marker piece =>
    by_cases marks : marker == 'e' || marker == 'E'
    · rw [List.cons_append] at within ⊢
      have fits : exponentDigits (piece ++ more) ≠ [] →
          (sign (piece ++ more)).length + (exponentDigits (piece ++ more)).length ≤
            piece.length := fun nonempty =>
        Nat.le_of_lt_succ (Nat.lt_of_lt_of_le (exponentDigits_length_le marks nonempty) within)
      rw [exponent_of_marker marks, exponent_of_marker marks]
      cases piece with
      | nil =>
        have none : exponentDigits ([] ++ more) = [] := by
          by_contra nonempty
          have room := fits nonempty
          have some := List.length_pos_iff.mpr nonempty
          rw [List.length_nil] at room
          omega
        rw [none]
        rfl
      | cons first piece =>
        have same : sign (first :: piece ++ more) = sign (first :: piece) := rfl
        have digits : exponentDigits (first :: piece) =
            exponentDigits (first :: piece ++ more) := by
          rw [exponentDigits, same, drop_append_of_isPrefix (sign_isPrefix _)] at fits
          rw [exponentDigits, exponentDigits, same, drop_append_of_isPrefix (sign_isPrefix _)]
          apply takeWhile_piece_of_nonempty
          intro nonempty
          have room := fits nonempty
          rw [List.length_drop]
          omega
        rw [same, digits]
    · simp [exponent, marks]

theorem ofDecimal_piece (piece more : List Char)
    (within : (ofDecimal (piece ++ more)).digits.length ≤ piece.length) :
    ofDecimal piece = ofDecimal (piece ++ more) := by
  simp only [ofDecimal, List.length_append] at within ⊢
  have whole : piece.takeWhile isDecimalDigit = (piece ++ more).takeWhile isDecimalDigit :=
    takeWhile_piece (by omega)
  have digits : piece.takeWhile isDecimalDigit <+: piece := List.takeWhile_prefix _
  have length := List.length_drop (i := (piece.takeWhile isDecimalDigit).length) (l := piece)
  rw [← whole, drop_append_of_isPrefix digits] at within ⊢
  generalize piece.drop (piece.takeWhile isDecimalDigit).length = behind at within length ⊢
  have point := fraction_piece behind more (by omega)
  have left := List.length_drop (i := (fraction behind).length) (l := behind)
  rw [← point, drop_append_of_isPrefix (fraction_isPrefix _)] at within ⊢
  rw [exponent_piece (behind.drop (fraction behind).length) more (by omega)]

theorem ofHex_piece {marker : Char}
    (within : (ofHex marker (piece ++ more)).digits.length ≤ piece.length + 2) :
    ofHex marker piece = ofHex marker (piece ++ more) := by
  have digits : piece.takeWhile isHexDigit = (piece ++ more).takeWhile isHexDigit := by
    apply takeWhile_piece_of_nonempty
    intro nonempty
    rw [ofHex, if_neg (by simpa using nonempty)] at within
    simpa using within
  rw [ofHex, ofHex, digits]

/-- A zero with octal digits behind it takes all decimal digits along. -/
theorem octal_digits (text : List Char) :
    '0' :: text.takeWhile isDecimalDigit <+:
      ((ofOctal? text).getD (ofDecimal ('0' :: text))).digits := by
  rw [ofOctal?]
  split
  · exact List.prefix_rfl
  · have whole : ('0' :: text).takeWhile isDecimalDigit <+: (ofDecimal ('0' :: text)).digits :=
      (List.prefix_append _ _).trans (List.prefix_append _ _)
    rwa [List.takeWhile_cons_of_pos (by decide)] at whole

theorem octal_piece (piece more : List Char)
    (within : ((ofOctal? (piece ++ more)).getD (ofDecimal ('0' :: piece ++ more))).digits.length ≤
      piece.length + 1) :
    (ofOctal? piece).getD (ofDecimal ('0' :: piece)) =
      (ofOctal? (piece ++ more)).getD (ofDecimal ('0' :: piece ++ more)) := by
  have digits : piece.takeWhile isDecimalDigit = (piece ++ more).takeWhile isDecimalDigit := by
    apply takeWhile_piece
    have room := (octal_digits (piece ++ more)).length_le
    rw [List.length_cons] at room
    exact Nat.le_of_succ_le_succ (Nat.le_trans room within)
  rw [ofOctal?, ofOctal?, digits] at *
  split
  · rfl
  · next mixed =>
    rw [if_neg mixed] at within
    exact ofDecimal_piece ('0' :: piece) more within

theorem read_of_nonzero {c : Char} (nonzero : c ≠ '0') (rest : List Char) :
    read (c :: rest) = ofDecimal (c :: rest) := by
  rw [read.eq_def]
  split <;> simp_all

theorem isIdentifierPart_of_sticks {c : Char} (starts : isDecimalDigit c || isIdentifierStart c) :
    isIdentifierPart c := by
  rcases Bool.or_eq_true_iff.mp starts with digit | letter
  · exact isIdentifierPart_of_isDecimalDigit digit
  · exact isIdentifierPart_of_isIdentifierStart letter

/-- Nothing sticks to a number before what is neither a digit nor the start of a name. -/
theorem of_tail_eq_nil {c : Char} {rest : List Char} (none : tail (c :: rest) = []) :
    isDecimalDigit c = false ∧ isIdentifierStart c = false := by
  rw [← Bool.or_eq_false_iff]
  by_contra sticks
  have starts := Bool.not_eq_false _ ▸ sticks
  simp [tail, starts, isIdentifierPart_of_sticks starts] at none

/-- What sticks to a number sticks to it alone. -/
theorem tail_alone (rest : List Char) : tail (tail rest) = tail rest := by
  cases rest with
  | nil => rfl
  | cons c rest =>
    by_cases starts : isDecimalDigit c || isIdentifierStart c
    · have part := isIdentifierPart_of_sticks starts
      simp [tail, starts, part, List.takeWhile_idem]
    · simp [tail, starts]

/-- A number is the same in a piece that holds it. Where the piece is a single digit, nothing
may stick to that digit in the text. -/
theorem read_piece {c : Char}
    (within : (read (c :: piece ++ more)).digits.length ≤ piece.length + 1)
    (sticks : piece = [] → tail more = []) : read (c :: piece) = read (c :: piece ++ more) := by
  by_cases zero : c = '0'
  · subst zero
    cases piece with
    | nil =>
      cases more with
      | nil => rfl
      | cons d rest =>
        obtain ⟨noDigit, noLetter⟩ := of_tail_eq_nil (sticks rfl)
        have noMark : ¬ (d == 'x' || d == 'X') := by
          intro marks
          obtain rfl | rfl : d = 'x' ∨ d = 'X' := by simpa using marks
          · cases noLetter
          · cases noLetter
        have noOctal : ¬ isOctalDigit d := fun octal =>
          Bool.eq_false_iff.mp noDigit (isDecimalDigit_of_isOctalDigit octal)
        simp only [List.cons_append, List.nil_append, read, if_neg noMark, if_neg noOctal]
          at within ⊢
        exact ofDecimal_piece ['0'] (d :: rest) within
    | cons d piece =>
      by_cases marks : d == 'x' || d == 'X'
      · simp only [List.cons_append, read, if_pos marks] at within ⊢
        exact ofHex_piece within
      by_cases octal : isOctalDigit d
      · simp only [List.cons_append, read, if_neg marks, if_pos octal] at within ⊢
        exact octal_piece (d :: piece) more within
      · simp only [List.cons_append, read, if_neg marks, if_neg octal] at within ⊢
        exact ofDecimal_piece ('0' :: d :: piece) more within
  · rw [List.cons_append, read_of_nonzero zero] at within
    rw [List.cons_append, read_of_nonzero zero, read_of_nonzero zero]
    exact ofDecimal_piece (c :: piece) more within

/-- What a number takes: its digits and what sticks to them. -/
def taken (text : List Char) : List Char :=
  (read text).digits ++ tail (text.drop (read text).digits.length)

theorem taken_isPrefix (text : List Char) : taken text <+: text :=
  isPrefix_append_of_drop (read_isPrefix text) (tail_isPrefix _)

/-- Alone it is the same number. -/
theorem read_taken {c : Char} {rest : List Char} (starts : isDecimalDigit c || c == '.') :
    read (taken (c :: rest)) = read (c :: rest) := by
  obtain ⟨left, split⟩ := taken_isPrefix (c :: rest)
  have nonempty : (read (c :: rest)).digits ≠ [] := read_digits_ne_nil starts
  obtain ⟨piece, begins⟩ : ∃ piece, taken (c :: rest) = c :: piece := by
    obtain ⟨d, piece, same⟩ := List.exists_cons_of_ne_nil
      (show taken (c :: rest) ≠ [] by simp [taken, nonempty])
    rw [same, List.cons_append] at split
    exact ⟨piece, by rw [same, (List.cons.inj split).1]⟩
  rw [begins] at split ⊢
  have length := congrArg List.length begins
  rw [taken, List.length_append, List.length_cons] at length
  rw [← split] at length nonempty ⊢
  apply read_piece
  · omega
  · rintro rfl
    have digits := List.length_pos_iff.mpr nonempty
    have one : (read ([c] ++ left)).digits.length = 1 := by
      rw [List.length_nil] at length
      omega
    rw [one] at length
    exact List.length_eq_zero_iff.mp (Nat.add_left_cancel length)

end Numeral

/-- A code is spelled by the piece that holds its digits. -/
theorem hexNumber?_piece {count : Nat} (enough : count ≤ piece.length) (more : List Char) :
    hexNumber? count (piece ++ more) = hexNumber? count piece := by
  rw [hexNumber?, hexNumber?, List.take_append_of_le_length enough]

theorem hexNumber?_piece_of_none {count : Nat} (none : hexNumber? count (piece ++ more) = none) :
    hexNumber? count piece = .none := by
  by_contra some
  obtain ⟨code, found⟩ := Option.ne_none_iff_exists'.mp some
  rw [hexNumber?_piece (hexNumber?_digits found).1, found] at none
  cases none

theorem unicodeEscape?_piece (enough : unicodeEscapeLength ≤ piece.length) (more : List Char) :
    unicodeEscape? (piece ++ more) = unicodeEscape? piece := by
  obtain ⟨c, d, digits, rfl⟩ : ∃ c d digits, piece = c :: d :: digits := by
    match piece, enough with
    | c :: d :: digits, _ => exact ⟨c, d, digits, rfl⟩
  by_cases marked : c = '\\' ∧ d = 'u'
  · obtain ⟨rfl, rfl⟩ := marked
    exact hexNumber?_piece (Nat.le_of_add_le_add_right (b := 2) enough) more
  · rw [unicodeEscape?.eq_def, unicodeEscape?.eq_def]
    split <;> split <;> simp_all

theorem surrogatePair?_piece (high : Nat) (enough : unicodeEscapeLength ≤ piece.length)
    (more : List Char) :
    surrogatePair? high (piece ++ more) = surrogatePair? high piece := by
  rw [surrogatePair?, surrogatePair?, unicodeEscape?_piece enough]

theorem surrogatePair?_piece_of_none {high : Nat}
    (none : surrogatePair? high (piece ++ more) = none) : surrogatePair? high piece = .none := by
  by_contra some
  obtain ⟨c, found⟩ := Option.ne_none_iff_exists'.mp some
  rw [surrogatePair?_piece high (surrogatePair?_free found).1, found] at none
  cases none

namespace Escape

theorem ofHex_piece {marker : Char} {count : Nat}
    (within : (ofHex marker count (piece ++ more)).width ≤ piece.length + 1) :
    ofHex marker count piece = ofHex marker count (piece ++ more) := by
  rw [ofHex] at within
  rw [ofHex, ofHex]
  cases found : hexNumber? count (piece ++ more) with
  | none => rw [hexNumber?_piece_of_none found]
  | some code =>
    simp only [found] at within
    have enough : count ≤ piece.length := by
      split at within <;> dsimp only at within <;> omega
    rw [← hexNumber?_piece enough more, found]
    rw [List.drop_append_of_le_length enough] at within ⊢
    dsimp only
    cases pair : surrogatePair? code (piece.drop count ++ more) with
    | none => rw [surrogatePair?_piece_of_none pair]
    | some c =>
      simp only [pair] at within
      have room : unicodeEscapeLength ≤ (piece.drop count).length := by
        rw [List.length_drop]
        omega
      rw [← surrogatePair?_piece code room more, pair]

/-- Behind an octal code alone in its piece no digit may follow: it tells the null character
from a deprecated code. -/
theorem ofOctal_piece {first : Char}
    (within : (ofOctal first (piece ++ more)).width ≤ piece.length + 1)
    (stops : piece = [] → more.head?.any isDecimalDigit = false) :
    ofOctal first piece = ofOctal first (piece ++ more) := by
  simp only [ofOctal] at within ⊢
  generalize (if first ≤ '3' then 2 else 1) = most at within ⊢
  have digits : (piece.take most).takeWhile isOctalDigit =
      ((piece ++ more).take most).takeWhile isOctalDigit := by
    have run : ((piece ++ more).take most).takeWhile isOctalDigit <+: _ := List.takeWhile_prefix _
    have few := run.length_le.trans (List.length_take_le most _)
    rw [List.take_append] at within few ⊢
    apply takeWhile_piece
    rw [List.length_take]
    omega
  have next : (piece ++ more).head?.any isDecimalDigit = piece.head?.any isDecimalDigit := by
    cases piece with
    | nil => exact stops rfl
    | cons => rfl
  rw [digits, next]

theorem read_piece (piece more : List Char)
    (within : (read (piece ++ more)).width ≤ piece.length)
    (stops : piece.length = 1 → more.head?.any isDecimalDigit = false) :
    read piece = read (piece ++ more) := by
  cases piece with
  | nil =>
    cases more with
    | nil => rfl
    | cons c more => exact absurd within (Nat.not_le_of_lt (read_width_pos c more))
  | cons c piece =>
    by_cases broken : c = '\r' ∧ (piece ++ more).head? = some '\n'
    · obtain ⟨rfl, line⟩ := broken
      cases piece with
      | nil =>
        obtain ⟨rest, rfl⟩ := List.head?_eq_some_iff.mp line
        exact absurd within (show ¬ 2 ≤ 1 by decide)
      | cons d piece =>
        obtain rfl : d = '\n' := Option.some.inj line
        rfl
    · have apart : ∀ rest, c = '\r' → piece ++ more = '\n' :: rest → False :=
        fun rest carriage line => broken ⟨carriage, line ▸ rfl⟩
      have apartAlone : ∀ rest, c = '\r' → piece = '\n' :: rest → False :=
        fun rest carriage line => apart (rest ++ more) carriage (line ▸ rfl)
      rw [List.cons_append, read.eq_3 c _ apart] at within
      rw [List.cons_append, read.eq_3 c _ apart, read.eq_3 c _ apartAlone]
      split
      · rfl
      · next other =>
        simp only [other] at within
        split
        · next hex =>
          rw [if_pos hex] at within
          exact ofHex_piece within
        next noHex =>
        rw [if_neg noHex] at within
        split
        · next unicode =>
          rw [if_pos unicode] at within
          exact ofHex_piece within
        next noUnicode =>
        rw [if_neg noUnicode] at within
        split
        · next octal =>
          rw [if_pos octal] at within
          exact ofOctal_piece within fun alone => stops (alone ▸ rfl)
        · rfl

end Escape

namespace WordPart

theorem escaped?_piece (test : Char → Bool) (enough : unicodeEscapeLength ≤ piece.length)
    (more : List Char) :
    escaped? test (piece ++ more) = escaped? test piece := by
  rw [escaped?, escaped?, unicodeEscape?_piece enough]

/-- What continues a word continues it alone. -/
theorem read_alone (text : List Char) : read (read text).text = { read text with rest := [] } := by
  fun_induction read text with
  | case1 | case4 => simp [read]
  | case2 c rest part ih =>
    simp only [after, List.cons_append, List.nil_append]
    rw [read, if_pos part, ih]
    rfl
  | case3 c rest noPart decoded spelled ih =>
    have enough := Nat.le_of_succ_le_succ (escaped?_free spelled).1
    have length : (rest.take 5).length = 5 := List.length_take_of_le enough
    have six : unicodeEscapeLength ≤ (c :: rest.take 5).length :=
      Nat.le_of_eq (congrArg (· + 1) length).symm
    have whole := escaped?_piece isIdentifierPart six (rest.drop 5)
    rw [List.cons_append, List.take_append_drop, spelled] at whole
    have alone (more : List Char) :
        escaped? isIdentifierPart (c :: (rest.take 5 ++ more)) = some decoded :=
      (escaped?_piece isIdentifierPart six more).trans whole.symm
    simp only [after, List.cons_append]
    rw [read, if_neg noPart, alone]
    simp only [List.drop_left' length, List.take_left' length, ih]
    rfl

end WordPart

theorem Lexeme.numeral_text (text : List Char) : (numeral text).1.text = Numeral.taken text := by
  have length : (Numeral.taken text).length = _ := List.length_append
  simp only [numeral, ← length]
  exact (List.prefix_iff_eq_take.mp (Numeral.taken_isPrefix text)).symm

theorem Lexeme.numeral_alone {c : Char} {rest : List Char}
    (starts : isDecimalDigit c || c == '.') :
    numeral (numeral (c :: rest)).1.text = ((numeral (c :: rest)).1, []) := by
  have whole := numeral_text (c :: rest)
  have length : (Numeral.taken (c :: rest)).length = _ := List.length_append
  rw [whole]
  simp only [numeral] at whole ⊢
  rw [whole, Numeral.read_taken starts]
  have sticks : (Numeral.taken (c :: rest)).drop (Numeral.read (c :: rest)).digits.length =
      Numeral.tail ((c :: rest).drop (Numeral.read (c :: rest)).digits.length) :=
    List.drop_left
  rw [sticks, Numeral.tail_alone, ← length, List.take_length, List.drop_length]

end ScriptSyntax

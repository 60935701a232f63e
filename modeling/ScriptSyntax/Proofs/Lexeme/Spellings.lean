import ScriptSyntax.Proofs.Lexeme.StringUnits

/-! The ways to spell a text in a string. Whichever is chosen for each of its characters, and
wherever the lines are continued, the string reads back as the text. -/
namespace ScriptSyntax

/-- A hexadecimal digit of this value, in either case. -/
def IsHexDigitOf (value : Nat) (c : Char) : Prop :=
  "0123456789abcdef".toList[value]? = some c ∨ "0123456789ABCDEF".toList[value]? = some c

instance (value : Nat) (c : Char) : Decidable (IsHexDigitOf value c) :=
  inferInstanceAs (Decidable (_ ∨ _))

/-- Hexadecimal digits that spell a number, the highest first. -/
inductive SpellsHex : List Char → Nat → Prop where
  | nil : SpellsHex [] 0
  | digit {digits : List Char} {code value : Nat} {c : Char} (higher : SpellsHex digits code)
      (lowest : IsHexDigitOf value c) : SpellsHex (digits ++ [c]) (16 * code + value)

/-- The letters that stand for control characters behind a backslash. -/
def controlLetters : List (Char × Char) :=
  [('b', '\x08'), ('t', '\x09'), ('n', '\x0a'), ('v', '\x0b'), ('f', '\x0c'), ('r', '\x0d')]

/-- The characters that mean something else behind a backslash. -/
def escapeLetters : List Char :=
  ['b', 't', 'n', 'v', 'f', 'r', 'x', 'u', '0', '1', '2', '3', '4', '5', '6', '7']

/-- One spelling of a character in a string. -/
inductive Spells (quote : Char) : List Char → Char → Prop where
  | plain {c : Char} (open_ : c ≠ quote) (literal : c ≠ '\\')
      (unbroken : isLineTerminator c = false) : Spells quote [c] c
  | escaped {c : Char} (unbroken : isLineTerminator c = false) (itself : c ∉ escapeLetters) :
      Spells quote ['\\', c] c
  | control {letter c : Char} (stands : (letter, c) ∈ controlLetters) :
      Spells quote ['\\', letter] c
  | byte {c : Char} {digits : List Char} (two : digits.length = 2)
      (spelled : SpellsHex digits c.toNat) : Spells quote ('\\' :: 'x' :: digits) c
  | code {c : Char} {digits : List Char} (four : digits.length = 4)
      (spelled : SpellsHex digits c.toNat) : Spells quote ('\\' :: 'u' :: digits) c
  | pair {c : Char} {high low : List Char} (beyond : 0xffff < c.toNat)
      (fourHigh : high.length = 4) (fourLow : low.length = 4)
      (spelledHigh : SpellsHex high (0xd800 + (c.toNat - 0x10000) / 0x400))
      (spelledLow : SpellsHex low (0xdc00 + (c.toNat - 0x10000) % 0x400)) :
      Spells quote ('\\' :: 'u' :: high ++ '\\' :: 'u' :: low) c

/-- A backslash that hides a line terminator, a carriage return with its line feed as one. -/
inductive Continues : List Char → Prop where
  | pair : Continues ['\\', '\r', '\n']
  | single {c : Char} (terminator : isLineTerminator c) : Continues ['\\', c]

/-- One spelling of a text between two quotes, with lines continued anywhere. -/
inductive Spelling (quote : Char) : List Char → List Char → Prop where
  | nil : Spelling quote [] []
  | continued {mark text value : List Char} (hides : Continues mark)
      (rest : Spelling quote text value) : Spelling quote (mark ++ text) value
  | character {piece text value : List Char} {c : Char} (spells : Spells quote piece c)
      (rest : Spelling quote text value) : Spelling quote (piece ++ text) (c :: value)

theorem IsHexDigitOf.hexValue?_eq {value : Nat} {c : Char} (digit : IsHexDigitOf value c) :
    hexValue? c = some value := by
  have lower : ∀ entry ∈ "0123456789abcdef".toList.zipIdx, hexValue? entry.1 = some entry.2 := by
    decide
  have upper : ∀ entry ∈ "0123456789ABCDEF".toList.zipIdx, hexValue? entry.1 = some entry.2 := by
    decide
  rcases digit with found | found
  · exact lower (c, value) (List.mem_zipIdx_iff_getElem?.mpr found)
  · exact upper (c, value) (List.mem_zipIdx_iff_getElem?.mpr found)

theorem SpellsHex.exists_values {digits : List Char} {code : Nat}
    (spelled : SpellsHex digits code) :
    ∃ values, digits.mapM hexValue? = some values ∧ values.length = digits.length ∧
      values.foldl (16 * · + ·) 0 = code := by
  induction spelled with
  | nil => exact ⟨[], rfl, rfl, rfl⟩
  | @digit digits code value c _ lowest ih =>
    obtain ⟨values, read, length, sum⟩ := ih
    refine ⟨values ++ [value], ?_, ?_, ?_⟩
    · simp [List.mapM_append, read, lowest.hexValue?_eq]
    · rw [List.length_append, List.length_append, length]
      rfl
    · rw [List.foldl_append, sum]
      rfl

/-- Reading digits off a text gives the number they spell, whatever comes next. -/
theorem SpellsHex.hexNumber?_eq {digits : List Char} {code count : Nat}
    (spelled : SpellsHex digits code) (length : digits.length = count) (rest : List Char) :
    hexNumber? count (digits ++ rest) = some code := by
  obtain ⟨values, read, same, sum⟩ := spelled.exists_values
  rw [hexNumber?, List.take_left' length, read]
  simp [same.trans length, sum]

/-- A character is read from its code. -/
theorem scalar?_toNat (c : Char) : scalar? c.toNat = some c := by
  have valid : c.toNat.isValidChar := c.valid
  rw [scalar?, dif_pos valid]
  exact congrArg some (Char.ext rfl)

/-- The code of a character is no half of a pair. -/
theorem surrogatePair?_toNat (c : Char) (text : List Char) :
    surrogatePair? c.toNat text = none := by
  have valid : c.toNat.isValidChar := c.valid
  have apart : ¬ (0xd800 ≤ c.toNat ∧ c.toNat < 0xdc00) := by
    simp only [Nat.isValidChar] at valid
    omega
  rw [surrogatePair?, guard, if_neg apart]
  rfl

private theorem guard_bind {α : Type} {p : Prop} [Decidable p] (holds : p)
    (next : Unit → Option α) : (guard p >>= next) = next () := by
  simp [guard, holds]

/-- Two halves in their ranges are joined. -/
theorem surrogatePair?_of_halves {high low : Nat} {text : List Char}
    (isHigh : 0xd800 ≤ high ∧ high < 0xdc00) (spelled : unicodeEscape? text = some low)
    (isLow : 0xdc00 ≤ low ∧ low < 0xe000) :
    surrogatePair? high text =
      scalar? (0x10000 + (high - 0xd800) * 0x400 + (low - 0xdc00)) := by
  rw [surrogatePair?, guard_bind isHigh, spelled, Option.bind_eq_bind, Option.bind_some,
    guard_bind isLow]

namespace Escape

theorem ofHex_toNat {marker c : Char} {digits : List Char} {count : Nat}
    (length : digits.length = count) (spelled : SpellsHex digits c.toNat) (rest : List Char) :
    ofHex marker count (digits ++ rest) = { width := 1 + count, value := [c] } := by
  rw [ofHex, spelled.hexNumber?_eq length]
  simp only [surrogatePair?_toNat, scalar?_toNat, Option.getD_some]

/-- Two halves in a row are read as the character they make up. -/
theorem ofHex_halves {marker c : Char} {first second : List Char} {high low : Nat}
    (fourFirst : first.length = 4) (fourSecond : second.length = 4)
    (spelledHigh : SpellsHex first high) (spelledLow : SpellsHex second low)
    (isHigh : 0xd800 ≤ high ∧ high < 0xdc00) (isLow : 0xdc00 ≤ low ∧ low < 0xe000)
    (sum : 0x10000 + (high - 0xd800) * 0x400 + (low - 0xdc00) = c.toNat) (rest : List Char) :
    ofHex marker 4 (first ++ '\\' :: 'u' :: second ++ rest) = { width := 11, value := [c] } := by
  have escape : unicodeEscape? ('\\' :: 'u' :: second ++ rest) = some low :=
    spelledLow.hexNumber?_eq fourSecond rest
  have pair := surrogatePair?_of_halves isHigh escape isLow
  rw [sum, scalar?_toNat] at pair
  rw [ofHex, List.append_assoc, spelledHigh.hexNumber?_eq fourFirst, List.drop_left' fourFirst]
  simp only [pair, unicodeEscapeLength]

/-- The halves of a character beyond the basic plane. -/
theorem halves_of_beyond {c : Char} (beyond : 0xffff < c.toNat) :
    let high := 0xd800 + (c.toNat - 0x10000) / 0x400
    let low := 0xdc00 + (c.toNat - 0x10000) % 0x400
    (0xd800 ≤ high ∧ high < 0xdc00) ∧ (0xdc00 ≤ low ∧ low < 0xe000) ∧
      0x10000 + (high - 0xd800) * 0x400 + (low - 0xdc00) = c.toNat := by
  have valid : c.toNat.isValidChar := c.valid
  simp only [Nat.isValidChar] at valid
  refine ⟨⟨?_, ?_⟩, ⟨?_, ?_⟩, ?_⟩ <;> omega

theorem read_eq (c : Char) {rest : List Char} (whole : c = '\r' → rest.head? ≠ some '\n') :
    read (c :: rest) =
      match control? c with
      | some control => { width := 1, value := [control] }
      | none =>
        if c == 'x' then ofHex c 2 rest
        else if c == 'u' then ofHex c 4 rest
        else if isOctalDigit c then ofOctal c rest
        else if isLineTerminator c then { width := 1, breaksLine := true }
        else { width := 1, value := [c] } := by
  apply read.eq_3
  rintro after same rfl
  exact whole same rfl

theorem isOctalDigit_eq_false {c : Char} (itself : c ∉ escapeLetters) :
    isOctalDigit c = false := by
  have digits : ∀ place : Fin 8, Char.ofNat (48 + place) ∈ escapeLetters := by decide
  by_contra digit
  simp only [Bool.not_eq_false, isOctalDigit, Bool.and_eq_true, decide_eq_true_eq,
    Char.le_def, UInt32.le_iff_toNat_le] at digit
  have first : 48 ≤ c.toNat := digit.1
  have last : c.toNat ≤ 55 := digit.2
  have member := digits ⟨c.toNat - 48, by omega⟩
  rw [Nat.add_sub_cancel' first, Char.ofNat_toNat] at member
  exact itself member

theorem control?_eq_none {c : Char} (itself : c ∉ escapeLetters) : control? c = none := by
  unfold control?
  split
  all_goals first
    | rfl
    | exact absurd (by decide) itself

end Escape

/-- A character is spelled plainly, or by an escape that is read to its end and no further. -/
theorem Spells.plain_or_escape {quote c : Char} {piece : List Char}
    (spells : Spells quote piece c) :
    (piece = [c] ∧ c ≠ quote ∧ c ≠ '\\' ∧ isLineTerminator c = false) ∨
    ∃ escape, piece = '\\' :: escape ∧
      ∀ rest, Escape.read (escape ++ rest) = { width := escape.length, value := [c] } := by
  cases spells with
  | plain open_ literal unbroken => exact .inl ⟨rfl, open_, literal, unbroken⟩
  | escaped unbroken itself =>
    refine .inr ⟨[c], rfl, fun rest => ?_⟩
    have noHex : c ≠ 'x' ∧ c ≠ 'u' := by
      constructor
      · rintro rfl
        exact itself (by decide)
      · rintro rfl
        exact itself (by decide)
    have noReturn : c ≠ '\r' := by
      rintro rfl
      exact absurd unbroken (by decide)
    rw [List.singleton_append, Escape.read_eq c fun same => absurd same noReturn,
      Escape.control?_eq_none itself]
    simp [noHex, Escape.isOctalDigit_eq_false itself, unbroken]
  | @control letter c stands =>
    refine .inr ⟨[letter], rfl, fun rest => ?_⟩
    simp only [controlLetters, List.mem_cons, Prod.mk.injEq, List.not_mem_nil, or_false] at stands
    rcases stands with ⟨rfl, rfl⟩ | ⟨rfl, rfl⟩ | ⟨rfl, rfl⟩ | ⟨rfl, rfl⟩ | ⟨rfl, rfl⟩ | ⟨rfl, rfl⟩
    all_goals rfl
  | @byte c digits two spelled =>
    refine .inr ⟨'x' :: digits, rfl, fun rest => ?_⟩
    rw [List.length_cons, two]
    exact Escape.ofHex_toNat two spelled rest
  | @code c digits four spelled =>
    refine .inr ⟨'u' :: digits, rfl, fun rest => ?_⟩
    rw [List.length_cons, four]
    exact Escape.ofHex_toNat four spelled rest
  | @pair c high low beyond fourHigh fourLow spelledHigh spelledLow =>
    refine .inr ⟨'u' :: high ++ '\\' :: 'u' :: low, rfl, fun rest => ?_⟩
    obtain ⟨isHigh, isLow, sum⟩ := Escape.halves_of_beyond beyond
    have length : ('u' :: high ++ '\\' :: 'u' :: low).length = 11 := by simp [fourHigh, fourLow]
    rw [length]
    exact Escape.ofHex_halves fourHigh fourLow spelledHigh spelledLow isHigh isLow sum rest

/-- A continued line is read over, up to what comes next. -/
theorem Continues.exists_escape {mark : List Char} (hides : Continues mark) :
    ∃ escape, mark = '\\' :: escape ∧ ∀ rest : List Char, rest.head? ≠ some '\n' →
      Escape.read (escape ++ rest) = { width := escape.length, breaksLine := true } := by
  cases hides with
  | pair => exact ⟨['\r', '\n'], rfl, fun _ _ => rfl⟩
  | @single c terminator =>
    refine ⟨[c], rfl, fun rest apart => ?_⟩
    rw [List.singleton_append, Escape.read_eq c fun _ => apart]
    simp only [isLineTerminator, Bool.or_eq_true, beq_iff_eq] at terminator
    rcases terminator with ((rfl | rfl) | rfl) | rfl <;> rfl

/-- What follows a continued line does not begin with a line feed. -/
theorem Spelling.head?_ne {quote : Char} {text value : List Char} (delimits : IsQuote quote)
    (spelling : Spelling quote text value) (rest : List Char) :
    (text ++ quote :: rest).head? ≠ some '\n' := by
  cases spelling with
  | nil => rcases delimits with rfl | rfl <;> simp
  | continued hides _ =>
    obtain ⟨escape, rfl, -⟩ := hides.exists_escape
    simp
  | character spells _ =>
    rcases spells.plain_or_escape with ⟨rfl, -, -, unbroken⟩ | ⟨escape, rfl, -⟩
    · simp only [List.cons_append, List.head?_cons, ne_eq, Option.some.injEq]
      rintro rfl
      exact absurd unbroken (by decide)
    · simp

/-- An escape that is read to its end goes before the rest of the body. -/
theorem stringBody_escape {quote : Char} (delimits : IsQuote quote) {escape rest : List Char}
    {value : List Char} {breaksLine : Bool}
    (reads : Escape.read (escape ++ rest) = { width := escape.length, value, breaksLine })
    (offset : Nat) :
    stringBody quote offset ('\\' :: escape ++ rest) =
      (stringBody quote (offset + 1 + escape.length) rest).after ('\\' :: escape) value
        (if breaksLine then [offset + 1 + escape.length] else []) [] := by
  have open_ : ¬ ('\\' == quote) = true := by rcases delimits with rfl | rfl <;> decide
  have plain : ¬ isLineTerminator '\\' = true := by decide
  rw [List.cons_append, stringBody, if_neg open_, if_neg plain, if_pos (by decide)]
  simp only [reads, List.drop_left, List.take_left, Option.toList_none, List.map_nil]

/-- The inside of a string, up to its quote, reads back as the text that it spells. -/
theorem stringBody_spelling {quote : Char} (delimits : IsQuote quote) {text value : List Char}
    (spelling : Spelling quote text value) (offset : Nat) (rest : List Char) :
    ∃ breaks, stringBody quote offset (text ++ quote :: rest) =
      { text := text ++ [quote], rest, value, breaks, flaws := [], isClosed := true } := by
  induction spelling generalizing offset with
  | nil =>
    refine ⟨[], ?_⟩
    rw [List.nil_append, stringBody, if_pos (beq_self_eq_true quote)]
    rfl
  | @continued mark text value hides later ih =>
    obtain ⟨escape, rfl, reads⟩ := hides.exists_escape
    obtain ⟨breaks, same⟩ := ih (offset + 1 + escape.length)
    have apart := later.head?_ne delimits rest
    rw [List.append_assoc, stringBody_escape delimits (reads _ apart), same]
    simp [Body.after]
  | @character piece text value c spells later ih =>
    rcases spells.plain_or_escape with ⟨rfl, open_, literal, unbroken⟩ | ⟨escape, rfl, reads⟩
    · obtain ⟨breaks, same⟩ := ih (offset + 1)
      rw [List.append_assoc, List.singleton_append, stringBody]
      simp [open_, literal, unbroken, same, Body.after]
    · obtain ⟨breaks, same⟩ := ih (offset + 1 + escape.length)
      rw [List.append_assoc, stringBody_escape delimits (reads _), same]
      simp [Body.after]

end ScriptSyntax

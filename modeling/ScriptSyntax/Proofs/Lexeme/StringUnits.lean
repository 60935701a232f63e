import ScriptSyntax.Proofs.Lexeme.Faults

/-! Where a string ends. However many characters an escape takes, the string ends where it
would if a backslash took the next character along and every other character stood alone. -/
namespace ScriptSyntax

/-- The marks that open and close strings. -/
def IsQuote (c : Char) : Prop := c = '"' ∨ c = '\''

/-- The text of a string in units: a backslash with the character after it, a carriage
return with its line feed counting as one, or any other character. A backslash at the end
of input stands alone. -/
def stringUnits : List Char → List (List Char)
  | [] => []
  | '\\' :: '\r' :: '\n' :: rest => ['\\', '\r', '\n'] :: stringUnits rest
  | '\\' :: c :: rest => ['\\', c] :: stringUnits rest
  | c :: rest => [c] :: stringUnits rest

/-- A string goes on behind any unit but its bare quote, and no further than a bare line
terminator. -/
def stopsString (quote : Char) : List Char → Bool
  | [c] => c == quote || isLineTerminator c
  | _ => false

/-- Whether the first unit to stop a string is its quote. -/
def meetsQuote (quote : Char) (units : List (List Char)) : Bool :=
  units.find? (stopsString quote) == some [quote]

/-- The text up to the first unit that stops the string, and that unit too if it is the
quote. -/
def stringExtent (quote : Char) (units : List (List Char)) : List Char :=
  (units.takeWhile fun unit => !stopsString quote unit).flatten ++
    if meetsQuote quote units then [quote] else []

variable {quote c : Char} {text rest taken more : List Char}

theorem stringUnits_escaped (whole : c = '\r' → rest.head? ≠ some '\n') :
    stringUnits ('\\' :: c :: rest) = ['\\', c] :: stringUnits rest := by
  apply stringUnits.eq_3
  rintro after same rfl
  exact whole same rfl

theorem stringUnits_cons (plain : c ≠ '\\') :
    stringUnits (c :: rest) = [c] :: stringUnits rest := by
  apply stringUnits.eq_4
  · rintro _ same -
    exact plain same
  · rintro _ _ same -
    exact plain same

/-- The units of `text` begin with units that make up `taken`, none of which stops a
string. -/
def Passes (quote : Char) (text taken rest : List Char) : Prop :=
  ∃ units, stringUnits text = units ++ stringUnits rest ∧ units.flatten = taken ∧
    ∀ unit ∈ units, stopsString quote unit = false

namespace Passes

theorem escaped (whole : c = '\r' → rest.head? ≠ some '\n') :
    Passes quote ('\\' :: c :: rest) ['\\', c] rest :=
  ⟨[['\\', c]], stringUnits_escaped whole, rfl, by simp [stopsString]⟩

theorem append (first : Passes quote text taken rest) {behind : List Char}
    (second : Passes quote rest more behind) : Passes quote text (taken ++ more) behind := by
  obtain ⟨units, split, rfl, pass⟩ := first
  obtain ⟨others, splitThere, rfl, passThere⟩ := second
  refine ⟨units ++ others, ?_, List.flatten_append, ?_⟩
  · rw [split, splitThere, List.append_assoc]
  · exact List.forall_mem_append.mpr ⟨pass, passThere⟩

theorem of_plain (plain : ∀ c ∈ taken, c ≠ '\\' ∧ c ≠ quote ∧ isLineTerminator c = false)
    (rest : List Char) : Passes quote (taken ++ rest) taken rest := by
  induction taken with
  | nil => exact ⟨[], rfl, rfl, by simp⟩
  | cons c taken ih =>
    obtain ⟨⟨noEscape, noQuote, noBreak⟩, others⟩ := List.forall_mem_cons.mp plain
    have first : Passes quote (c :: (taken ++ rest)) [c] (taken ++ rest) :=
      ⟨[[c]], stringUnits_cons noEscape, rfl, by simp [stopsString, noQuote, noBreak]⟩
    exact first.append (ih others)

end Passes

theorem isHexDigit_plain (delimits : IsQuote quote) (digit : isHexDigit c) :
    c ≠ '\\' ∧ c ≠ quote ∧ isLineTerminator c = false := by
  refine ⟨?_, ?_, isHexDigit_stops.plain digit⟩
  · rintro rfl
    exact absurd digit (by decide)
  · rintro rfl
    rcases delimits with rfl | rfl <;> exact absurd digit (by decide)

theorem isHexDigit_of_isOctalDigit (digit : isOctalDigit c) : isHexDigit c := by
  simp only [isOctalDigit, Bool.and_eq_true, decide_eq_true_eq] at digit
  have nine : c ≤ '9' := Char.le_trans digit.2 (by decide)
  simp [isHexDigit, hexValue?, digit.1, nine]

namespace Escape

/-- The digits of a code are units of their own. -/
theorem passes_digits (delimits : IsQuote quote) {count code : Nat}
    (found : hexNumber? count rest = some code) :
    Passes quote rest (rest.take count) (rest.drop count) := by
  have all := (hexNumber?_digits found).2
  have digits := Passes.of_plain (fun c member => isHexDigit_plain delimits (all c member))
    (rest.drop count)
  rwa [List.take_append_drop] at digits

theorem ofHex_passes (delimits : IsQuote quote) {marker : Char} (plain : marker ≠ '\r')
    (count : Nat) (rest : List Char) :
    Passes quote ('\\' :: marker :: rest)
      ('\\' :: (marker :: rest).take (ofHex marker count rest).width)
      ((marker :: rest).drop (ofHex marker count rest).width) := by
  have begun : Passes quote ('\\' :: marker :: rest) ['\\', marker] rest :=
    .escaped fun same => absurd same plain
  unfold ofHex
  split
  · exact begun
  · next code found =>
    have digits := begun.append (passes_digits delimits found)
    split
    · next c pair =>
      obtain ⟨low, spelled⟩ := surrogatePair?_low pair
      obtain ⟨behind, split, foundLow⟩ := unicodeEscape?_spelled spelled
      have second : Passes quote ('\\' :: 'u' :: behind) ['\\', 'u'] behind :=
        .escaped (by simp)
      have whole := digits.append (split ▸ second.append (passes_digits delimits foundLow))
      have width : 1 + count + unicodeEscapeLength = (count + unicodeEscapeLength) + 1 := by omega
      have six : unicodeEscapeLength = 6 := rfl
      rw [width, List.take_succ_cons, List.drop_succ_cons, List.take_add, ← List.drop_drop, split]
      exact whole
    · rw [Nat.add_comm 1 count, List.take_succ_cons, List.drop_succ_cons]
      exact digits

theorem ofOctal_passes (delimits : IsQuote quote) {first : Char} (digit : isOctalDigit first)
    (rest : List Char) :
    Passes quote ('\\' :: first :: rest)
      ('\\' :: (first :: rest).take (ofOctal first rest).width)
      ((first :: rest).drop (ofOctal first rest).width) := by
  have begun : Passes quote ('\\' :: first :: rest) ['\\', first] rest := by
    apply Passes.escaped
    rintro rfl
    exact absurd digit (by decide)
  obtain ⟨further, same⟩ : ∃ further,
      (rest.take (if first ≤ '3' then 2 else 1)).takeWhile isOctalDigit = further := ⟨_, rfl⟩
  have before : further <+: rest := same ▸ (List.takeWhile_prefix _).trans (List.take_prefix _ _)
  have octal : ∀ c ∈ further, isOctalDigit c :=
    same ▸ fun c member => List.all_eq_true.mp List.all_takeWhile c member
  have digits := Passes.of_plain
    (fun c member => isHexDigit_plain delimits (isHexDigit_of_isOctalDigit (octal c member)))
    (rest.drop further.length)
  have cut := List.prefix_iff_eq_take.mp before
  simp only [ofOctal, same]
  rw [Nat.add_comm, List.take_succ_cons, List.drop_succ_cons, ← cut]
  refine begun.append ?_
  obtain ⟨behind, rfl⟩ := before
  rwa [List.drop_left] at digits ⊢

/-- An escape is made of whole units, and none of them stops the string. -/
theorem read_passes (delimits : IsQuote quote) (rest : List Char) :
    Passes quote ('\\' :: rest) ('\\' :: rest.take (read rest).width)
      (rest.drop (read rest).width) := by
  unfold read
  split
  · refine ⟨[['\\']], rfl, rfl, ?_⟩
    rcases delimits with rfl | rfl <;> simp [stopsString, isLineTerminator]
  · exact ⟨[['\\', '\r', '\n']], rfl, rfl, by simp [stopsString]⟩
  · next c rest whole =>
    have single : Passes quote ('\\' :: c :: rest) ['\\', c] rest := by
      apply Passes.escaped
      intro same next
      obtain ⟨after, rfl⟩ := List.head?_eq_some_iff.mp next
      exact whole after same rfl
    split
    · exact single
    split
    · next same => exact ofHex_passes delimits (by rintro rfl; simp at same) 2 rest
    split
    · next same => exact ofHex_passes delimits (by rintro rfl; simp at same) 4 rest
    split
    · next octal => exact ofOctal_passes delimits octal rest
    split
    · exact single
    · exact single

end Escape

theorem Passes.meetsQuote_eq (passes : Passes quote text taken rest) :
    meetsQuote quote (stringUnits text) = meetsQuote quote (stringUnits rest) := by
  obtain ⟨units, split, -, pass⟩ := passes
  have none : units.find? (stopsString quote) = none := by simpa using pass
  rw [meetsQuote, meetsQuote, split, List.find?_append, none, Option.none_or]

theorem Passes.stringExtent_eq (passes : Passes quote text taken rest) :
    stringExtent quote (stringUnits text) = taken ++ stringExtent quote (stringUnits rest) := by
  have meets := passes.meetsQuote_eq
  obtain ⟨units, split, rfl, pass⟩ := passes
  have goesOn : ∀ unit ∈ units, (!stopsString quote unit) = true := by simpa using pass
  rw [stringExtent, stringExtent, meets, split, List.takeWhile_append_of_pos goesOn,
    List.flatten_append, List.append_assoc]

/-- The inside of a string ends where its units say, closed if they meet the quote. -/
theorem stringBody_extent (delimits : IsQuote quote) (offset : Nat) (text : List Char) :
    (stringBody quote offset text).text = stringExtent quote (stringUnits text) ∧
      (stringBody quote offset text).isClosed = meetsQuote quote (stringUnits text) := by
  have noEscape : quote ≠ '\\' := by rcases delimits with rfl | rfl <;> decide
  fun_induction stringBody quote offset text with
  | case1 => exact ⟨rfl, rfl⟩
  | case2 offset c rest closes =>
    obtain rfl := beq_iff_eq.mp closes
    rw [stringUnits_cons noEscape]
    simp [stringExtent, meetsQuote, stopsString, Body.close]
  | case3 offset c rest open_ terminator =>
    have escapes : c ≠ '\\' := by
      rintro rfl
      exact absurd terminator (by decide)
    have other : c ≠ quote := by simpa using open_
    rw [stringUnits_cons escapes]
    simp [stringExtent, meetsQuote, stopsString, Body.cut, terminator, other]
  | case4 offset c rest _ _ backslash escape stop ih =>
    obtain rfl := beq_iff_eq.mp backslash
    have passes := Escape.read_passes delimits rest
    rw [passes.stringExtent_eq, passes.meetsQuote_eq]
    exact ⟨congrArg (('\\' :: rest.take escape.width) ++ ·) ih.1, ih.2⟩
  | case5 offset c rest open_ plain literal ih =>
    have passes : Passes quote (c :: rest) [c] rest := by
      refine Passes.of_plain (List.forall_mem_singleton.mpr ⟨?_, ?_, ?_⟩) rest
      · simpa using literal
      · simpa using open_
      · simpa using plain
    rw [passes.stringExtent_eq, passes.meetsQuote_eq]
    exact ⟨congrArg (c :: ·) ih.1, ih.2⟩

namespace Lexeme

/-- Outside comments a quote begins a string. -/
theorem read_of_quote {mode : LexMode} (outside : mode.inComment = false)
    (delimits : IsQuote quote) (text : List Char) :
    read mode (quote :: text) = stringLiteral quote text := by
  rw [read.eq_2]
  rcases delimits with rfl | rfl
  · simp [outside, isBlank, isLineTerminator]
  · simp [outside, isBlank, isLineTerminator]

theorem stringLiteral_text (delimits : IsQuote quote) (text : List Char) :
    (stringLiteral quote text).1.text = quote :: stringExtent quote (stringUnits text) :=
  congrArg (quote :: ·) (stringBody_extent delimits 1 text).1

/-- A string is unterminated, once and as a whole, just if its units do not meet its quote. -/
theorem stringLiteral_unterminated (delimits : IsQuote quote) (text : List Char) :
    (stringLiteral quote text).1.flaws.filter (·.problem = .unterminatedString) =
      if meetsQuote quote (stringUnits text) then []
      else [⟨.unterminatedString, 0, (stringLiteral quote text).1.text.length⟩] := by
  have escapes : (stringBody quote 1 text).flaws.filter (·.problem = .unterminatedString) = [] := by
    rw [List.filter_eq_nil_iff]
    intro flaw member cut
    have inside := stringBody_spoils quote 1 text flaw member
    rw [of_decide_eq_true cut] at inside
    cases inside
  rw [← (stringBody_extent delimits 1 text).2]
  simp only [stringLiteral, List.filter_append, escapes, List.nil_append]
  split <;> rfl

end Lexeme

end ScriptSyntax

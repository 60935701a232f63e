import ScriptSyntax.Proofs.Lexeme.Fences
import ScriptSyntax.Proofs.Source.LineTable

/-! A lexeme notes exactly the lines that begin in its text, and ends on neither side of a
terminator's middle. Only line ends, block comments and strings hold any terminator. -/
namespace ScriptSyntax

open LineTable

/-- A text without line terminators. -/
def Plain (text : List Char) : Prop := ∀ c ∈ text, isLineTerminator c = false

/-- Every line terminator is a fence. -/
theorem isLineTerminator_of_not_isFence {c : Char} (free : isFence c = false) :
    isLineTerminator c = false :=
  (Bool.or_eq_false_iff.mp free).1

theorem StopsAtFence.plain {test : Char → Bool} (stops : StopsAtFence test) {c : Char}
    (passes : test c) : isLineTerminator c = false :=
  isLineTerminator_of_not_isFence (stops.of_passes passes)

namespace Plain

theorem nil : Plain [] := by simp [Plain]

theorem cons {c : Char} {text : List Char} (first : isLineTerminator c = false)
    (rest : Plain text) : Plain (c :: text) :=
  List.forall_mem_cons.mpr ⟨first, rest⟩

theorem append {left right : List Char} (first : Plain left) (second : Plain right) :
    Plain (left ++ right) :=
  List.forall_mem_append.mpr ⟨first, second⟩

theorem of_free {text : List Char} (free : Unfenced text) : Plain text :=
  fun c member => isLineTerminator_of_not_isFence (free c member)

theorem not_cutsBreak {left right : List Char} (plain : Plain left) : ¬ CutsBreak left right := by
  rintro ⟨last, -⟩
  have free := plain _ (List.mem_of_getLast? last)
  exact absurd free (by decide)

end Plain

namespace Escape

/-- An escape takes characters that are there, and hides a terminator exactly when it says
so. -/
structure Spelled (escape : Escape) (text : List Char) : Prop where
  width_le : escape.width ≤ text.length
  uncut : ¬ CutsBreak (text.take escape.width) (text.drop escape.width)
  starts : ∀ offset, startsIn offset (text.take escape.width) =
    if escape.breaksLine then [offset + escape.width] else []

theorem Spelled.of_plain {escape : Escape} {text : List Char} (within : escape.width ≤ text.length)
    (plain : Plain (text.take escape.width)) (unbroken : escape.breaksLine = false) :
    escape.Spelled text where
  width_le := within
  uncut := plain.not_cutsBreak
  starts offset := by simp [startsIn_eq_nil offset plain, unbroken]

theorem ofHex_spelled {marker : Char} {count : Nat} {rest : List Char}
    (plain : isLineTerminator marker = false) :
    (ofHex marker count rest).Spelled (marker :: rest) := by
  unfold ofHex
  split
  · exact .of_plain (by simp) (.cons plain .nil) rfl
  · next code spelled =>
    obtain ⟨enough, digits⟩ := hexNumber?_free spelled
    split
    · next c pair =>
      obtain ⟨room, low⟩ := surrogatePair?_free pair
      rw [List.length_drop] at room
      refine .of_plain (by simp only [List.length_cons]; omega) ?_ rfl
      rw [show 1 + count + unicodeEscapeLength = (count + unicodeEscapeLength) + 1 by omega,
        List.take_succ_cons, List.take_add]
      exact .cons plain (.of_free (.append digits low))
    · refine .of_plain (by simp only [List.length_cons]; omega) ?_ rfl
      rw [Nat.add_comm, List.take_succ_cons]
      exact .cons plain (.of_free digits)

theorem ofOctal_spelled {first : Char} {rest : List Char}
    (plain : isLineTerminator first = false) :
    (ofOctal first rest).Spelled (first :: rest) := by
  have further : (rest.take (if first ≤ '3' then 2 else 1)).takeWhile isOctalDigit <+: rest :=
    (List.takeWhile_prefix _).trans (List.take_prefix _ _)
  have length := further.length_le
  refine .of_plain (by simp only [ofOctal, List.length_cons]; omega) ?_ rfl
  unfold ofOctal
  dsimp only
  rw [Nat.add_comm, List.take_succ_cons, ← List.prefix_iff_eq_take.mp further]
  exact .cons plain (.of_free (.takeWhile isOctalDigit_stops))

theorem control?_plain {c control : Char} (found : control? c = some control) :
    isLineTerminator c = false := by
  unfold control? at found
  split at found
  all_goals first
    | rfl
    | cases found

theorem read_spelled (text : List Char) : (read text).Spelled text := by
  unfold read
  split
  · exact .of_plain (Nat.le_refl _) .nil rfl
  · next rest =>
    exact ⟨by simp, by simp [CutsBreak], fun offset => rfl⟩
  · next c rest whole =>
    split
    · next control found => exact .of_plain (by simp) (.cons (control?_plain found) .nil) rfl
    split
    · next same =>
      obtain rfl := beq_iff_eq.mp same
      exact ofHex_spelled (by decide)
    split
    · next same =>
      obtain rfl := beq_iff_eq.mp same
      exact ofHex_spelled (by decide)
    split
    · next octal => exact ofOctal_spelled (isOctalDigit_stops.plain octal)
    split
    · next terminator =>
      refine ⟨by simp, by simpa using not_cutsBreak_of_whole whole, fun offset => ?_⟩
      simp [startsIn_singleton, terminator]
    · next plain =>
      exact .of_plain (by simp) (.cons (Bool.eq_false_iff.mpr plain) .nil) rfl

end Escape

namespace Body

/-- A body that stands at `offset` notes exactly the lines that begin in it, and cuts no
terminator. -/
structure Lined (body : Body) (offset : Nat) : Prop where
  breaks : body.breaks = startsIn offset body.text
  uncut : ¬ CutsBreak body.text body.rest

theorem Lined.cut (offset : Nat) (rest : List Char) : (Body.cut rest).Lined offset :=
  ⟨rfl, Plain.nil.not_cutsBreak⟩

theorem Lined.close {mark : List Char} (plain : Plain mark) (offset : Nat) (rest : List Char) :
    (Body.close mark rest).Lined offset :=
  ⟨(startsIn_eq_nil offset plain).symm, plain.not_cutsBreak⟩

theorem Lined.after {body : Body} {offset : Nat} {text value : List Char} {breaks : List Nat}
    {flaws : List Flaw} (lined : body.Lined (offset + text.length))
    (uncut : ¬ CutsBreak text (body.text ++ body.rest)) (starts : startsIn offset text = breaks) :
    (body.after text value breaks flaws).Lined offset := by
  by_cases empty : body.text = []
  · have none : body.breaks = [] := by rw [lined.breaks, empty, startsIn]
    constructor
    · simp [Body.after, empty, none, starts]
    · simpa [Body.after, empty] using uncut
  · have apart : ¬ CutsBreak text body.text := fun cut => uncut (cut.of_append empty)
    constructor
    · simp only [Body.after]
      rw [startsIn_append offset apart, starts, lined.breaks]
    · exact not_cutsBreak_append empty lined.uncut

end Body

theorem lineBreakRun_lined (offset : Nat) (text : List Char) :
    (lineBreakRun offset text).Lined offset := by
  fun_induction lineBreakRun offset text with
  | case1 offset => exact .cut offset []
  | case2 offset rest ih => exact ih.after (by simp [CutsBreak]) rfl
  | case3 offset c rest whole terminator ih =>
    apply ih.after
    · simpa using not_cutsBreak_of_whole whole
    · simp [startsIn_singleton, terminator]
  | case4 offset c rest whole plain => exact .cut offset (c :: rest)

theorem commentBody_lined (offset : Nat) (text : List Char) :
    (commentBody offset text).Lined offset := by
  fun_induction commentBody offset text with
  | case1 offset => exact .cut offset []
  | case2 offset rest => exact .close (.cons (by decide) (.cons (by decide) .nil)) offset rest
  | case3 offset rest ih => exact ih.after (by simp [CutsBreak]) rfl
  | case4 offset c rest open_ whole ih =>
    apply ih.after
    · simpa using not_cutsBreak_of_whole whole
    · exact startsIn_singleton offset c

theorem stringBody_lined {quote : Char} (mark : isLineTerminator quote = false) (offset : Nat)
    (text : List Char) : (stringBody quote offset text).Lined offset := by
  fun_induction stringBody quote offset text with
  | case1 offset => exact .cut offset []
  | case2 offset c rest closes =>
    obtain rfl := beq_iff_eq.mp closes
    exact .close (.cons mark .nil) offset rest
  | case3 offset c rest _ terminator => exact .cut offset (c :: rest)
  | case4 offset c rest _ plain backslash escape stop ih =>
    have spelled := Escape.read_spelled rest
    have first : ¬ CutsBreak [c] (rest.take escape.width) :=
      (Plain.cons (Bool.eq_false_iff.mpr plain) .nil).not_cutsBreak
    have length : (c :: rest.take escape.width).length = 1 + escape.width := by
      rw [List.length_cons, List.length_take, Nat.min_eq_left spelled.width_le, Nat.add_comm]
    apply Body.Lined.after (by rwa [length, ← Nat.add_assoc])
    · rw [stringBody_append]
      rintro ⟨last, next⟩
      by_cases empty : rest.take escape.width = []
      · rw [empty] at last
        exact (Plain.cons (Bool.eq_false_iff.mpr plain) .nil).not_cutsBreak ⟨last, next⟩
      · have joined : ¬ CutsBreak ([c] ++ rest.take escape.width) (rest.drop escape.width) :=
          not_cutsBreak_append empty spelled.uncut
        exact joined ⟨last, next⟩
    · rw [startsIn_cons offset first, spelled.starts, if_neg plain, List.nil_append]
  | case5 offset c rest _ plain _ ih =>
    have single : Plain [c] := .cons (Bool.eq_false_iff.mpr plain) .nil
    exact ih.after single.not_cutsBreak (startsIn_eq_nil offset single)

theorem patternBody?_plain {inClass : Bool} {text pattern rest : List Char}
    (found : patternBody? inClass text = some (pattern, rest)) : Plain pattern := by
  fun_induction patternBody? inClass text generalizing pattern rest with
  | case1 | case2 | case3 | case4 => cases found
  | case5 inClass c plain _ next after plainNext ih =>
    obtain ⟨⟨inner, left⟩, matched, same⟩ := Option.map_eq_some_iff.mp found
    obtain ⟨rfl, -⟩ := Prod.mk.inj same
    exact .cons (Bool.eq_false_iff.mpr plain) (.cons (Bool.eq_false_iff.mpr plainNext) (ih matched))
  | case6 =>
    obtain ⟨rfl, -⟩ := Prod.mk.inj (Option.some.inj found)
    exact .nil
  | case7 =>
    rename_i plain _ _ _ ih
    obtain ⟨⟨inner, left⟩, matched, same⟩ := Option.map_eq_some_iff.mp found
    obtain ⟨rfl, -⟩ := Prod.mk.inj same
    exact .cons (Bool.eq_false_iff.mpr plain) (ih matched)

namespace Lexeme

/-- A lexeme notes exactly the lines that begin in it, and cuts no terminator. -/
structure Lined (lexeme : Lexeme) (rest : List Char) : Prop where
  breaks : lexeme.breaks = startsIn 0 lexeme.text
  uncut : ¬ CutsBreak lexeme.text rest

theorem Lined.of_plain {lexeme : Lexeme} (plain : Plain lexeme.text) (none : lexeme.breaks = [])
    (rest : List Char) : lexeme.Lined rest :=
  ⟨by rw [none, startsIn_eq_nil 0 plain], plain.not_cutsBreak⟩

theorem lineEnds_lined (text : List Char) : (lineEnds text).1.Lined (lineEnds text).2 :=
  ⟨(lineBreakRun_lined 0 text).breaks, (lineBreakRun_lined 0 text).uncut⟩

theorem lineComment_lined (text : List Char) : (lineComment text).1.Lined (lineComment text).2 :=
  .of_plain (fun c member => by simpa using List.all_eq_true.mp List.all_takeWhile c member) rfl _

theorem blockComment_lined {opening : List Char} (plain : Plain opening) (text : List Char) :
    (blockComment opening text).1.Lined (blockComment opening text).2 := by
  have whole : ((commentBody opening.length text).after opening [] [] []).Lined 0 :=
    .after (by simpa using commentBody_lined opening.length text) plain.not_cutsBreak
      (startsIn_eq_nil 0 plain)
  exact ⟨whole.breaks, whole.uncut⟩

theorem stringLiteral_lined {quote : Char} (mark : isLineTerminator quote = false)
    (text : List Char) : (stringLiteral quote text).1.Lined (stringLiteral quote text).2 := by
  have single : Plain [quote] := .cons mark .nil
  have whole : ((stringBody quote 1 text).after [quote] [] [] []).Lined 0 :=
    .after (by simpa using stringBody_lined mark 1 text) single.not_cutsBreak
      (startsIn_eq_nil 0 single)
  exact ⟨whole.breaks, whole.uncut⟩

theorem illegal_lined {c : Char} (plain : isLineTerminator c = false) (rest : List Char) :
    (illegal (c :: rest)).1.Lined (illegal (c :: rest)).2 :=
  .of_plain (.cons plain .nil) rfl _

theorem spelling_plain (mark : Punctuator) : Plain mark.spelling.toList := by
  have none : mark.spelling.toList.all (!isLineTerminator ·) = true := by
    cases mark <;> decide
  intro c member
  simpa using List.all_eq_true.mp none c member

theorem mark_lined {c : Char} (plain : isLineTerminator c = false) (rest : List Char) :
    (mark (c :: rest)).1.Lined (mark (c :: rest)).2 := by
  unfold mark
  split
  · next mark found =>
    refine .of_plain ?_ rfl _
    rw [ofLength, ← String.length_toList,
      ← List.prefix_iff_eq_take.mp (Punctuator.spelling_isPrefix found)]
    exact spelling_plain mark
  · exact illegal_lined plain rest

theorem regularExpression?_plain {text : List Char} {found : Lexeme × List Char}
    (reads : regularExpression? text = some found) : Plain found.1.text := by
  obtain ⟨⟨pattern, after⟩, body, rfl⟩ := Option.map_eq_some_iff.mp reads
  have inside : Plain pattern := patternBody?_plain body
  have flags : Plain (after.takeWhile isIdentifierPart) :=
    .of_free (.takeWhile isIdentifierPart_stops)
  exact .append (.cons (by decide) inside) (.cons (by decide) flags)

theorem regularExpression?_lined {text : List Char} {found : Lexeme × List Char}
    (reads : regularExpression? text = some found) : found.1.Lined found.2 := by
  have plain := regularExpression?_plain reads
  obtain ⟨⟨pattern, after⟩, -, rfl⟩ := Option.map_eq_some_iff.mp reads
  exact .of_plain plain rfl _

theorem numeral_lined (text : List Char) : (numeral text).1.Lined (numeral text).2 := by
  have tail := Numeral.tail_isPrefix (text.drop (Numeral.read text).digits.length)
  have all := isPrefix_append_of_drop (Numeral.read_isPrefix text) tail
  refine .of_plain ?_ rfl _
  unfold numeral
  dsimp only
  rw [← List.length_append, ← List.prefix_iff_eq_take.mp all]
  exact .of_free (.append (Numeral.read_free text) (Numeral.tail_free _))

theorem toLexeme_lined {part : WordPart} (plain : Plain part.text) (strict : Bool) :
    (part.toLexeme strict).1.Lined (part.toLexeme strict).2 :=
  .of_plain plain rfl _

theorem word_lined {first : Char} (starts : isIdentifierStart first) (strict : Bool)
    (rest : List Char) : (word strict first rest).1.Lined (word strict first rest).2 :=
  toLexeme_lined (.cons (isIdentifierPart_stops.plain (isIdentifierPart_of_isIdentifierStart starts))
    (.of_free (WordPart.read_free rest))) strict

theorem escapedWord_lined {c : Char} (plain : isLineTerminator c = false) (strict : Bool)
    (rest : List Char) :
    (escapedWord strict (c :: rest)).1.Lined (escapedWord strict (c :: rest)).2 := by
  unfold escapedWord
  split
  · next first spelled =>
    apply toLexeme_lined
    exact .of_free (.append (WordPart.escaped?_free spelled).2 (WordPart.read_free _))
  · exact illegal_lined plain rest

theorem slash_lined (regex : Bool) (rest : List Char) :
    (slash regex rest).1.Lined (slash regex rest).2 := by
  rcases slash_reads regex rest with same | ⟨body, -, same⟩ | ⟨-, reads⟩ | same
  · rw [same]
    exact lineComment_lined _
  · rw [same]
    exact blockComment_lined (.cons (by decide) (.cons (by decide) .nil)) _
  · exact regularExpression?_lined reads
  · rw [same]
    exact mark_lined (by decide) rest

/-- Every lexeme notes exactly the lines that begin in its text, and what follows it does
not begin inside a terminator. -/
theorem read_lined (mode : LexMode) (text : List Char) :
    (read mode text).1.Lined (read mode text).2 := by
  unfold read
  split
  · exact .of_plain .nil rfl _
  · next c rest =>
    split
    · exact blockComment_lined .nil _
    split
    · next null =>
      obtain rfl : c = '\x00' := by simpa using And.left (by simpa using null)
      exact .of_plain (.cons (by decide) .nil) rfl _
    split
    · exact .of_plain (.of_free (.takeWhile isBlank_stops)) rfl _
    split
    · exact lineEnds_lined _
    next plain =>
    have plain : isLineTerminator c = false := Bool.eq_false_iff.mpr plain
    split
    · exact stringLiteral_lined plain rest
    split
    · exact numeral_lined _
    split
    · exact slash_lined mode.regex rest
    split
    · exact escapedWord_lined plain mode.strict rest
    split
    · next starts => exact word_lined starts mode.strict rest
    · exact mark_lined plain rest

/-- Lines begin only in line ends, in block comments and in strings. -/
theorem read_breaks (mode : LexMode) (text : List Char) :
    (read mode text).1.breaks = [] ∨ (read mode text).1.kind = .endOfLine ∨
      (read mode text).1.kind = .blockComment ∨ (read mode text).1.kind = .stringLiteral := by
  have atMark (text : List Char) : (mark text).1.breaks = [] := by
    unfold mark
    split <;> rfl
  unfold read
  split
  · exact .inl rfl
  · next c rest =>
    split
    · exact .inr (.inr (.inl rfl))
    split
    · exact .inl rfl
    split
    · exact .inl rfl
    split
    · exact .inr (.inl rfl)
    split
    · exact .inr (.inr (.inr rfl))
    split
    · exact .inl rfl
    split
    · rcases slash_reads mode.regex rest with same | ⟨body, -, same⟩ | ⟨-, reads⟩ | same
      · exact .inl (same ▸ rfl)
      · exact .inr (.inr (.inl (same ▸ rfl)))
      · obtain ⟨_, -, same⟩ := Option.map_eq_some_iff.mp reads
        exact .inl (same ▸ rfl)
      · exact .inl (same ▸ atMark _)
    split
    · unfold escapedWord
      split <;> exact .inl rfl
    split
    · exact .inl rfl
    · exact .inl (atMark _)

end Lexeme

end ScriptSyntax

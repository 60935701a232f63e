import ScriptSyntax.Lexeme.Reader
import Mathlib.Data.List.Basic

/-! How far reading looks ahead. Names, numbers and escapes look no further than the next
slash or line terminator, whatever they make of the text before it. -/
namespace ScriptSyntax

/-- A character that no name, number, escape or blank goes on with. -/
def isFence (c : Char) : Bool := isLineTerminator c || c == '/'

theorem isFence_excludes (test : Char → Bool) {c : Char} (fence : isFence c)
    (excluded : ['\n', '\r', '\u2028', '\u2029', '/'].all (fun c => !test c)) :
    test c = false := by
  simp only [isFence, isLineTerminator, Bool.or_eq_true, beq_iff_eq] at fence
  simp only [List.all_cons, List.all_nil, Bool.and_eq_true, Bool.not_eq_true'] at excluded
  rcases fence with (((same | same) | same) | same) | same <;> subst same <;> simp_all

/-- A test that lets no fence through. -/
def StopsAtFence (test : Char → Bool) : Prop := ∀ c, isFence c → test c = false

theorem StopsAtFence.of_passes {test : Char → Bool} (stops : StopsAtFence test) {c : Char}
    (passes : test c) : isFence c = false := by
  by_contra fence
  rw [stops c (by simpa using fence)] at passes
  cases passes

theorem isBlank_stops : StopsAtFence isBlank :=
  fun _ fence => isFence_excludes _ fence (by decide)

theorem isDecimalDigit_stops : StopsAtFence isDecimalDigit :=
  fun _ fence => isFence_excludes _ fence (by decide)

theorem isOctalDigit_stops : StopsAtFence isOctalDigit :=
  fun _ fence => isFence_excludes _ fence (by decide)

theorem isHexDigit_stops : StopsAtFence isHexDigit :=
  fun _ fence => isFence_excludes _ fence (by decide)

theorem isIdentifierPart_stops : StopsAtFence isIdentifierPart :=
  fun _ fence => isFence_excludes _ fence (by decide +kernel)

/-- A text with a fence in it. -/
def Fenced (text : List Char) : Prop := ∃ c ∈ text, isFence c

/-- A text without one. -/
def Unfenced (text : List Char) : Prop := ∀ c ∈ text, isFence c = false

namespace Unfenced

variable {taken rest : List Char}

theorem nil : Unfenced [] := by simp [Unfenced]

theorem cons {c : Char} (first : isFence c = false) (free : Unfenced rest) :
    Unfenced (c :: rest) :=
  List.forall_mem_cons.mpr ⟨first, free⟩

theorem append (first : Unfenced taken) (second : Unfenced rest) : Unfenced (taken ++ rest) :=
  List.forall_mem_append.mpr ⟨first, second⟩

theorem takeWhile {test : Char → Bool} {text : List Char} (stops : StopsAtFence test) :
    Unfenced (text.takeWhile test) :=
  fun c member => stops.of_passes (List.all_eq_true.mp List.all_takeWhile c member)

theorem not_fenced (free : Unfenced rest) : ¬ Fenced rest := by
  rintro ⟨c, member, fence⟩
  rw [free c member] at fence
  cases fence

end Unfenced

namespace Fenced

variable {text taken rest : List Char} {test : Char → Bool}

theorem not_nil : ¬ Fenced [] := Unfenced.nil.not_fenced

theorem ne_nil (fenced : Fenced text) : text ≠ [] := by
  rintro rfl
  exact not_nil fenced

theorem append_iff : Fenced (taken ++ rest) ↔ Fenced taken ∨ Fenced rest := by
  simp only [Fenced, List.mem_append, or_and_right, exists_or]

theorem cons_iff {c : Char} : Fenced (c :: rest) ↔ isFence c ∨ Fenced rest := by
  simp [Fenced]

/-- Behind a character that is no fence the fence is still to come. -/
theorem of_cons {c : Char} (fenced : Fenced (c :: rest)) (free : isFence c = false) :
    Fenced rest :=
  (cons_iff.mp fenced).resolve_left (by simp [free])

theorem of_suffix (fenced : Fenced rest) (suffix : rest <:+ text) : Fenced text := by
  obtain ⟨c, member, fence⟩ := fenced
  exact ⟨c, suffix.subset member, fence⟩

/-- What lies behind a piece without a fence. -/
theorem drop (fenced : Fenced text) (before : taken <+: text) (free : Unfenced taken) :
    Fenced (text.drop taken.length) := by
  obtain ⟨rest, rfl⟩ := before
  rw [List.drop_left]
  exact (append_iff.mp fenced).resolve_left free.not_fenced

theorem drop_of_take {count : Nat} (fenced : Fenced text) (within : count ≤ text.length)
    (free : Unfenced (text.take count)) : Fenced (text.drop count) := by
  have behind := fenced.drop (List.take_prefix count text) free
  rwa [List.length_take, Nat.min_eq_left within] at behind

theorem takeWhile_append (fenced : Fenced text) (stops : StopsAtFence test)
    (more : List Char) : (text ++ more).takeWhile test = text.takeWhile test := by
  rw [List.takeWhile_append, if_neg]
  intro all
  have whole : text.takeWhile test = text := (List.takeWhile_prefix test).eq_of_length all
  exact (Unfenced.takeWhile stops).not_fenced (whole.symm ▸ fenced)

theorem head?_append (fenced : Fenced text) (more : List Char) :
    (text ++ more).head? = text.head? :=
  List.head?_append_of_ne_nil text fenced.ne_nil

end Fenced

theorem drop_append_of_isPrefix {taken text : List Char} (before : taken <+: text)
    (more : List Char) :
    (text ++ more).drop taken.length = text.drop taken.length ++ more :=
  List.drop_append_of_le_length before.length_le

private theorem hexDigits_all {text : List Char} {digits : List Nat}
    (read : text.mapM hexValue? = some digits) :
    digits.length = text.length ∧ ∀ c ∈ text, isHexDigit c := by
  induction text generalizing digits with
  | nil =>
    obtain rfl : digits = [] := by simpa using read.symm
    exact ⟨rfl, by simp⟩
  | cons c rest ih =>
    rw [List.mapM_cons] at read
    obtain ⟨digit, spelled, more⟩ := Option.bind_eq_some_iff.mp read
    obtain ⟨others, found, same⟩ := Option.bind_eq_some_iff.mp more
    obtain rfl : digit :: others = digits := Option.some.inj same
    obtain ⟨length, all⟩ := ih found
    have first : isHexDigit c := by simp [isHexDigit, spelled]
    exact ⟨congrArg (· + 1) length, List.forall_mem_cons.mpr ⟨first, all⟩⟩

/-- The digits that spell a code are all there. -/
theorem hexNumber?_digits {count code : Nat} {text : List Char}
    (found : hexNumber? count text = some code) :
    count ≤ text.length ∧ ∀ c ∈ text.take count, isHexDigit c := by
  unfold hexNumber? at found
  obtain ⟨digits, read, enough⟩ := Option.bind_eq_some_iff.mp found
  obtain ⟨length, all⟩ := hexDigits_all read
  split at enough
  · next same =>
    rw [List.length_take] at length
    exact ⟨by omega, all⟩
  · cases enough

theorem hexNumber?_free {count code : Nat} {text : List Char}
    (found : hexNumber? count text = some code) :
    count ≤ text.length ∧ Unfenced (text.take count) := by
  obtain ⟨enough, all⟩ := hexNumber?_digits found
  exact ⟨enough, fun c member => isHexDigit_stops.of_passes (all c member)⟩

theorem hexNumber?_fenced {text : List Char} (fenced : Fenced text) (count : Nat)
    (more : List Char) : hexNumber? count (text ++ more) = hexNumber? count text := by
  by_cases within : count ≤ text.length
  · rw [hexNumber?, hexNumber?, List.take_append_of_le_length within]
  · -- the fence is among the characters that ought to be digits
    have none {all : List Char} (present : Fenced (all.take count)) :
        hexNumber? count all = none := by
      by_contra read
      obtain ⟨code, found⟩ := Option.ne_none_iff_exists'.mp read
      exact (hexNumber?_free found).2.not_fenced present
    have long : Fenced ((text ++ more).take count) := by
      rw [List.take_append, List.take_of_length_le (by omega)]
      exact Fenced.append_iff.mpr (.inl fenced)
    have short : Fenced (text.take count) := by
      rwa [List.take_of_length_le (by omega)]
    rw [none long, none short]

theorem unicodeEscape?_spelled {text : List Char} {code : Nat}
    (found : unicodeEscape? text = some code) :
    ∃ rest, text = '\\' :: 'u' :: rest ∧ hexNumber? 4 rest = some code := by
  unfold unicodeEscape? at found
  split at found
  · exact ⟨_, rfl, found⟩
  · cases found

theorem unicodeEscape?_free {text : List Char} {code : Nat}
    (found : unicodeEscape? text = some code) :
    unicodeEscapeLength ≤ text.length ∧ Unfenced (text.take unicodeEscapeLength) := by
  obtain ⟨rest, rfl, digits⟩ := unicodeEscape?_spelled found
  obtain ⟨enough, free⟩ := hexNumber?_free digits
  exact ⟨Nat.add_le_add_right enough 2, .cons (by decide) (.cons (by decide) free)⟩

theorem unicodeEscape?_fenced {text : List Char} (fenced : Fenced text) (more : List Char) :
    unicodeEscape? (text ++ more) = unicodeEscape? text := by
  match text, fenced with
  | [c], fenced =>
    have first : c ≠ '\\' := by
      rintro rfl
      exact Fenced.not_nil (fenced.of_cons (by decide))
    simp [unicodeEscape?, first]
  | c :: d :: rest, fenced =>
    by_cases marked : c = '\\' ∧ d = 'u'
    · obtain ⟨rfl, rfl⟩ := marked
      exact hexNumber?_fenced ((fenced.of_cons (by decide)).of_cons (by decide)) 4 more
    · rw [unicodeEscape?.eq_def, unicodeEscape?.eq_def]
      split <;> split <;> simp_all

/-- The second half of a pair is an escape like the first. -/
theorem surrogatePair?_low {high : Nat} {text : List Char} {c : Char}
    (found : surrogatePair? high text = some c) : ∃ low, unicodeEscape? text = some low := by
  unfold surrogatePair? at found
  obtain ⟨-, -, more⟩ := Option.bind_eq_some_iff.mp found
  obtain ⟨low, spelled, -⟩ := Option.bind_eq_some_iff.mp more
  exact ⟨low, spelled⟩

theorem surrogatePair?_free {high : Nat} {text : List Char} {c : Char}
    (found : surrogatePair? high text = some c) :
    unicodeEscapeLength ≤ text.length ∧ Unfenced (text.take unicodeEscapeLength) := by
  obtain ⟨low, spelled⟩ := surrogatePair?_low found
  exact unicodeEscape?_free spelled

theorem surrogatePair?_fenced {text : List Char} (fenced : Fenced text) (high : Nat)
    (more : List Char) : surrogatePair? high (text ++ more) = surrogatePair? high text := by
  rw [surrogatePair?, surrogatePair?, unicodeEscape?_fenced fenced]

namespace Escape

theorem ofHex_fenced {rest : List Char} (fenced : Fenced rest) (marker : Char) (count : Nat)
    (more : List Char) : ofHex marker count (rest ++ more) = ofHex marker count rest := by
  rw [ofHex, ofHex, hexNumber?_fenced fenced]
  cases found : hexNumber? count rest with
  | none => rfl
  | some code =>
    obtain ⟨enough, free⟩ := hexNumber?_free found
    have behind := fenced.drop_of_take enough free
    dsimp only
    rw [List.drop_append_of_le_length enough, surrogatePair?_fenced behind]

theorem ofOctal_fenced {rest : List Char} (fenced : Fenced rest) (first : Char)
    (more : List Char) : ofOctal first (rest ++ more) = ofOctal first rest := by
  simp only [ofOctal, ← List.take_takeWhile, fenced.takeWhile_append isOctalDigit_stops,
    fenced.head?_append]

theorem read_fenced {rest : List Char} (fenced : Fenced rest) (c : Char) (more : List Char) :
    read (c :: rest ++ more) = read (c :: rest) := by
  obtain ⟨d, after, rfl⟩ := List.exists_cons_of_ne_nil fenced.ne_nil
  by_cases broken : c = '\r' ∧ d = '\n'
  · obtain ⟨rfl, rfl⟩ := broken
    rfl
  · have apart : ∀ others, c = '\r' → d :: after = '\n' :: others → False := by
      rintro others rfl same
      exact broken ⟨rfl, (List.cons.inj same).1⟩
    have apartMore : ∀ others, c = '\r' → d :: after ++ more = '\n' :: others → False := by
      rintro others rfl same
      exact broken ⟨rfl, (List.cons.inj same).1⟩
    rw [List.cons_append, read.eq_3 c _ apart, read.eq_3 c _ apartMore]
    simp only [ofHex_fenced fenced, ofOctal_fenced fenced]

end Escape

namespace WordPart

theorem escaped?_fenced {text : List Char} (fenced : Fenced text) (test : Char → Bool)
    (more : List Char) : escaped? test (text ++ more) = escaped? test text := by
  rw [escaped?, escaped?, unicodeEscape?_fenced fenced]

theorem escaped?_free {test : Char → Bool} {text : List Char} {c : Char}
    (found : escaped? test text = some c) :
    unicodeEscapeLength ≤ text.length ∧ Unfenced (text.take unicodeEscapeLength) := by
  obtain ⟨code, spelled, -⟩ := Option.bind_eq_some_iff.mp found
  exact unicodeEscape?_free spelled

theorem read_free (text : List Char) : Unfenced (read text).text := by
  fun_induction read text with
  | case1 => exact .nil
  | case2 c rest part ih => exact .cons (isIdentifierPart_stops.of_passes part) ih
  | case3 c rest _ decoded spelled ih => exact .append (escaped?_free spelled).2 ih
  | case4 => exact .nil

theorem read_fenced {text : List Char} (fenced : Fenced text) (more : List Char) :
    read (text ++ more) = { read text with rest := (read text).rest ++ more } := by
  fun_induction read text with
  | case1 => exact absurd fenced Fenced.not_nil
  | case2 c rest part ih =>
    have behind : Fenced rest := fenced.of_cons (isIdentifierPart_stops.of_passes part)
    rw [List.cons_append, read, if_pos part, ih behind]
    rfl
  | case3 c rest noPart decoded spelled ih =>
    obtain ⟨enough, free⟩ := escaped?_free spelled
    have behind : Fenced (rest.drop 5) := fenced.drop_of_take enough free
    have length : 5 ≤ rest.length := Nat.le_of_succ_le_succ enough
    have same := escaped?_fenced fenced isIdentifierPart more
    rw [List.cons_append] at same
    rw [List.cons_append, read, if_neg noPart, same, spelled]
    dsimp only
    rw [List.drop_append_of_le_length length, List.take_append_of_le_length length, ih behind]
    rfl
  | case4 c rest noPart spelled =>
    have same := escaped?_fenced fenced isIdentifierPart more
    rw [List.cons_append] at same
    rw [List.cons_append, read, if_neg noPart, same, spelled]

end WordPart

namespace Numeral

theorem hexMarks_stop : StopsAtFence fun c => c == 'x' || c == 'X' :=
  fun _ fence => isFence_excludes (fun c => c == 'x' || c == 'X') fence (by decide)

theorem exponentMarks_stop : StopsAtFence fun c => c == 'e' || c == 'E' :=
  fun _ fence => isFence_excludes (fun c => c == 'e' || c == 'E') fence (by decide)

theorem signs_stop : StopsAtFence fun c => c == '+' || c == '-' :=
  fun _ fence => isFence_excludes (fun c => c == '+' || c == '-') fence (by decide)

theorem ofHex_fenced {rest : List Char} (fenced : Fenced rest) (marker : Char)
    (more : List Char) : ofHex marker (rest ++ more) = ofHex marker rest := by
  simp only [ofHex, fenced.takeWhile_append isHexDigit_stops]

theorem ofOctal?_fenced {rest : List Char} (fenced : Fenced rest) (more : List Char) :
    ofOctal? (rest ++ more) = ofOctal? rest := by
  simp only [ofOctal?, fenced.takeWhile_append isDecimalDigit_stops]

theorem fraction_fenced {text : List Char} (fenced : Fenced text) (more : List Char) :
    fraction (text ++ more) = fraction text := by
  obtain ⟨c, rest, rfl⟩ := List.exists_cons_of_ne_nil fenced.ne_nil
  by_cases point : c = '.'
  · subst point
    have behind : Fenced rest := fenced.of_cons (by decide)
    simp only [List.cons_append, fraction, behind.takeWhile_append isDecimalDigit_stops]
  · simp [fraction, point]

theorem fraction_free (text : List Char) : Unfenced (fraction text) := by
  unfold fraction
  split
  · exact .cons (by decide) (.takeWhile isDecimalDigit_stops)
  · exact .nil

/-- The sign of an exponent, in the text behind its marker. -/
def sign (rest : List Char) : List Char :=
  (rest.take 1).takeWhile fun c => c == '+' || c == '-'

theorem sign_isPrefix (rest : List Char) : sign rest <+: rest :=
  (List.takeWhile_prefix _).trans (List.take_prefix 1 rest)

/-- The digits of an exponent, in the text behind its marker. -/
def exponentDigits (rest : List Char) : List Char :=
  (rest.drop (sign rest).length).takeWhile isDecimalDigit

theorem exponent_of_marker {marker : Char} (marks : marker == 'e' || marker == 'E')
    (rest : List Char) :
    exponent (marker :: rest) =
      if (exponentDigits rest).isEmpty then [] else marker :: sign rest ++ exponentDigits rest := by
  rw [exponent, if_pos marks]
  rfl

theorem exponent_fenced {text : List Char} (fenced : Fenced text) (more : List Char) :
    exponent (text ++ more) = exponent text := by
  obtain ⟨marker, rest, rfl⟩ := List.exists_cons_of_ne_nil fenced.ne_nil
  by_cases marks : marker == 'e' || marker == 'E'
  · have behind : Fenced rest := fenced.of_cons (exponentMarks_stop.of_passes marks)
    have first : (rest ++ more).take 1 = rest.take 1 :=
      List.take_append_of_le_length (List.length_pos_iff.mpr behind.ne_nil)
    have sameSign : sign (rest ++ more) = sign rest := by rw [sign, sign, first]
    have digits := behind.drop (sign_isPrefix rest) (Unfenced.takeWhile signs_stop)
    have sameDigits : exponentDigits (rest ++ more) = exponentDigits rest := by
      rw [exponentDigits, exponentDigits, sameSign, drop_append_of_isPrefix (sign_isPrefix rest),
        digits.takeWhile_append isDecimalDigit_stops]
    rw [List.cons_append, exponent_of_marker marks, exponent_of_marker marks, sameSign, sameDigits]
  · simp [exponent, marks]

theorem ofDecimal_fenced {text : List Char} (fenced : Fenced text) (more : List Char) :
    ofDecimal (text ++ more) = ofDecimal text := by
  have whole : text.takeWhile isDecimalDigit <+: text := List.takeWhile_prefix _
  have afterWhole := fenced.drop whole (Unfenced.takeWhile isDecimalDigit_stops)
  have fraction := fraction_isPrefix (text.drop (text.takeWhile isDecimalDigit).length)
  have afterFraction := afterWhole.drop fraction (fraction_free _)
  simp only [ofDecimal, fenced.takeWhile_append isDecimalDigit_stops,
    drop_append_of_isPrefix whole, fraction_fenced afterWhole, drop_append_of_isPrefix fraction,
    exponent_fenced afterFraction]

theorem read_fenced {c : Char} {rest : List Char} (fenced : Fenced rest) (more : List Char) :
    read (c :: rest ++ more) = read (c :: rest) := by
  have all : Fenced (c :: rest) := Fenced.cons_iff.mpr (.inr fenced)
  obtain ⟨d, after, rfl⟩ := List.exists_cons_of_ne_nil fenced.ne_nil
  by_cases zero : c = '0'
  · subst zero
    by_cases marks : d == 'x' || d == 'X'
    · have behind : Fenced after := fenced.of_cons (hexMarks_stop.of_passes marks)
      simp only [List.cons_append, read, if_pos marks, ofHex_fenced behind]
    · have octal := ofOctal?_fenced fenced more
      have decimal := ofDecimal_fenced all more
      rw [List.cons_append] at octal decimal
      rw [List.cons_append] at decimal
      simp only [List.cons_append, read, if_neg marks, octal, decimal]
  · have plain (text : List Char) : read (c :: text) = ofDecimal (c :: text) := by
      rw [read.eq_def]
      split <;> simp_all
    rw [List.cons_append, plain, plain]
    exact ofDecimal_fenced all more

theorem exponent_free (text : List Char) : Unfenced (exponent text) := by
  cases text with
  | nil => exact .nil
  | cons marker rest =>
    by_cases marks : marker == 'e' || marker == 'E'
    · rw [exponent_of_marker marks]
      split
      · exact .nil
      · exact .cons (exponentMarks_stop.of_passes marks)
          (.append (.takeWhile signs_stop) (.takeWhile isDecimalDigit_stops))
    · rw [exponent, if_neg marks]
      exact .nil

theorem ofDecimal_free (text : List Char) : Unfenced (ofDecimal text).digits :=
  .append (.append (.takeWhile isDecimalDigit_stops) (fraction_free _))
    (exponent_free _)

theorem read_free (text : List Char) : Unfenced (read text).digits := by
  unfold read
  split
  · next c rest =>
    split
    · next marks =>
      unfold ofHex
      dsimp only
      split
      · exact .cons (by decide) .nil
      · exact .cons (by decide)
          (.cons (hexMarks_stop.of_passes marks) (.takeWhile isHexDigit_stops))
    · split
      · unfold ofOctal?
        dsimp only
        split
        · exact .cons (by decide) (.takeWhile isDecimalDigit_stops)
        · exact ofDecimal_free _
      · exact ofDecimal_free _
  · exact ofDecimal_free _

theorem tail_free (rest : List Char) : Unfenced (tail rest) := by
  unfold tail
  split
  · exact .takeWhile isIdentifierPart_stops
  · exact .nil

theorem tail_fenced {rest : List Char} (fenced : Fenced rest) (more : List Char) :
    tail (rest ++ more) = tail rest := by
  simp only [tail, fenced.head?_append, fenced.takeWhile_append isIdentifierPart_stops]

end Numeral

namespace Punctuator

theorem withEqual_fenced {rest : List Char} (fenced : Fenced rest) (assigning plain : Punctuator)
    (more : List Char) :
    withEqual (rest ++ more) assigning plain = withEqual rest assigning plain := by
  rw [withEqual, withEqual, fenced.head?_append]

/-- Two marks of the kind that may come three times. -/
private theorem ofText?_shift_fenced {rest : List Char} (fenced : Fenced rest)
    (more : List Char) : ofText? ('>' :: '>' :: (rest ++ more)) = ofText? ('>' :: '>' :: rest) := by
  obtain ⟨c, after, rfl⟩ := List.exists_cons_of_ne_nil fenced.ne_nil
  by_cases third : c = '>'
  · subst third
    have behind : Fenced after := fenced.of_cons (by decide)
    simp only [List.cons_append, ofText?, withEqual_fenced behind _ _ more]
  · have same := fun assigning plain => withEqual_fenced fenced assigning plain more
    simp only [List.cons_append] at same
    simp [ofText?, third, same]

theorem ofText?_fenced {c : Char} {rest : List Char} (fenced : Fenced rest) (more : List Char) :
    ofText? (c :: rest ++ more) = ofText? (c :: rest) := by
  obtain ⟨d, after, rfl⟩ := List.exists_cons_of_ne_nil fenced.ne_nil
  -- a second mark is no fence, so the fence lies behind it
  have behind (free : isFence d = false) : Fenced after := fenced.of_cons free
  by_cases shift : c = '>' ∧ d = '>'
  · obtain ⟨rfl, rfl⟩ := shift
    exact ofText?_shift_fenced (behind (by decide)) more
  · have short := fun assigning plain => withEqual_fenced fenced assigning plain more
    have long (free : isFence d = false) (assigning plain : Punctuator) :=
      withEqual_fenced (behind free) assigning plain more
    have equalSign : isFence '=' = false := by decide
    have less : isFence '<' = false := by decide
    simp only [List.cons_append] at short
    rw [List.cons_append, List.cons_append, ofText?.eq_def, ofText?.eq_def]
    dsimp only
    split <;> try rfl
    all_goals try rw [short]
    all_goals split <;> simp_all

end Punctuator

end ScriptSyntax

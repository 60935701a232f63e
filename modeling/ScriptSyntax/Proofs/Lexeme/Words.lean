import ScriptSyntax.Proofs.Lexeme.Pieces
import ScriptSyntax.Proofs.Lexeme.Strictness
import ScriptSyntax.Text.Name

/-! Words by their shape. The value of a word is a name, and a word without escapes is its
value; only such a word can be reserved. -/
namespace ScriptSyntax

/-- The characters from `first` to `last`. -/
def charsBetween (first last : Char) : List Char :=
  (List.range (last.toNat + 1 - first.toNat)).map fun place => Char.ofNat (first.toNat + place)

theorem mem_charsBetween {first last c : Char} (lower : first ≤ c) (upper : c ≤ last) :
    c ∈ charsBetween first last := by
  rw [Char.le_def, UInt32.le_iff_toNat_le] at lower upper
  change first.toNat ≤ c.toNat at lower
  change c.toNat ≤ last.toNat at upper
  refine List.mem_map.mpr ⟨c.toNat - first.toNat, List.mem_range.mpr (by omega), ?_⟩
  rw [Nat.add_sub_cancel' lower, Char.ofNat_toNat]

/-- Blank space and line terminators. -/
def spaces : List Char :=
  [' ', '\t', '\x0b', '\x0c', '\u00a0', '\ufeff', '\u1680', '\u202f', '\u205f', '\u3000',
   '\n', '\r', '\u2028', '\u2029'] ++ charsBetween '\u2000' '\u200a'

theorem mem_spaces {c : Char} (space : isBlank c ∨ isLineTerminator c) : c ∈ spaces := by
  simp only [isBlank, isLineTerminator, Bool.or_eq_true, Bool.and_eq_true, beq_iff_eq,
    decide_eq_true_eq] at space
  by_cases range : '\u2000' ≤ c ∧ c ≤ '\u200a'
  · exact List.mem_append_right _ (mem_charsBetween range.1 range.2)
  · apply List.mem_append_left
    simpa only [List.mem_cons, List.not_mem_nil, range, or_false, false_or, or_assoc] using space

/-- No character of an identifier is blank space, and none ends a line. -/
theorem not_space_of_isIdentifierPart {c : Char} (part : isIdentifierPart c) :
    isBlank c = false ∧ isLineTerminator c = false := by
  have none : spaces.any isIdentifierPart = false := by decide +kernel
  have apart : ¬ (isBlank c ∨ isLineTerminator c) := fun space =>
    List.any_eq_false.mp none c (mem_spaces space) part
  simpa using apart

theorem isDecimalDigit_of_isIdentifierStart {c : Char} (starts : isIdentifierStart c) :
    isDecimalDigit c = false := by
  have none : (charsBetween '0' '9').any isIdentifierStart = false := by decide
  by_contra digit
  simp only [isDecimalDigit, Bool.not_eq_false, Bool.and_eq_true, decide_eq_true_eq] at digit
  exact List.any_eq_false.mp none c (mem_charsBetween digit.1 digit.2) starts

/-- A text that is a name as it stands. -/
def SpellsName (text : List Char) : Prop :=
  ∃ first rest, text = first :: rest ∧ isIdentifierStart first ∧ ∀ c ∈ rest, isIdentifierPart c

theorem SpellsName.no_backslash {text : List Char} (name : SpellsName text) : '\\' ∉ text := by
  obtain ⟨first, rest, rfl, starts, parts⟩ := name
  have none : isIdentifierPart '\\' = false := by decide
  intro backslash
  rcases List.mem_cons.mp backslash with rfl | member
  · rw [isIdentifierPart_of_isIdentifierStart starts] at none
    cases none
  · rw [parts _ member] at none
    cases none

/-- The value of a word is a name. -/
structure WordPart.IsName (part : WordPart) : Prop where
  shape : SpellsName part.value
  showsEscapes : part.ShowsEscapes

namespace WordPart

theorem escaped?_eq_some {test : Char → Bool} {text : List Char} {c : Char} :
    escaped? test text = some c ↔
      ∃ code, unicodeEscape? text = some code ∧ scalar? code = some c ∧ test c := by
  simp only [escaped?, Option.bind_eq_bind, Option.bind_eq_some_iff]
  refine exists_congr fun code => and_congr_right fun _ => ?_
  constructor
  · rintro ⟨decoded, scalar, passed⟩
    split at passed
    · next passes =>
      cases passed
      exact ⟨scalar, passes⟩
    · cases passed
  · rintro ⟨scalar, passes⟩
    exact ⟨c, scalar, if_pos passes⟩

theorem of_escaped? {test : Char → Bool} {text : List Char} {c : Char}
    (spelled : escaped? test text = some c) : test c := by
  obtain ⟨_, -, -, passes⟩ := escaped?_eq_some.mp spelled
  exact passes

theorem read_value (text : List Char) : ∀ c ∈ (read text).value, isIdentifierPart c := by
  fun_induction read text with
  | case1 | case4 => simp
  | case2 c rest part ih => exact List.forall_mem_cons.mpr ⟨part, ih⟩
  | case3 c rest _ decoded spelled ih =>
    exact List.forall_mem_cons.mpr ⟨of_escaped? spelled, ih⟩

/-- All of a text, as it stands. -/
def plain (text : List Char) : WordPart := { text, value := text, rest := [], isEscaped := false }

/-- Characters of an identifier are read as they stand. -/
theorem read_of_parts {text : List Char} (parts : ∀ c ∈ text, isIdentifierPart c) :
    read text = plain text := by
  induction text with
  | nil => rw [read, plain]
  | cons c rest ih =>
    obtain ⟨part, behind⟩ := List.forall_mem_cons.mp parts
    rw [read, if_pos part, ih behind]
    rfl

section

variable {part : WordPart} {strict : Bool} {reserved : ReservedWord}

theorem kind_eq_word :
    part.kind strict = .word reserved ↔
      part.isEscaped = false ∧ reserved.spelling = String.ofList part.value ∧
        reserved.isReserved strict = true := by
  rw [← ReservedWord.ofSpelling?_eq_some]
  unfold kind
  cases part.isEscaped with
  | true => simp
  | false =>
    cases ReservedWord.ofSpelling? (String.ofList part.value) with
    | none => simp
    | some word =>
      by_cases same : word = reserved
      · subst same
        cases holds : word.isReserved strict <;> simp [holds]
      · cases holds : word.isReserved strict <;> simp [holds, same]

theorem kind_eq_identifier :
    part.kind strict = .identifier ↔
      part.isEscaped = true ∨ isReservedWord (String.ofList part.value) strict = false := by
  unfold kind isReservedWord
  cases part.isEscaped with
  | true => simp
  | false =>
    cases ReservedWord.ofSpelling? (String.ofList part.value) with
    | none => simp
    | some word => cases reserved : word.isReserved strict <;> simp [reserved]

theorem kind_cases (part : WordPart) (strict : Bool) :
    part.kind strict = .identifier ∨ ∃ reserved, part.kind strict = .word reserved := by
  unfold kind
  repeat' split
  · exact .inl rfl
  · exact .inr ⟨_, rfl⟩
  · exact .inl rfl
  · exact .inl rfl

/-- The text of a reserved word is its spelling. -/
theorem IsName.text_eq_spelling (name : part.IsName)
    (kind : part.kind strict = .word reserved) : part.text = reserved.spelling.toList := by
  obtain ⟨plain, spelled, -⟩ := kind_eq_word.mp kind
  rw [spelled, String.toList_ofList]
  exact (name.showsEscapes.plain plain).symm

/-- A name that is its own text has no escape in it. -/
theorem IsName.plain_of_value_eq_text (name : part.IsName) (same : part.value = part.text) :
    part.isEscaped = false := by
  by_contra escaped
  exact name.shape.no_backslash (same ▸ name.showsEscapes.escaped (Bool.not_eq_false _ ▸ escaped))

end

end WordPart

theorem isReservedWord_iff {text : String} {strict : Bool} :
    isReservedWord text strict = true ↔
      ∃ word : ReservedWord, word.spelling = text ∧ word.isReserved strict = true := by
  simp only [isReservedWord, Option.any_eq_true, ReservedWord.ofSpelling?_eq_some]

theorem isIdentifier_iff {text : String} :
    isIdentifier text = true ↔ SpellsName text.toList ∧ isReservedWord text false = false := by
  unfold isIdentifier SpellsName
  cases text.toList with
  | nil => simp
  | cons first rest => simp [and_assoc]

theorem ReservedWord.spelling_spellsName (word : ReservedWord) :
    SpellsName word.spelling.toList := by
  cases word <;> exact ⟨_, _, rfl, rfl, List.all_eq_true.mp rfl⟩

end ScriptSyntax

import ScriptSyntax.Lexeme.Escape

/-! Identifiers and reserved words. -/
namespace ScriptSyntax

/-- Characters of a word, decoded, and the text after them. -/
structure WordPart where
  text : List Char
  value : List Char
  rest : List Char
  /-- An escape was decoded. -/
  isEscaped : Bool
  deriving DecidableEq, Repr

namespace WordPart

/-- Put one decoded character, spelled as `text`, before a part of a word. -/
def after (part : WordPart) (text : List Char) (c : Char) (isEscaped : Bool) : WordPart :=
  { part with
    text := text ++ part.text
    value := c :: part.value
    isEscaped := isEscaped || part.isEscaped }

/-- The character spelled by an escape at the head, if it satisfies `test`. -/
def escaped? (test : Char → Bool) (text : List Char) : Option Char := do
  let c ← scalar? (← unicodeEscape? text)
  if test c then some c else none

/-- All that continues a word. A backslash that spells no identifier character ends
the word and is left for the next token. -/
def read : List Char → WordPart
  | [] => ⟨[], [], [], false⟩
  | c :: rest =>
    if isIdentifierPart c then (read rest).after [c] c false
    else
      match escaped? isIdentifierPart (c :: rest) with
      | some decoded =>
        (read (rest.drop 5)).after (c :: rest.take 5) decoded true
      | none => ⟨[], [], c :: rest, false⟩
  termination_by text => text.length
  decreasing_by
    · simp
    · simp only [List.length_drop, List.length_cons]; omega

@[simp] theorem read_append (text : List Char) : (read text).text ++ (read text).rest = text := by
  fun_induction read text <;> simp_all [after]

/-- What a finished word is. A spelling with an escape in it is never reserved. -/
def kind (part : WordPart) (strict : Bool) : TokenKind :=
  if part.isEscaped then .identifier
  else
    match ReservedWord.ofSpelling? (String.ofList part.value) with
    | some word => if word.isReserved strict then .word word else .identifier
    | none => .identifier

/-- The lexeme of a whole word. -/
def toLexeme (part : WordPart) (strict : Bool) : Lexeme × List Char :=
  ({ kind := part.kind strict, text := part.text, value := part.value }, part.rest)

end WordPart

namespace Lexeme

/-- A word that begins with the plain character `first`. -/
def word (strict : Bool) (first : Char) (rest : List Char) : Lexeme × List Char :=
  ((WordPart.read rest).after [first] first false).toLexeme strict

/-- A word that begins with an escape. A backslash that begins no word is illegal. -/
def escapedWord (strict : Bool) (text : List Char) : Lexeme × List Char :=
  match WordPart.escaped? isIdentifierStart text with
  | some first =>
    ((WordPart.read (text.drop unicodeEscapeLength)).after
      (text.take unicodeEscapeLength) first true).toLexeme strict
  | none => illegal text

@[simp] theorem word_append (strict : Bool) (first : Char) (rest : List Char) :
    (word strict first rest).1.text ++ (word strict first rest).2 = first :: rest := by
  simp [word, WordPart.toLexeme, WordPart.after]

@[simp] theorem escapedWord_append (strict : Bool) (text : List Char) :
    (escapedWord strict text).1.text ++ (escapedWord strict text).2 = text := by
  unfold escapedWord
  split <;> simp [WordPart.toLexeme, WordPart.after]

end Lexeme

end ScriptSyntax

import ScriptSyntax.Lexeme.Basic
import ScriptSyntax.Text.Character

/-! Regular expression literals. A slash that does not close on its line is no such
literal, and nothing is taken. -/
namespace ScriptSyntax

/-- The pattern up to its closing slash, and the text after that slash. A slash inside
a class in brackets does not close the pattern, and a backslash takes the character
after it along. -/
def patternBody? (inClass : Bool) : List Char → Option (List Char × List Char)
  | [] => none
  | c :: rest =>
    if isLineTerminator c then none
    else if c == '\\' then
      match rest with
      | [] => none
      | next :: rest =>
        if isLineTerminator next then none
        else (patternBody? inClass rest).map fun (pattern, after) => (c :: next :: pattern, after)
    else if c == '/' && !inClass then some ([], rest)
    else
      let inClass := if c == '[' then true else if c == ']' then false else inClass
      (patternBody? inClass rest).map fun (pattern, after) => (c :: pattern, after)

theorem patternBody?_append {inClass : Bool} {text pattern rest : List Char}
    (found : patternBody? inClass text = some (pattern, rest)) :
    pattern ++ '/' :: rest = text := by
  fun_induction patternBody? inClass text generalizing pattern rest <;>
    simp_all [Option.map_eq_some_iff]
  case case5 ih =>
    obtain ⟨inner, matched, rfl⟩ := found
    simp [ih matched]
  case case7 ih =>
    obtain ⟨inner, matched, rfl⟩ := found
    simp [ih matched]

/-- A regular expression whose opening slash is already read. -/
def Lexeme.regularExpression? (text : List Char) : Option (Lexeme × List Char) :=
  (patternBody? false text).map fun (pattern, after) =>
    let flags := after.takeWhile isIdentifierPart
    ({ kind := .regularExpression
       text := '/' :: pattern ++ '/' :: flags
       value := pattern
       flags := some flags },
     after.dropWhile isIdentifierPart)

theorem Lexeme.regularExpression?_append {text : List Char} {found : Lexeme × List Char}
    (reads : regularExpression? text = some found) : found.1.text ++ found.2 = '/' :: text := by
  obtain ⟨⟨pattern, after⟩, body, rfl⟩ := Option.map_eq_some_iff.mp reads
  simp [← patternBody?_append body]

end ScriptSyntax

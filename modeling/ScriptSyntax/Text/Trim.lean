/-! Removing the blank ends of a text, and lowering its letters, as done to words
in configuration and environment. -/
namespace ScriptSyntax

/-- The Unicode property `White_Space`. -/
def isWhiteSpace (c : Char) : Bool :=
  ('\t' ≤ c && c ≤ '\r') || c == ' ' || c == '\u0085' || c == '\u00a0' || c == '\u1680' ||
  ('\u2000' ≤ c && c ≤ '\u200a') || c == '\u2028' || c == '\u2029' || c == '\u202f' ||
  c == '\u205f' || c == '\u3000'

/-- The text without white space at either end. -/
def trimmed (text : List Char) : List Char :=
  ((text.dropWhile isWhiteSpace).reverse.dropWhile isWhiteSpace).reverse

/-- A word to compare with known words of ASCII letters: trimmed and lowered. Only
ASCII letters are lowered, for no other character lowers to a letter of those words. -/
def normalizedWord (text : String) : String :=
  String.ofList ((trimmed text.toList).map Char.toLower)

end ScriptSyntax

import ScriptSyntax.Text.EscapedRanges

/-! Text between double quotes on one line. Quotes, backslashes and all that does
not show by itself are escaped; an apostrophe is not. -/
namespace ScriptSyntax.Quoted

/-- The hexadecimal digits of a number, lower case, with no leading zero. -/
def hex (n : Nat) : List Char := Nat.toDigits 16 n

/-- How one character is written. -/
def escape (c : Char) : List Char :=
  match c with
  | '"' => ['\\', '"']
  | '\\' => ['\\', '\\']
  | '\t' => ['\\', 't']
  | '\n' => ['\\', 'n']
  | '\r' => ['\\', 'r']
  | '\x00' => ['\\', '0']
  | c =>
    if escapedRanges.contains c then ['\\', 'u', '\x7b'] ++ hex c.toNat ++ ['\x7d']
    else [c]

def encode (text : List Char) : List Char :=
  '"' :: text.flatMap escape ++ ['"']

end ScriptSyntax.Quoted

namespace ScriptSyntax

/-- The quoted form of a text. -/
def quoted (text : String) : String := String.ofList (Quoted.encode text.toList)

end ScriptSyntax

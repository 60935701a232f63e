import ScriptSyntax.Text.Character
import ScriptSyntax.Token.ReservedWord

/-! Which texts can serve as names. -/
namespace ScriptSyntax

/-- A text of identifier characters that is not a reserved word. The words reserved
only in strict code are accepted. -/
def isIdentifier (text : String) : Bool :=
  match text.toList with
  | [] => false
  | first :: rest =>
    isIdentifierStart first && rest.all isIdentifierPart && !isReservedWord text false

/-- A text of ASCII identifier characters, which survives any encoding. -/
def isAsciiIdentifier (text : String) : Bool :=
  match text.toList with
  | [] => false
  | first :: rest => isAsciiIdentifierStart first && rest.all isAsciiIdentifierPart

end ScriptSyntax

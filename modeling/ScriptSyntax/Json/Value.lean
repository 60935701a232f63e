import ScriptSyntax.Number.Shortest
import ScriptSyntax.Text.Quoted

/-! JSON values and their texts. Members of an object keep their order. -/
namespace ScriptSyntax.Json

inductive Value where
  | null
  | bool (value : Bool)
  | integer (value : Int)
  | number (value : Binary64)
  | string (value : String)
  | array (elements : List Value)
  | object (members : List (String × Value))
  deriving Repr, Inhabited

namespace Value

def ofNat (n : Nat) : Value := .integer n

/-- The value if there is one, else null. -/
def ofOption {α : Type} (encode : α → Value) : Option α → Value
  | none => .null
  | some value => encode value

/-- The member with this key. Of several the last counts. -/
def member? (members : List (String × Value)) (key : String) : Option Value :=
  members.reverse.lookup key

end Value

/-- How one character is written inside a string. -/
def escape (c : Char) : List Char :=
  match c with
  | '"' => ['\\', '"']
  | '\\' => ['\\', '\\']
  | '\x08' => ['\\', 'b']
  | '\x0c' => ['\\', 'f']
  | '\n' => ['\\', 'n']
  | '\r' => ['\\', 'r']
  | '\t' => ['\\', 't']
  | c =>
    if c.toNat < 0x20 then
      let digits := Quoted.hex c.toNat
      ['\\', 'u'] ++ List.replicate (4 - digits.length) '0' ++ digits
    else [c]

def stringText (text : String) : String :=
  String.ofList ('"' :: text.toList.flatMap escape ++ ['"'])

/-- A number that is not finite has no text of its own. -/
def numberText (number : Binary64) : String :=
  if number.isFinite then number.compactText else "null"

/-- The pieces with a separator between them. -/
def joined (separator : String) (pieces : List String) : String :=
  String.intercalate separator pieces

mutual

/-- The text without any blank space. -/
def Value.compact : Value → String
  | .null => "null"
  | .bool value => if value then "true" else "false"
  | .integer value => toString value
  | .number value => numberText value
  | .string value => stringText value
  | .array elements => "[" ++ joined "," (compactElements elements) ++ "]"
  | .object members => "\x7b" ++ joined "," (compactMembers members) ++ "\x7d"

def compactElements : List Value → List String
  | [] => []
  | element :: rest => element.compact :: compactElements rest

def compactMembers : List (String × Value) → List String
  | [] => []
  | (key, value) :: rest => (stringText key ++ ":" ++ value.compact) :: compactMembers rest

end

/-- A line end and two spaces for each level of nesting. -/
def lineAt (level : Nat) : String := "\n" ++ String.ofList (List.replicate (2 * level) ' ')

/-- Pieces on lines of their own between brackets; nothing between the brackets when
there are none. -/
def bracketed (level : Nat) (opening closing : String) (pieces : List String) : String :=
  if pieces.isEmpty then opening ++ closing
  else opening ++ lineAt (level + 1) ++ joined ("," ++ lineAt (level + 1)) pieces ++
    lineAt level ++ closing

mutual

/-- The text with every element and member on a line of its own. -/
def Value.prettyAt (level : Nat) : Value → String
  | .array elements => bracketed level "[" "]" (prettyElements (level + 1) elements)
  | .object members => bracketed level "\x7b" "\x7d" (prettyMembers (level + 1) members)
  | .null => "null"
  | .bool value => if value then "true" else "false"
  | .integer value => toString value
  | .number value => numberText value
  | .string value => stringText value

def prettyElements (level : Nat) : List Value → List String
  | [] => []
  | element :: rest => element.prettyAt level :: prettyElements level rest

def prettyMembers (level : Nat) : List (String × Value) → List String
  | [] => []
  | (key, value) :: rest =>
    (stringText key ++ ": " ++ value.prettyAt level) :: prettyMembers level rest

end

def Value.pretty (value : Value) : String := value.prettyAt 0

end ScriptSyntax.Json

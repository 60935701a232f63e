import ScriptSyntax.Json.Document
import ScriptSyntax.Number.Shortest
import ScriptSyntax.Scanner.Basic
import ScriptSyntax.Text.Quoted
import ScriptSyntax.Text.Trim

/-! Scan options from a JSON text. The first problem from left to right is the one
reported, be it a wrong value or text that is no JSON. -/
namespace ScriptSyntax

/-- Why a settings text cannot be used. -/
inductive SettingsFault where
  /-- The text is no JSON, or ends too early. -/
  | unreadable (fault : Json.Fault)
  /-- A value that is neither an object nor an array, where the record `expected` should
  be. -/
  | invalidType (found expected : String)
  | unknownField (name : String) (known : List String)
  | duplicateField (name : String)
  /-- A switch that is neither a boolean nor a string. -/
  | notBooleanOrString
  /-- A string that names no boolean. -/
  | notBoolean (text : String)
  deriving DecidableEq, Repr

namespace SettingsFault

/-- Names between grave accents with "or" between them. -/
def alternatives (names : List String) : String :=
  String.intercalate " or " (names.map fun name => s!"`{name}`")

def message : SettingsFault → String
  | unreadable .malformed => "expected value"
  | unreadable .endsEarly => "EOF while parsing a value"
  | invalidType found expected => s!"invalid type: {found}, expected {expected}"
  | unknownField name known =>
    s!"unknown field `{name}`, expected {alternatives known}"
  | duplicateField name => s!"duplicate field `{name}`"
  | notBooleanOrString => "data did not match any variant of untagged enum BoolOrString"
  | notBoolean text =>
    s!"invalid boolean value: '{text}'. Expected true, false, 'true', or 'false'"

end SettingsFault

namespace Settings

/-- A field of a record: its key, and how its value changes what is being built. -/
structure Field (α : Type) where
  key : String
  read : Json.Document → α → Except SettingsFault α

/-- Read the members of an object in order. `seen` holds the keys met before. -/
def readMembers {α : Type} (fields : List (Field α)) (seen : List String) :
    List (String × Json.Document) → α → Except SettingsFault α
  | [], built => .ok built
  | (key, value) :: rest, built =>
    match fields.find? fun field => field.key == key with
    | none => .error (.unknownField key (fields.map Field.key))
    | some field => do
      if seen.contains key then throw (.duplicateField key)
      readMembers fields (key :: seen) rest (← field.read value built)

/-- Read the elements of an array as the values of the fields in order. Missing ones
are left as they are; one too many is no longer part of the value. -/
def readElements {α : Type} :
    List (Field α) → List Json.Document → α → Except SettingsFault α
  | _, [], built => .ok built
  | [], _ :: _, _ => .error (.unreadable .malformed)
  | field :: fields, value :: rest, built => do
    readElements fields rest (← field.read value built)

/-- Read a record, given as an object or as an array of its values. `expected` names
it where something else stands in its place. -/
def readRecord {α : Type} (expected : String) (fields : List (Field α))
    (document : Json.Document) (initial : α) : Except SettingsFault α :=
  let wrong (found : String) : Except SettingsFault α := .error (.invalidType found expected)
  let complete (fault : Option Json.Fault) (built : α) : Except SettingsFault α :=
    match fault with
    | some fault => .error (.unreadable fault)
    | none => .ok built
  match document with
  | .faulty fault => .error (.unreadable fault)
  | .object members fault => do complete fault (← readMembers fields [] members initial)
  | .array elements fault => do complete fault (← readElements fields elements initial)
  | .null => wrong "null"
  | .bool value => wrong s!"boolean `{value}`"
  | .integer value => wrong s!"integer `{value}`"
  | .number value => wrong s!"floating point `{value.compactText}`"
  | .string value => wrong s!"string {quoted value}"

/-- The boolean that a word stands for. -/
def booleanWord? (word : String) : Option Bool :=
  if ["true", "1", "yes", "on"].contains word then some true
  else if ["false", "0", "no", "off"].contains word then some false
  else none

/-- A switch: a boolean, or a string that names one. The whole value is read before it
is judged. -/
def readSwitch (document : Json.Document) : Except SettingsFault Bool :=
  match document.fault? with
  | some fault => .error (.unreadable fault)
  | none =>
    match document with
    | .bool value => .ok value
    | .string text =>
      match booleanWord? (normalizedWord text) with
      | some value => .ok value
      | none => .error (.notBoolean text)
    | _ => .error .notBooleanOrString

def optionFields : List (Field ScanOptions) :=
  [{ key := "strictMode"
     read := fun value options => do return { options with strict := ← readSwitch value } },
   { key := "skipTrivia"
     read := fun value options => do return { options with skipTrivia := ← readSwitch value } }]

def rootFields : List (Field ScanOptions) :=
  [{ key := "scan"
     read := fun value options =>
      readRecord "struct RawScanOptions" optionFields value options }]

/-- The options given by a settings text; those not given are off. -/
def parse (text : List Char) : Except SettingsFault ScanOptions := do
  let (document, rest) := Json.Document.read text
  let options ← readRecord "struct RawScanConfig" rootFields document {}
  if rest.isEmpty then return options else throw (.unreadable .malformed)

end Settings

end ScriptSyntax

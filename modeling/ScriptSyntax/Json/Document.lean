import ScriptSyntax.Json.Numeral

/-! JSON text read up to its first fault. What stands before the fault is kept, so a
reader can meet a wrong value before it meets the fault. -/
namespace ScriptSyntax.Json

/-- A value as far as it could be read. -/
inductive Document where
  | null
  | bool (value : Bool)
  | integer (value : Int)
  | number (value : Binary64)
  | string (value : String)
  /-- The elements, and the fault met where the next one or the end should be. -/
  | array (elements : List Document) (fault : Option Fault)
  /-- The members, and the fault met where the next one or the end should be. -/
  | object (members : List (String × Document)) (fault : Option Fault)
  /-- The fault met inside the value. -/
  | faulty (fault : Fault)
  deriving Inhabited

/-- The four characters that may stand between any two parts. -/
def isJsonBlank (c : Char) : Bool := c == ' ' || c == '\n' || c == '\t' || c == '\r'

def skipBlank (text : List Char) : List Char := text.dropWhile isJsonBlank

/-- The characters `expected` at the head. -/
def keyword : List Char → List Char → Except Fault (List Char)
  | [], text => .ok text
  | _ :: _, [] => .error .endsEarly
  | c :: expected, next :: rest => if next == c then keyword expected rest else .error .malformed

/-- Four hexadecimal digits. With fewer than four bytes left the text ends early. -/
def hexCode (text : List Char) : Except Fault (Nat × List Char) :=
  match hexNumber? 4 text with
  | some code => .ok (code, text.drop 4)
  | none =>
    let bytes := (text.take 4).foldl (fun bytes c => bytes + c.utf8Size) 0
    .error (if bytes < 4 then .endsEarly else .malformed)

/-- The character of a `\u` escape whose first two characters are already read. A high
surrogate needs an escaped low one after it. -/
def unicodeCharacter (text : List Char) : Except Fault (Char × List Char) := do
  let (code, rest) ← hexCode text
  if 0xd800 ≤ code ∧ code < 0xdc00 then
    let rest ← keyword ['\\', 'u'] rest
    let (low, rest) ← hexCode rest
    match scalar? (0x10000 + (code - 0xd800) * 0x400 + (low - 0xdc00)) with
    | some c => if 0xdc00 ≤ low ∧ low < 0xe000 then return (c, rest) else throw .malformed
    | none => throw .malformed
  else
    match scalar? code with
    | some c => return (c, rest)
    | none => throw .malformed

/-- The character of an escape whose backslash is already read. -/
def escapedCharacter : List Char → Except Fault (Char × List Char)
  | [] => .error .endsEarly
  | c :: rest =>
    match c with
    | '"' | '\\' | '/' => .ok (c, rest)
    | 'b' => .ok ('\x08', rest)
    | 'f' => .ok ('\x0c', rest)
    | 'n' => .ok ('\n', rest)
    | 'r' => .ok ('\r', rest)
    | 't' => .ok ('\t', rest)
    | 'u' => unicodeCharacter rest
    | _ => .error .malformed

/-- A string whose opening quote is already read, behind the characters already there,
latest first. -/
def stringOnto (taken : List Char) : Nat → List Char → Except Fault (String × List Char)
  | 0, _ => .error .endsEarly
  | _ + 1, [] => .error .endsEarly
  | steps + 1, c :: rest =>
    if c == '"' then .ok (String.ofList taken.reverse, rest)
    else if c == '\\' then do
      let (decoded, rest) ← escapedCharacter rest
      stringOnto (decoded :: taken) steps rest
    else if c.toNat < 0x20 then .error .malformed
    else stringOnto (c :: taken) steps rest

def stringText? (text : List Char) : Except Fault (String × List Char) :=
  stringOnto [] (text.length + 1) text

/-- How many values may be nested in one another. -/
def depthLimit : Nat := 128

namespace Document

/-- The value found, or the fault met instead of it, with nothing left to read. -/
def ofResult (result : Except Fault (Document × List Char)) : Document × List Char :=
  match result with
  | .ok found => found
  | .error fault => (.faulty fault, [])

def ofNumeral (negative : Bool) (text : List Char) : Except Fault (Document × List Char) := do
  match ← Numeral.read negative text with
  | (.integer value, rest) => return (.integer value, rest)
  | (.number value, rest) => return (.number value, rest)

/-- A value that holds no others. -/
def ofScalar : List Char → Except Fault (Document × List Char)
  | [] => .error .endsEarly
  | c :: rest =>
    match c with
    | 'n' => do return (.null, ← keyword ['u', 'l', 'l'] rest)
    | 't' => do return (.bool true, ← keyword ['r', 'u', 'e'] rest)
    | 'f' => do return (.bool false, ← keyword ['a', 'l', 's', 'e'] rest)
    | '"' => do
      let (text, rest) ← stringText? rest
      return (.string text, rest)
    | '-' => ofNumeral true rest
    | c => if isDecimalDigit c then ofNumeral false (c :: rest) else .error .malformed

mutual

/-- Read a value after any blank space. `depth` bounds the nesting from here on, and
each step of the readers uses one of `steps`. -/
def value (depth : Nat) : Nat → List Char → Document × List Char
  | 0, _ => (.faulty .malformed, [])
  | steps + 1, text =>
    match skipBlank text with
    | '[' :: rest =>
      if depth ≤ 1 then (.faulty .malformed, []) else elements (depth - 1) steps true [] rest
    | '\x7b' :: rest =>
      if depth ≤ 1 then (.faulty .malformed, []) else members (depth - 1) steps true [] rest
    | text => ofResult (ofScalar text)

/-- Read the elements of an array behind those already there, latest first. -/
def elements (depth : Nat) : Nat → Bool → List Document → List Char → Document × List Char
  | 0, _, taken, _ => (.array taken.reverse (some .malformed), [])
  | steps + 1, isFirst, taken, text =>
    match skipBlank text with
    | [] => (.array taken.reverse (some .endsEarly), [])
    | ']' :: rest => (.array taken.reverse none, rest)
    | c :: rest =>
      if isFirst then
        let (element, rest) := value depth steps (c :: rest)
        elements depth steps false (element :: taken) rest
      else if c == ',' then
        let (element, rest) := value depth steps rest
        elements depth steps false (element :: taken) rest
      else (.array taken.reverse (some .malformed), [])

/-- Read the members of an object behind those already there, latest first. -/
def members (depth : Nat) :
    Nat → Bool → List (String × Document) → List Char → Document × List Char
  | 0, _, taken, _ => (.object taken.reverse (some .malformed), [])
  | steps + 1, isFirst, taken, text =>
    let stop (fault : Fault) : Document × List Char := (.object taken.reverse (some fault), [])
    let member (text : List Char) : Document × List Char :=
      match text with
      | '"' :: rest =>
        match stringText? rest with
        | .error fault => stop fault
        | .ok (key, rest) =>
          match skipBlank rest with
          | ':' :: rest =>
            let (content, rest) := value depth steps rest
            members depth steps false ((key, content) :: taken) rest
          | rest => members depth steps false ((key, .faulty (.at rest)) :: taken) []
      | text => stop (.at text)
    match skipBlank text with
    | [] => stop .endsEarly
    | '\x7d' :: rest => (.object taken.reverse none, rest)
    | c :: rest =>
      if isFirst then member (c :: rest)
      else if c == ',' then member (skipBlank rest)
      else stop .malformed

end

/-- Read a text, and what is left after the value and blank space. -/
def read (text : List Char) : Document × List Char :=
  let (document, rest) := value depthLimit (2 * text.length + 2) text
  (document, skipBlank rest)

mutual

/-- The first fault anywhere in a value. -/
def fault? : Document → Option Fault
  | .faulty fault => some fault
  | .array elements fault => elementsFault? elements <|> fault
  | .object members fault => membersFault? members <|> fault
  | _ => none

def elementsFault? : List Document → Option Fault
  | [] => none
  | element :: rest => element.fault? <|> elementsFault? rest

def membersFault? : List (String × Document) → Option Fault
  | [] => none
  | (_, value) :: rest => value.fault? <|> membersFault? rest

end

end Document

end ScriptSyntax.Json

import ScriptSyntax.Source.Location
import ScriptSyntax.Text.Character

/-! The offsets at which lines begin, and the line and column of any offset. A scan
adds line starts as it meets them; what was resolved before stays right. -/
namespace ScriptSyntax

/-- Where the first line begins, and the starts of the later lines, latest first. -/
structure LineTable where
  initial : Location
  recorded : List Nat := []
  deriving DecidableEq, Repr, Inhabited

namespace LineTable

/-- The starts of the later lines in increasing order. -/
def starts (table : LineTable) : List Nat := table.recorded.reverse

/-- Add a line start. One that is not past the last is dropped, so the starts stay
strictly increasing when a region is read again. -/
def record (table : LineTable) (offset : Nat) : LineTable :=
  match table.recorded with
  | [] => { table with recorded := [offset] }
  | last :: _ =>
    if last < offset then { table with recorded := offset :: table.recorded } else table

/-- Add several line starts in turn. -/
def recordAll (table : LineTable) (offsets : List Nat) : LineTable :=
  offsets.foldl record table

/-- The offsets just past each line terminator of a text whose first character is at
`offset`; a carriage return with its line feed is one terminator. -/
def startsIn (offset : Nat) : List Char → List Nat
  | [] => []
  | '\r' :: '\n' :: rest => (offset + 2) :: startsIn (offset + 2) rest
  | c :: rest =>
    if isLineTerminator c then (offset + 1) :: startsIn (offset + 1) rest
    else startsIn (offset + 1) rest

/-- The complete table of a text that begins at `initial`. -/
def ofText (text : List Char) (initial : Location) : LineTable :=
  recordAll { initial } (startsIn initial.index text)

/-- How many lines have been seen, the first included. -/
def lineCount (table : LineTable) : Nat := table.recorded.length + 1

/-- The offset at which a line begins, if that line has been seen. -/
def lineStart? (table : LineTable) (line : Nat) : Option Nat :=
  if line < table.initial.line then none
  else match line - table.initial.line with
    | 0 => some table.initial.index
    | earlier + 1 => table.starts[earlier]?

/-- The line and column of an offset. On the first line columns go on from the
column of the initial location. -/
def locate (table : LineTable) (index : Nat) : Location :=
  match table.recorded.dropWhile (index < ·) with
  | [] =>
    ⟨index, table.initial.line, table.initial.column + (index - table.initial.index)⟩
  | start :: earlier =>
    ⟨index, table.initial.line + earlier.length + 1, index - start + 1⟩

end LineTable

end ScriptSyntax

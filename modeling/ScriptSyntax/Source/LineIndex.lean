import ScriptSyntax.Source.LineTable

/-! Locations and line starts as they are kept: in words of 32 bits, of which zero comes behind
the last. `Location` and `LineTable` count without end; a word is what remains of such a
number. -/
namespace ScriptSyntax

/-- A resolved position in words. -/
structure Place where
  index : UInt32
  line : UInt32
  column : UInt32
  deriving DecidableEq, Repr, Inhabited

/-- The words that are kept of a location. -/
def Location.toPlace (location : Location) : Place :=
  ⟨.ofNat location.index, .ofNat location.line, .ofNat location.column⟩

def Place.toLocation (place : Place) : Location :=
  ⟨place.index.toNat, place.line.toNat, place.column.toNat⟩

/-- Where the first line begins, and the starts of the later lines, latest first. -/
structure LineIndex where
  initial : Place
  recorded : List UInt32 := []
  deriving DecidableEq, Repr, Inhabited

namespace LineIndex

/-- The starts of the later lines in increasing order. -/
def starts (lines : LineIndex) : List UInt32 := lines.recorded.reverse

/-- Add a line start, if it is past the last. One that has gone round is not. -/
def add (lines : LineIndex) (offset : UInt32) : LineIndex :=
  match lines.recorded with
  | [] => { lines with recorded := [offset] }
  | last :: _ =>
    if last < offset then { lines with recorded := offset :: lines.recorded } else lines

/-- Add several line starts in turn. -/
def addAll (lines : LineIndex) (offsets : List UInt32) : LineIndex := offsets.foldl add lines

/-- The offsets just past each line terminator of a text whose first character is at
`offset`; a carriage return with its line feed is one terminator. -/
def startsIn (offset : UInt32) : List Char → List UInt32
  | [] => []
  | '\r' :: '\n' :: rest => (offset + 1 + 1) :: startsIn (offset + 1 + 1) rest
  | c :: rest =>
    if isLineTerminator c then (offset + 1) :: startsIn (offset + 1) rest
    else startsIn (offset + 1) rest

/-- The complete index of a text that begins at `initial`. -/
def ofText (text : List Char) (initial : Place) : LineIndex :=
  addAll { initial } (startsIn initial.index text)

/-- How many lines have been seen, the first included. -/
def lineCount (lines : LineIndex) : Nat := lines.recorded.length + 1

/-- The offset at which a line begins, if that line has been seen. -/
def lineStart? (lines : LineIndex) (line : UInt32) : Option UInt32 :=
  if line < lines.initial.line then none
  else match (line - lines.initial.line).toNat with
    | 0 => some lines.initial.index
    | earlier + 1 => lines.starts[earlier]?

/-- The line and column of an offset. On the first line columns go on from the column of the
initial place, which is also that of any offset ahead of it. -/
def locate (lines : LineIndex) (offset : UInt32) : Place :=
  match lines.recorded.dropWhile (offset < ·) with
  | [] =>
    let ahead := if offset < lines.initial.index then 0 else offset - lines.initial.index
    ⟨offset, lines.initial.line, lines.initial.column + ahead⟩
  | start :: earlier =>
    ⟨offset, lines.initial.line + .ofNat earlier.length + 1, offset - start + 1⟩

end LineIndex

/-- The index that is kept while the line starts of a table are recorded. -/
def LineTable.toIndex (table : LineTable) : LineIndex :=
  .addAll { initial := table.initial.toPlace } (table.starts.map .ofNat)

end ScriptSyntax

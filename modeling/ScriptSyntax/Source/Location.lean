/-! Positions in a document: an offset counted in characters, and the line and
column it falls on, both counted from one. -/
namespace ScriptSyntax

/-- A resolved position. What is kept of it are words: see `Place`. -/
structure Location where
  index : Nat
  line : Nat
  column : Nat
  deriving DecidableEq, Repr, Inhabited

namespace Location

/-- The first character of a document. -/
def start : Location := ⟨0, 1, 1⟩

/-- The position as people read it; the offset is left out. -/
def text (location : Location) : String := s!"{location.line}:{location.column}"

end Location

end ScriptSyntax

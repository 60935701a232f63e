import ScriptSyntax.Source.LineIndex
import ScriptSyntax.Token.Kind

/-! The stretch of a document that a token or a node covers. Lines and columns are
looked up when asked for, in the table of the scan that made the span. -/
namespace ScriptSyntax

/-- Characters from `start` up to, not including, `stop`. A span made without source
text has no line table. -/
structure Span where
  start : Nat
  stop : Nat
  kind : TokenKind
  lines : Option LineTable := none
  deriving DecidableEq, Repr, Inhabited

namespace Span

/-- A span without source text. -/
def detached (start stop : Nat) (kind : TokenKind) : Span := { start, stop, kind }

/-- A span of no width at the start of nothing. -/
def empty : Span := detached 0 0 .none

def length (span : Span) : Nat := span.stop - span.start

def isEmpty (span : Span) : Bool := span.start == span.stop

def contains (span : Span) (offset : Nat) : Bool := span.start ≤ offset && offset < span.stop

/-- A span of no width and without source: it stands for no text at all. -/
def isPlaceholder (span : Span) : Bool := span.isEmpty && span.lines.isNone

def withKind (span : Span) (kind : TokenKind) : Span := { span with kind }

/-- Without a line table everything is on line one. -/
def locate (span : Span) (index : Nat) : Location :=
  match span.lines with
  | some table => table.locate index
  | none => ⟨index, 1, index + 1⟩

def startLocation (span : Span) : Location := span.locate span.start

def stopLocation (span : Span) : Location := span.locate span.stop

/-- The start as it is kept. -/
def startWord (span : Span) : UInt32 := .ofNat span.start

/-- The end as it is kept. -/
def stopWord (span : Span) : UInt32 := .ofNat span.stop

/-- The location of an offset as it is looked up in words. -/
def place (span : Span) (offset : UInt32) : Place :=
  match span.lines with
  | some table => table.toIndex.locate offset
  | none => ⟨offset, 1, offset + 1⟩

def startPlace (span : Span) : Place := span.place span.startWord

def stopPlace (span : Span) : Place := span.place span.stopWord

/-- The smallest span over both. Kind and lines are those of the first, or the
second's lines if the first has none. -/
def combine (a b : Span) : Span where
  start := min a.start b.start
  stop := max a.stop b.stop
  kind := a.kind
  lines := a.lines <|> b.lines

/-- The smallest span over both, a placeholder counting for nothing. The kind stays
that of `base`. -/
def union (base other : Span) : Span :=
  if other.isPlaceholder then base
  else if base.isPlaceholder then other.withKind base.kind
  else combine base other

/-- The union of some spans, with this kind, if there are any. -/
def hull? (kind : TokenKind) : List Span → Option Span
  | [] => none
  | first :: rest => some (rest.foldl union (first.withKind kind))

/-- No width, at the start. -/
def atStart (span : Span) : Span := { span with stop := span.start }

/-- No width, at the end. -/
def atStop (span : Span) : Span := { span with start := span.stop }

def sameRange (a b : Span) : Bool := a.start == b.start && a.stop == b.stop

/-- The same range and kind; which scan made the spans does not matter. -/
def sameAs (a b : Span) : Bool := a.sameRange b && a.kind == b.kind

/-- The span covers all of the other. -/
def Covers (outer inner : Span) : Prop := outer.start ≤ inner.start ∧ inner.stop ≤ outer.stop

instance (outer inner : Span) : Decidable (outer.Covers inner) :=
  inferInstanceAs (Decidable (_ ∧ _))

def text (span : Span) : String := s!"{span.kind.name}[{span.start}..{span.stop})"

end Span

end ScriptSyntax

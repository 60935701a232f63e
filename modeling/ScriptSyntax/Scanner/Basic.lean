import ScriptSyntax.Number.Binary64
import ScriptSyntax.Token.Span

/-! A scanner stands between two tokens of a chunk of text. A chunk may begin anywhere
in a document, even inside a block comment. -/
namespace ScriptSyntax

structure ScanOptions where
  /-- Read the words reserved only in strict code as reserved. -/
  strict : Bool := false
  /-- Leave white space, line ends and comments out. -/
  skipTrivia : Bool := false
  deriving DecidableEq, Repr, Inhabited

/-- A token in its place in a document. -/
structure Token where
  span : Span
  text : String
  /-- The name, the decoded string, the pattern or the digits. -/
  value : String
  number : Binary64
  /-- The flags of a regular expression. -/
  flags : Option String
  /-- A line terminator stands between this token and the significant one before it.
  Trivia carry what has been seen so far. -/
  afterLineBreak : Bool
  deriving DecidableEq, Repr

namespace Token

def kind (token : Token) : TokenKind := token.span.kind

/-- What stands before the first token of a chunk that begins at `offset`. -/
def before (offset : Nat) (lines : LineTable) : Token where
  span := { start := offset, stop := offset, kind := .none, lines := some lines }
  text := ""
  value := ""
  number := .zero
  flags := none
  afterLineBreak := false

/-- The same token with its lines looked up in another table. -/
def withLines (token : Token) (lines : LineTable) : Token :=
  { token with span := { token.span with lines := some lines } }

end Token

structure Scanner where
  options : ScanOptions
  /-- The whole chunk. -/
  chunk : List Char
  /-- The part of the chunk not yet read. -/
  rest : List Char
  /-- The line starts met so far. -/
  lines : LineTable
  /-- The token read last. -/
  last : Token
  /-- The kind of the last token that is not trivia. -/
  lastSignificant : Option TokenKind := none
  /-- The next character is inside a block comment. -/
  inComment : Bool := false
  /-- Stepping through the tokens one by one has come to the end of input. -/
  isFinished : Bool := false
  deriving DecidableEq, Repr

namespace Scanner

/-- A scanner at the beginning of a chunk that stands at `initial` in its document.
`inComment` says that the chunk before it ended inside a block comment; nothing else
of an earlier scan matters. -/
def resume (options : ScanOptions) (chunk : List Char) (inComment : Bool)
    (initial : Location) : Scanner :=
  let lines : LineTable := { initial }
  { options, chunk, rest := chunk, lines, last := .before initial.index lines, inComment }

/-- A scanner at the beginning of a document. -/
def start (options : ScanOptions) (source : List Char) : Scanner :=
  resume options source false .start

/-- The offset in the document of the next character. -/
def position (scanner : Scanner) : Nat := scanner.last.span.stop

/-- The line starts met so far as they are kept. -/
def lineIndex (scanner : Scanner) : LineIndex := scanner.lines.toIndex

def isAtEnd (scanner : Scanner) : Bool := scanner.rest.isEmpty

def withStrict (scanner : Scanner) (strict : Bool) : Scanner :=
  { scanner with options := { scanner.options with strict } }

/-- The part of the chunk that a span covers. -/
def sourceText (scanner : Scanner) (span : Span) : List Char :=
  let base := scanner.lines.initial.index
  let start := min (span.start - base) scanner.chunk.length
  (scanner.chunk.drop start).take (span.stop - base - start)

end Scanner

end ScriptSyntax

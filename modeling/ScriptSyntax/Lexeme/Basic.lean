import ScriptSyntax.Number.Binary64
import ScriptSyntax.Problem.Kind
import ScriptSyntax.Token.Kind

/-! A lexeme is one token as the text ahead alone decides it: nothing in it depends on
where in a document the text stands. Offsets count from its first character. -/
namespace ScriptSyntax

/-- A problem inside a lexeme. -/
structure Flaw where
  problem : ProblemKind
  start : Nat
  stop : Nat
  deriving DecidableEq, Repr

/-- One token with all that its text says. -/
structure Lexeme where
  kind : TokenKind
  text : List Char
  /-- The name, the decoded string, the pattern or the digits. -/
  value : List Char := []
  number : Binary64 := .zero
  /-- The flags of a regular expression. -/
  flags : Option (List Char) := none
  /-- Where lines begin: the offsets just past each line terminator. -/
  breaks : List Nat := []
  flaws : List Flaw := []
  /-- The lexeme ends with the input, inside a block comment. -/
  endsInComment : Bool := false
  deriving DecidableEq, Repr

/-- The inside of a comment or string: what was taken, through the closing mark if
there is one, and the text after it. -/
structure Body where
  text : List Char
  rest : List Char
  value : List Char := []
  breaks : List Nat := []
  flaws : List Flaw := []
  isClosed : Bool
  deriving DecidableEq, Repr

namespace Body

/-- A body that ends before `rest`, without a closing mark. -/
def cut (rest : List Char) : Body := { text := [], rest, isClosed := false }

/-- A body that ends with its closing mark. -/
def close (mark rest : List Char) : Body := { text := mark, rest, isClosed := true }

/-- Put characters, and what they stand for, before a body. -/
def after (body : Body) (text value : List Char) (breaks : List Nat) (flaws : List Flaw) :
    Body :=
  { body with
    text := text ++ body.text
    value := value ++ body.value
    breaks := breaks ++ body.breaks
    flaws := flaws ++ body.flaws }

@[simp] theorem cut_append (rest : List Char) : (cut rest).text ++ (cut rest).rest = rest := by
  simp [cut]

@[simp] theorem close_append (mark rest : List Char) :
    (close mark rest).text ++ (close mark rest).rest = mark ++ rest := rfl

@[simp] theorem after_append (body : Body) (text value : List Char) (breaks : List Nat)
    (flaws : List Flaw) :
    (body.after text value breaks flaws).text ++ (body.after text value breaks flaws).rest =
      text ++ (body.text ++ body.rest) := by
  simp [after]

end Body

namespace Lexeme

/-- A lexeme of the first `length` characters, and what follows them. -/
def ofLength (kind : TokenKind) (length : Nat) (text : List Char) : Lexeme × List Char :=
  ({ kind, text := text.take length }, text.drop length)

/-- The longest run of characters that satisfy `test`. -/
def ofRun (kind : TokenKind) (test : Char → Bool) (text : List Char) : Lexeme × List Char :=
  ({ kind, text := text.takeWhile test }, text.dropWhile test)

@[simp] theorem ofLength_append (kind : TokenKind) (length : Nat) (text : List Char) :
    (ofLength kind length text).1.text ++ (ofLength kind length text).2 = text := by
  simp [ofLength]

@[simp] theorem ofRun_append (kind : TokenKind) (test : Char → Bool) (text : List Char) :
    (ofRun kind test text).1.text ++ (ofRun kind test text).2 = text := by
  simp [ofRun]

/-- The character at the head begins no token. -/
def illegal (text : List Char) : Lexeme × List Char :=
  ({ kind := .error, text := text.take 1, flaws := [⟨.illegalCharacter, 0, 1⟩] }, text.drop 1)

@[simp] theorem illegal_append (text : List Char) :
    (illegal text).1.text ++ (illegal text).2 = text :=
  List.take_append_drop 1 text

end Lexeme

end ScriptSyntax

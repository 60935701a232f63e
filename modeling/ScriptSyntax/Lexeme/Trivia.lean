import ScriptSyntax.Lexeme.Basic
import ScriptSyntax.Text.Character

/-! White space, line ends and comments. -/
namespace ScriptSyntax

/-- A run of line terminators. A carriage return with its line feed is one. -/
def lineBreakRun (offset : Nat) : List Char → Body
  | [] => .cut []
  | '\r' :: '\n' :: rest => (lineBreakRun (offset + 2) rest).after ['\r', '\n'] [] [offset + 2] []
  | c :: rest =>
    if isLineTerminator c then (lineBreakRun (offset + 1) rest).after [c] [] [offset + 1] []
    else .cut (c :: rest)

/-- The inside of a block comment, through the mark that closes it. Lines that begin
inside are noted. -/
def commentBody (offset : Nat) : List Char → Body
  | [] => .cut []
  | '*' :: '/' :: rest => .close ['*', '/'] rest
  | '\r' :: '\n' :: rest => (commentBody (offset + 2) rest).after ['\r', '\n'] [] [offset + 2] []
  | c :: rest =>
    (commentBody (offset + 1) rest).after [c] []
      (if isLineTerminator c then [offset + 1] else []) []

@[simp] theorem lineBreakRun_append (offset : Nat) (text : List Char) :
    (lineBreakRun offset text).text ++ (lineBreakRun offset text).rest = text := by
  fun_induction lineBreakRun offset text <;> simp_all

@[simp] theorem commentBody_append (offset : Nat) (text : List Char) :
    (commentBody offset text).text ++ (commentBody offset text).rest = text := by
  fun_induction commentBody offset text <;> simp_all

theorem commentBody_text_ne_nil (offset : Nat) (c : Char) (rest : List Char) :
    (commentBody offset (c :: rest)).text ≠ [] := by
  unfold commentBody
  split <;> simp_all [Body.close, Body.after]

theorem lineBreakRun_text_ne_nil (offset : Nat) {c : Char} (rest : List Char)
    (terminator : isLineTerminator c) : (lineBreakRun offset (c :: rest)).text ≠ [] := by
  unfold lineBreakRun
  split <;> simp_all [Body.after]

namespace Lexeme

def lineEnds (text : List Char) : Lexeme × List Char :=
  let run := lineBreakRun 0 text
  ({ kind := .endOfLine, text := run.text, breaks := run.breaks }, run.rest)

@[simp] theorem lineEnds_append (text : List Char) :
    (lineEnds text).1.text ++ (lineEnds text).2 = text := by
  simp [lineEnds]

/-- A line comment, up to the line terminator that ends it. -/
def lineComment (text : List Char) : Lexeme × List Char :=
  ofRun .lineComment (fun c => !isLineTerminator c) text

/-- A block comment whose `opening` is already read: the two opening characters, or
nothing when the comment began in an earlier chunk. -/
def blockComment (opening text : List Char) : Lexeme × List Char :=
  let body := commentBody opening.length text
  let taken := opening ++ body.text
  ({ kind := .blockComment
     text := taken
     breaks := body.breaks
     flaws := if body.isClosed then [] else [⟨.unterminatedComment, 0, taken.length⟩]
     endsInComment := !body.isClosed },
   body.rest)

@[simp] theorem blockComment_append (opening text : List Char) :
    (blockComment opening text).1.text ++ (blockComment opening text).2 = opening ++ text := by
  simp [blockComment]

end Lexeme

end ScriptSyntax

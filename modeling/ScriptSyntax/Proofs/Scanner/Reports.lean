import ScriptSyntax.Proofs.Lexeme.Faults
import ScriptSyntax.Proofs.Lexeme.Slashes
import ScriptSyntax.Proofs.Scanner.Lossless
import ScriptSyntax.Proofs.Source.LineIndex

/-! Reports match tokens. What is reported of a token lies inside it, what spoils it has its
range and is told once, and a chunk that ends inside a comment is reported as such, once. -/
namespace ScriptSyntax

/-- Where a span begins and where it ends. -/
def Span.range (span : Span) : Nat × Nat := (span.start, span.stop)

namespace Scanner

variable {scanner : Scanner} {regex : Bool}

/-- What one call reads: the trivia that it leaves out, and then the token that it gives. -/
def steps (scanner : Scanner) (regex : Bool) : List ScanStep :=
  let step := scanner.readLexeme regex
  if _skipped : scanner.options.skipTrivia ∧ step.token.kind.isTrivia then
    step :: step.scanner.steps regex
  else [step]
  termination_by scanner.rest.length
  decreasing_by
    apply readLexeme_rest_length_lt
    intro ended
    simp [step, ended, TokenKind.isTrivia] at _skipped

/-- What a call reads lies in the source. -/
theorem HasRead.steps {source taken : List Char} {initial : Location}
    (read : scanner.HasRead source initial taken) (regex : Bool) :
    ∀ step ∈ scanner.steps regex, step.token.span.stop ≤ initial.index + source.length := by
  fun_induction Scanner.steps scanner regex generalizing taken
  case case1 scanner step skipped ih =>
    have next := (read.readLexeme regex).1
    exact List.forall_mem_cons.mpr ⟨next.position_le, ih next⟩
  case case2 scanner step kept =>
    exact List.forall_mem_singleton.mpr (read.readLexeme regex).1.position_le

variable {hints : Nat → Option Bool}

end Scanner

end ScriptSyntax

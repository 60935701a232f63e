import ScriptSyntax.Proofs.Lexeme.Maximal
import ScriptSyntax.Proofs.Scanner.Lossless
import Mathlib.Data.List.Chain

/-! Longest tokens. Where trivia are kept, no token stands right before a text that it could
have taken along, whatever the two kinds of token are. -/
namespace ScriptSyntax

/-- Nothing of the token `next` goes on with the one before it. -/
structure Token.EndsBefore (token next : Token) : Prop where
  blank : token.kind = .whiteSpace → next.kind ≠ .whiteSpace
  lineEnd : token.kind = .endOfLine → next.kind ≠ .endOfLine
  lineComment : token.kind = .lineComment → next.kind = .endOfLine ∨ next.kind = .endOfFile
  /-- No identifier follows a word, however its first character is spelled. -/
  word : (token.kind = .identifier ∨ ∃ reserved, token.kind = .word reserved) →
    next.kind ≠ .identifier ∧ ∀ c ∈ next.text.toList.head?, isIdentifierPart c = false
  regularExpression : token.kind = .regularExpression →
    ∀ c ∈ next.text.toList.head?, isIdentifierPart c = false
  numeral : token.kind = .numeral →
    ∀ c ∈ next.text.toList.head?, isDecimalDigit c = false ∧ isIdentifierStart c = false

namespace Scanner

/-- Two lexemes read one after the other. -/
theorem readLexeme_endsBefore (scanner : Scanner) (regex nextRegex : Bool) :
    let step := scanner.readLexeme regex
    step.token.EndsBefore (step.scanner.readLexeme nextRegex).token := by
  intro step
  let next := (step.scanner.readLexeme nextRegex).token
  have stops : step.token.kind.goesOn step.scanner.rest = false :=
    Lexeme.read_stops (scanner.lexMode regex) scanner.rest
  have apart {kind : TokenKind} (run : kind.isRun)
      (stops : kind.goesOn step.scanner.rest = false) : next.kind ≠ kind :=
    Lexeme.read_kind_ne run stops
  have head : next.text.toList.head? = step.scanner.rest.head? := by
    have text : next.text.toList = (step.scanner.lexeme nextRegex).text := String.toList_ofList
    rw [text]
    exact Lexeme.read_head? _ _
  refine ⟨?_, ?_, ?_, ?_, ?_, ?_⟩
  · intro blank
    exact apart rfl (blank ▸ stops)
  · intro lineEnd
    exact apart rfl (lineEnd ▸ stops)
  · intro comment
    rw [comment] at stops
    exact Lexeme.read_of_lineComment_stops stops Lexeme.read_rest_of_open
  · intro word
    have ends : (WordPart.read step.scanner.rest).text = [] := by
      rcases word with name | ⟨reserved, name⟩
      · simpa [name, TokenKind.goesOn] using stops
      · simpa [name, TokenKind.goesOn] using stops
    refine ⟨apart rfl (by simp [TokenKind.goesOn, ends]), ?_⟩
    rw [head]
    exact WordPart.no_part_of_read ends
  · intro regularExpression
    rw [regularExpression] at stops
    rw [head]
    exact (Option.any_eq_false _ _).mp stops
  · intro numeral
    rw [numeral] at stops
    rw [head]
    exact fun c first => Bool.or_eq_false_iff.mp ((Option.any_eq_false _ _).mp stops c first)

variable {scanner final : Scanner} {tokens : List Token} {reports : List Report}

theorem Reads.head?_eq (reads : Reads scanner tokens reports final) :
    tokens.head? = some scanner.next.token := by
  cases reads <;> rfl

/-- No token of a reading goes on with the one before it. -/
theorem Reads.isChain (reads : Reads scanner tokens reports final)
    (keeps : scanner.options.skipTrivia = false) : tokens.IsChain Token.EndsBefore := by
  induction reads with
  | last ended => exact .singleton _
  | @more scanner final tokens reports unfinished later ih =>
    have kept : scanner.next.scanner.options.skipTrivia = false :=
      after_keeps keeps (fun _ => none) 1
    refine List.isChain_cons.mpr ⟨fun next first => ?_, ih kept⟩
    obtain rfl : scanner.next.scanner.next.token = next :=
      Option.some.inj (later.head?_eq.symm.trans first)
    rw [next_eq_readLexeme kept, next_eq_readLexeme keeps]
    exact scanner.readLexeme_endsBefore _ _

end Scanner

theorem Token.EndsBefore.withLines {token next : Token} (ends : token.EndsBefore next)
    (lines : LineTable) : (token.withLines lines).EndsBefore (next.withLines lines) :=
  ⟨ends.blank, ends.lineEnd, ends.lineComment, ends.word, ends.regularExpression, ends.numeral⟩

open Scanner in
/-- Tokens are as long as they can be. In a scan to the end that keeps trivia, whatever was
open before it, no token goes on with the one before it: no white space follows white space and
no line end a line end, a line comment goes on to a line end or the end of input, no identifier
and no character of one follows a word, none follows a regular expression, and neither a digit
nor the start of an identifier follows a number. -/
theorem scanAll_maximal (strict inComment : Bool) (source : List Char) (initial : Location) :
    (resume { strict, skipTrivia := false } source inComment
      initial).scanAll.tokens.IsChain Token.EndsBefore := by
  obtain ⟨tokens, reads, same⟩ := scanAll_reads
    (resume { strict, skipTrivia := false } source inComment initial)
  rw [same, List.isChain_map]
  exact (reads.isChain rfl).imp fun _ _ ends => ends.withLines _

end ScriptSyntax

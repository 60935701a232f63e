import ScriptSyntax.Proofs.Lexeme.Strictness
import ScriptSyntax.Proofs.Scanner.Trivia

/-! A scan of strict code and one of other code keep pace. They read the same texts, and
what they remember of the tokens before tells the same of a slash, so they differ only in
the kind of the words reserved in strict code alone. -/
namespace ScriptSyntax

/-- What a token of other code is in strict code. -/
def Token.strictly (token : Token) : Token :=
  { token with span := token.span.withKind (token.kind.strictly token.text) }

@[simp] theorem Token.kind_strictly (token : Token) :
    token.strictly.kind = token.kind.strictly token.text := rfl

namespace Scanner

/-- A scanner of strict code that stands where one of other code does. -/
structure Stricter (plain strict : Scanner) : Prop where
  lax : plain.options.strict = false
  options : strict.options = { plain.options with strict := true }
  chunk : strict.chunk = plain.chunk
  rest : strict.rest = plain.rest
  lines : strict.lines = plain.lines
  last : strict.last = plain.last.strictly
  hint : strict.allowsRegex = plain.allowsRegex
  inComment : strict.inComment = plain.inComment

namespace Stricter

variable {plain strict final : Scanner} {lexeme : Lexeme} {tokens : List Token}
  {reports : List Report}

theorem breakBefore (stricter : Stricter plain strict) (lexeme : Lexeme) :
    strict.breakBefore lexeme.strictly = plain.breakBefore lexeme := by
  have trivia : strict.last.kind.isTrivia = plain.last.kind.isTrivia := by simp [stricter.last]
  have broken : strict.last.afterLineBreak = plain.last.afterLineBreak := by
    rw [stricter.last]
    rfl
  have ends : (lexeme.strictly.kind == .endOfLine || lexeme.strictly.kind == .blockComment) =
      (lexeme.kind == .endOfLine || lexeme.kind == .blockComment) := by
    rcases lexeme.kind.strictly_cases (String.ofList lexeme.text) with same | ⟨kind, _, -, -, same⟩
    · rw [Lexeme.strictly, same]
    · rw [Lexeme.strictly, same, kind]
      rfl
  rw [Scanner.breakBefore, trivia, broken, ends]
  rfl

/-- The same text is accepted alike. A report names the kind of its lexeme, so there may be
none about an identifier. -/
theorem accept (stricter : Stricter plain strict) (rest : List Char)
    (flawless : lexeme.kind = .identifier → lexeme.flaws = []) :
    Stricter (plain.accept lexeme rest).scanner (strict.accept lexeme.strictly rest).scanner ∧
      (strict.accept lexeme.strictly rest).reports = (plain.accept lexeme rest).reports := by
  have position : strict.position = plain.position := by
    rw [position, stricter.last]
    rfl
  have lines : (strict.accept lexeme.strictly rest).scanner.lines =
      (plain.accept lexeme rest).scanner.lines := by
    simp only [Scanner.accept, stricter.lines, position]
    rfl
  constructor
  · refine ⟨stricter.lax, stricter.options, stricter.chunk, rfl, lines, ?_, ?_, rfl⟩
    · simp only [Scanner.accept, stricter.lines, position, stricter.breakBefore]
      rfl
    · change TokenKind.allowsRegexAfter (if lexeme.strictly.kind.isTrivia then
        strict.lastSignificant else some lexeme.strictly.kind) = TokenKind.allowsRegexAfter
          (if lexeme.kind.isTrivia then plain.lastSignificant else some lexeme.kind)
      simp only [Lexeme.strictly, TokenKind.isTrivia_strictly]
      split
      · exact stricter.hint
      · exact TokenKind.allowsRegexAfter_strictly _ _
  · by_cases kind : lexeme.kind = .identifier
    · have none : lexeme.strictly.flaws = [] := flawless kind
      simp only [Scanner.accept, none, flawless kind, List.map_nil]
    · rw [Lexeme.strictly_of_ne_identifier kind]
      simp only [Scanner.accept, stricter.lines, position]

theorem readLexeme (stricter : Stricter plain strict) (regex : Bool) :
    Stricter (plain.readLexeme regex).scanner (strict.readLexeme regex).scanner ∧
      (strict.readLexeme regex).reports = (plain.readLexeme regex).reports := by
  have mode : strict.lexMode regex = { strict := true, regex, inComment := plain.inComment } := by
    rw [lexMode, stricter.options, stricter.inComment]
  have lax : plain.lexMode regex = { strict := false, regex, inComment := plain.inComment } := by
    rw [lexMode, stricter.lax]
  have same := Lexeme.read_strict regex plain.inComment plain.rest
  rw [← mode, ← lax] at same
  rw [Scanner.readLexeme, Scanner.readLexeme, stricter.rest, same]
  exact stricter.accept _ Lexeme.read_identifier_flaws

theorem next (stricter : Stricter plain strict) (keeps : plain.options.skipTrivia = false) :
    Stricter plain.next.scanner strict.next.scanner ∧
      strict.next.token = plain.next.token.strictly ∧
      strict.next.reports = plain.next.reports := by
  have keepsThere : strict.options.skipTrivia = false := by
    rw [stricter.options]
    exact keeps
  rw [next_eq_readLexeme keeps, next_eq_readLexeme keepsThere, stricter.hint]
  obtain ⟨step, reports⟩ := stricter.readLexeme plain.allowsRegex
  exact ⟨step, step.last, reports⟩

/-- To the end of input strict code gives the tokens of other code, but for those words. -/
theorem reads (stricter : Stricter plain strict) (keeps : plain.options.skipTrivia = false)
    (reads : Reads plain tokens reports final) :
    ∃ finalThere, Reads strict (tokens.map Token.strictly) reports finalThere ∧
      Stricter final finalThere := by
  induction reads generalizing strict with
  | last ended =>
    obtain ⟨step, token, same⟩ := stricter.next keeps
    have endedThere : strict.next.token.kind = .endOfFile := by
      rw [token, Token.kind_strictly, ended]
      rfl
    refine ⟨_, ?_, step⟩
    rw [List.map_singleton, ← token, ← same]
    exact .last endedThere
  | more unfinished later ih =>
    obtain ⟨step, token, same⟩ := stricter.next keeps
    obtain ⟨finalThere, readsThere, finished⟩ := ih step (after_keeps keeps (fun _ => none) 1)
    have unfinishedThere : strict.next.token.kind ≠ .endOfFile := by
      rw [token, Token.kind_strictly]
      rcases TokenKind.strictly_cases _ _ with kept | ⟨-, _, -, -, renamed⟩
      · rw [kept]
        exact unfinished
      · simp [renamed]
    refine ⟨finalThere, ?_, finished⟩
    rw [List.map_cons, ← token, ← same]
    exact .more unfinishedThere readsThere

theorem scanAll (stricter : Stricter plain strict) (keeps : plain.options.skipTrivia = false) :
    strict.scanAll.tokens = plain.scanAll.tokens.map Token.strictly ∧
      strict.scanAll.reports = plain.scanAll.reports ∧
      Stricter plain.scanAll.scanner strict.scanAll.scanner := by
  obtain ⟨tokens, reads, same⟩ := plain.scanAll_reads
  obtain ⟨finalThere, readsThere, finished⟩ := stricter.reads keeps reads
  rw [readsThere.scanAll_eq, same]
  refine ⟨?_, rfl, finished⟩
  rw [List.map_map, List.map_map, finished.lines]
  rfl

end Stricter

end Scanner

open Scanner in
/-- Strict code only renames. Whether trivia are left out or not, a scan of strict code
gives token for token what a scan of other code gives; a token has another kind just where
an identifier is spelled as one of the nine words reserved in strict code only, and then
that of the word. Reports, line table and the comment left open are the same. -/
theorem scanAll_strict (skipTrivia inComment : Bool) (source : List Char) (initial : Location) :
    let scan (strict : Bool) :=
      (resume { strict, skipTrivia } source inComment initial).scanAll
    (scan true).tokens = (scan false).tokens.map Token.strictly ∧
    (scan true).reports = (scan false).reports ∧
    (scan true).scanner.lines = (scan false).scanner.lines ∧
    (scan true).scanner.inComment = (scan false).scanner.inComment := by
  intro scan
  let keeping (strict : Bool) := resume { strict, skipTrivia := false } source inComment initial
  have begun : Stricter (keeping false) (keeping true) :=
    ⟨rfl, rfl, rfl, rfl, rfl, rfl, rfl, rfl⟩
  obtain ⟨tokens, reports, finished⟩ := begun.scanAll rfl
  cases skipTrivia with
  | false => exact ⟨tokens, reports, finished.lines, finished.inComment⟩
  | true =>
    have keeps (strict : Bool) : (keeping strict).options.skipTrivia = false := rfl
    have skipped (strict : Bool) : scan strict = _ := scanAll_skippingTrivia (keeps strict)
    rw [skipped true, skipped false]
    refine ⟨?_, reports, finished.lines, finished.inComment⟩
    have kept : (!·.kind.isTrivia) ∘ Token.strictly = fun token => !token.kind.isTrivia := by
      funext token
      simp
    rw [tokens, List.filter_map, kept]

end ScriptSyntax

import ScriptSyntax.Proofs.Lexeme.Patterns
import ScriptSyntax.Proofs.Scanner.Run

/-! Regular expressions and divisions. Leave to begin a regular expression makes a
difference only where one begins, and one begins just where its pattern closes. -/
namespace ScriptSyntax

namespace Scanner

variable {scanner : Scanner} {text : List Char}

theorem readLexeme_without_regex
    (other : (scanner.readLexeme true).token.kind ≠ .regularExpression) :
    scanner.readLexeme false = scanner.readLexeme true := by
  have same : Lexeme.read (scanner.lexMode false) scanner.rest =
      Lexeme.read (scanner.lexMode true) scanner.rest := Lexeme.read_without_regex other
  rw [readLexeme, readLexeme, same]

/-- Leave that is not made use of leaves no trace. -/
theorem scan_without_regex (other : (scanner.scan true).token.kind ≠ .regularExpression) :
    scanner.scan false = scanner.scan true := by
  fun_induction scan scanner true with
  | case1 scanner step skipped final ih =>
    have same : scanner.readLexeme false = step := by
      apply readLexeme_without_regex
      intro kind
      rw [show step.token.kind = _ from kind] at skipped
      cases skipped.2
    rw [scan, dif_pos (same ▸ skipped), same, ih other]
  | case2 scanner step kept =>
    have same : scanner.readLexeme false = step := readLexeme_without_regex other
    rw [scan, dif_neg (same ▸ kept), same]

theorem scan_kind_without_leave (scanner : Scanner) :
    (scanner.scan false).token.kind ≠ .regularExpression := by
  fun_induction scan scanner false with
  | case1 scanner step skipped final ih => exact ih
  | case2 scanner step kept =>
    intro kind
    obtain ⟨allowed, -⟩ := Lexeme.read_regularExpression kind
    cases allowed

section

variable (outside : scanner.inComment = false) (ahead : scanner.rest = '/' :: text)
  (noLine : text.head? ≠ some '/') (noBlock : text.head? ≠ some '*')

include outside ahead noLine noBlock

/-- A slash that begins no comment is given to the reader with what it begins. -/
theorem scan_of_slash :
    scanner.scan true = scanner.readLexeme true ∧
      scanner.lexeme true =
        ((Lexeme.regularExpression? text).getD (Lexeme.mark ('/' :: text))).1 := by
  have reads : scanner.lexeme true =
      ((Lexeme.regularExpression? text).getD (Lexeme.mark ('/' :: text))).1 := by
    rw [lexeme, ahead, Lexeme.read_of_slash outside]
    exact congrArg Prod.fst (Lexeme.slash_of_leave noLine noBlock)
  refine ⟨scan_of_significant ?_, reads⟩
  change (scanner.lexeme true).kind.isTrivia = false
  rw [reads]
  cases begins : Lexeme.regularExpression? text with
  | none =>
    rw [Option.getD_none]
    exact Lexeme.mark_isTrivia _
  | some found =>
    rw [Option.getD_some, (Lexeme.regularExpression?_kind begins).1]
    rfl

theorem scan_kind_iff_isSome :
    (scanner.scan true).token.kind = .regularExpression ↔
      (Lexeme.regularExpression? text).isSome := by
  obtain ⟨reads, begins⟩ := scan_of_slash outside ahead noLine noBlock
  have kind : (scanner.scan true).token.kind = (scanner.lexeme true).kind := by rw [reads]; rfl
  rw [kind, begins]
  cases closed : Lexeme.regularExpression? text with
  | none =>
    rw [Option.getD_none]
    exact iff_of_false (Lexeme.mark_ordinary _).no_regex (by simp)
  | some found => exact iff_of_true (Lexeme.regularExpression?_kind closed).1 rfl

theorem scan_kind_iff :
    (scanner.scan true).token.kind = .regularExpression ↔
      ∃ before after, ClosesPattern false text before after := by
  rw [scan_kind_iff_isSome outside ahead noLine noBlock, Lexeme.regularExpression?,
    Option.isSome_map]
  constructor
  · intro found
    obtain ⟨⟨pattern, rest⟩, body⟩ := Option.isSome_iff_exists.mp found
    obtain ⟨before, after, closes, -⟩ := patternBody?_closes body
    exact ⟨before, after, closes.toClosesPattern⟩
  · rintro ⟨before, after, closes⟩
    exact patternBody?_isSome closes

/-- The token of a regular expression is put together from its pattern and its flags. -/
theorem scan_token_of_pattern (kind : (scanner.scan true).token.kind = .regularExpression) :
    ∃ before after, ClosesFirst false text before after ∧
      let token := (scanner.scan true).token
      let flags := String.ofList (after.flatten.takeWhile isIdentifierPart)
      token.value = String.ofList before.flatten ∧ token.flags = some flags ∧
        token.text = "/" ++ token.value ++ "/" ++ flags := by
  obtain ⟨reads, begins⟩ := scan_of_slash outside ahead noLine noBlock
  rw [scan_kind_iff_isSome outside ahead noLine noBlock] at kind
  obtain ⟨found, closed⟩ := Option.isSome_iff_exists.mp kind
  rw [closed, Option.getD_some] at begins
  obtain ⟨before, after, closes, same⟩ := Lexeme.regularExpression?_closes closed
  have lexeme := begins.trans same
  rw [reads]
  refine ⟨before, after, closes, ?_, ?_, ?_⟩
  · exact congrArg (fun lexeme => String.ofList lexeme.value) lexeme
  · exact congrArg (fun lexeme => lexeme.flags.map String.ofList) lexeme
  · calc (scanner.readLexeme true).token.text
        = String.ofList (scanner.lexeme true).text := rfl
      _ = "/" ++ String.ofList (scanner.lexeme true).value ++ "/" ++
            String.ofList (after.flatten.takeWhile isIdentifierPart) := by
          rw [lexeme]
          simp [← String.toList_inj]

end

end Scanner

open Scanner in
/-- Regular expression or division. Without leave no regular expression is read, and leave
makes no difference to the step unless one is. With leave a slash that neither stands in a
comment nor begins one begins a regular expression just if a bare slash on its line, outside
classes, can close it. The pattern is the text up to the first such slash and is not empty;
the flags are the run of identifier characters behind that slash. -/
theorem scan_pattern (scanner : Scanner) :
    let allowed := scanner.scan true
    let denied := scanner.scan false
    (allowed.token.kind ≠ .regularExpression → denied = allowed) ∧
    denied.token.kind ≠ .regularExpression ∧
    ∀ text, scanner.inComment = false → scanner.rest = '/' :: text →
      text.head? ≠ some '/' → text.head? ≠ some '*' →
      (allowed.token.kind = .regularExpression ↔
        ∃ before after, ClosesPattern false text before after) ∧
      (allowed.token.kind = .regularExpression →
        ∃ before after, ClosesFirst false text before after ∧
          let flags := String.ofList (after.flatten.takeWhile isIdentifierPart)
          before.flatten ≠ [] ∧
          allowed.token.value = String.ofList before.flatten ∧
          allowed.token.flags = some flags ∧
          allowed.token.text = "/" ++ allowed.token.value ++ "/" ++ flags) := by
  intro allowed denied
  refine ⟨scan_without_regex, scan_kind_without_leave scanner, ?_⟩
  intro text outside ahead noLine noBlock
  refine ⟨scan_kind_iff outside ahead noLine noBlock, fun kind => ?_⟩
  obtain ⟨before, after, closes, value, flags, covers⟩ :=
    scan_token_of_pattern outside ahead noLine noBlock kind
  exact ⟨before, after, closes, closes.nonempty noLine, value, flags, covers⟩

open Scanner in
/-- A slash in a class and one behind a backslash close nothing. -/
theorem scan_pattern_of_class :
    let text := ['[', '/', '\\', ']', ']', '\\', '/', '/', 'g', ';']
    let scanner := start {} ('/' :: text)
    let step := scanner.scan true
    scanner.inComment = false ∧ scanner.rest = '/' :: text ∧
    text.head? ≠ some '/' ∧ text.head? ≠ some '*' ∧
    step.token.kind = .regularExpression ∧ step.token.value = "[/\\]]\\/" ∧
    step.token.flags = some "g" ∧ step.token.text = "/[/\\]]\\//g" := by
  intro text scanner step
  have found : patternBody? false text =
    some (['[', '/', '\\', ']', ']', '\\', '/'], ['g', ';']) := by decide
  obtain ⟨before, after, closes, pattern, behind⟩ := patternBody?_closes found
  have noLine : text.head? ≠ some '/' := by decide
  have noBlock : text.head? ≠ some '*' := by decide
  obtain ⟨-, -, slashes⟩ := scan_pattern scanner
  obtain ⟨begins, covers⟩ := slashes text rfl rfl noLine noBlock
  have kind := begins.mpr ⟨before, after, closes.toClosesPattern⟩
  obtain ⟨others, later, other, -, value, flags, covered⟩ := covers kind
  obtain ⟨rfl, rfl⟩ := closes.unique other
  rw [pattern] at value
  rw [behind] at flags covered
  rw [value] at covered
  exact ⟨rfl, rfl, noLine, noBlock, kind, value, flags, covered⟩

end ScriptSyntax

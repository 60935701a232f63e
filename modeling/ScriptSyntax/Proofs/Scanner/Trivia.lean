import ScriptSyntax.Proofs.Scanner.Lossless

/-! Leaving the trivia out changes nothing else. Trivia are read either way; they move
the scanner on, but not the significant token that tells regular expressions from
divisions. -/
namespace ScriptSyntax

namespace Scanner

/-- The same scanner, told to leave trivia out. -/
def skippingTrivia (scanner : Scanner) : Scanner :=
  { scanner with options := { scanner.options with skipTrivia := true } }

variable {scanner final : Scanner} {tokens : List Token} {reports : List Report}

theorem allowsRegex_of_trivia {regex : Bool}
    (trivia : (scanner.readLexeme regex).token.kind.isTrivia) :
    (scanner.readLexeme regex).scanner.allowsRegex = scanner.allowsRegex := by
  have same : (scanner.readLexeme regex).scanner.lastSignificant = scanner.lastSignificant :=
    if_pos trivia
  rw [allowsRegex, allowsRegex, same]

/-- A call that skips reads over trivia and goes on behind it, with the same hint. -/
theorem next_skippingTrivia_of_trivia (keeps : scanner.options.skipTrivia = false)
    (trivia : scanner.next.token.kind.isTrivia) :
    scanner.skippingTrivia.next =
      { scanner := scanner.next.scanner.skippingTrivia.next.scanner
        reports := scanner.next.reports ++ scanner.next.scanner.skippingTrivia.next.reports } := by
  rw [next_eq_readLexeme keeps] at trivia ⊢
  have hint : (scanner.readLexeme scanner.allowsRegex).scanner.skippingTrivia.allowsRegex =
      scanner.allowsRegex := allowsRegex_of_trivia trivia
  have skips : scanner.skippingTrivia.options.skipTrivia = true ∧
      (scanner.skippingTrivia.readLexeme scanner.allowsRegex).token.kind.isTrivia = true :=
    ⟨rfl, trivia⟩
  change scanner.skippingTrivia.scan scanner.allowsRegex = _
  rw [scan, dif_pos skips]
  simp only [next, hint]
  rfl

/-- Any other token is given to the reader as it is. -/
theorem next_skippingTrivia_of_significant (keeps : scanner.options.skipTrivia = false)
    (significant : scanner.next.token.kind.isTrivia = false) :
    scanner.skippingTrivia.next =
      { scanner := scanner.next.scanner.skippingTrivia, reports := scanner.next.reports } := by
  rw [next_eq_readLexeme keeps] at significant ⊢
  have kept : (scanner.skippingTrivia.readLexeme scanner.allowsRegex).token.kind.isTrivia =
      false := significant
  exact scan_of_significant kept

/-- A scanner whose next call only adds reports before those of another. -/
theorem Reads.behind {other : Scanner} {before : List Report}
    (reads : Reads scanner tokens reports final)
    (same : other.next =
      { scanner := scanner.next.scanner, reports := before ++ scanner.next.reports }) :
    Reads other tokens (before ++ reports) final := by
  have token : other.next.token = scanner.next.token := by rw [same]; rfl
  cases reads with
  | last ended =>
    have whole := Reads.last (token ▸ ended)
    rwa [token, same] at whole
  | @more _ _ laterTokens laterReports unfinished later =>
    have next : Reads other.next.scanner laterTokens laterReports final := by
      rw [same]
      exact later
    have whole := Reads.more (token ▸ unfinished) next
    rwa [token, same, List.append_assoc] at whole

/-- Reading on with the trivia left out gives the tokens that are no trivia. -/
theorem Reads.skippingTrivia (reads : Reads scanner tokens reports final)
    (keeps : scanner.options.skipTrivia = false) :
    Reads scanner.skippingTrivia (tokens.filter (!·.kind.isTrivia)) reports
      final.skippingTrivia := by
  induction reads with
  | @last scanner ended =>
    have significant : scanner.next.token.kind.isTrivia = false := by rw [ended]; rfl
    have step := next_skippingTrivia_of_significant keeps significant
    have whole : Reads scanner.skippingTrivia _ _ _ := .last (by rw [step]; exact ended)
    rw [step] at whole
    rw [List.filter_cons_of_pos (by simp [significant])]
    exact whole
  | @more scanner final tokens reports unfinished later ih =>
    have rest := ih (after_keeps keeps (fun _ => none) 1)
    cases kind : scanner.next.token.kind.isTrivia with
    | true =>
      rw [List.filter_cons_of_neg (by simp [kind])]
      exact rest.behind (next_skippingTrivia_of_trivia keeps kind)
    | false =>
      have step := next_skippingTrivia_of_significant keeps kind
      rw [List.filter_cons_of_pos (by simp [kind])]
      have next : Reads scanner.skippingTrivia.next.scanner
          (tokens.filter (!·.kind.isTrivia)) reports final.skippingTrivia := by
        rw [step]
        exact rest
      have whole := Reads.more (by rw [step]; exact unfinished) next
      rwa [step] at whole

/-- A whole scan that leaves the trivia out, from one that keeps them. -/
theorem scanAll_skippingTrivia (keeps : scanner.options.skipTrivia = false) :
    scanner.skippingTrivia.scanAll =
      { tokens := scanner.scanAll.tokens.filter (!·.kind.isTrivia)
        reports := scanner.scanAll.reports
        scanner := scanner.scanAll.scanner.skippingTrivia } := by
  obtain ⟨tokens, reads, same⟩ := scanner.scanAll_reads
  rw [(reads.skippingTrivia keeps).scanAll_eq, same, List.filter_map]
  rfl

end Scanner

open Scanner in
/-- Leaving the trivia out is no more than a filter on the tokens. Each other token is
given with all that belongs to it, a line break before it included, and the two scans
report the same problems and leave the same scanner, but for the option. -/
theorem scanAll_skipTrivia (strict inComment : Bool) (source : List Char) (initial : Location) :
    let scan (skipTrivia : Bool) :=
      (resume { strict, skipTrivia } source inComment initial).scanAll
    (scan true).tokens = (scan false).tokens.filter (!·.kind.isTrivia) ∧
    (scan true).reports = (scan false).reports ∧
    (scan true).scanner.lines = (scan false).scanner.lines ∧
    (scan true).scanner.inComment = (scan false).scanner.inComment ∧
    (scan true).scanner = (scan false).scanner.skippingTrivia := by
  intro scan
  let keeping := resume { strict, skipTrivia := false } source inComment initial
  have keeps : keeping.options.skipTrivia = false := rfl
  have skipped := scanAll_skippingTrivia keeps
  change scan true = _ at skipped
  rw [skipped]
  exact ⟨rfl, rfl, rfl, rfl, rfl⟩

end ScriptSyntax

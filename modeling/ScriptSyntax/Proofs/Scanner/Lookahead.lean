import ScriptSyntax.Proofs.Lexeme.Lookahead
import ScriptSyntax.Proofs.Lexeme.Slashes
import ScriptSyntax.Proofs.Scanner.Located

/-! What a scanner reads before a fence does not depend on the text behind the fence,
unless a regular expression reaches past it. None reaches past a line terminator. -/
namespace ScriptSyntax

open LineTable

namespace Scanner

/-- The same scanner over another chunk, of which `rest` is left to read. -/
def onto (scanner : Scanner) (chunk rest : List Char) : Scanner := { scanner with chunk, rest }

variable {scanner final : Scanner} {text left right rest chunk : List Char} {regex : Bool}

theorem onto_onto (scanner : Scanner) (chunk rest otherChunk otherRest : List Char) :
    (scanner.onto chunk rest).onto otherChunk otherRest = scanner.onto otherChunk otherRest :=
  rfl

theorem onto_self (scanner : Scanner) : scanner.onto scanner.chunk scanner.rest = scanner :=
  rfl

/-- A lexeme that leaves a fence of the text before it is read there whatever comes
behind, and moves the scanner alike. -/
theorem readLexeme_onto (ahead : scanner.rest = text ++ left)
    (behind : (scanner.readLexeme regex).scanner.rest = rest ++ left) (fenced : Fenced rest)
    (within : ((scanner.onto chunk (text ++ right)).lexeme regex).kind = .regularExpression →
      ((scanner.onto chunk (text ++ right)).lexeme regex).text.length ≤ text.length) :
    (scanner.onto chunk (text ++ right)).readLexeme regex =
      { scanner := (scanner.readLexeme regex).scanner.onto chunk (rest ++ right)
        reports := (scanner.readLexeme regex).reports } := by
  change (Lexeme.read (scanner.lexMode regex) scanner.rest).2 = rest ++ left at behind
  rw [ahead] at behind
  have same := Lexeme.read_settled (scanner.lexMode regex) behind fenced right within
  have here : scanner.readLexeme regex =
      scanner.accept (Lexeme.read (scanner.lexMode regex) (text ++ left)).1 (rest ++ left) := by
    rw [← behind, ← ahead]
    rfl
  have there : (scanner.onto chunk (text ++ right)).readLexeme regex =
      (scanner.onto chunk (text ++ right)).accept
        (Lexeme.read (scanner.lexMode regex) (text ++ right)).1
        (Lexeme.read (scanner.lexMode regex) (text ++ right)).2 := rfl
  rw [there, here, same]
  rfl

/-- The next call does not take a regular expression that begins before `right` and
reaches into it. -/
def Clear (scanner : Scanner) (hint : Option Bool) (right : List Char) : Prop :=
  (scanner.call hint).token.kind = .regularExpression →
    right.length < scanner.rest.length → right.length ≤ (scanner.call hint).scanner.rest.length

/-- A call that leaves a fence of the text before it gives the same whatever comes behind
the text, if that does not close a regular expression. -/
theorem call_onto {hint : Option Bool} (keeps : scanner.options.skipTrivia = false)
    (ahead : scanner.rest = text ++ left)
    (behind : (scanner.call hint).scanner.rest = rest ++ left) (fenced : Fenced rest)
    (clear : (scanner.onto chunk (text ++ right)).Clear hint right) :
    (scanner.onto chunk (text ++ right)).call hint =
      { scanner := (scanner.call hint).scanner.onto chunk (rest ++ right)
        reports := (scanner.call hint).reports } := by
  have keepsThere : (scanner.onto chunk (text ++ right)).options.skipTrivia = false := keeps
  rw [Clear, call_eq_readLexeme keepsThere] at clear
  rw [call_eq_readLexeme keeps] at behind
  rw [call_eq_readLexeme keepsThere, call_eq_readLexeme keeps]
  obtain ⟨regex, hinted⟩ : ∃ regex, hint.getD scanner.allowsRegex = regex := ⟨_, rfl⟩
  have hintedThere : hint.getD (scanner.onto chunk (text ++ right)).allowsRegex = regex := hinted
  rw [hintedThere] at clear ⊢
  rw [hinted] at behind ⊢
  apply readLexeme_onto ahead behind fenced
  intro kind
  -- the text is not empty, so the regular expression begins before `right`
  have whole := (readLexeme_append scanner regex).trans ahead
  rw [behind, ← List.append_assoc] at whole
  have begins : Fenced text :=
    List.append_cancel_right whole ▸ Fenced.append_iff.mpr (.inr fenced)
  have there := congrArg List.length
    (readLexeme_append (scanner.onto chunk (text ++ right)) regex)
  have size : (scanner.onto chunk (text ++ right)).rest.length = text.length + right.length :=
    List.length_append
  have ends := clear kind (by have := List.length_pos_iff.mpr begins.ne_nil; omega)
  rw [List.length_append] at there
  omega

/-- Calls that tell the same. Their scanners may stand before different texts. -/
structure Alike (step other : ScanStep) : Prop where
  token : step.token = other.token
  reports : step.reports = other.reports
  inComment : step.scanner.inComment = other.scanner.inComment

/-- Two runs over texts that differ behind a fence go alike as far as the first leaves the
fence, if no regular expression of the second reaches past the text they share. -/
theorem after_onto (keeps : scanner.options.skipTrivia = false) (hints : Nat → Option Bool)
    (ahead : scanner.rest = text ++ left) {count : Nat}
    (behind : (scanner.after hints count).rest = rest ++ left) (fenced : Fenced rest)
    (clear : ∀ number < count,
      ((scanner.onto chunk (text ++ right)).after hints number).Clear (hints number) right) :
    (scanner.onto chunk (text ++ right)).after hints count =
        (scanner.after hints count).onto chunk (rest ++ right) ∧
      ∀ number < count,
        Alike ((scanner.onto chunk (text ++ right)).callAt hints number)
          (scanner.callAt hints number) := by
  induction count generalizing rest with
  | zero =>
    have same : text = rest := List.append_cancel_right (ahead.symm.trans behind)
    subst same
    exact ⟨rfl, fun number earlier => absurd earlier (Nat.not_lt_zero number)⟩
  | succ count ih =>
    have keepsThere := after_keeps keeps hints count
    have split := readLexeme_append (scanner.after hints count)
      ((hints count).getD (scanner.after hints count).allowsRegex)
    rw [after] at behind
    rw [← call_eq_readLexeme keepsThere, behind, ← List.append_assoc] at split
    obtain ⟨same, alike⟩ := ih split.symm (Fenced.append_iff.mpr (.inr fenced))
      fun number earlier => clear number (Nat.lt_succ_of_lt earlier)
    have step := call_onto keepsThere split.symm behind fenced
      (same ▸ clear count (Nat.lt_succ_self count))
    rw [← same] at step
    refine ⟨congrArg ScanStep.scanner step, ?_⟩
    intro number earlier
    rcases Nat.lt_succ_iff_lt_or_eq.mp earlier with before | rfl
    · exact alike number before
    · rw [callAt, callAt, step]
      exact ⟨rfl, rfl, rfl⟩

end Scanner

/-- A piece without line terminators ends before the next one. -/
theorem Plain.length_le {piece rest before behind : List Char} {t : Char} (plain : Plain piece)
    (terminator : isLineTerminator t) (split : piece ++ rest = before ++ t :: behind) :
    piece.length ≤ before.length := by
  by_contra longer
  have through : before ++ [t] <+: piece := by
    have short : before ++ [t] <+: piece ++ rest := by
      rw [split]
      exact ⟨behind, List.append_assoc ..⟩
    apply List.prefix_of_prefix_length_le short (List.prefix_append piece rest)
    rw [List.length_append, List.length_singleton]
    omega
  have member : t ∈ piece := through.subset (by simp)
  rw [plain t member] at terminator
  cases terminator

namespace Scanner

variable {scanner final : Scanner} {text left right rest chunk : List Char} {t : Char}
  {regex : Bool}

/-- A call that ends before a line terminator gives the same whatever comes behind that,
and leaves the terminator to be read. -/
theorem scan_onto_line (keeps : scanner.options.skipTrivia = false)
    (terminator : isLineTerminator t) (ahead : scanner.rest = text ++ t :: left)
    (within : (scanner.scan regex).token.span.stop ≤ scanner.position + text.length)
    (chunk right : List Char) :
    ∃ later, scanner.position + text.length =
        (scanner.scan regex).scanner.position + later.length ∧
      (scanner.scan regex).scanner.rest = later ++ t :: left ∧
      (scanner.onto chunk (text ++ t :: right)).scan regex =
        { scanner := (scanner.scan regex).scanner.onto chunk (later ++ t :: right)
          reports := (scanner.scan regex).reports } := by
  have alike : (scanner.onto chunk (text ++ t :: right)).options.skipTrivia = false := keeps
  rw [scan_eq_readLexeme keeps] at within ⊢
  rw [scan_eq_readLexeme alike]
  have stop : (scanner.readLexeme regex).scanner.position =
      scanner.position + (scanner.lexeme regex).text.length := rfl
  have split := (readLexeme_append scanner regex).trans ahead
  obtain ⟨later, rfl⟩ : (scanner.lexeme regex).text <+: text :=
    List.prefix_of_prefix_length_le ⟨_, split⟩ (List.prefix_append _ _)
      (Nat.le_of_add_le_add_left within)
  have behind : (scanner.readLexeme regex).scanner.rest = later ++ t :: left :=
    List.append_cancel_left (split.trans (List.append_assoc ..))
  refine ⟨later, by rw [stop, List.length_append, Nat.add_assoc], behind, ?_⟩
  -- the terminator is the fence that is left
  have fenced : Fenced (later ++ [t]) :=
    Fenced.append_iff.mpr (.inr ⟨t, List.mem_singleton_self t, by simp [isFence, terminator]⟩)
  rw [List.append_cons] at ahead behind ⊢
  rw [List.append_cons later t right]
  apply readLexeme_onto ahead behind fenced
  intro kind
  have plain := Lexeme.read_regularExpression_plain kind
  have bound := plain.length_le terminator
    ((Lexeme.read_append _ _).trans (List.append_cons _ t right).symm)
  exact Nat.le_trans bound (by simp)

theorem position_le_scan (keeps : scanner.options.skipTrivia = false) (regex : Bool) :
    scanner.position ≤ (scanner.scan regex).scanner.position := by
  rw [scan_eq_readLexeme keeps]
  exact Nat.le_add_right _ _

/-- Two runs over texts that differ behind a line terminator go alike as far as it. -/
theorem after_onto_line (keeps : scanner.options.skipTrivia = false)
    (terminator : isLineTerminator t) (ahead : scanner.rest = text ++ t :: left)
    (hints : Nat → Option Bool) {count : Nat}
    (within : (scanner.after hints count).position ≤ scanner.position + text.length)
    (chunk right : List Char) :
    ∃ later, scanner.position + text.length =
        (scanner.after hints count).position + later.length ∧
      (scanner.after hints count).rest = later ++ t :: left ∧
      (scanner.onto chunk (text ++ t :: right)).after hints count =
        (scanner.after hints count).onto chunk (later ++ t :: right) := by
  induction count with
  | zero => exact ⟨text, rfl, ahead, rfl⟩
  | succ count ih =>
    have keepsThere := after_keeps keeps hints count
    obtain ⟨later, level, behind, same⟩ :=
      ih (Nat.le_trans (position_le_scan keepsThere _) within)
    rw [level] at within
    obtain ⟨last, levelNext, behindNext, sameNext⟩ :=
      scan_onto_line keepsThere terminator behind within chunk right
    refine ⟨last, level.trans levelNext, behindNext, ?_⟩
    rw [after, same, call]
    exact congrArg ScanStep.scanner sameNext

theorem Reads.next_position_le {tokens : List Token} {reports : List Report}
    (reads : Reads scanner tokens reports final) (keeps : scanner.options.skipTrivia = false) :
    ∀ token ∈ tokens, scanner.next.scanner.position ≤ token.span.stop := by
  induction reads with
  | last ended =>
    intro token member
    obtain rfl := List.mem_singleton.mp member
    exact Nat.le_refl _
  | more unfinished later ih =>
    have keepsThere := after_keeps keeps (fun _ => none) 1
    intro token member
    rcases List.mem_cons.mp member with rfl | others
    · exact Nat.le_refl _
    · exact Nat.le_trans (position_le_scan keepsThere _) (ih keepsThere token others)

theorem Reads.filter_of_past {tokens : List Token} {reports : List Report} {bound : Nat}
    (reads : Reads scanner tokens reports final) (keeps : scanner.options.skipTrivia = false)
    (past : bound < scanner.next.scanner.position) :
    tokens.filter (·.span.stop ≤ bound) = [] := by
  apply List.filter_eq_nil_iff.mpr
  intro token member
  have behind := Nat.lt_of_lt_of_le past (reads.next_position_le keeps token member)
  simpa using behind

/-- The first call ends behind the terminator in both texts if it does in one. -/
theorem next_onto_past (keeps : scanner.options.skipTrivia = false)
    (terminator : isLineTerminator t) (ahead : scanner.rest = text ++ t :: left)
    (past : scanner.position + text.length < scanner.next.scanner.position) :
    scanner.position + text.length <
      (scanner.onto chunk (text ++ t :: right)).next.scanner.position := by
  by_contra within
  have keepsThere : (scanner.onto chunk (text ++ t :: right)).options.skipTrivia = false := keeps
  obtain ⟨later, -, -, same⟩ :=
    scan_onto_line keepsThere terminator rfl (Nat.not_lt.mp within) scanner.chunk left
  rw [onto_onto, ← ahead, onto_self] at same
  have position : scanner.next.scanner.position =
      (scanner.onto chunk (text ++ t :: right)).next.scanner.position :=
    congrArg (·.scanner.position) same
  exact within (position ▸ past)

/-- The tokens of a scan that end before a line terminator do not depend on the text
behind it. -/
theorem Reads.filter_onto {tokens others : List Token} {reports otherReports : List Report}
    {otherFinal : Scanner} (reads : Reads scanner tokens reports final)
    (keeps : scanner.options.skipTrivia = false) (terminator : isLineTerminator t)
    (ahead : scanner.rest = text ++ t :: left)
    (alike : Reads (scanner.onto chunk (text ++ t :: right)) others otherReports otherFinal) :
    tokens.filter (·.span.stop ≤ scanner.position + text.length) =
      others.filter (·.span.stop ≤ scanner.position + text.length) := by
  induction reads generalizing text others otherReports with
  | @last scanner ended =>
    have past : scanner.position + text.length < scanner.next.scanner.position := by
      by_contra within
      obtain ⟨later, -, behind, -⟩ :=
        scan_onto_line keeps terminator ahead (Nat.not_lt.mp within) chunk right
      have none : scanner.next.scanner.rest = [] := scan_endOfFile ended
      rw [next, behind] at none
      simp at none
    rw [(Reads.last ended).filter_of_past keeps past,
      alike.filter_of_past keeps (next_onto_past keeps terminator ahead past)]
  | @more scanner final tokens reports unfinished later ih =>
    by_cases past : scanner.position + text.length < scanner.next.scanner.position
    · rw [(Reads.more unfinished later).filter_of_past keeps past,
        alike.filter_of_past keeps (next_onto_past keeps terminator ahead past)]
    obtain ⟨inner, level, behind, same⟩ :=
      scan_onto_line keeps terminator ahead (Nat.not_lt.mp past) chunk right
    change (scanner.onto chunk (text ++ t :: right)).next = _ at same
    have token : (scanner.onto chunk (text ++ t :: right)).next.token = scanner.next.token := by
      rw [same]
      rfl
    cases alike with
    | last ended =>
      exact absurd (token ▸ ended) unfinished
    | more _ laterThere =>
      rw [same] at laterThere
      have others := ih (after_keeps keeps (fun _ => none) 1) behind laterThere
      have level : scanner.position + text.length =
          scanner.next.scanner.position + inner.length := level
      rw [level, token, List.filter_cons, List.filter_cons, others]

end Scanner

open Scanner in
/-- No token looks past the end of its line. Two documents that agree up to a line
terminator are read alike there: a call that ends before the terminator gives the same
token and reports in both, whatever the lines behind it hold, and so do whole scans. -/
theorem scan_before_line (strict : Bool) (line : List Char) {terminator : Char}
    (ends : isLineTerminator terminator) (left right : List Char) :
    let scanner (behind : List Char) := start { strict } (line ++ terminator :: behind)
    let call (behind : List Char) (number : Nat) :=
      (scanner behind).callAt (fun _ => none) number
    let tokens (behind : List Char) :=
      (scanner behind).scanAll.tokens.filter (·.span.stop ≤ line.length)
    (∀ number, (call left number).token.span.stop ≤ line.length →
      (call right number).token = (call left number).token ∧
      (call right number).reports = (call left number).reports) ∧
    (tokens left).map Token.located = (tokens right).map Token.located ∧
    (tokens left).map Token.afterLineBreak = (tokens right).map Token.afterLineBreak := by
  intro scanner call tokens
  have keeps : (scanner left).options.skipTrivia = false := rfl
  have ahead : (scanner left).rest = line ++ terminator :: left := rfl
  have origin : (scanner left).position + line.length = line.length := Nat.zero_add _
  have begun (behind : List Char) :
      (scanner behind).HasRead (line ++ terminator :: behind) .start [] :=
    hasRead_resume _ _ false .start
  refine ⟨?_, ?_⟩
  · intro number within
    have keepsThere := after_keeps keeps (fun _ => none) number
    have before := Nat.le_trans (position_le_scan keepsThere _) within
    rw [← origin] at before within
    let whole := line ++ terminator :: right
    obtain ⟨later, level, behind, same⟩ := after_onto_line keeps ends ahead _ before whole right
    obtain ⟨last, -, -, step⟩ :=
      scan_onto_line keepsThere ends behind (level ▸ within) whole right
    have calls : call right number =
        { scanner := (call left number).scanner.onto _ _
          reports := (call left number).reports } :=
      (congrArg Scanner.next same).trans step
    rw [calls]
    exact ⟨rfl, rfl⟩
  · obtain ⟨here, reads, placed⟩ := (begun left).scanAll_reads
    obtain ⟨there, alike, placedThere⟩ := (begun right).scanAll_reads
    have same := reads.filter_onto keeps ends ahead alike
    rw [origin] at same
    obtain ⟨located, flagged⟩ := placed (·.span.stop ≤ line.length) fun _ _ => rfl
    obtain ⟨locatedThere, flaggedThere⟩ :=
      placedThere (·.span.stop ≤ line.length) fun _ _ => rfl
    rw [same] at located flagged
    exact ⟨located.trans locatedThere.symm, flagged.trans flaggedThere.symm⟩

open Scanner in
/-- A slash that may begin a regular expression, with another slash on the next line. -/
theorem scan_before_line_of_slash :
    let call (behind : List Char) (number : Nat) :=
      (start { strict := false } (['=', '/', 'b'] ++ '\n' :: behind)).callAt (fun _ => none) number
    isLineTerminator '\n' = true ∧
    (call ['/'] 1).token.span.stop ≤ ['=', '/', 'b'].length ∧
    (call [] 1).token = (call ['/'] 1).token ∧
    (call [] 1).reports = (call ['/'] 1).reports := by
  intro call
  have ends : isLineTerminator '\n' = true := by decide
  have within : (call ['/'] 1).token.span.stop ≤ ['=', '/', 'b'].length := by decide +kernel
  exact ⟨ends, within, (scan_before_line false ['=', '/', 'b'] ends ['/'] []).1 1 within⟩

end ScriptSyntax

import ScriptSyntax.Proofs.Scanner.Chunks
import ScriptSyntax.Proofs.Scanner.Trivia

/-! A document that is cut inside a block comment and scanned in two chunks, where each scan
tells regular expressions from divisions by itself. The second scan knows of the first only
that it ended inside a comment: not the significant token before the comment, nor a line
break that was seen since. -/
namespace ScriptSyntax

open LineTable

namespace Scanner

variable {scanner final : Scanner} {source taken head tail body : List Char}
  {initial : Location} {regex : Bool} {tokens : List Token} {reports : List Report}

/-- Where a run has not ended, it is between tokens, and outside comments. -/
theorem after_outside (keeps : scanner.options.skipTrivia = false)
    (outside : scanner.inComment = false) (hints : Nat → Option Bool) {place : Nat}
    (unfinished : ∀ number ≤ place, (scanner.callAt hints number).token.kind ≠ .endOfFile) :
    (scanner.after hints place).inComment = false := by
  by_contra inside
  have begun : place ≠ 0 := by
    rintro rfl
    exact inside outside
  obtain ⟨last, rfl⟩ := Nat.exists_eq_succ_of_ne_zero begun
  have open_ : (scanner.callAt hints last).scanner.inComment = true :=
    Bool.not_eq_false _ ▸ inside
  -- only the end of input leaves a comment open
  obtain ⟨opened, earlier, body, opening⟩ := exists_atOpening keeps outside hints open_
  obtain ⟨finished, -⟩ := opening.after keeps
  exact unfinished (opened + 1) (Nat.succ_le_succ earlier)
    (scan_of_rest_eq_nil (after_keeps keeps hints (opened + 1)) finished _).1

/-- A scanner before a comment that begins in the first of two chunks and ends in the
second. -/
theorem HasRead.exists_body (read : scanner.HasRead (head ++ tail) initial taken)
    (outside : scanner.inComment = false)
    (kind : (scanner.readLexeme regex).token.kind = .blockComment)
    (begins : scanner.position + 2 ≤ initial.index + head.length)
    (ends : initial.index + head.length < (scanner.readLexeme regex).scanner.position) :
    ∃ body, scanner.rest = '/' :: '*' :: body ++ tail ∧
      (commentBody 2 body).isClosed = false ∧
      head.drop (scanner.position + 2 - initial.index) = body := by
  obtain ⟨text, ahead, reads⟩ := Lexeme.read_blockComment outside kind
  have position := read.position
  have whole : taken ++ ['/', '*'] ++ text = head ++ tail := by
    rw [← read.whole, ahead, List.append_assoc]
    rfl
  have opening : (taken ++ ['/', '*']).length = taken.length + 2 := List.length_append
  obtain ⟨body, rfl⟩ : taken ++ ['/', '*'] <+: head :=
    List.prefix_of_prefix_length_le ⟨text, whole⟩ (List.prefix_append head tail) (by omega)
  rw [List.append_assoc (taken ++ _)] at whole
  obtain rfl := List.append_cancel_left whole
  refine ⟨body, ahead, ?_, ?_⟩
  · have stop : (scanner.readLexeme regex).scanner.position =
        scanner.position + (['/', '*'] ++ (commentBody 2 (body ++ tail)).text).length :=
      congrArg (scanner.position + ·.1.text.length) reads
    have reaches : body.length < (commentBody 2 (body ++ tail)).text.length := by
      simp only [List.length_append, List.length_cons, List.length_nil] at stop ends
      omega
    exact commentBody_isOpen reaches
  · apply List.drop_left'
    omega

/-- The calls before a piece of trivia, and those behind it. -/
theorem Reads.significant_split (reads : Reads scanner tokens reports final) {place : Nat}
    (unfinished : ∀ number < place,
      (scanner.callAt (fun _ => none) number).token.kind ≠ .endOfFile)
    (trivia : (scanner.callAt (fun _ => none) place).token.kind.isTrivia) :
    ∃ later laterReports,
      significant tokens = significant ((List.range place).map
        (scanner.callAt (fun _ => none) · |>.token)) ++ significant later ∧
      Reads (scanner.after (fun _ => none) (place + 1)) later laterReports final := by
  have through : ∀ number < place + 1,
      (scanner.callAt (fun _ => none) number).token.kind ≠ .endOfFile := by
    intro number earlier
    rcases Nat.lt_succ_iff_lt_or_eq.mp earlier with before | rfl
    · exact unfinished number before
    · intro ended
      rw [ended] at trivia
      cases trivia
  obtain ⟨later, laterReports, split, behind⟩ := reads.split through
  refine ⟨later, laterReports, ?_, behind⟩
  rw [split, List.range_succ, List.map_append, List.map_singleton, List.append_assoc,
    significant_append, List.singleton_append, significant_cons_of_trivia trivia]

/-- A piece of trivia does not change what may follow the significant token before. -/
theorem allowsRegex_behind (keeps : scanner.options.skipTrivia = false)
    (fresh : scanner.lastSignificant = none) {place : Nat}
    (unfinished : ∀ number < place,
      (scanner.callAt (fun _ => none) number).token.kind ≠ .endOfFile)
    (trivia : (scanner.callAt (fun _ => none) place).token.kind.isTrivia) :
    (scanner.after (fun _ => none) (place + 1)).allowsRegex =
      TokenKind.allowsRegexAfter ((significant ((List.range place).map
        (scanner.callAt (fun _ => none) · |>.token))).getLast?.map (·.kind)) := by
  have step := call_eq_readLexeme (after_keeps keeps (fun _ => none) place) none
  rw [callAt, step] at trivia
  rw [allowsRegex, after, step, (readLexeme_trivia trivia).1,
    lastSignificant_after keeps fresh unfinished]

/-- With nothing left to read, reading on gives the end of input only, and that tells what
is remembered. -/
theorem Reads.of_finished (reads : Reads scanner tokens reports final)
    (keeps : scanner.options.skipTrivia = false) (finished : scanner.rest = []) :
    significant tokens = [] ∧ final.inComment = scanner.inComment ∧
      final.last.afterLineBreak = scanner.breakPending := by
  have ended : scanner.next.token.kind = .endOfFile := (scan_of_rest_eq_nil keeps finished _).1
  cases reads with
  | more unfinished => exact absurd ended unfinished
  | last =>
    have lexeme : scanner.lexeme scanner.allowsRegex =
        (Lexeme.read (scanner.lexMode scanner.allowsRegex) []).1 := by rw [lexeme, finished]
    refine ⟨significant_cons_of_endOfFile ended [], ?_, ?_⟩
    · rw [next_eq_readLexeme keeps]
      exact congrArg (·.endsInComment) lexeme
    · rw [next_eq_readLexeme keeps]
      have kind : (scanner.lexeme scanner.allowsRegex).kind.isTrivia = false := by
        rw [lexeme]
        rfl
      exact (readLexeme_significant kind).1

namespace Chunked

variable {first second : Scanner} {hints : Nat → Option Bool} {place : Nat}

theorem before_onto (chunked : Chunked first second head tail initial) :
    (first.before head tail).onto head (head ++ []) = first := by
  have rest : first.rest = head := chunked.begins.whole
  calc (first.before head tail).onto head (head ++ [])
      = first.onto first.chunk first.rest := by
        rw [before, onto_onto, List.append_nil, chunked.begins.chunk, rest]
    _ = first := onto_self first

/-- A comment of the whole document that is cut in its body is left open in the first chunk.
What comes before it is read there as in the whole. -/
theorem opening_of_comment (chunked : Chunked first second head tail initial)
    (outside : first.inComment = false)
    (unfinished : ∀ number < place,
      ((first.before head tail).callAt hints number).token.kind ≠ .endOfFile)
    (comment : ((first.before head tail).callAt hints place).token.kind = .blockComment)
    (begins : ((first.before head tail).callAt hints place).token.span.start + 2 ≤
      initial.index + head.length)
    (ends : initial.index + head.length <
      ((first.before head tail).callAt hints place).token.span.stop) :
    AtOpening (first.after hints place)
        (head.drop (((first.before head tail).callAt hints place).token.span.start + 2 -
          initial.index)) ∧
      (first.before head tail).after hints place =
        (first.after hints place).onto (head ++ tail) ((first.after hints place).rest ++ tail) ∧
      ∀ number < place, (first.callAt hints number).token =
        ((first.before head tail).callAt hints number).token := by
  have step := call_eq_readLexeme (chunked.after_before_keeps hints place) (hints place)
  have start : ((first.before head tail).callAt hints place).token.span.start =
      ((first.before head tail).after hints place).position := congrArg (·.token.span.start) step
  have keeps : (first.before head tail).options.skipTrivia = false := chunked.keeps
  have outsideThere := after_outside keeps outside hints fun number earlier => by
    rcases Nat.lt_or_eq_of_le earlier with before | rfl
    · exact unfinished number before
    · rw [comment]
      exact TokenKind.noConfusion
  obtain ⟨taken, read⟩ := chunked.whole.after hints place
  rw [callAt, step] at comment ends
  rw [start] at begins ⊢
  obtain ⟨body, ahead, isOpen, rfl⟩ := read.exists_body outsideThere comment begins ends
  have fenced : Fenced ('/' :: '*' :: head.drop
      (((first.before head tail).after hints place).position + 2 - initial.index)) :=
    ⟨'/', by simp, by decide⟩
  have clear : ∀ number < place,
      (((first.before head tail).onto head (head ++ [])).after hints number).Clear
        (hints number) [] := fun _ _ _ _ => Nat.zero_le _
  obtain ⟨same, alike⟩ := after_onto keeps hints rfl ahead fenced clear
  rw [chunked.before_onto] at same alike
  rw [List.append_nil] at same
  refine ⟨⟨?_, ?_, isOpen⟩, ?_, fun number earlier => (alike number earlier).token⟩
  · rw [same]
    exact outsideThere
  · rw [same]
    rfl
  · rw [same, onto_onto]
    calc (first.before head tail).after hints place
        = ((first.before head tail).after hints place).onto _ _ := (onto_self _).symm
      _ = _ := by rw [read.chunk, ahead]; rfl

theorem second_kind (chunked : Chunked first second head tail initial) (nonempty : tail ≠ [])
    (regex : Bool) : (second.lexeme regex).kind = .blockComment := by
  have rest : second.rest = tail := chunked.resumes.whole
  obtain ⟨c, behind, rfl⟩ := List.exists_cons_of_ne_nil nonempty
  rw [lexeme, rest, Lexeme.read_of_inComment chunked.inComment]
  rfl

/-- Behind the comment the second scan has begun anew. A line break that the first chunk has
pending is missed. -/
theorem begunAnew (chunked : Chunked first second head tail initial)
    (opening : AtOpening (first.after (fun _ => none) place) body) (uncut : ¬ CutsClosing body tail)
    (same : (first.before head tail).after (fun _ => none) place =
      (first.after (fun _ => none) place).onto (head ++ tail)
        ((first.after (fun _ => none) place).rest ++ tail))
    (nonempty : tail ≠ []) (forgets : second.lastSignificant = none) :
    BegunAnew ((first.before head tail).after (fun _ => none) (place + 1))
      (second.after (fun _ => none) 1) (head ++ tail) initial tail
      ((ofText (head ++ tail) initial).locate (initial.index + head.length))
      (first.after (fun _ => none) (place + 1)).breakPending := by
  refine ⟨chunked.beside opening uncut same _, ?_, ?_⟩
  · obtain ⟨-, otherRegex, -, -, part⟩ := chunked.comment_calls same (fun _ => none)
    have trivia := congrArg TokenKind.isTrivia (chunked.second_kind nonempty otherRegex)
    change (second.callAt (fun _ => none) 0).scanner.lastSignificant = none
    rw [part, (readLexeme_trivia trivia).1, forgets]
  · have breaks := chunked.comment_breaks opening uncut same (fun _ => none)
    obtain ⟨kind, kindFirst⟩ := chunked.comment_kinds opening same
    have trivia := congrArg TokenKind.isTrivia kind
    have triviaFirst := congrArg TokenKind.isTrivia kindFirst
    calc ((first.before head tail).callAt (fun _ => none) place).scanner.breakPending
        = ((first.before head tail).callAt (fun _ => none) place).token.afterLineBreak :=
          congrArg (· && _) trivia
      _ = ((first.callAt (fun _ => none) place).token.afterLineBreak ||
            (second.callAt (fun _ => none) 0).token.afterLineBreak) := by
          rw [breaks, Bool.or_comm]
      _ = ((first.callAt (fun _ => none) place).scanner.breakPending ||
            (second.callAt (fun _ => none) 0).scanner.breakPending) := by
          rw [chunked.second_pending]
          exact congrArg (· || _) (congrArg (· && _) triviaFirst).symm

/-- The significant tokens of the whole document are those of the first chunk and then those
of the second, as far as a scan that begins anew can give them. -/
theorem resumed (chunked : Chunked first second head tail initial)
    (outside : first.inComment = false) (fresh : first.lastSignificant = none)
    (forgets : second.lastSignificant = none)
    (unfinished : ∀ number < place,
      ((first.before head tail).callAt (fun _ => none) number).token.kind ≠ .endOfFile)
    (comment : ((first.before head tail).callAt (fun _ => none) place).token.kind = .blockComment)
    (begins : ((first.before head tail).callAt (fun _ => none) place).token.span.start + 2 ≤
      initial.index + head.length)
    (ends : initial.index + head.length <
      ((first.before head tail).callAt (fun _ => none) place).token.span.stop)
    (uncut : ¬ CutsClosing (head.drop
      (((first.before head tail).callAt (fun _ => none) place).token.span.start + 2 -
        initial.index)) tail)
    {earlier later : List Token} {firstReports secondReports : List Report}
    {firstFinal secondFinal : Scanner}
    (reads : Reads (first.before head tail) tokens reports final)
    (readsFirst : Reads first earlier firstReports firstFinal)
    (readsSecond : Reads second later secondReports secondFinal) :
    firstFinal.inComment = true ∧
      ∃ behind, significant tokens = significant earlier ++ behind ∧
        Resumed (TokenKind.allowsRegexAfter ((significant earlier).getLast?.map (·.kind)))
          firstFinal.last.afterLineBreak behind (significant later) := by
  obtain ⟨opening, same, alike⟩ :=
    chunked.opening_of_comment outside unfinished comment begins ends
  have level := chunked.whole_level (fun _ => none) (place + 1)
  have nonempty : tail ≠ [] := by
    rintro rfl
    change _ < ((first.before head []).after (fun _ => none) (place + 1)).position at ends
    rw [List.length_nil] at level
    omega
  have anew := chunked.begunAnew opening uncut same nonempty forgets
  obtain ⟨-, otherRegex, -, -, part⟩ := chunked.comment_calls same (fun _ => none)
  have trivia := congrArg TokenKind.isTrivia comment
  have triviaFirst := congrArg TokenKind.isTrivia (chunked.comment_kinds opening same).2
  have triviaSecond := congrArg TokenKind.isTrivia (chunked.second_kind nonempty otherRegex)
  -- each reading falls into what comes before its comment and what comes behind
  obtain ⟨behind, _, split, readsBehind⟩ := reads.significant_split unfinished trivia
  obtain ⟨ended, _, splitFirst, readsEnded⟩ := readsFirst.significant_split
    (fun number earlier => alike number earlier ▸ unfinished number earlier) triviaFirst
  have unbegun : ∀ number < 0,
      (second.callAt (fun _ => none) number).token.kind ≠ .endOfFile :=
    fun number earlier => absurd earlier (Nat.not_lt_zero number)
  obtain ⟨behindSecond, _, splitSecond, readsSecond⟩ :=
    readsSecond.significant_split unbegun (part ▸ triviaSecond)
  obtain ⟨finished, open_⟩ := opening.after chunked.keeps
  obtain ⟨nothing, captured, flag⟩ :=
    readsEnded.of_finished (after_keeps chunked.keeps _ (place + 1)) finished
  have before : (List.range place).map (first.callAt (fun _ => none) · |>.token) =
      (List.range place).map ((first.before head tail).callAt (fun _ => none) · |>.token) :=
    List.map_congr_left fun number member => alike number (List.mem_range.mp member)
  rw [nothing, List.append_nil, before] at splitFirst
  rw [List.range_zero, List.map_nil, significant_nil, List.nil_append] at splitSecond
  have keeps : (first.before head tail).options.skipTrivia = false := chunked.keeps
  have resumed := readsBehind.resumed readsSecond anew (chunked.after_before_keeps _ _)
  rw [allowsRegex_behind keeps fresh unfinished trivia, ← splitFirst, ← splitSecond,
    ← flag] at resumed
  exact ⟨captured.trans open_, significant behind, splitFirst ▸ split, resumed⟩

end Chunked

/-- The settings for trivia make no difference to what is significant. -/
theorem scanAll_significant_of_options (options : ScanOptions) (chunk : List Char)
    (inComment : Bool) (initial : Location) :
    let kept := (resume { options with skipTrivia := false } chunk inComment initial).scanAll
    let scan := (resume options chunk inComment initial).scanAll
    significant scan.tokens = significant kept.tokens ∧
      scan.scanner.inComment = kept.scanner.inComment ∧ scan.scanner.last = kept.scanner.last := by
  intro kept scan
  obtain ⟨strict, skips⟩ := options
  cases skips with
  | false => exact ⟨rfl, rfl, rfl⟩
  | true =>
    let keeping := resume { strict, skipTrivia := false } chunk inComment initial
    have keeps : keeping.options.skipTrivia = false := rfl
    have skipped := scanAll_skippingTrivia keeps
    change scan = _ at skipped
    rw [skipped]
    exact ⟨significant_filter _, rfl, rfl⟩

end Scanner

open Scanner in
/-- Scanning a document in two chunks that are cut in the body of a block comment. The
significant tokens of the chunks are those of the whole document exactly if

* no regular expression begins the second chunk, behind the comment, where the last
  significant token of the first does not allow one, and
* a line break that is pending when the first chunk ends is seen again before the first
  significant token of the second.

The first condition alone decides about all but the line breaks. -/
theorem scanAll_chunks (options : ScanOptions) (head tail : List Char) (initial : Location)
    {comment : Token}
    (member : comment ∈ (resume { options with skipTrivia := false } (head ++ tail) false
      initial).scanAll.tokens)
    (kind : comment.kind = .blockComment)
    (begins : comment.span.start + 2 ≤ initial.index + head.length)
    (ends : initial.index + head.length < comment.span.stop)
    (uncut : ¬ CutsClosing (head.drop (comment.span.start + 2 - initial.index)) tail) :
    let whole := (resume options (head ++ tail) false initial).scanAll
    let first := (resume options head false initial).scanAll
    let second := (resumeBehind options head tail first.scanner.inComment initial).scanAll
    let joined := significant first.tokens ++ significant second.tokens
    let allowed := ∀ next ∈ (significant second.tokens).head?, next.kind = .regularExpression →
      TokenKind.allowsRegexAfter ((significant first.tokens).getLast?.map (·.kind))
    let brokenAgain := first.scanner.last.afterLineBreak →
      ∀ next ∈ (significant second.tokens).head?, next.afterLineBreak
    first.scanner.inComment = true ∧
    (joined.map (·.toLocatedToken) = (significant whole.tokens).map (·.toLocatedToken) ↔
      allowed) ∧
    (joined = significant whole.tokens ↔ allowed ∧ brokenAgain) := by
  intro whole first second joined allowed brokenAgain
  let kept : ScanOptions := { options with skipTrivia := false }
  have chunked := chunked_resume options.strict head tail initial
  obtain ⟨tokens, reads, told⟩ :=
    (hasRead_resume kept (head ++ tail) false initial).scanAll_significant
  obtain ⟨earlier, readsFirst, toldFirst⟩ :=
    (hasRead_resume kept head false initial).scanAll_significant
  obtain ⟨later, readsSecond, toldSecond⟩ := chunked.resumes.scanAll_significant
  -- the comment is what one of the calls gives
  rw [reads.scanAll_eq] at member
  obtain ⟨token, present, rfl⟩ := List.mem_map.mp member
  obtain ⟨place, rfl, unfinished⟩ := reads.exists_call present
  obtain ⟨open_, behind, split, resumed⟩ := chunked.resumed rfl rfl rfl unfinished kind
    begins ends uncut reads readsFirst readsSecond
  obtain ⟨sameWhole, -, -⟩ :=
    scanAll_significant_of_options options (head ++ tail) false initial
  obtain ⟨sameFirst, captured, last⟩ := scanAll_significant_of_options options head false initial
  have open_ : first.scanner.inComment = true := captured.trans open_
  have sameSecond : significant second.tokens = significant later := by
    simp only [second, open_]
    exact (scanAll_significant_of_options options tail true _).1.trans toldSecond
  have splitWhole : significant whole.tokens = significant first.tokens ++ behind :=
    calc significant whole.tokens
        = significant tokens := sameWhole.trans told
      _ = significant earlier ++ behind := split
      _ = significant first.tokens ++ behind := by rw [sameFirst.trans toldFirst]
  rw [← toldFirst, ← sameFirst, ← last, ← sameSecond] at resumed
  refine ⟨open_, ?_, ?_⟩
  · rw [splitWhole, List.map_append, List.map_append, List.append_cancel_left_eq]
    exact resumed.located_iff
  · rw [splitWhole, List.append_cancel_left_eq]
    exact resumed.eq_iff

open Scanner in
/-- An operator before the comment allows the regular expression behind it. -/
theorem scanAll_chunks_of_allowed_pattern :
    let whole := (resume {} (['=', '/', '*'] ++ ['*', '/', '/', 'b', '/']) false .start).scanAll
    let first := (resume {} ['=', '/', '*'] false .start).scanAll
    let second := (resumeBehind {} ['=', '/', '*'] ['*', '/', '/', 'b', '/']
      first.scanner.inComment .start).scanAll
    (∃ comment ∈ whole.tokens, comment.kind = .blockComment ∧ comment.span.start + 2 ≤ 3 ∧
      3 < comment.span.stop ∧
      ¬ CutsClosing (['=', '/', '*'].drop (comment.span.start + 2)) ['*', '/', '/', 'b', '/']) ∧
    significant first.tokens ++ significant second.tokens = significant whole.tokens := by
  intro whole first second
  have comments : ∃ comment ∈ whole.tokens, comment.kind = .blockComment ∧
      comment.span.start + 2 ≤ 3 ∧ 3 < comment.span.stop ∧
      ¬ CutsClosing (['=', '/', '*'].drop (comment.span.start + 2)) ['*', '/', '/', 'b', '/'] := by
    decide +kernel
  have joined : significant first.tokens ++ significant second.tokens =
      significant whole.tokens := by
    obtain ⟨comment, member, kind, begins, ends, uncut⟩ := comments
    apply (scanAll_chunks {} ['=', '/', '*'] ['*', '/', '/', 'b', '/'] .start member kind begins
      ends uncut).2.2.mpr
    decide +kernel
  exact ⟨comments, joined⟩

open Scanner in
/-- A division behind the comment is taken for a regular expression: the second scan does not
know of the name before the comment. -/
theorem not_joined_of_division :
    let whole := (resume {} (['a', '/', '*'] ++ ['*', '/', '/', 'b', '/']) false .start).scanAll
    let first := (resume {} ['a', '/', '*'] false .start).scanAll
    let second := (resumeBehind {} ['a', '/', '*'] ['*', '/', '/', 'b', '/']
      first.scanner.inComment .start).scanAll
    (∃ comment ∈ whole.tokens, comment.kind = .blockComment ∧ comment.span.start + 2 ≤ 3 ∧
      3 < comment.span.stop ∧
      ¬ CutsClosing (['a', '/', '*'].drop (comment.span.start + 2)) ['*', '/', '/', 'b', '/']) ∧
    (significant first.tokens ++ significant second.tokens).map (·.kind) =
      [.identifier, .regularExpression] ∧
    (significant whole.tokens).map (·.kind) =
      [.identifier, .punctuator .divide, .identifier, .punctuator .divide] ∧
    significant first.tokens ++ significant second.tokens ≠ significant whole.tokens := by
  decide +kernel

open Scanner in
/-- A line break in the first part of the comment is not told of behind the comment. -/
example :
    let whole := (resume {} (['a', '/', '*', '\n'] ++ ['*', '/', 'b']) false .start).scanAll
    let first := (resume {} ['a', '/', '*', '\n'] false .start).scanAll
    let second := (resumeBehind {} ['a', '/', '*', '\n'] ['*', '/', 'b']
      first.scanner.inComment .start).scanAll
    (significant first.tokens ++ significant second.tokens).map (·.afterLineBreak) =
      [false, false] ∧
    (significant whole.tokens).map (·.afterLineBreak) = [false, true] := by
  decide +kernel

end ScriptSyntax

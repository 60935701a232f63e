import ScriptSyntax.Proofs.Scanner.InStep
import ScriptSyntax.Proofs.Source.Resumption

/-! A document that is cut inside a block comment and read in two chunks. What is read in
the chunks is what is read in the whole, but for the comment, which falls in two. -/
namespace ScriptSyntax

open LineTable

namespace Scanner

/-- A scanner of the chunk that follows `head` in a document that begins at `initial`. -/
def resumeBehind (options : ScanOptions) (head tail : List Char) (inComment : Bool)
    (initial : Location) : Scanner :=
  resume options tail inComment
    ((ofText (head ++ tail) initial).locate (initial.index + head.length))

end Scanner

/-- A token that begins before `cut` and ends behind it. -/
def Token.Crosses (token : Token) (cut : Nat) : Prop :=
  token.span.start < cut ∧ cut < token.span.stop

/-- The calls on a whole document are those on its two chunks, of which the first ends
inside the comment of its call `place`. That comment goes on in the second chunk. -/
structure Joins (whole first second : Nat → ScanStep) (place : Nat) : Prop where
  before : ∀ number < place, Scanner.Alike (whole number) (first number)
  comment : (whole place).token.located =
    (first place).token.located.upTo (second 0).token.located
  /-- A line break of the first chunk is told of up to the next significant token. -/
  afterLineBreak : ∀ number, (whole (place + number)).token.afterLineBreak =
    ((second number).token.afterLineBreak ||
      (first place).token.afterLineBreak &&
        (List.range number).all fun earlier => (whole (place + earlier)).token.kind.isTrivia)
  behind : ∀ number > 0,
    (whole (place + number)).token.located = (second number).token.located
  inComment : ∀ number,
    (whole (place + number)).scanner.inComment = (second number).scanner.inComment
  unterminated : ∀ report ∈ (whole place).reports ++ (first place).reports ++ (second 0).reports,
    report.problem = .unterminatedComment
  reports : ∀ number > 0, ∀ log : DiagnosticLog,
    (whole (place + number)).reports.map log.resolve = (second number).reports.map log.resolve

namespace Scanner

/-- Two scanners at the beginnings of two chunks of a document, of which the second begins
inside a comment. -/
structure Chunked (first second : Scanner) (head tail : List Char) (initial : Location) :
    Prop where
  keeps : first.options.skipTrivia = false
  options : second.options = first.options
  begins : first.HasRead head initial []
  resumes : second.HasRead tail
    ((ofText (head ++ tail) initial).locate (initial.index + head.length)) []
  inComment : second.inComment = true
  quiet : second.breakPending = false

/-- The scanner of the first chunk, put before the whole document. -/
def before (first : Scanner) (head tail : List Char) : Scanner :=
  first.onto (head ++ tail) (head ++ tail)

theorem chunked_resume (strict : Bool) (head tail : List Char) (initial : Location) :
    Chunked (resume { strict } head false initial) (resumeBehind { strict } head tail true initial)
      head tail initial where
  keeps := rfl
  options := rfl
  begins := hasRead_resume _ _ _ _
  resumes := hasRead_resume _ _ _ _
  inComment := rfl
  quiet := rfl

/-- Two calls that give the same, after two others. A line break that comes up in one comes
up in the other; what was pending may differ. -/
structure Follow (before otherBefore step other : ScanStep) : Prop where
  located : step.token.located = other.token.located
  inComment : before.scanner.inComment = otherBefore.scanner.inComment
  breaks : ∃ breaks, step.token.afterLineBreak = (before.scanner.breakPending || breaks) ∧
    other.token.afterLineBreak = (otherBefore.scanner.breakPending || breaks)
  reports : ∀ log : DiagnosticLog,
    step.reports.map log.resolve = other.reports.map log.resolve

/-- Two runs give the same behind their first calls. -/
def GoesOn (whole second : Nat → ScanStep) : Prop :=
  ∀ number, Follow (whole number) (second number) (whole (number + 1)) (second (number + 1))

/-- A line break that only one run has seen is told of by that run alone, up to the next
significant token. -/
theorem GoesOn.afterLineBreak {whole second : Nat → ScanStep} {missed : Bool}
    (goesOn : GoesOn whole second) (trivia : (whole 0).token.kind.isTrivia)
    (pending : (second 0).scanner.breakPending = (second 0).token.afterLineBreak)
    (begins : (whole 0).token.afterLineBreak = ((second 0).token.afterLineBreak || missed))
    (number : Nat) :
    (whole number).token.afterLineBreak =
      ((second number).token.afterLineBreak ||
        missed && (List.range number).all fun earlier => (whole earlier).token.kind.isTrivia) := by
  induction number with
  | zero => rw [begins, List.range_zero, List.all_nil, Bool.and_true]
  | succ number ih =>
    obtain ⟨breaks, here, there⟩ := (goesOn number).breaks
    -- trivia hand the line break on, in both
    have handed : (whole number).scanner.breakPending =
        ((whole number).token.kind.isTrivia && (whole number).token.afterLineBreak) := rfl
    have handedThere : (second number).scanner.breakPending =
        ((whole number).token.kind.isTrivia && (second number).token.afterLineBreak) := by
      cases number with
      | zero => rw [pending, trivia, Bool.true_and]
      | succ number =>
        have kind := congrArg LocatedToken.kind (goesOn number).located
        exact congrArg (·.isTrivia && _) kind.symm
    rw [here, there, handed, handedThere, ih, List.range_succ, List.all_append, List.all_cons,
      List.all_nil, Bool.and_true]
    grind

/-- A regular expression is read only with leave. -/
theorem call_kind_of_no_regex {scanner : Scanner}
    (keeps : scanner.options.skipTrivia = false) :
    (scanner.call (some false)).token.kind ≠ .regularExpression := by
  rw [call_eq_readLexeme keeps]
  intro kind
  obtain ⟨allowed, -⟩ := Lexeme.read_regularExpression kind
  cases allowed

namespace Chunked

variable {first second : Scanner} {head tail body : List Char} {initial : Location}
  {hints : Nat → Option Bool} {place : Nat}

theorem whole (chunked : Chunked first second head tail initial) :
    (first.before head tail).HasRead (head ++ tail) initial [] where
  chunk := rfl
  whole := rfl
  position := chunked.begins.position
  lines := chunked.begins.lines
  uncut := Plain.nil.not_cutsBreak

theorem after_before_keeps (chunked : Chunked first second head tail initial)
    (hints : Nat → Option Bool) (count : Nat) :
    ((first.before head tail).after hints count).options.skipTrivia = false := by
  have keeps : (first.before head tail).options.skipTrivia = false := chunked.keeps
  exact after_keeps keeps hints count

theorem second_position (chunked : Chunked first second head tail initial) :
    second.position = initial.index + head.length := by
  rw [chunked.resumes.position, locate_index]
  rfl

/-- Behind the cut both documents place alike. -/
theorem agree (chunked : Chunked first second head tail initial) :
    ∀ index ≥ second.position,
      (ofText tail ((ofText (head ++ tail) initial).locate
        (initial.index + head.length))).locate index =
        (ofText (head ++ tail) initial).locate index := by
  intro index past
  rw [chunked.second_position] at past
  exact locate_resume head tail initial past

theorem level (chunked : Chunked first second head tail initial) (hints : Nat → Option Bool)
    (count : Nat) : (first.after hints count).position + (first.after hints count).rest.length =
      initial.index + head.length := by
  obtain ⟨taken, read⟩ := chunked.begins.after hints count
  exact read.position_add_rest

theorem whole_level (chunked : Chunked first second head tail initial)
    (hints : Nat → Option Bool) (count : Nat) :
    ((first.before head tail).after hints count).position +
      ((first.before head tail).after hints count).rest.length =
        initial.index + head.length + tail.length := by
  obtain ⟨taken, read⟩ := chunked.whole.after hints count
  rw [read.position_add_rest, List.length_append, Nat.add_assoc]

theorem insideOf (chunked : Chunked first second head tail initial) (hints : Nat → Option Bool)
    (count : Nat) : InsideOf second (first.after hints count) where
  options := chunked.options.trans (after_options chunked.keeps hints count).symm
  inComment := chunked.inComment
  position := chunked.second_position.trans (chunked.level hints count).symm

/-- Before the comment the whole document is read as its first chunk, if no regular
expression reaches into the second. -/
theorem before_opening (chunked : Chunked first second head tail initial)
    (opening : AtOpening (first.after hints place) body)
    (clear : ∀ number < place,
      ((first.before head tail).callAt hints number).token.kind = .regularExpression →
      ¬ ((first.before head tail).callAt hints number).token.Crosses
        (initial.index + head.length)) :
    (first.before head tail).after hints place =
        (first.after hints place).onto (head ++ tail) ((first.after hints place).rest ++ tail) ∧
      ∀ number < place,
        Alike ((first.before head tail).callAt hints number) (first.callAt hints number) := by
  have ahead : first.rest = head ++ [] := by
    rw [List.append_nil]
    exact chunked.begins.whole
  have fenced : Fenced (first.after hints place).rest :=
    ⟨'/', by simp [opening.rest], by decide⟩
  apply after_onto chunked.keeps hints ahead (List.append_nil _).symm fenced
  intro number earlier kind inHead
  have here := chunked.whole_level hints number
  have there := chunked.whole_level hints (number + 1)
  have start : ((first.before head tail).callAt hints number).token.span.start =
      ((first.before head tail).after hints number).position :=
    scan_start (chunked.after_before_keeps hints number) _
  have uncrossed := clear number earlier kind
  rw [Token.Crosses, start, not_and] at uncrossed
  change tail.length < ((first.before head tail).after hints number).rest.length at inHead
  have stop := uncrossed (by omega)
  change tail.length ≤ ((first.before head tail).after hints (number + 1)).rest.length
  change ¬ _ < ((first.before head tail).after hints (number + 1)).position at stop
  omega

theorem keepsSecond (chunked : Chunked first second head tail initial) :
    second.options.skipTrivia = false :=
  chunked.options ▸ chunked.keeps

/-- What the second chunk begins with breaks a line just if there is a line terminator in
it. -/
theorem second_breaks (chunked : Chunked first second head tail initial) (regex : Bool) :
    breaksLine (second.lexeme regex) = (second.lexeme regex).text.any isLineTerminator := by
  cases ahead : second.rest with
  | nil =>
    rw [lexeme, ahead]
    rfl
  | cons c rest =>
    apply breaksLine_of_blockComment
    rw [lexeme, ahead, Lexeme.read_of_inComment chunked.inComment]
    rfl

/-- That line break stays pending. -/
theorem second_pending (chunked : Chunked first second head tail initial)
    (later : Nat → Option Bool) :
    (second.callAt later 0).scanner.breakPending =
      (second.callAt later 0).token.afterLineBreak := by
  rw [callAt, after, call_eq_readLexeme chunked.keepsSecond]
  cases trivia : (second.lexeme ((later 0).getD second.allowsRegex)).kind.isTrivia with
  | true => exact (readLexeme_trivia trivia).2
  | false =>
    obtain ⟨flag, -, pending⟩ := readLexeme_significant trivia
    rw [flag, pending, chunked.quiet]

section Comment

variable (chunked : Chunked first second head tail initial)
  (opening : AtOpening (first.after hints place) body) (uncut : ¬ CutsClosing body tail)
  (same : (first.before head tail).after hints place =
    (first.after hints place).onto (head ++ tail) ((first.after hints place).rest ++ tail))
  (later : Nat → Option Bool)

include chunked same in
/-- The calls that read the comment: the whole of it and its two parts. -/
theorem comment_calls : ∃ regex otherRegex,
    (first.before head tail).callAt hints place =
      ((first.after hints place).onto (head ++ tail)
        ((first.after hints place).rest ++ tail)).readLexeme regex ∧
    first.callAt hints place = (first.after hints place).readLexeme regex ∧
    second.callAt later 0 = second.readLexeme otherRegex := by
  have keepsThere := after_keeps chunked.keeps hints place
  have keepsWhole : ((first.after hints place).onto (head ++ tail)
      ((first.after hints place).rest ++ tail)).options.skipTrivia = false := keepsThere
  rw [callAt, same, call_eq_readLexeme keepsWhole, callAt, call_eq_readLexeme keepsThere, callAt,
    after, call_eq_readLexeme chunked.keepsSecond]
  exact ⟨_, _, rfl, rfl, rfl⟩

include chunked opening same in
theorem comment_kinds :
    ((first.before head tail).callAt hints place).token.kind = .blockComment ∧
      (first.callAt hints place).token.kind = .blockComment := by
  obtain ⟨regex, -, whole, here, -⟩ := chunked.comment_calls same hints
  rw [whole, here]
  exact ⟨congrArg Lexeme.kind (opening.onto_lexeme tail (head ++ tail) regex), opening.kind regex⟩

include chunked opening uncut same

/-- Behind the comment the scanner of the whole and that of the second chunk are abreast. -/
theorem beside : Beside ((first.before head tail).after hints (place + 1)) (second.after later 1)
    (head ++ tail) initial tail
    ((ofText (head ++ tail) initial).locate (initial.index + head.length)) := by
  obtain ⟨regex, otherRegex, whole, -, part⟩ := chunked.comment_calls same later
  have abreast := (opening.joined (chunked.insideOf hints place) chunked.resumes.whole uncut
    (head ++ tail) regex otherRegex).2
  rw [← whole, ← part] at abreast
  refine ⟨abreast, chunked.whole.after hints (place + 1), chunked.resumes.after later 1, ?_⟩
  intro index past
  have onward := chunked.resumes.position_le_after later (Nat.zero_le 1)
  exact chunked.agree index (Nat.le_trans onward (abreast.position ▸ past))

/-- The comment of the whole document is that of both chunks. -/
theorem comment : ((first.before head tail).callAt hints place).token.located =
    (first.callAt hints place).token.located.upTo (second.callAt later 0).token.located := by
  obtain ⟨regex, otherRegex, whole, here, part⟩ := chunked.comment_calls same later
  obtain ⟨taken, read⟩ := chunked.begins.after hints place
  obtain ⟨takenWhole, readWhole⟩ := chunked.whole.after hints place
  rw [same] at readWhole
  rw [whole, here, part]
  exact opening.joined_located (chunked.insideOf hints place) chunked.resumes.whole uncut read
    readWhole chunked.resumes chunked.agree regex otherRegex

/-- A line is broken in one of the parts if in the whole. -/
theorem comment_breaks :
    ((first.before head tail).callAt hints place).token.afterLineBreak =
      ((second.callAt later 0).token.afterLineBreak ||
        (first.callAt hints place).token.afterLineBreak) := by
  obtain ⟨regex, otherRegex, whole, here, part⟩ := chunked.comment_calls same later
  have text := (opening.joined (chunked.insideOf hints place) chunked.resumes.whole uncut
    (head ++ tail) regex otherRegex).1
  have kindHere := congrArg Lexeme.kind (opening.lexeme regex)
  have kindWhole := congrArg Lexeme.kind (opening.onto_lexeme tail (head ++ tail) regex)
  rw [whole, here, part, readLexeme_afterLineBreak, readLexeme_afterLineBreak,
    readLexeme_afterLineBreak, breaksLine_of_blockComment kindWhole,
    breaksLine_of_blockComment kindHere, chunked.second_breaks, text, opening.lexeme_text,
    List.any_append, chunked.quiet, Bool.false_or, ← Bool.or_assoc, Bool.or_comm]
  rfl

omit uncut in
/-- The two parts of the comment and the whole of it can only be found to be open. -/
theorem unterminated :
    ∀ report ∈ ((first.before head tail).callAt hints place).reports ++
        (first.callAt hints place).reports ++ (second.callAt later 0).reports,
      report.problem = .unterminatedComment := by
  obtain ⟨regex, otherRegex, whole, here, part⟩ := chunked.comment_calls same later
  rw [whole, here, part]
  intro report member
  rcases List.mem_append.mp member with member | member
  · rcases List.mem_append.mp member with member | member
    · refine readLexeme_reports ?_ report member
      rw [opening.onto_lexeme]
      exact Lexeme.blockComment_flaws _ _
    · refine readLexeme_reports ?_ report member
      rw [opening.lexeme]
      exact Lexeme.blockComment_flaws _ _
  · exact readLexeme_reports (Lexeme.read_inside chunked.inComment _).flaws report member

end Comment

/-- Behind the comment the calls on the whole and on the second chunk go on alike. -/
theorem beside_after (chunked : Chunked first second head tail initial) {hints : Nat → Bool}
    {source otherSource : List Char} {otherInitial : Location}
    (beside : Beside ((first.before head tail).after (given hints) (place + 1))
      (second.after (given fun number => hints (place + number)) 1) source initial
      otherSource otherInitial) (number : Nat) :
    Beside ((first.before head tail).after (given hints) (place + (number + 1)))
      (second.after (given fun number => hints (place + number)) (number + 1)) source initial
      otherSource otherInitial := by
  have keepsThere := chunked.after_before_keeps (given hints) (place + 1)
  have later := beside.after keepsThere (fun further => hints (place + 1 + further)) number
  have shifted : (fun further => hints (place + 1 + further)) =
      fun further => hints (place + (1 + further)) :=
    funext fun further => congrArg hints (Nat.add_assoc place 1 further)
  rw [after_given, shifted, after_given second fun number => hints (place + number)] at later
  rwa [Nat.add_comm number 1, ← Nat.add_assoc]

/-- The calls on the whole document go on behind the comment as those on the second chunk. -/
theorem goesOn (chunked : Chunked first second head tail initial) {hints : Nat → Bool}
    (opening : AtOpening (first.after (given hints) place) body)
    (uncut : ¬ CutsClosing body tail)
    (same : (first.before head tail).after (given hints) place =
      (first.after (given hints) place).onto (head ++ tail)
        ((first.after (given hints) place).rest ++ tail)) :
    GoesOn (fun number => (first.before head tail).callAt (given hints) (place + number))
      (second.callAt (given fun number => hints (place + number))) := by
  intro number
  have beside := chunked.beside_after
    (chunked.beside opening uncut same (given fun number => hints (place + number))) number
  have keepsThere := chunked.after_before_keeps (given hints) (place + (number + 1))
  obtain ⟨-, located, reports⟩ := beside.call keepsThere (hints (place + (number + 1)))
  exact ⟨located, beside.abreast.inComment.symm, beside.abreast.call_breaks keepsThere _, reports⟩

theorem joins (chunked : Chunked first second head tail initial) {hints : Nat → Bool}
    (opening : AtOpening (first.after (given hints) place) body)
    (uncut : ¬ CutsClosing body tail)
    (clear : ∀ number,
      ((first.before head tail).callAt (given hints) number).token.kind = .regularExpression →
      ¬ ((first.before head tail).callAt (given hints) number).token.Crosses
        (initial.index + head.length)) :
    Joins ((first.before head tail).callAt (given hints)) (first.callAt (given hints))
      (second.callAt (given fun number => hints (place + number))) place := by
  obtain ⟨same, alike⟩ := chunked.before_opening opening fun number _ => clear number
  have goesOn := chunked.goesOn opening uncut same
  have trivia := congrArg TokenKind.isTrivia (chunked.comment_kinds opening same).1
  have breaks := goesOn.afterLineBreak trivia (chunked.second_pending _)
    (chunked.comment_breaks opening uncut same _)
  refine ⟨alike, chunked.comment opening uncut same _, breaks, ?_,
    fun number => (goesOn number).inComment, chunked.unterminated opening same _, ?_⟩
  · intro number past
    obtain ⟨number, rfl⟩ := Nat.exists_eq_succ_of_ne_zero (Nat.pos_iff_ne_zero.mp past)
    exact (goesOn number).located
  · intro number past
    obtain ⟨number, rfl⟩ := Nat.exists_eq_succ_of_ne_zero (Nat.pos_iff_ne_zero.mp past)
    exact (goesOn number).reports

/-- No token of joined chunks reaches over the cut but the comment. -/
theorem not_crosses (chunked : Chunked first second head tail initial)
    {later : Nat → Option Bool} (comment : (first.callAt hints place).token.kind = .blockComment)
    (joins : Joins ((first.before head tail).callAt hints) (first.callAt hints)
      (second.callAt later) place) {number : Nat}
    (kind : ((first.before head tail).callAt hints number).token.kind = .regularExpression) :
    ¬ ((first.before head tail).callAt hints number).token.Crosses
      (initial.index + head.length) := by
  rintro ⟨begins, ends⟩
  rcases Nat.lt_trichotomy number place with earlier | rfl | past
  · rw [(joins.before number earlier).token] at ends
    have level := chunked.level hints (number + 1)
    change _ < (first.after hints (number + 1)).position at ends
    omega
  · have same : ((first.before head tail).callAt hints number).token.kind = _ :=
      congrArg LocatedToken.kind joins.comment
    rw [kind, LocatedToken.upTo] at same
    exact absurd (same.trans comment) (by decide)
  · obtain ⟨further, rfl⟩ := Nat.exists_eq_add_of_lt past
    have same := congrArg (·.start.index) (joins.behind (further + 1) (Nat.succ_pos further))
    simp only [Token.located_start_index, ← Nat.add_assoc] at same
    have onward := chunked.resumes.position_le_after later (Nat.zero_le (further + 1))
    have start : (second.callAt later (further + 1)).token.span.start =
        (second.after later (further + 1)).position :=
      scan_start (after_keeps (chunked.options ▸ chunked.keeps) later (further + 1)) _
    rw [after, chunked.second_position] at onward
    omega

end Chunked

end Scanner

open Scanner in
/-- Scanning in chunks, with a hint for each token. If the first chunk ends inside a
comment, its last token before the end is that comment. The second chunk takes up where
the first has ended; the cut must not split the mark that closes the comment. Then the
calls on the chunks make up those on the whole document exactly if no regular expression
of the document reaches over the cut: a slash of the first chunk that could begin one has
been read as an operator. They tell the same but for a line break before the cut, which the
second scan has not seen. -/
theorem scan_chunks (strict : Bool) (head tail : List Char) (initial : Location)
    (hints : Nat → Bool) {last : Nat}
    (ended : ((resume { strict } head false initial).callAt (given hints) last).token.kind =
      .endOfFile)
    (open_ : ((resume { strict } head false initial).callAt (given hints) last).scanner.inComment) :
    let first := (resume { strict } head false initial).callAt (given hints)
    let cut := initial.index + head.length
    ∃ place < last, (first place).token.kind = .blockComment ∧
      (first place).token.span.stop = cut ∧ (first (place + 1)).token.kind = .endOfFile ∧
      (¬ CutsClosing ((first place).token.text.toList.drop 2) tail →
        let whole := (resume { strict } (head ++ tail) false initial).callAt (given hints)
        let second :=
          (resumeBehind { strict } head tail (first last).scanner.inComment initial).callAt
            (given fun number => hints (place + number))
        ((∀ number, (whole number).token.kind = .regularExpression →
            ¬ (whole number).token.Crosses cut) ↔ Joins whole first second place)) := by
  intro first cut
  have chunked := chunked_resume strict head tail initial
  obtain ⟨place, earlier, body, opening⟩ :=
    exists_atOpening chunked.keeps rfl (given hints) open_
  have keepsThere := after_keeps chunked.keeps (given hints) place
  have step : first place = ((resume { strict } head false initial).after (given hints)
      place).readLexeme (hints place) := call_eq_readLexeme keepsThere _
  have comment : (first place).token.kind = .blockComment := step ▸ opening.kind _
  obtain ⟨finished, -⟩ := opening.after chunked.keeps
  refine ⟨place, ?_, comment, ?_, ?_, ?_⟩
  · apply Nat.lt_of_le_of_ne earlier
    rintro rfl
    exact absurd (comment.symm.trans ended) (by decide)
  · have level := chunked.level (given hints) (place + 1)
    rwa [finished] at level
  · exact (scan_of_rest_eq_nil (after_keeps chunked.keeps (given hints) (place + 1)) finished _).1
  · rw [step, opening.drop_text]
    intro uncut whole second
    have captured : second = (resumeBehind { strict } head tail true initial).callAt
        (given fun number => hints (place + number)) := by
      simp only [second, show (first last).scanner.inComment = true from open_]
    rw [captured]
    exact ⟨chunked.joins opening uncut, fun joins _ => chunked.not_crosses comment joins⟩

open Scanner in
/-- A comment that is cut inside a line terminator. -/
theorem scan_chunks_of_cut_terminator :
    let first := (resume { strict := false } ['a', '/', '*', '\r'] false .start).callAt
      (given fun _ => false)
    let whole := (resume { strict := false } (['a', '/', '*', '\r'] ++ ['\n', '*', '/', 'b'])
      false .start).callAt (given fun _ => false)
    let second := (resumeBehind { strict := false } ['a', '/', '*', '\r'] ['\n', '*', '/', 'b']
      (first 2).scanner.inComment .start).callAt (given fun _ => false)
    (first 2).token.kind = .endOfFile ∧ (first 2).scanner.inComment = true ∧
    ¬ CutsClosing ((first 1).token.text.toList.drop 2) ['\n', '*', '/', 'b'] ∧
    Joins whole first second 1 := by
  intro first whole second
  have ended : (first 2).token.kind = .endOfFile := by decide +kernel
  have open_ : (first 2).scanner.inComment = true := by decide +kernel
  have uncut : ¬ CutsClosing ((first 1).token.text.toList.drop 2) ['\n', '*', '/', 'b'] := by
    decide +kernel
  obtain ⟨place, earlier, comment, -, -, joined⟩ :=
    scan_chunks false ['a', '/', '*', '\r'] ['\n', '*', '/', 'b'] .start (fun _ => false) ended open_
  have only : place = 1 := by
    match place, earlier with
    | 0, _ => exact absurd comment (by decide +kernel)
    | 1, _ => rfl
  subst only
  refine ⟨ended, open_, uncut, (joined uncut).mp fun number kind => ?_⟩
  exact absurd kind (call_kind_of_no_regex (after_keeps rfl _ number))

open Scanner in
/-- The first slash begins a regular expression in the whole document, which closes only in
the second chunk. In the first chunk it is an operator. -/
theorem not_alike_of_open_pattern :
    let first := (resume { strict := false } ['/', '[', '/', '*'] false .start).callAt
      (given fun _ => true)
    let whole := (resume { strict := false } (['/', '[', '/', '*'] ++ [']', '/'])
      false .start).callAt (given fun _ => true)
    (first 2).token.kind = .blockComment ∧
    (first 3).token.kind = .endOfFile ∧ (first 3).scanner.inComment = true ∧
    ¬ CutsClosing ((first 2).token.text.toList.drop 2) [']', '/'] ∧
    (whole 0).token.kind = .regularExpression ∧
    ¬ ∀ number < 2, (whole number).token.kind = (first number).token.kind := by
  intro first whole
  have pattern : (whole 0).token.kind = .regularExpression := by decide +kernel
  have operator : (first 0).token.kind ≠ .regularExpression := by decide +kernel
  refine ⟨by decide +kernel, by decide +kernel, by decide +kernel, by decide +kernel, pattern, ?_⟩
  intro same
  exact operator ((same 0 (by decide)).symm.trans pattern)

end ScriptSyntax

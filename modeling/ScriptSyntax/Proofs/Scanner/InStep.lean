import ScriptSyntax.Proofs.Scanner.Abreast

/-! What a scanner remembers of the tokens before: the last significant token, and whether a
line break has been seen since. Scanners abreast that remember the same go on in step. One
that remembers nothing falls in step with the first significant token, unless it takes an
operator for a regular expression there. -/
namespace ScriptSyntax

open LineTable

/-- A token as a reader is told of it. -/
structure ToldToken extends LocatedToken where
  afterLineBreak : Bool
  deriving DecidableEq, Repr

namespace Token

def told (token : Token) : ToldToken :=
  { token.located with afterLineBreak := token.afterLineBreak }

/-- Neither trivia nor the end of input. -/
def isSignificant (token : Token) : Bool := !token.kind.isTrivia && token.kind != .endOfFile

end Token

/-- What a reader is told of the significant tokens. -/
def significant (tokens : List Token) : List ToldToken :=
  (tokens.filter (·.isSignificant)).map Token.told

section Significant

variable {token : Token} {tokens others : List Token}

theorem significant_nil : significant [] = [] := rfl

theorem significant_append (tokens others : List Token) :
    significant (tokens ++ others) = significant tokens ++ significant others := by
  rw [significant, List.filter_append, List.map_append]
  rfl

theorem significant_cons_of_trivia (trivia : token.kind.isTrivia) (tokens : List Token) :
    significant (token :: tokens) = significant tokens := by
  simp [significant, Token.isSignificant, trivia]

theorem significant_cons_of_endOfFile (ended : token.kind = .endOfFile) (tokens : List Token) :
    significant (token :: tokens) = significant tokens := by
  simp [significant, Token.isSignificant, ended]

theorem significant_cons_of_significant (kept : token.kind.isTrivia = false)
    (unfinished : token.kind ≠ .endOfFile) (tokens : List Token) :
    significant (token :: tokens) = token.told :: significant tokens := by
  simp [significant, Token.isSignificant, kept, unfinished]

/-- Filtering the trivia out before makes no difference. -/
theorem significant_filter (tokens : List Token) :
    significant (tokens.filter (!·.kind.isTrivia)) = significant tokens := by
  rw [significant, List.filter_filter, significant]
  congr 2
  funext token
  cases trivia : token.kind.isTrivia <;> simp [Token.isSignificant, trivia]

/-- Tokens that are told alike are significant alike. -/
theorem significant_congr (same : tokens.map Token.told = others.map Token.told) :
    significant tokens = significant others := by
  have told (tokens : List Token) : significant tokens =
      (tokens.map Token.told).filter fun token => !token.kind.isTrivia && token.kind != .endOfFile := by
    rw [List.filter_map]
    rfl
  rw [told, told, same]

end Significant

namespace Scanner

variable {scanner other final otherFinal : Scanner} {source otherSource taken : List Char}
  {initial otherInitial : Location} {regex otherRegex : Bool} {tokens others : List Token}
  {reports otherReports : List Report}

/-- The significant tokens of a scan are told as they were when they were read. -/
theorem HasRead.scanAll_significant (read : scanner.HasRead source initial taken) :
    ∃ tokens, Reads scanner tokens scanner.scanAll.reports scanner.scanAll.scanner ∧
      significant scanner.scanAll.tokens = significant tokens := by
  obtain ⟨tokens, reads, same⟩ := read.scanAll_reads
  obtain ⟨located, flags⟩ := same (·.isSignificant) fun _ _ => rfl
  have told (tokens : List Token) : tokens.map Token.told =
      List.zipWith ToldToken.mk (tokens.map Token.located) (tokens.map Token.afterLineBreak) := by
    rw [List.zipWith_map, List.zipWith_self]
    rfl
  refine ⟨tokens, reads, ?_⟩
  rw [significant, told, located, flags, ← told]
  rfl

/-- A line break has been seen since the last significant token. -/
def breakPending (scanner : Scanner) : Bool :=
  scanner.last.kind.isTrivia && scanner.last.afterLineBreak

/-- The lexeme is a line end, or a comment over several lines. -/
def breaksLine (lexeme : Lexeme) : Bool :=
  !lexeme.breaks.isEmpty && (lexeme.kind == .endOfLine || lexeme.kind == .blockComment)

theorem readLexeme_afterLineBreak (scanner : Scanner) (regex : Bool) :
    (scanner.readLexeme regex).token.afterLineBreak =
      (scanner.breakPending || breaksLine (scanner.lexeme regex)) :=
  rfl

theorem breaksLine_of_significant {lexeme : Lexeme} (significant : lexeme.kind.isTrivia = false) :
    breaksLine lexeme = false := by
  unfold breaksLine
  cases kind : lexeme.kind <;> simp_all [TokenKind.isTrivia]

/-- Trivia break a line just if there is a terminator in them. -/
theorem breaksLine_of_trivia (trivia : (scanner.lexeme regex).kind.isTrivia) :
    breaksLine (scanner.lexeme regex) = (scanner.lexeme regex).text.any isLineTerminator := by
  have breaks : (scanner.lexeme regex).breaks = startsIn 0 (scanner.lexeme regex).text :=
    (Lexeme.read_lined (scanner.lexMode regex) scanner.rest).breaks
  have holds : (!(scanner.lexeme regex).breaks.isEmpty) =
      (scanner.lexeme regex).text.any isLineTerminator := by
    rw [breaks, startsIn_isEmpty, Bool.not_not]
  have kinds : (scanner.lexeme regex).breaks = [] ∨ (scanner.lexeme regex).kind = .endOfLine ∨
      (scanner.lexeme regex).kind = .blockComment ∨
      (scanner.lexeme regex).kind = .stringLiteral :=
    Lexeme.read_breaks (scanner.lexMode regex) scanner.rest
  rcases kinds with none | lineEnd | comment | string
  · rw [breaksLine, ← holds, none]
    rfl
  · rw [breaksLine, holds, lineEnd]
    exact Bool.and_true _
  · rw [breaksLine, holds, comment]
    exact Bool.and_true _
  · rw [string] at trivia
    cases trivia

theorem breaksLine_of_blockComment (comment : (scanner.lexeme regex).kind = .blockComment) :
    breaksLine (scanner.lexeme regex) = (scanner.lexeme regex).text.any isLineTerminator :=
  breaksLine_of_trivia (comment ▸ rfl)

/-- Trivia only add to a line break that is pending. -/
theorem readLexeme_trivia (trivia : (scanner.lexeme regex).kind.isTrivia) :
    (scanner.readLexeme regex).scanner.lastSignificant = scanner.lastSignificant ∧
      (scanner.readLexeme regex).scanner.breakPending =
        (scanner.breakPending || breaksLine (scanner.lexeme regex)) := by
  constructor
  · exact if_pos trivia
  · exact congrArg (· && _) trivia

/-- Any other token is told of the line break, and is remembered instead. -/
theorem readLexeme_significant (significant : (scanner.lexeme regex).kind.isTrivia = false) :
    (scanner.readLexeme regex).token.afterLineBreak = scanner.breakPending ∧
      (scanner.readLexeme regex).scanner.lastSignificant = some (scanner.lexeme regex).kind ∧
      (scanner.readLexeme regex).scanner.breakPending = false := by
  refine ⟨?_, ?_, ?_⟩
  · rw [readLexeme_afterLineBreak, breaksLine_of_significant significant, Bool.or_false]
  · exact if_neg (Bool.eq_false_iff.mp significant)
  · exact congrArg (· && _) significant

/-- Scanners abreast meet the same line breaks. -/
theorem Abreast.call_breaks (abreast : Abreast scanner other)
    (keeps : scanner.options.skipTrivia = false) (regex : Bool) : ∃ breaks,
    (scanner.call (some regex)).token.afterLineBreak = (scanner.breakPending || breaks) ∧
    (other.call (some regex)).token.afterLineBreak = (other.breakPending || breaks) := by
  have keepsThere : other.options.skipTrivia = false := abreast.options ▸ keeps
  refine ⟨breaksLine (scanner.lexeme regex), ?_, ?_⟩
  · rw [call_eq_readLexeme keeps]
    rfl
  · rw [call_eq_readLexeme keepsThere, ← abreast.lexeme regex]
    rfl

/-- The last significant token is the last that has been read. -/
theorem lastSignificant_after (keeps : scanner.options.skipTrivia = false)
    (fresh : scanner.lastSignificant = none) {count : Nat}
    (unfinished : ∀ number < count,
      (scanner.callAt (fun _ => none) number).token.kind ≠ .endOfFile) :
    (scanner.after (fun _ => none) count).lastSignificant =
      (significant ((List.range count).map
        (scanner.callAt (fun _ => none) · |>.token))).getLast?.map (·.kind) := by
  induction count with
  | zero => exact fresh
  | succ count ih =>
    have before := ih fun number earlier => unfinished number (Nat.lt_succ_of_lt earlier)
    have step := call_eq_readLexeme (after_keeps keeps (fun _ => none) count) none
    have kind : (scanner.callAt (fun _ => none) count).token.kind =
        ((scanner.after (fun _ => none) count).lexeme _).kind := congrArg (·.token.kind) step
    rw [List.range_succ, List.map_append, List.map_singleton, significant_append, after, step]
    cases trivia : (scanner.callAt (fun _ => none) count).token.kind.isTrivia with
    | true =>
      rw [significant_cons_of_trivia trivia, (readLexeme_trivia (kind ▸ trivia)).1, before]
      simp [significant]
    | false =>
      rw [significant_cons_of_significant trivia (unfinished count (Nat.lt_succ_self count)),
        (readLexeme_significant (kind ▸ trivia)).2.1, ← kind]
      simp [significant, Token.told, Token.located]

/-- Scanners beside each other that remember the same of the tokens before. -/
structure InStep (scanner other : Scanner) (source : List Char) (initial : Location)
    (otherSource : List Char) (otherInitial : Location) : Prop
    extends Beside scanner other source initial otherSource otherInitial where
  significant : other.lastSignificant = scanner.lastSignificant
  pending : other.breakPending = scanner.breakPending

/-- Such scanners stay in step, and tell the same. -/
theorem InStep.next (inStep : InStep scanner other source initial otherSource otherInitial)
    (keeps : scanner.options.skipTrivia = false) :
    InStep scanner.next.scanner other.next.scanner source initial otherSource otherInitial ∧
      scanner.next.token.told = other.next.token.told := by
  have keepsThere : other.options.skipTrivia = false := inStep.abreast.options ▸ keeps
  have hint : other.allowsRegex = scanner.allowsRegex :=
    congrArg TokenKind.allowsRegexAfter inStep.significant
  have same := inStep.abreast.lexeme scanner.allowsRegex
  have next := inStep.toBeside.readLexeme same
  rw [next_eq_readLexeme keeps, next_eq_readLexeme keepsThere, hint]
  constructor
  · cases trivia : (scanner.lexeme scanner.allowsRegex).kind.isTrivia with
    | true =>
      obtain ⟨remembers, pending⟩ := readLexeme_trivia trivia
      obtain ⟨remembersThere, pendingThere⟩ := readLexeme_trivia (same ▸ trivia)
      refine ⟨next, ?_, ?_⟩
      · rw [remembers, remembersThere, inStep.significant]
      · rw [pending, pendingThere, inStep.pending, same]
    | false =>
      obtain ⟨-, remembers, settled⟩ := readLexeme_significant trivia
      obtain ⟨-, remembersThere, settledThere⟩ := readLexeme_significant (same ▸ trivia)
      refine ⟨next, ?_, ?_⟩
      · rw [remembers, remembersThere, same]
      · rw [settled, settledThere]
  · rw [Token.told, Token.told, inStep.located same, readLexeme_afterLineBreak,
      readLexeme_afterLineBreak, inStep.pending, same]

/-- They tell the same to the end of input. -/
theorem Reads.told (reads : Reads scanner tokens reports final)
    (readsThere : Reads other others otherReports otherFinal)
    (inStep : InStep scanner other source initial otherSource otherInitial)
    (keeps : scanner.options.skipTrivia = false) :
    tokens.map Token.told = others.map Token.told := by
  induction reads generalizing other others otherReports with
  | last ended =>
    obtain ⟨-, same⟩ := inStep.next keeps
    have kind := congrArg (·.kind) same
    cases readsThere with
    | last => rw [List.map_singleton, List.map_singleton, same]
    | more unfinished => exact absurd (kind.symm.trans ended) unfinished
  | more unfinished later ih =>
    obtain ⟨next, same⟩ := inStep.next keeps
    have kind := congrArg (·.kind) same
    cases readsThere with
    | last ended => exact absurd (kind.trans ended) unfinished
    | more _ laterThere =>
      rw [List.map_cons, List.map_cons, same,
        ih laterThere next (after_keeps keeps (fun _ => none) 1)]

/-- A scanner beside one that has begun anew, and so remembers nothing of the tokens before.
`missed` says that it does not know of a line break that is pending. -/
structure BegunAnew (scanner other : Scanner) (source : List Char) (initial : Location)
    (otherSource : List Char) (otherInitial : Location) (missed : Bool) : Prop
    extends Beside scanner other source initial otherSource otherInitial where
  forgets : other.lastSignificant = none
  pending : scanner.breakPending = (missed || other.breakPending)

/-- With leave to begin a regular expression the same is read as without it, or an operator
is taken for one. -/
theorem Abreast.lexeme_of_leave (abreast : Abreast scanner other) (regex : Bool) :
    (other.lexeme true = scanner.lexeme regex ∧
      ((other.lexeme true).kind = .regularExpression → regex = true)) ∨
    ((other.lexeme true).kind = .regularExpression ∧ regex = false ∧
      ∃ mark, (scanner.lexeme regex).kind = .punctuator mark) := by
  have same := abreast.lexeme true
  cases regex with
  | true => exact .inl ⟨same, fun _ => rfl⟩
  | false =>
    by_cases kind : (other.lexeme true).kind = .regularExpression
    · rw [same] at kind
      exact .inr ⟨same ▸ kind, rfl, Lexeme.read_operator kind⟩
    · rw [same] at kind
      have without : scanner.lexeme false = scanner.lexeme true :=
        congrArg Prod.fst (Lexeme.read_without_regex kind)
      exact .inl ⟨same.trans without.symm, fun found => absurd (same ▸ found) kind⟩

/-- What the next call gives. Trivia are passed together. At the first other token both
come in step, unless one reads an operator where the other reads a regular expression. -/
theorem BegunAnew.next {missed : Bool}
    (anew : BegunAnew scanner other source initial otherSource otherInitial missed)
    (keeps : scanner.options.skipTrivia = false) :
    (scanner.next.token.kind.isTrivia ∧ other.next.token.kind = scanner.next.token.kind ∧
      BegunAnew scanner.next.scanner other.next.scanner source initial otherSource otherInitial
        missed ∧
      scanner.next.scanner.allowsRegex = scanner.allowsRegex) ∨
    (scanner.next.token.kind.isTrivia = false ∧
      scanner.next.token.located = other.next.token.located ∧
      (other.next.token.kind = .regularExpression → scanner.allowsRegex) ∧
      scanner.next.token.afterLineBreak = (missed || other.next.token.afterLineBreak) ∧
      InStep scanner.next.scanner other.next.scanner source initial otherSource otherInitial) ∨
    (other.next.token.kind = .regularExpression ∧ scanner.allowsRegex = false ∧
      ∃ mark, scanner.next.token.kind = .punctuator mark) := by
  have keepsThere : other.options.skipTrivia = false := anew.abreast.options ▸ keeps
  have hint : other.allowsRegex = true := congrArg TokenKind.allowsRegexAfter anew.forgets
  rw [next_eq_readLexeme keeps, next_eq_readLexeme keepsThere, hint]
  rcases anew.abreast.lexeme_of_leave scanner.allowsRegex with ⟨same, leave⟩ | apart
  · cases trivia : (scanner.lexeme scanner.allowsRegex).kind.isTrivia with
    | true =>
      obtain ⟨remembers, pending⟩ := readLexeme_trivia trivia
      obtain ⟨remembersThere, pendingThere⟩ := readLexeme_trivia (same ▸ trivia)
      refine .inl ⟨trivia, congrArg (·.kind) same, ⟨anew.toBeside.readLexeme same, ?_, ?_⟩, ?_⟩
      · rw [remembersThere, anew.forgets]
      · rw [pending, pendingThere, anew.pending, same, Bool.or_assoc]
      · rw [allowsRegex, remembers, allowsRegex]
    | false =>
      obtain ⟨flag, remembers, settled⟩ := readLexeme_significant trivia
      obtain ⟨flagThere, remembersThere, settledThere⟩ := readLexeme_significant (same ▸ trivia)
      refine .inr (.inl ⟨trivia, anew.located same, leave, ?_,
        ⟨anew.toBeside.readLexeme same, ?_, ?_⟩⟩)
      · rw [flag, flagThere, anew.pending]
      · rw [remembersThere, remembers, same]
      · rw [settled, settledThere]
  · exact .inr (.inr apart)

/-- The significant tokens of a scan, and those of one that has begun anew. They differ in
the first at most, or from an operator on that is taken for a regular expression. -/
inductive Resumed (allowed missed : Bool) : List ToldToken → List ToldToken → Prop where
  | none : Resumed allowed missed [] []
  | alike {token other : ToldToken} {tokens : List ToldToken}
      (located : token.toLocatedToken = other.toLocatedToken)
      (leave : other.kind = .regularExpression → allowed)
      (afterLineBreak : token.afterLineBreak = (missed || other.afterLineBreak)) :
      Resumed allowed missed (token :: tokens) (other :: tokens)
  | apart {token other : ToldToken} {tokens others : List ToldToken}
      (differ : token.kind ≠ other.kind) (regex : other.kind = .regularExpression)
      (refused : allowed = false) : Resumed allowed missed (token :: tokens) (other :: others)

namespace Resumed

variable {allowed missed : Bool} {tokens others : List ToldToken}

theorem located_iff (resumed : Resumed allowed missed tokens others) :
    others.map (·.toLocatedToken) = tokens.map (·.toLocatedToken) ↔
      ∀ first ∈ others.head?, first.kind = .regularExpression → allowed := by
  cases resumed with
  | none => simp
  | alike located leave => simpa [located] using leave
  | @apart token other _ _ differ regex refused =>
    have wrong : other.toLocatedToken ≠ token.toLocatedToken :=
      fun same => differ (congrArg LocatedToken.kind same).symm
    simp [wrong, regex, refused]

theorem eq_iff (resumed : Resumed allowed missed tokens others) :
    others = tokens ↔
      (∀ first ∈ others.head?, first.kind = .regularExpression → allowed) ∧
      (missed → ∀ first ∈ others.head?, first.afterLineBreak) := by
  cases resumed with
  | none => simp
  | @alike token other tokens located leave afterLineBreak =>
    have same : other = token ↔ other.afterLineBreak = (missed || other.afterLineBreak) := by
      cases token
      cases other
      simp_all
    simp only [List.cons.injEq, same, and_true, List.head?_cons, Option.mem_some_iff, forall_eq']
    cases missed with
    | false => simpa using leave
    | true => simpa using fun _ => leave
  | @apart token other _ _ differ regex refused =>
    have wrong : other ≠ token := fun same => differ (congrArg (·.kind) same).symm
    simp [wrong, regex, refused]

end Resumed

theorem Reads.resumed {missed : Bool} (reads : Reads scanner tokens reports final)
    (readsThere : Reads other others otherReports otherFinal)
    (anew : BegunAnew scanner other source initial otherSource otherInitial missed)
    (keeps : scanner.options.skipTrivia = false) :
    Resumed scanner.allowsRegex missed (significant tokens) (significant others) := by
  induction reads generalizing other others otherReports with
  | last ended =>
    rcases anew.next keeps with ⟨trivia, -⟩ | ⟨-, located, -⟩ | ⟨-, -, mark, operator⟩
    · rw [ended] at trivia
      cases trivia
    · have endedThere := (congrArg LocatedToken.kind located).symm.trans ended
      cases readsThere with
      | last =>
        rw [significant_cons_of_endOfFile ended, significant_cons_of_endOfFile endedThere]
        exact .none
      | more unfinished => exact absurd endedThere unfinished
    · rw [ended] at operator
      cases operator
  | @more scanner final tokens reports unfinished later ih =>
    have keepsLater : scanner.next.scanner.options.skipTrivia = false :=
      after_keeps keeps (fun _ => none) 1
    rcases anew.next keeps with ⟨trivia, kind, next, hint⟩ |
      ⟨kept, located, leave, flag, inStep⟩ | ⟨regex, refused, mark, operator⟩
    · cases readsThere with
      | last ended => exact absurd (kind.symm.trans ended) unfinished
      | more _ laterThere =>
        rw [significant_cons_of_trivia trivia, significant_cons_of_trivia (kind ▸ trivia), ← hint]
        exact ih laterThere next keepsLater
    · have kind := congrArg LocatedToken.kind located
      change scanner.next.token.kind = other.next.token.kind at kind
      cases readsThere with
      | last ended => exact absurd (kind.trans ended) unfinished
      | more unfinishedThere laterThere =>
        rw [significant_cons_of_significant kept unfinished,
          significant_cons_of_significant (kind ▸ kept) unfinishedThere,
          significant_congr (later.told laterThere inStep keepsLater)]
        exact .alike located leave flag
    · have kept : scanner.next.token.kind.isTrivia = false := by rw [operator]; rfl
      have keptThere : other.next.token.kind.isTrivia = false := by rw [regex]; rfl
      have differ : scanner.next.token.kind ≠ other.next.token.kind := by
        rw [operator, regex]
        exact TokenKind.noConfusion
      cases readsThere with
      | last ended =>
        rw [regex] at ended
        cases ended
      | more unfinishedThere =>
        rw [significant_cons_of_significant kept unfinished,
          significant_cons_of_significant keptThere unfinishedThere]
        exact .apart differ regex refused

end Scanner

end ScriptSyntax

import ScriptSyntax.Proofs.Scanner.InStep

/-! The line break before a token. A token is told of one just if a line terminator stands
between it and the significant token before it, be it bare or inside a comment; those inside a
string belong to the string. -/
namespace ScriptSyntax

namespace Scanner

variable {scanner : Scanner} {source before between : List Char} {initial : Location}
  {regex : Bool}

/-- The scanner has read `before`, which ends with its last significant token if there is one,
and then the trivia `between`. It remembers if a line ends in them. -/
structure Behind (scanner : Scanner) (source : List Char) (initial : Location)
    (before between : List Char) : Prop where
  read : scanner.HasRead source initial (before ++ between)
  pending : scanner.breakPending = between.any isLineTerminator

theorem behind_resume (options : ScanOptions) (source : List Char) (inComment : Bool)
    (initial : Location) :
    (resume options source inComment initial).Behind source initial [] [] :=
  ⟨hasRead_resume options source inComment initial, rfl⟩

theorem Behind.readLexeme_trivia (behind : scanner.Behind source initial before between)
    (trivia : (scanner.readLexeme regex).token.kind.isTrivia) :
    (scanner.readLexeme regex).scanner.Behind source initial before
      (between ++ (scanner.lexeme regex).text) := by
  have next := (behind.read.readLexeme regex).1
  rw [List.append_assoc] at next
  refine ⟨next, ?_⟩
  rw [(Scanner.readLexeme_trivia trivia).2, behind.pending, breaksLine_of_trivia trivia,
    List.any_append]

/-- Any other token is told of the line break, and none is pending behind it. -/
theorem Behind.readLexeme_significant (behind : scanner.Behind source initial before between)
    (significant : (scanner.readLexeme regex).token.kind.isTrivia = false) :
    (scanner.readLexeme regex).token.afterLineBreak = between.any isLineTerminator ∧
      (scanner.readLexeme regex).scanner.Behind source initial
        (before ++ between ++ (scanner.lexeme regex).text) [] := by
  obtain ⟨told, -, none⟩ := Scanner.readLexeme_significant significant
  refine ⟨told.trans behind.pending, ?_, none⟩
  rw [List.append_nil]
  exact (behind.read.readLexeme regex).1

/-- A call gives trivia, or a token that is told of the line breaks in all that stands between
it and the significant token before it. -/
theorem Behind.scan (behind : scanner.Behind source initial before between) (regex : Bool) :
    ((scanner.scan regex).token.kind.isTrivia = true ∧ ∃ more,
      (scanner.scan regex).scanner.Behind source initial before (between ++ more)) ∨
    ((scanner.scan regex).token.kind.isTrivia = false ∧ ∃ passed text,
      (scanner.scan regex).token.afterLineBreak = (between ++ passed).any isLineTerminator ∧
      (scanner.scan regex).token.span.start =
        initial.index + (before ++ (between ++ passed)).length ∧
      (scanner.scan regex).scanner.Behind source initial
        (before ++ (between ++ passed) ++ text) []) := by
  fun_induction Scanner.scan scanner regex generalizing between
  case case1 scanner step skipped final ih =>
    have next : step.scanner.Behind source initial before _ := behind.readLexeme_trivia skipped.2
    rcases ih next with ⟨trivia, more, later⟩ | ⟨significant, passed, text, told, start, later⟩
    · exact .inl ⟨trivia, _, List.append_assoc .. ▸ later⟩
    · rw [List.append_assoc between] at told start later
      exact .inr ⟨significant, _, text, told, start, later⟩
  case case2 scanner step _ =>
    cases kind : step.token.kind.isTrivia with
    | true => exact .inl ⟨rfl, _, behind.readLexeme_trivia kind⟩
    | false =>
      obtain ⟨told, later⟩ := behind.readLexeme_significant kind
      refine .inr ⟨rfl, [], (scanner.lexeme regex).text, ?_, ?_, ?_⟩
      · rwa [List.append_nil]
      · rw [List.append_nil]
        exact behind.read.position
      · rwa [List.append_nil]

/-- Where the last significant token that the first calls gave ends, or where the scanner began
if they gave none. -/
def significantEnd (scanner : Scanner) (hints : Nat → Option Bool) : Nat → Nat
  | 0 => scanner.position
  | count + 1 =>
    let token := (scanner.callAt hints count).token
    if token.kind.isTrivia then scanner.significantEnd hints count else token.span.stop

theorem Behind.after (begun : scanner.Behind source initial [] []) (hints : Nat → Option Bool)
    (count : Nat) : ∃ before between,
      (scanner.after hints count).Behind source initial before between ∧
      scanner.significantEnd hints count = initial.index + before.length := by
  induction count with
  | zero => exact ⟨[], [], begun, begun.read.position⟩
  | succ count ih =>
    obtain ⟨before, between, behind, ends⟩ := ih
    have step := behind.scan ((hints count).getD (scanner.after hints count).allowsRegex)
    rcases step with ⟨trivia, more, next⟩ | ⟨significant, passed, text, -, -, next⟩
    · exact ⟨before, _, next, (if_pos trivia).trans ends⟩
    · refine ⟨_, [], next, (if_neg (Bool.eq_false_iff.mp significant)).trans ?_⟩
      have stop := next.read.position
      rw [List.append_nil] at stop
      exact stop

end Scanner

open Scanner in
/-- The line break before a token is exact. Whatever the options and the hints, a call that
gives a significant token says that a line break stands before it just if there is a line
terminator between the end of the significant token given last, or the beginning of the chunk
if none was given, and its start. -/
theorem scan_afterLineBreak (options : ScanOptions) (inComment : Bool) (source : List Char)
    (initial : Location) (hints : Nat → Option Bool) (number : Nat)
    (significant : ((resume options source inComment initial).callAt hints
      number).token.kind.isTrivia = false) :
    let scanner := resume options source inComment initial
    let token := (scanner.callAt hints number).token
    let ending := scanner.significantEnd hints number
    initial.index ≤ ending ∧ ending ≤ token.span.start ∧
    (token.afterLineBreak = true ↔
      ∃ c ∈ scanner.sourceText (.detached ending token.span.start .none), isLineTerminator c) := by
  intro scanner token ending
  have begun := behind_resume options source inComment initial
  obtain ⟨before, between, behind, ends⟩ := begun.after hints number
  have step := behind.scan ((hints number).getD (scanner.after hints number).allowsRegex)
  rcases step with ⟨trivia, -⟩ | ⟨-, passed, text, told, begins, next⟩
  · exact absurd trivia (Bool.eq_false_iff.mp significant)
  · have first : ending = initial.index + before.length := ends
    have last : token.span.start = initial.index + before.length + (between ++ passed).length := by
      rw [Nat.add_assoc, ← List.length_append]
      exact begins
    have chunk : scanner.chunk = before ++ (between ++ passed) ++
        (text ++ (scanner.callAt hints number).scanner.rest) := by
      have whole := next.read.whole
      rw [List.append_nil, List.append_assoc] at whole
      exact whole.symm
    have covers : scanner.sourceText (.detached ending token.span.start .none) =
        between ++ passed := sourceText_piece _ chunk rfl first last
    refine ⟨by omega, by omega, ?_⟩
    rw [covers, ← List.any_eq_true]
    exact Bool.eq_iff_iff.mp told

open Scanner in
/-- A line continued in a string, and one that ends in the comment behind it. -/
theorem scan_afterLineBreak_of_comment :
    let source := ['"', '\\', '\n', '"', '/', '*', '\n', '*', '/', 'b']
    let hints := fun _ => some false
    let scanner := resume {} source false .start
    let comment := (scanner.callAt hints 1).token
    let name := (scanner.callAt hints 2).token
    comment.kind = .blockComment ∧ name.kind.isTrivia = false ∧
    scanner.significantEnd hints 2 = 4 ∧ name.span.start = 9 ∧ name.afterLineBreak = true ∧
    ∃ c ∈ scanner.sourceText (.detached 4 9 .none), isLineTerminator c := by
  intro source hints scanner comment name
  have reads (number : Nat) :
      scanner.callAt hints number = (scanner.after hints number).readLexeme false :=
    callAt_eq_readLexeme rfl hints number
  have first : scanner.callAt hints 0 = scanner.readLexeme false := reads 0
  have second : scanner.callAt hints 1 = (scanner.readLexeme false).scanner.readLexeme false := by
    rw [← first]
    exact reads 1
  have third : scanner.callAt hints 2 =
      ((scanner.readLexeme false).scanner.readLexeme false).scanner.readLexeme false := by
    rw [← second]
    exact reads 2
  have kind : comment.kind = .blockComment := by
    change (scanner.callAt hints 1).token.kind = _
    rw [second]
    decide +kernel
  have significant : name.kind.isTrivia = false := by
    change (scanner.callAt hints 2).token.kind.isTrivia = _
    rw [third]
    decide +kernel
  have begins : name.span.start = 9 := by
    change (scanner.callAt hints 2).token.span.start = _
    rw [third]
    decide +kernel
  have told : name.afterLineBreak = true := by
    change (scanner.callAt hints 2).token.afterLineBreak = _
    rw [third]
    decide +kernel
  have ending : scanner.significantEnd hints 2 = 4 := by
    rw [significantEnd, significantEnd, second, first]
    decide +kernel
  obtain ⟨-, -, told_iff⟩ := scan_afterLineBreak {} false source .start hints 2 significant
  have breaks := told_iff.mp told
  rw [ending, begins] at breaks
  exact ⟨kind, significant, ending, begins, told, breaks⟩

end ScriptSyntax

import ScriptSyntax.Proofs.Lexeme.Flaws

/-! What is wrong with a lexeme as a whole: no more than one thing, and only what can be wrong
with its kind. All else that is wrong lies in its escapes or its octal digits. -/
namespace ScriptSyntax

/-- The kind of token that a problem spoils as a whole. -/
def ProblemKind.spoils? : ProblemKind → Option TokenKind
  | illegalCharacter => some .error
  | unterminatedString => some .stringLiteral
  | unterminatedComment => some .blockComment
  | badNumeral => some .numeral
  | badHexEscape | octalDeprecated => none

/-- What is wrong with an escape spoils no token. -/
theorem Escape.read_spoils (text : List Char) :
    (read text).problem.bind ProblemKind.spoils? = none := by
  unfold read ofHex ofOctal
  dsimp only
  repeat' split
  all_goals rfl

theorem stringBody_spoils (quote : Char) (offset : Nat) (text : List Char) :
    ∀ flaw ∈ (stringBody quote offset text).flaws, flaw.problem.spoils? = none := by
  fun_induction stringBody quote offset text with
  | case1 | case2 | case3 => simp [Body.cut, Body.close]
  | case4 offset c rest _ _ backslash escape stop ih =>
    intro flaw member
    rcases List.mem_append.mp member with own | later
    · obtain ⟨problem, found, rfl⟩ := List.mem_map.mp own
      exact Option.bind_eq_none_iff.mp (Escape.read_spoils rest) problem
        (Option.mem_toList.mp found)
    · exact ih flaw later
  | case5 offset c rest _ _ _ ih => exact ih

namespace Lexeme

/-- As a whole the lexeme is spoiled by `fault` alone, in all its text. An error is one illegal
character, and a comment is left open just if it is unterminated. -/
structure SpoiledBy (lexeme : Lexeme) (fault : Option ProblemKind) : Prop where
  suits : ∀ problem ∈ fault, problem.spoils? = some lexeme.kind
  alone : lexeme.flaws.filter (·.problem.spoils?.isSome) =
    fault.toList.map (⟨·, 0, lexeme.text.length⟩)
  error : lexeme.kind = .error → fault = some .illegalCharacter ∧ lexeme.text.length = 1
  open_ : lexeme.endsInComment = true ↔ fault = some .unterminatedComment

/-- What spoils a lexeme is told once, with all its text. -/
theorem SpoiledBy.filter_eq {lexeme : Lexeme} {fault : Option ProblemKind}
    (spoiled : lexeme.SpoiledBy fault) {problem : ProblemKind} (whole : problem.spoils?.isSome) :
    lexeme.flaws.filter (·.problem = problem) =
      if fault = some problem then [⟨problem, 0, lexeme.text.length⟩] else [] := by
  have narrower : lexeme.flaws.filter (·.problem = problem) =
      (lexeme.flaws.filter (·.problem.spoils?.isSome)).filter (·.problem = problem) := by
    rw [List.filter_filter]
    refine List.filter_congr fun flaw _ => ?_
    by_cases same : flaw.problem = problem <;> simp [same, whole]
  rw [narrower, spoiled.alone]
  cases fault with
  | none => rfl
  | some other => by_cases same : other = problem <;> simp [same]

theorem SpoiledBy.of_none {lexeme : Lexeme} (none : lexeme.flaws = [])
    (noError : lexeme.kind ≠ .error) (closed : lexeme.endsInComment = false) :
    lexeme.SpoiledBy .none :=
  ⟨by simp, by simp [none], fun error => absurd error noError, by simp [closed]⟩

end Lexeme

end ScriptSyntax

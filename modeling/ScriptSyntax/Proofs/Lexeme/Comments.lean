import ScriptSyntax.Lexeme.Trivia
import Mathlib.Data.List.Basic

/-! A block comment that is cut in its body goes on where it was cut, as long as the mark
that closes it stays whole. -/
namespace ScriptSyntax

/-- A cut between the two characters that close a comment. -/
def CutsClosing (body tail : List Char) : Prop :=
  body.getLast? = some '*' ∧ tail.head? = some '/'

instance (body tail : List Char) : Decidable (CutsClosing body tail) :=
  inferInstanceAs (Decidable (_ ∧ _))

theorem CutsClosing.of_cons {c : Char} {body tail : List Char} (cut : CutsClosing body tail) :
    CutsClosing (c :: body) tail :=
  ⟨by rw [List.getLast?_cons, cut.1, Option.getD_some], cut.2⟩

/-- A body takes `before`, then what another takes, and ends as that does. -/
structure Body.Extends (body later : Body) (before : List Char) : Prop where
  text : body.text = before ++ later.text
  rest : body.rest = later.rest
  isClosed : body.isClosed = later.isClosed

namespace Body.Extends

variable {body middle later : Body} {before between : List Char}

theorem trans (first : body.Extends middle before) (second : middle.Extends later between) :
    body.Extends later (before ++ between) where
  text := by rw [first.text, second.text, List.append_assoc]
  rest := first.rest.trans second.rest
  isClosed := first.isClosed.trans second.isClosed

theorem after (inner : body.Extends later before) (text value : List Char) (breaks : List Nat)
    (flaws : List Flaw) : (body.after text value breaks flaws).Extends later (text ++ before) where
  text := by rw [Body.after, inner.text, List.append_assoc]
  rest := inner.rest
  isClosed := inner.isClosed

/-- Bodies that take the same still do behind the same characters. -/
theorem alike_after (inner : body.Extends later []) (text : List Char)
    {value otherValue : List Char} {breaks otherBreaks : List Nat} {flaws otherFlaws : List Flaw} :
    (body.after text value breaks flaws).Extends
      (later.after text otherValue otherBreaks otherFlaws) [] where
  text := congrArg (text ++ ·) inner.text
  rest := inner.rest
  isClosed := inner.isClosed

end Body.Extends

/-- The offset of a comment does not matter to what it takes. -/
theorem commentBody_offset (offset other : Nat) (text : List Char) :
    (commentBody offset text).Extends (commentBody other text) [] := by
  fun_induction commentBody offset text generalizing other with
  | case1 | case2 => exact ⟨rfl, rfl, rfl⟩
  | case3 offset rest ih => exact (ih (other + 2)).alike_after ['\r', '\n']
  | case4 offset c rest open_ whole ih =>
    rw [commentBody.eq_4 other c rest open_ whole]
    exact (ih (other + 1)).alike_after [c]

/-- A comment takes one character after another, up to the closing mark. -/
theorem commentBody_cons {c : Char} {rest : List Char} (whole : ¬ CutsClosing [c] rest)
    (offset other : Nat) :
    (commentBody offset (c :: rest)).Extends (commentBody other rest) [c] := by
  rw [commentBody.eq_def]
  split
  · simp_all
  · next same =>
    obtain ⟨rfl, rfl⟩ := List.cons.inj same
    exact absurd ⟨rfl, rfl⟩ whole
  · next behind same =>
    -- the line feed after the carriage return alone is a character of its own
    obtain ⟨rfl, rfl⟩ := List.cons.inj same
    rw [commentBody.eq_4 other '\n' behind (by simp) (by simp)]
    have inner := commentBody_offset (offset + 2) (other + 1) behind
    exact ⟨congrArg (['\r', '\n'] ++ ·) inner.text, inner.rest, inner.isClosed⟩
  · next same =>
    obtain ⟨rfl, rfl⟩ := List.cons.inj same
    exact (commentBody_offset _ other _).after [c] [] _ []

theorem commentBody_extends {offset : Nat} {body tail : List Char}
    (open_ : (commentBody offset body).isClosed = false) (whole : ¬ CutsClosing body tail)
    (other : Nat) : (commentBody offset (body ++ tail)).Extends (commentBody other tail) body := by
  induction body with
  | nil => exact commentBody_offset offset other tail
  | cons c body ih =>
    have inside : ¬ CutsClosing [c] body := by
      rintro ⟨star, slash⟩
      obtain ⟨after, rfl⟩ := List.head?_eq_some_iff.mp slash
      obtain rfl : c = '*' := by simpa using star
      cases open_
    have across : ¬ CutsClosing [c] (body ++ tail) := by
      cases body with
      | nil => exact whole
      | cons d body => exact inside
    have later := (commentBody_cons inside offset offset).isClosed
    exact (commentBody_cons across offset offset).trans
      (ih (later ▸ open_) fun cut => whole cut.of_cons)

end ScriptSyntax

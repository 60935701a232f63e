import ScriptSyntax.Lexeme.Basic

/-! Operators and punctuation, the longest that fits. -/
namespace ScriptSyntax

namespace Punctuator

/-- One mark if an equals sign comes next, another if not. -/
def withEqual (rest : List Char) (assigning plain : Punctuator) : Punctuator :=
  if rest.head? == some '=' then assigning else plain

/-- The mark at the head of a text. Marks that begin alike are told apart by what
follows, one character at a time. -/
def ofText? : List Char → Option Punctuator
  | [] => none
  | c :: rest =>
    match c with
    | '\x7b' => some leftCurly
    | '\x7d' => some rightCurly
    | '(' => some leftParenthesis
    | ')' => some rightParenthesis
    | '[' => some leftBracket
    | ']' => some rightBracket
    | ';' => some semicolon
    | ',' => some comma
    | '.' => some accessField
    | '?' => some conditionalIf
    | ':' => some colon
    | '~' => some bitwiseNot
    | '=' => some <| match rest with
      | '=' :: rest => withEqual rest strictEqual equal
      | _ => assign
    | '!' => some <| match rest with
      | '=' :: rest => withEqual rest strictNotEqual notEqual
      | _ => logicalNot
    | '+' => some <| match rest with
      | '+' :: _ => increment
      | _ => withEqual rest plusAssign plus
    | '-' => some <| match rest with
      | '-' :: _ => decrement
      | _ => withEqual rest minusAssign minus
    | '*' => some (withEqual rest multiplyAssign multiply)
    | '/' => some (withEqual rest divideAssign divide)
    | '%' => some (withEqual rest moduloAssign modulo)
    | '^' => some (withEqual rest bitwiseXorAssign bitwiseXor)
    | '&' => some <| match rest with
      | '&' :: _ => logicalAnd
      | _ => withEqual rest bitwiseAndAssign bitwiseAnd
    | '|' => some <| match rest with
      | '|' :: _ => logicalOr
      | _ => withEqual rest bitwiseOrAssign bitwiseOr
    | '<' => some <| match rest with
      | '<' :: rest => withEqual rest leftShiftAssign leftShift
      | _ => withEqual rest lessThanEqual lessThan
    | '>' => some <| match rest with
      | '>' :: '>' :: rest => withEqual rest unsignedRightShiftAssign unsignedRightShift
      | '>' :: rest => withEqual rest rightShiftAssign rightShift
      | _ => withEqual rest greaterThanEqual greaterThan
    | _ => none

end Punctuator

/-- The operator or punctuation mark at the head; any other character is illegal. -/
def Lexeme.mark (text : List Char) : Lexeme × List Char :=
  match Punctuator.ofText? text with
  | some mark => ofLength (.punctuator mark) mark.spelling.length text
  | none => illegal text

/-- One mark or the other, a text begins with its spelling. -/
private theorem Punctuator.withEqual_spelling (start : List Char) {rest : List Char}
    {assigning plain : Punctuator} (long : assigning.spelling.toList = start ++ ['='])
    (short : plain.spelling.toList = start) :
    (withEqual rest assigning plain).spelling.toList <+: start ++ rest := by
  unfold withEqual
  split
  · next equals =>
    obtain ⟨after, rfl⟩ := List.head?_eq_some_iff.mp (beq_iff_eq.mp equals)
    simp [long]
  · simp [short]

theorem Punctuator.spelling_isPrefix {text : List Char} {mark : Punctuator}
    (found : ofText? text = some mark) : mark.spelling.toList <+: text := by
  unfold ofText? at found
  split at found
  · simp at found
  · next c rest =>
    split at found <;> cases found
    all_goals try split
    all_goals first
      | exact ⟨_, rfl⟩
      | exact withEqual_spelling [_] rfl rfl
      | exact withEqual_spelling [_, _] rfl rfl
      | exact withEqual_spelling [_, _, _] rfl rfl

theorem Punctuator.spelling_length_pos (mark : Punctuator) : 0 < mark.spelling.length := by
  cases mark <;> decide

theorem Lexeme.mark_text_ne_nil (c : Char) (rest : List Char) : (mark (c :: rest)).1.text ≠ [] := by
  unfold mark
  split
  · next mark _ =>
    have positive := mark.spelling_length_pos
    simp only [ofLength, ne_eq, List.take_eq_nil_iff, reduceCtorEq, or_false]
    omega
  · simp [illegal]

@[simp] theorem Lexeme.mark_append (text : List Char) :
    (mark text).1.text ++ (mark text).2 = text := by
  unfold mark
  split <;> simp

end ScriptSyntax

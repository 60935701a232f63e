import ScriptSyntax.Lexeme.Escape

/-! String literals. -/
namespace ScriptSyntax

/-- The inside of a string up to its closing quote. A line terminator or the end of
input cuts it off; the terminator is left for the next token. -/
def stringBody (quote : Char) (offset : Nat) : List Char → Body
  | [] => .cut []
  | c :: rest =>
    if c == quote then .close [c] rest
    else if isLineTerminator c then .cut (c :: rest)
    else if c == '\\' then
      let escape := Escape.read rest
      let stop := offset + 1 + escape.width
      (stringBody quote stop (rest.drop escape.width)).after
        (c :: rest.take escape.width) escape.value
        (if escape.breaksLine then [stop] else [])
        (escape.problem.toList.map fun problem => ⟨problem, offset, stop⟩)
    else (stringBody quote (offset + 1) rest).after [c] [c] [] []
  termination_by text => text.length
  decreasing_by
    · simp only [List.length_drop, List.length_cons]; omega
    · simp

@[simp] theorem stringBody_append (quote : Char) (offset : Nat) (text : List Char) :
    (stringBody quote offset text).text ++ (stringBody quote offset text).rest = text := by
  fun_induction stringBody quote offset text <;> simp_all

/-- A string whose opening quote is already read. -/
def Lexeme.stringLiteral (quote : Char) (text : List Char) : Lexeme × List Char :=
  let body := stringBody quote 1 text
  let taken := quote :: body.text
  ({ kind := .stringLiteral
     text := taken
     value := body.value
     breaks := body.breaks
     flaws := body.flaws ++
       if body.isClosed then [] else [⟨.unterminatedString, 0, taken.length⟩] },
   body.rest)

@[simp] theorem Lexeme.stringLiteral_append (quote : Char) (text : List Char) :
    (stringLiteral quote text).1.text ++ (stringLiteral quote text).2 = quote :: text := by
  simp [stringLiteral]

end ScriptSyntax

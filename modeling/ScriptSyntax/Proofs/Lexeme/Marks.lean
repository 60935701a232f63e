import ScriptSyntax.Lexeme.Mark

/-! The longest mark. What is read as a mark is the longest that the text begins with, and what
is illegal begins with none. -/
namespace ScriptSyntax

namespace Punctuator

/-- The longest mark that the text begins with. -/
structure IsLongest (mark : Punctuator) (text : List Char) : Prop where
  isPrefix : mark.spelling.toList <+: text
  longest : ∀ other : Punctuator, other.spelling.toList <+: text →
    other.spelling.length ≤ mark.spelling.length

/-- Where a text begins with a mark, that mark is read or a longer one. -/
theorem exists_longer (mark : Punctuator) (more : List Char) :
    ∃ found, ofText? (mark.spelling.toList ++ more) = some found ∧
      mark.spelling.length ≤ found.spelling.length := by
  obtain ⟨spelled, spells⟩ : ∃ spelled, mark.spelling.toList = spelled := ⟨_, rfl⟩
  rw [spells]
  cases mark
  all_goals
    simp only [spelling, String.reduceToList] at spells
    subst spells
    simp only [List.cons_append, List.nil_append]
    -- the mark is known as far as its own characters tell; what follows decides the rest
    refine ⟨_, rfl, ?_⟩
    try unfold withEqual
    try simp only [List.head?_cons, beq_self_eq_true, if_true]
    repeat' split
    all_goals first | decide | grind

theorem isLongest_of_found {text : List Char} {mark : Punctuator}
    (found : ofText? text = some mark) : mark.IsLongest text := by
  refine ⟨spelling_isPrefix found, ?_⟩
  rintro other ⟨more, rfl⟩
  obtain ⟨longer, again, length⟩ := other.exists_longer more
  obtain rfl : longer = mark := Option.some.inj (again.symm.trans found)
  exact length

theorem not_isPrefix_of_none {text : List Char} (none : ofText? text = none)
    (mark : Punctuator) : ¬ mark.spelling.toList <+: text := by
  rintro ⟨more, rfl⟩
  obtain ⟨found, some, -⟩ := mark.exists_longer more
  rw [none] at some
  cases some

end Punctuator

end ScriptSyntax

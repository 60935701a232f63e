import ScriptSyntax.Proofs.Lexeme.Lookahead
import ScriptSyntax.Proofs.Lexeme.Slashes

/-! Where a pattern closes. A slash closes a pattern just if it stands bare, outside classes,
with no line terminator before it; the first such slash does. -/
namespace ScriptSyntax

/-- The text behind the slash that opens a pattern in units: a backslash with the character
after it, unless that is a line terminator, or any other character. -/
def patternUnits : List Char → List (List Char)
  | [] => []
  | '\\' :: c :: rest =>
    if isLineTerminator c then ['\\'] :: [c] :: patternUnits rest
    else ['\\', c] :: patternUnits rest
  | c :: rest => [c] :: patternUnits rest

/-- A class is open behind some units: a bare bracket opened one among them, or `inClass`
says that one was open before, and no bare bracket has closed it since. -/
def ClassOpen (inClass : Bool) (units : List (List Char)) : Prop :=
  (∃ before inside, units = before ++ ['['] :: inside ∧ [']'] ∉ inside) ∨
    inClass = true ∧ [']'] ∉ units

/-- The slash between `before` and `after` can close the pattern in `text`. -/
structure ClosesPattern (inClass : Bool) (text : List Char) (before after : List (List Char)) :
    Prop where
  units : patternUnits text = before ++ ['/'] :: after
  outside : ¬ ClassOpen inClass before
  plain : Plain before.flatten

/-- It is the first slash that can. -/
structure ClosesFirst (inClass : Bool) (text : List Char) (before after : List (List Char)) :
    Prop extends ClosesPattern inClass text before after where
  first : ∀ earlier later, ClosesPattern inClass text earlier later →
    before.length ≤ earlier.length

variable {inClass : Bool} {text rest pattern unit : List Char}
  {before after units : List (List Char)}

theorem patternUnits_escaped {c : Char} (plain : isLineTerminator c = false) (rest : List Char) :
    patternUnits ('\\' :: c :: rest) = ['\\', c] :: patternUnits rest := by
  simp [patternUnits, plain]

theorem patternUnits_cons {c : Char} (literal : c ≠ '\\') (rest : List Char) :
    patternUnits (c :: rest) = [c] :: patternUnits rest := by
  apply patternUnits.eq_3
  rintro _ _ same -
  exact literal same

/-- A line terminator is a unit of its own. -/
theorem patternUnits_break {c : Char} (terminator : isLineTerminator c) (rest : List Char) :
    patternUnits (c :: rest) = [c] :: patternUnits rest := by
  apply patternUnits_cons
  rintro rfl
  cases terminator

theorem patternUnits_bare {c : Char} (terminator : isLineTerminator c) (rest : List Char) :
    patternUnits ('\\' :: c :: rest) = ['\\'] :: patternUnits (c :: rest) := by
  rw [patternUnits_break terminator, patternUnits, if_pos terminator]

/-- Nothing is lost when a text is taken apart. -/
theorem patternUnits_flatten (text : List Char) : (patternUnits text).flatten = text := by
  fun_induction patternUnits text <;> simp_all

/-- Whether a class is open behind one more unit. -/
def classBehind (inClass : Bool) (unit : List Char) : Bool :=
  if unit = ['['] then true else if unit = [']'] then false else inClass

theorem classBehind_singleton (inClass : Bool) (c : Char) :
    classBehind inClass [c] = if c == '[' then true else if c == ']' then false else inClass := by
  simp [classBehind]

theorem classOpen_nil : ClassOpen inClass [] ↔ inClass = true := by
  simp [ClassOpen]

theorem classOpen_cons :
    ClassOpen inClass (unit :: units) ↔ ClassOpen (classBehind inClass unit) units := by
  have opened : (∃ before inside, unit :: units = before ++ ['['] :: inside ∧ [']'] ∉ inside) ↔
      (unit = ['['] ∧ [']'] ∉ units) ∨
        ∃ before inside, units = before ++ ['['] :: inside ∧ [']'] ∉ inside := by
    constructor
    · rintro ⟨before, inside, split, open_⟩
      cases before with
      | nil =>
        obtain ⟨rfl, rfl⟩ := List.cons.inj split
        exact .inl ⟨rfl, open_⟩
      | cons first before =>
        exact .inr ⟨before, inside, (List.cons.inj split).2, open_⟩
    · rintro (⟨rfl, open_⟩ | ⟨before, inside, rfl, open_⟩)
      · exact ⟨[], units, rfl, open_⟩
      · exact ⟨unit :: before, inside, rfl, open_⟩
  rw [ClassOpen, ClassOpen, opened, classBehind]
  by_cases opens : unit = ['[']
  · subst opens
    by_cases closed : [']'] ∈ units
    · simp [closed]
    · simp [closed]
  by_cases closes : unit = [']']
  · subst closes
    simp
  · have other : [']'] ≠ unit := fun same => closes same.symm
    simp [opens, closes, other]

namespace ClosesPattern

/-- No slash closes a pattern on the far side of a line terminator. -/
theorem not_of_break {c : Char} (terminator : isLineTerminator c) (rest : List Char) :
    ¬ ClosesPattern inClass (c :: rest) before after := by
  rintro ⟨split, -, plain⟩
  rw [patternUnits_break terminator] at split
  cases before with
  | nil =>
    obtain rfl : c = '/' := by simpa using (List.cons.inj split).1
    cases terminator
  | cons first before =>
    obtain ⟨rfl, -⟩ := List.cons.inj split
    have free := plain c (by simp)
    rw [terminator] at free
    cases free

/-- A unit that closes nothing is one before the slash. -/
theorem cons_iff (begins : patternUnits text = unit :: patternUnits rest) (plain : Plain unit)
    (open_ : unit = ['/'] → inClass = true) :
    ClosesPattern inClass text before after ↔
      ∃ inner, before = unit :: inner ∧
        ClosesPattern (classBehind inClass unit) rest inner after := by
  constructor
  · rintro ⟨split, outside, free⟩
    rw [begins] at split
    cases before with
    | nil => exact absurd (classOpen_nil.mpr (open_ (List.cons.inj split).1)) outside
    | cons first inner =>
      obtain ⟨rfl, later⟩ := List.cons.inj split
      rw [classOpen_cons] at outside
      exact ⟨inner, rfl, later, outside, fun c member => free c (List.mem_append_right _ member)⟩
  · rintro ⟨inner, rfl, later, outside, free⟩
    refine ⟨?_, ?_, .append plain free⟩
    · rw [begins, later]
      rfl
    · rwa [classOpen_cons]

end ClosesPattern

theorem ClosesFirst.cons {inner : List (List Char)}
    (begins : patternUnits text = unit :: patternUnits rest) (plain : Plain unit)
    (open_ : unit = ['/'] → inClass = true)
    (closes : ClosesFirst (classBehind inClass unit) rest inner after) :
    ClosesFirst inClass text (unit :: inner) after where
  toClosesPattern := (ClosesPattern.cons_iff begins plain open_).mpr
    ⟨inner, rfl, closes.toClosesPattern⟩
  first earlier later other := by
    obtain ⟨others, rfl, behind⟩ := (ClosesPattern.cons_iff begins plain open_).mp other
    exact Nat.succ_le_succ (closes.first others later behind)

/-- A text that does not begin with the slash has something before it. -/
theorem ClosesPattern.nonempty (closes : ClosesPattern inClass text before after)
    (other : text.head? ≠ some '/') : before.flatten ≠ [] := by
  intro empty
  have whole := patternUnits_flatten text
  rw [closes.units, List.flatten_append, empty] at whole
  exact other (whole ▸ rfl)

/-- Only one slash is the first. -/
theorem ClosesFirst.unique {others later : List (List Char)}
    (closes : ClosesFirst inClass text before after)
    (other : ClosesFirst inClass text others later) : before = others ∧ after = later := by
  have same := closes.units.symm.trans other.units
  have length := Nat.le_antisymm (closes.first _ _ other.toClosesPattern)
    (other.first _ _ closes.toClosesPattern)
  obtain ⟨rfl, behind⟩ := List.append_inj same length
  exact ⟨rfl, (List.cons.inj behind).2⟩

/-- A pattern that is found goes up to the first slash that can close it. -/
theorem patternBody?_closes (found : patternBody? inClass text = some (pattern, rest)) :
    ∃ before after, ClosesFirst inClass text before after ∧ before.flatten = pattern ∧
      after.flatten = rest := by
  fun_induction patternBody? inClass text generalizing pattern rest with
  | case1 | case2 | case3 | case4 => cases found
  | case5 inClass c plain backslash next later plainNext ih =>
    obtain ⟨⟨inner, left⟩, matched, same⟩ := Option.map_eq_some_iff.mp found
    obtain ⟨rfl, rfl⟩ := Prod.mk.inj same
    obtain ⟨before, after, closes, rfl, rfl⟩ := ih matched
    obtain rfl := beq_iff_eq.mp backslash
    have unbroken := Bool.eq_false_iff.mpr plainNext
    exact ⟨['\\', next] :: before, after,
      .cons (patternUnits_escaped unbroken later)
        (.cons (by decide) (.cons unbroken .nil)) (by simp) closes, rfl, rfl⟩
  | case6 inClass c later plain literal closes =>
    obtain ⟨rfl, rfl⟩ := Prod.mk.inj (Option.some.inj found)
    obtain ⟨slash, outside⟩ := Bool.and_eq_true_iff.mp closes
    obtain rfl := beq_iff_eq.mp slash
    refine ⟨[], patternUnits later, ⟨⟨?_, ?_, .nil⟩, fun _ _ _ => Nat.zero_le _⟩, rfl,
      patternUnits_flatten later⟩
    · exact patternUnits_cons (by decide) later
    · rw [classOpen_nil]
      simpa using outside
  | case7 inClass c later =>
    rename_i plain literal open_ behind ih
    obtain ⟨⟨inner, left⟩, matched, same⟩ := Option.map_eq_some_iff.mp found
    obtain ⟨rfl, rfl⟩ := Prod.mk.inj same
    obtain ⟨before, after, closes, rfl, rfl⟩ := ih matched
    exact ⟨[c] :: before, after, .cons (patternUnits_cons (by simpa using literal) later)
      (.cons (by simpa using plain) .nil) (by simpa using open_)
      (classBehind_singleton inClass c ▸ closes), rfl, rfl⟩

/-- Where some slash can close a pattern, one is found. -/
theorem patternBody?_isSome (closes : ClosesPattern inClass text before after) :
    (patternBody? inClass text).isSome := by
  fun_induction patternBody? inClass text generalizing before after with
  | case1 inClass => exact absurd closes.units (by simp [patternUnits])
  | case2 inClass c later terminator =>
    exact absurd closes (ClosesPattern.not_of_break terminator later)
  | case3 inClass c plain backslash =>
    obtain rfl := beq_iff_eq.mp backslash
    have begins : patternUnits ['\\'] = ['\\'] :: patternUnits [] := rfl
    obtain ⟨inner, -, behind⟩ := (ClosesPattern.cons_iff begins
      (.cons (by decide) .nil) (by simp)).mp closes
    exact absurd behind.units (by simp [patternUnits])
  | case4 inClass c plain backslash next later terminator =>
    obtain rfl := beq_iff_eq.mp backslash
    obtain ⟨inner, -, behind⟩ := (ClosesPattern.cons_iff (patternUnits_bare terminator later)
      (.cons (by decide) .nil) (by simp)).mp closes
    exact absurd behind (ClosesPattern.not_of_break terminator later)
  | case5 inClass c plain backslash next later plainNext ih =>
    obtain rfl := beq_iff_eq.mp backslash
    have unbroken := Bool.eq_false_iff.mpr plainNext
    obtain ⟨inner, -, behind⟩ := (ClosesPattern.cons_iff (patternUnits_escaped unbroken later)
      (.cons (by decide) (.cons unbroken .nil)) (by simp)).mp closes
    rw [Option.isSome_map]
    exact ih behind
  | case6 => rfl
  | case7 inClass c later =>
    rename_i plain literal open_ behind ih
    obtain ⟨inner, -, others⟩ := (ClosesPattern.cons_iff
      (patternUnits_cons (by simpa using literal) later) (.cons (by simpa using plain) .nil)
      (by simpa using open_)).mp closes
    rw [Option.isSome_map]
    exact ih (classBehind_singleton inClass c ▸ others)

namespace Lexeme

variable {found : Lexeme × List Char}

/-- A regular expression is the pattern up to the first slash that can close it, and the
run of identifier characters behind that slash. -/
theorem regularExpression?_closes (reads : regularExpression? text = some found) :
    ∃ before after, ClosesFirst false text before after ∧
      let pattern := before.flatten
      let flags := after.flatten.takeWhile isIdentifierPart
      found.1 = {
        kind := .regularExpression
        text := '/' :: pattern ++ '/' :: flags
        value := pattern
        flags := some flags } := by
  obtain ⟨⟨pattern, rest⟩, body, rfl⟩ := Option.map_eq_some_iff.mp reads
  obtain ⟨before, after, closes, rfl, rfl⟩ := patternBody?_closes body
  exact ⟨before, after, closes, rfl⟩

theorem mark_isTrivia (text : List Char) : (mark text).1.kind.isTrivia = false := by
  unfold mark
  split <;> rfl

/-- Where a regular expression may stand, a slash that begins no comment begins one, if
the text behind it has a slash to close it. -/
theorem slash_of_leave (noLine : text.head? ≠ some '/') (noBlock : text.head? ≠ some '*') :
    slash true text = (regularExpression? text).getD (mark ('/' :: text)) := by
  cases text with
  | nil => rfl
  | cons d rest =>
    have operator : slash true (d :: rest) = _ :=
      slash_of_operator (by simpa using noLine) (by simpa using noBlock) true rest
    exact operator

end Lexeme

end ScriptSyntax

import ScriptSyntax.Proofs.Lexeme.Comments
import ScriptSyntax.Proofs.Scanner.Lookahead

/-! Scanners that stand at one place of a document before the same text, and have come there
in different ways. They go on alike. One way to get there is over a block comment that the
other begins inside. -/
namespace ScriptSyntax

open LineTable

/-- A token and what continues it in a later chunk, as one token. -/
def LocatedToken.upTo (token later : LocatedToken) : LocatedToken :=
  { token with stop := later.stop, text := token.text ++ later.text }

namespace Lexeme

variable {mode : LexMode} {text : List Char}

/-- Inside a comment nothing is taken but what belongs to the comment. The end of input
leaves it open. -/
structure Inside (found : Lexeme × List Char) (body : Body) : Prop where
  text : found.1.text = body.text
  rest : found.2 = body.rest
  endsInComment : found.1.endsInComment = !body.isClosed
  flaws : ∀ flaw ∈ found.1.flaws, flaw.problem = .unterminatedComment

theorem blockComment_flaws (opening text : List Char) :
    ∀ flaw ∈ (blockComment opening text).1.flaws, flaw.problem = .unterminatedComment := by
  intro flaw member
  simp only [blockComment] at member
  split at member
  · cases member
  · rw [List.mem_singleton.mp member]

theorem read_inside (inside : mode.inComment = true) (text : List Char) :
    Inside (read mode text) (commentBody 0 text) := by
  cases text with
  | nil => exact ⟨rfl, rfl, inside, by simp [read]⟩
  | cons c rest =>
    rw [read_of_inComment inside]
    exact ⟨rfl, rfl, rfl, blockComment_flaws [] (c :: rest)⟩

/-- Where a comment begins it is read to where it closes. -/
theorem read_opening (outside : mode.inComment = false) (body : List Char) :
    read mode ('/' :: '*' :: body) = blockComment ['/', '*'] body := by
  rw [read_of_slash outside]
  rfl

end Lexeme

namespace Scanner

/-- Hints of which none is left out. -/
def given (hints : Nat → Bool) (number : Nat) : Option Bool := some (hints number)

theorem after_given (scanner : Scanner) (hints : Nat → Bool) (count further : Nat) :
    (scanner.after (given hints) count).after (given fun number => hints (count + number)) further =
      scanner.after (given hints) (count + further) :=
  (after_add scanner (given hints) count further).symm

/-- Two scanners before the same text, at the same place of a document. Other than these
things the text ahead depends on nothing. -/
structure Abreast (scanner other : Scanner) : Prop where
  options : other.options = scanner.options
  rest : other.rest = scanner.rest
  position : other.position = scanner.position
  inComment : other.inComment = scanner.inComment

variable {scanner other : Scanner} {source taken otherSource otherTaken : List Char}
  {initial otherInitial : Location} {regex otherRegex : Bool}

namespace Abreast

theorem lexMode (abreast : Abreast scanner other) (regex : Bool) :
    other.lexMode regex = scanner.lexMode regex := by
  rw [Scanner.lexMode, Scanner.lexMode, abreast.options, abreast.inComment]

theorem lexeme (abreast : Abreast scanner other) (regex : Bool) :
    other.lexeme regex = scanner.lexeme regex := by
  rw [Scanner.lexeme, Scanner.lexeme, abreast.lexMode, abreast.rest]

/-- Scanners that are abreast and read the same stay abreast. -/
theorem readLexeme (abreast : Abreast scanner other)
    (same : other.lexeme otherRegex = scanner.lexeme regex) :
    Abreast (scanner.readLexeme regex).scanner (other.readLexeme otherRegex).scanner where
  options := abreast.options
  rest := by
    have here := readLexeme_append scanner regex
    have there := readLexeme_append other otherRegex
    rw [same, abreast.rest, ← here] at there
    exact List.append_cancel_left there
  position := congrArg₂ (· + ·) abreast.position (congrArg (·.text.length) same)
  inComment := congrArg (·.endsInComment) same

end Abreast

/-- Scanners abreast, of two documents that place what lies ahead alike. -/
structure Beside (scanner other : Scanner) (source : List Char) (initial : Location)
    (otherSource : List Char) (otherInitial : Location) : Prop where
  abreast : Abreast scanner other
  read : ∃ taken, scanner.HasRead source initial taken
  readThere : ∃ taken, other.HasRead otherSource otherInitial taken
  agree : ∀ index ≥ scanner.position,
    (ofText otherSource otherInitial).locate index = (ofText source initial).locate index

namespace Beside

/-- If they read the same, they go on beside each other. -/
theorem readLexeme (beside : Beside scanner other source initial otherSource otherInitial)
    (same : other.lexeme otherRegex = scanner.lexeme regex) :
    Beside (scanner.readLexeme regex).scanner (other.readLexeme otherRegex).scanner
      source initial otherSource otherInitial where
  abreast := beside.abreast.readLexeme same
  read := by
    obtain ⟨taken, read⟩ := beside.read
    exact ⟨_, (read.readLexeme regex).1⟩
  readThere := by
    obtain ⟨taken, read⟩ := beside.readThere
    exact ⟨_, (read.readLexeme otherRegex).1⟩
  agree index past := beside.agree index (Nat.le_trans (Nat.le_add_right _ _) past)

theorem located (beside : Beside scanner other source initial otherSource otherInitial)
    (same : other.lexeme otherRegex = scanner.lexeme regex) :
    (scanner.readLexeme regex).token.located = (other.readLexeme otherRegex).token.located := by
  obtain ⟨taken, read⟩ := beside.read
  obtain ⟨otherTaken, readThere⟩ := beside.readThere
  rw [readThere.readLexeme_located, read.readLexeme_located, same, beside.abreast.position,
    Lexeme.locatedIn_congr _ beside.agree]

theorem diagnosed (beside : Beside scanner other source initial otherSource otherInitial)
    (same : other.lexeme otherRegex = scanner.lexeme regex) (log : DiagnosticLog) :
    (scanner.readLexeme regex).reports.map log.resolve =
      (other.readLexeme otherRegex).reports.map log.resolve := by
  obtain ⟨taken, read⟩ := beside.read
  obtain ⟨otherTaken, readThere⟩ := beside.readThere
  rw [readThere.readLexeme_diagnosed, read.readLexeme_diagnosed, same, beside.abreast.position,
    Lexeme.diagnosedIn_congr _ log beside.agree]

/-- With the same hint a call gives the same. -/
theorem call (beside : Beside scanner other source initial otherSource otherInitial)
    (keeps : scanner.options.skipTrivia = false) (regex : Bool) :
    Beside (scanner.call (some regex)).scanner (other.call (some regex)).scanner
        source initial otherSource otherInitial ∧
      (scanner.call (some regex)).token.located = (other.call (some regex)).token.located ∧
      ∀ log : DiagnosticLog, (scanner.call (some regex)).reports.map log.resolve =
        (other.call (some regex)).reports.map log.resolve := by
  have keepsThere : other.options.skipTrivia = false := beside.abreast.options ▸ keeps
  have same := beside.abreast.lexeme regex
  rw [call_eq_readLexeme keeps, call_eq_readLexeme keepsThere]
  exact ⟨beside.readLexeme same, beside.located same, beside.diagnosed same⟩

theorem after (beside : Beside scanner other source initial otherSource otherInitial)
    (keeps : scanner.options.skipTrivia = false) (hints : Nat → Bool) (count : Nat) :
    Beside (scanner.after (given hints) count) (other.after (given hints) count)
      source initial otherSource otherInitial := by
  induction count with
  | zero => exact beside
  | succ count ih => exact (ih.call (after_keeps keeps _ count) (hints count)).1

end Beside

theorem readLexeme_reports {problem : ProblemKind}
    (flaws : ∀ flaw ∈ (scanner.lexeme regex).flaws, flaw.problem = problem) :
    ∀ report ∈ (scanner.readLexeme regex).reports, report.problem = problem := by
  intro report member
  obtain ⟨flaw, present, rfl⟩ := List.mem_map.mp member
  exact flaws flaw present

/-- A scanner before a comment that what is left to read opens but does not close. -/
structure AtOpening (scanner : Scanner) (body : List Char) : Prop where
  outside : scanner.inComment = false
  rest : scanner.rest = '/' :: '*' :: body
  isOpen : (commentBody 2 body).isClosed = false

/-- A scanner inside the comment of another, behind the text that other has left. -/
structure InsideOf (second scanner : Scanner) : Prop where
  options : second.options = scanner.options
  inComment : second.inComment = true
  position : second.position = scanner.position + scanner.rest.length

namespace AtOpening

variable {second : Scanner} {body tail chunk : List Char}

theorem read (opening : AtOpening scanner body) (regex : Bool) :
    Lexeme.read (scanner.lexMode regex) scanner.rest = Lexeme.blockComment ['/', '*'] body := by
  rw [opening.rest]
  exact Lexeme.read_opening opening.outside body

theorem lexeme (opening : AtOpening scanner body) (regex : Bool) :
    scanner.lexeme regex = (Lexeme.blockComment ['/', '*'] body).1 :=
  congrArg Prod.fst (opening.read regex)

theorem body_text (opening : AtOpening scanner body) : (commentBody 2 body).text = body := by
  have whole := commentBody_append 2 body
  rwa [commentBody_rest_of_open opening.isOpen, List.append_nil] at whole

theorem lexeme_text (opening : AtOpening scanner body) (regex : Bool) :
    (scanner.lexeme regex).text = scanner.rest := by
  rw [opening.lexeme, opening.rest]
  exact congrArg (['/', '*'] ++ ·) opening.body_text

/-- With more text behind it the comment goes on in that. -/
theorem onto_read (opening : AtOpening scanner body) (tail chunk : List Char) (regex : Bool) :
    Lexeme.read ((scanner.onto chunk (scanner.rest ++ tail)).lexMode regex)
      (scanner.rest ++ tail) = Lexeme.blockComment ['/', '*'] (body ++ tail) := by
  rw [opening.rest]
  exact Lexeme.read_opening opening.outside (body ++ tail)

theorem onto_lexeme (opening : AtOpening scanner body) (tail chunk : List Char) (regex : Bool) :
    (scanner.onto chunk (scanner.rest ++ tail)).lexeme regex =
      (Lexeme.blockComment ['/', '*'] (body ++ tail)).1 :=
  congrArg Prod.fst (opening.onto_read tail chunk regex)

/-- The whole comment takes what its two parts take, and ends as the second part does. -/
theorem joined (opening : AtOpening scanner body) (inside : InsideOf second scanner)
    (rest : second.rest = tail) (whole : ¬ CutsClosing body tail) (chunk : List Char)
    (regex otherRegex : Bool) :
    ((scanner.onto chunk (scanner.rest ++ tail)).lexeme regex).text =
        scanner.rest ++ (second.lexeme otherRegex).text ∧
      Abreast ((scanner.onto chunk (scanner.rest ++ tail)).readLexeme regex).scanner
        (second.readLexeme otherRegex).scanner := by
  have joined := commentBody_extends opening.isOpen whole 0
  have here := opening.onto_read tail chunk regex
  have there : Lexeme.Inside (Lexeme.read (second.lexMode otherRegex) tail) (commentBody 0 tail) :=
    Lexeme.read_inside inside.inComment tail
  rw [← rest] at there
  have text : (Lexeme.read ((scanner.onto chunk (scanner.rest ++ tail)).lexMode regex)
      (scanner.rest ++ tail)).1.text =
        scanner.rest ++ (Lexeme.read (second.lexMode otherRegex) second.rest).1.text := by
    rw [here, there.text, rest, opening.rest]
    exact congrArg (['/', '*'] ++ ·) joined.text
  refine ⟨text, inside.options, ?_, ?_, ?_⟩
  · calc (Lexeme.read (second.lexMode otherRegex) second.rest).2
        = (commentBody 0 tail).rest := by rw [there.rest, rest]
      _ = (Lexeme.blockComment ['/', '*'] (body ++ tail)).2 := joined.rest.symm
      _ = _ := congrArg Prod.snd here.symm
  · change second.position + (Lexeme.read (second.lexMode otherRegex) second.rest).1.text.length =
      scanner.position + (Lexeme.read _ (scanner.rest ++ tail)).1.text.length
    rw [text, List.length_append, inside.position, Nat.add_assoc]
  · calc (Lexeme.read (second.lexMode otherRegex) second.rest).1.endsInComment
        = !(commentBody 0 tail).isClosed := by rw [there.endsInComment, rest]
      _ = (Lexeme.blockComment ['/', '*'] (body ++ tail)).1.endsInComment :=
        congrArg (!·) joined.isClosed.symm
      _ = _ := congrArg (·.1.endsInComment) here.symm

/-- Its token begins where the first part does and ends where the second part does. -/
theorem joined_located (opening : AtOpening scanner body) (inside : InsideOf second scanner)
    (rest : second.rest = tail) (whole : ¬ CutsClosing body tail)
    (read : scanner.HasRead source initial taken)
    (readWhole : (scanner.onto chunk (scanner.rest ++ tail)).HasRead otherSource initial otherTaken)
    (readSecond : second.HasRead tail (otherInitial) [])
    (agree : ∀ index ≥ second.position,
      (ofText tail otherInitial).locate index = (ofText otherSource initial).locate index)
    (regex otherRegex : Bool) :
    ((scanner.onto chunk (scanner.rest ++ tail)).readLexeme regex).token.located =
      (scanner.readLexeme regex).token.located.upTo
        (second.readLexeme otherRegex).token.located := by
  have text := (opening.joined inside rest whole chunk regex otherRegex).1
  have here := opening.onto_lexeme tail chunk regex
  have part := opening.lexeme regex
  -- both parts of the table have been read up to the comment
  have start : (ofText otherSource initial).locate scanner.position =
      (ofText source initial).locate scanner.position :=
    (readWhole.upTo.locate (Nat.le_refl _)).symm.trans (read.upTo.locate (Nat.le_refl _))
  have stop : scanner.position + (scanner.rest ++ (second.lexeme otherRegex).text).length =
      second.position + (second.lexeme otherRegex).text.length := by
    rw [List.length_append, inside.position, Nat.add_assoc]
  rw [readWhole.readLexeme_located, read.readLexeme_located, readSecond.readLexeme_located]
  simp only [Lexeme.locatedIn, LocatedToken.upTo, LocatedToken.mk.injEq, text,
    opening.lexeme_text, String.ofList_append, true_and]
  refine ⟨by rw [here, part]; rfl, start, ?_, by rw [here, part]; rfl, by rw [here, part]; rfl,
    by rw [here, part]; rfl⟩
  exact (congrArg _ stop).trans (agree _ (Nat.le_add_right _ _)).symm

theorem kind (opening : AtOpening scanner body) (regex : Bool) :
    (scanner.readLexeme regex).token.kind = .blockComment :=
  congrArg (·.1.kind) (opening.read regex)

theorem readLexeme_rest (opening : AtOpening scanner body) (regex : Bool) :
    (scanner.readLexeme regex).scanner.rest = [] :=
  (congrArg Prod.snd (opening.read regex)).trans (commentBody_rest_of_open opening.isOpen)

theorem leaves_open (opening : AtOpening scanner body) (regex : Bool) :
    (scanner.readLexeme regex).scanner.inComment = true :=
  (congrArg (·.1.endsInComment) (opening.read regex)).trans (congrArg (!·) opening.isOpen)

/-- The text of the comment, without its mark. -/
theorem drop_text (opening : AtOpening scanner body) (regex : Bool) :
    (scanner.readLexeme regex).token.text.toList.drop 2 = body := by
  have text : (scanner.readLexeme regex).token.text = String.ofList scanner.rest :=
    congrArg String.ofList (opening.lexeme_text regex)
  rw [text, String.toList_ofList, opening.rest]
  rfl

end AtOpening

theorem after_options (keeps : scanner.options.skipTrivia = false) (hints : Nat → Option Bool)
    (count : Nat) : (scanner.after hints count).options = scanner.options := by
  induction count with
  | zero => rfl
  | succ count ih =>
    rw [after, call_eq_readLexeme (after_keeps keeps hints count)]
    exact ih

theorem exists_atOpening_of_open {hint : Option Bool}
    (keeps : scanner.options.skipTrivia = false) (outside : scanner.inComment = false)
    (open_ : (scanner.call hint).scanner.inComment) : ∃ body, AtOpening scanner body := by
  rw [call_eq_readLexeme keeps] at open_
  obtain ⟨body, rest, isOpen⟩ := Lexeme.read_endsInComment outside open_
  exact ⟨body, outside, rest, isOpen⟩

/-- A comment that is left open takes all that is left. -/
theorem AtOpening.after (keeps : scanner.options.skipTrivia = false) {hints : Nat → Option Bool}
    {place : Nat} {body : List Char} (opening : AtOpening (scanner.after hints place) body) :
    (scanner.after hints (place + 1)).rest = [] ∧
      (scanner.after hints (place + 1)).inComment = true := by
  rw [Scanner.after, call_eq_readLexeme (after_keeps keeps hints place)]
  exact ⟨opening.readLexeme_rest _, opening.leaves_open _⟩

/-- A run that has come to be inside a comment has passed the mark that opens it. -/
theorem exists_atOpening (keeps : scanner.options.skipTrivia = false)
    (outside : scanner.inComment = false) (hints : Nat → Option Bool) {last : Nat}
    (open_ : (scanner.callAt hints last).scanner.inComment) :
    ∃ place ≤ last, ∃ body, AtOpening (scanner.after hints place) body := by
  induction last with
  | zero => exact ⟨0, Nat.le_refl _, exists_atOpening_of_open keeps outside open_⟩
  | succ last ih =>
    by_cases before : (scanner.callAt hints last).scanner.inComment
    · obtain ⟨place, earlier, found⟩ := ih before
      exact ⟨place, Nat.le_succ_of_le earlier, found⟩
    · exact ⟨last + 1, Nat.le_refl _, exists_atOpening_of_open (after_keeps keeps hints (last + 1))
        (Bool.eq_false_iff.mpr before) open_⟩

end Scanner

end ScriptSyntax

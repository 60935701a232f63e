import ScriptSyntax.Command.Listing
import ScriptSyntax.Proofs.Scanner.Covers
import ScriptSyntax.Proofs.Text.Quoted
import Mathlib.Data.List.Nodup

/-! A listing of all tokens says all there is to say: each token has a line, from which its
place, its kind and its text are read back, and the texts make up the source. -/
namespace ScriptSyntax

namespace TokenKind

theorem mem_all (kind : TokenKind) : kind ∈ all := by
  cases kind with
  | word w => cases w <;> decide
  | punctuator p => cases p <;> decide
  | _ => decide

/-- No name of a kind could be taken for more than one word. -/
theorem name_is_word : ∀ kind ∈ all, ' ' ∉ kind.name.toList ∧ '\n' ∉ kind.name.toList := by
  decide +kernel

theorem names_nodup : (all.map name).Nodup := by
  decide +kernel

theorem name_injective : Function.Injective name :=
  fun kind other => List.inj_on_of_nodup_map names_nodup kind.mem_all other.mem_all

theorem ofName?_name (kind : TokenKind) : ofName? kind.name = some kind := by
  cases found : ofName? kind.name with
  | none =>
    have missed := List.find?_eq_none.mp found kind kind.mem_all
    simp at missed
  | some other =>
    have same : other.name = kind.name := by simpa using List.find?_some found
    rw [name_injective same]

end TokenKind

/-- What a line of a listing says of a token. -/
structure ListedToken where
  line : Nat
  column : Nat
  kind : TokenKind
  text : String
  deriving DecidableEq, Repr

namespace ListedToken

def ofToken (token : Token) : ListedToken where
  line := token.span.startLocation.line
  column := token.span.startLocation.column
  kind := token.kind
  text := token.text

/-- Read a line of a listing. -/
def read? (text : List Char) : Option ListedToken := do
  let (line, text) := cutAt ':' text
  let (column, text) := cutAt ' ' text
  let (name, text) := cutAt ' ' text
  let kind ← TokenKind.ofName? (String.ofList name)
  let text ← Quoted.decode? text
  return {
    line := Nat.ofDigitChars 10 line 0
    column := Nat.ofDigitChars 10 column 0
    kind
    text := String.ofList text }

end ListedToken

theorem TokenRecord.toList_lineText (record : TokenRecord) :
    record.lineText.toList = Nat.toDigits 10 record.line ++ ':' ::
      (Nat.toDigits 10 record.column ++ ' ' ::
        (record.kind.toList ++ ' ' :: Quoted.encode record.text.toList)) := by
  have plain (text : String) : toString text = text := rfl
  simp [lineText, quoted, plain]

theorem not_mem_toDigits {mark : Char} (other : mark.isDigit = false) (value : Nat) :
    mark ∉ Nat.toDigits 10 value := by
  intro member
  rw [Nat.isDigit_of_mem_toDigits (by decide) (by decide) member] at other
  cases other

namespace ListedToken

/-- From its line a token is known. -/
theorem read?_lineText (token : Token) :
    read? (TokenRecord.ofToken token).lineText.toList = some (ofToken token) := by
  have colon (value : Nat) : ':' ∉ Nat.toDigits 10 value := not_mem_toDigits (by decide) value
  have space (value : Nat) : ' ' ∉ Nat.toDigits 10 value := not_mem_toDigits (by decide) value
  have name : ' ' ∉ token.kind.name.toList := (TokenKind.name_is_word _ token.kind.mem_all).1
  rw [TokenRecord.toList_lineText]
  simp [read?, TokenRecord.ofToken, ofToken, cutAt_append (colon _), cutAt_append (space _),
    cutAt_append name, TokenKind.ofName?_name, Quoted.decode?_encode]

end ListedToken

theorem TokenRecord.newline_not_mem_lineText (token : Token) :
    '\n' ∉ (TokenRecord.ofToken token).lineText.toList := by
  have digits (value : Nat) : '\n' ∉ Nat.toDigits 10 value := not_mem_toDigits (by decide) value
  have name : '\n' ∉ token.kind.name.toList := (TokenKind.name_is_word _ token.kind.mem_all).2
  rw [toList_lineText]
  simp [ofToken, digits, name, Quoted.newline_not_mem_encode]

namespace Listing

variable {tokens : List Token}

/-- The lines of a listing are those of its tokens. -/
theorem splitOn_textOf (nonempty : tokens ≠ []) :
    (textOf (tokens.map .ofToken)).toList.splitOn '\n' =
      tokens.map fun token => (TokenRecord.ofToken token).lineText.toList := by
  rw [textOf, String.toList_intercalate, List.map_map, List.map_map]
  refine List.splitOn_intercalate '\n' ?_ (by simpa using nonempty)
  simpa using fun token _ => TokenRecord.newline_not_mem_lineText token

/-- Read a listing, which has no lines if it is empty. -/
def read? (text : List Char) : Option (List ListedToken) :=
  if text = [] then some [] else (text.splitOn '\n').mapM ListedToken.read?

/-- What a listing says can be read back from it. -/
theorem read?_textOf (tokens : List Token) :
    read? (textOf (tokens.map .ofToken)).toList = some (tokens.map .ofToken) := by
  by_cases empty : tokens = []
  · subst empty
    rfl
  have filled : (textOf (tokens.map .ofToken)).toList ≠ [] := by
    intro blank
    have lines := splitOn_textOf empty
    obtain ⟨token, rest, rfl⟩ := List.exists_cons_of_ne_nil empty
    rw [blank, List.map_cons, TokenRecord.toList_lineText] at lines
    simp at lines
  have lines : ListedToken.read? ∘ (fun token => (TokenRecord.ofToken token).lineText.toList) =
      fun token => pure (ListedToken.ofToken token) := funext ListedToken.read?_lineText
  rw [read?, if_neg filled, splitOn_textOf empty, List.mapM_map, lines]
  exact List.mapM_pure

/-- Equal listings say the same of their tokens. -/
theorem ofToken_eq_of_textOf_eq {others : List Token}
    (same : textOf (tokens.map .ofToken) = textOf (others.map .ofToken)) :
    tokens.map ListedToken.ofToken = others.map .ofToken := by
  have back := read?_textOf tokens
  rw [same, read?_textOf] at back
  exact (Option.some.inj back).symm

theorem textOf_eq_empty_iff : textOf (tokens.map .ofToken) = "" ↔ tokens = [] := by
  constructor
  · intro empty
    have blank : textOf (([] : List Token).map .ofToken) = "" := rfl
    exact List.map_eq_nil_iff.mp (ofToken_eq_of_textOf_eq (empty.trans blank.symm))
  · rintro rfl
    rfl

end Listing

theorem ScanReport.tokens_ofSource (source : List Char) (options : ScanOptions) :
    (ofSource source options).tokens =
      ((Scanner.start options source).scanAll.tokens.filter fun token =>
        token.kind != .endOfFile).map .ofToken := rfl

open Scanner in
/-- A listing with its trivia loses nothing. The ranges of the tokens follow each other from 0
on, and their texts are the source, but for a null character at its end that is read as the end
of file. The listing of no tokens is empty; any other has a line for each token, from which its
place, its kind and its text are read back. So other texts have another listing. -/
theorem listing_lossless (source : List Char) (strict : Bool) :
    let options : ScanOptions := { strict, skipTrivia := false }
    let scan := (Scanner.start options source).scanAll
    let listed := scan.tokens.filter fun token => token.kind != .endOfFile
    let records := (ScanReport.ofSource source options).tokens
    let listing := Listing.textOf records
    records = listed.map .ofToken ∧
    (∃ ending : Token, scan.tokens = listed ++ [ending] ∧ ending.kind = .endOfFile ∧
      Adjoining 0 (records.map fun record => (record.start, record.stop)) ending.span.start ∧
      ending.span.stop = source.length ∧
      (records.flatMap fun record => record.text.toList) ++ ending.text.toList = source ∧
      (ending.text = "" ∨ ending.text = "\x00")) ∧
    (∀ token ∈ scan.tokens, scan.scanner.sourceText token.span = token.text.toList) ∧
    (listing = "" ↔ records = []) ∧
    (records ≠ [] →
      listing.toList.splitOn '\n' = records.map fun record => record.lineText.toList) ∧
    Listing.read? listing.toList = some (listed.map .ofToken) ∧
    ∀ (other : List Char) (otherStrict : Bool),
      let others := (ScanReport.ofSource other { strict := otherStrict, skipTrivia := false }).tokens
      records.map (·.text) ≠ others.map (·.text) → listing ≠ Listing.textOf others := by
  intro options scan listed records listing
  have begun : (start options source).HasRead source .start [] := hasRead_resume _ _ _ _
  obtain ⟨tokens, reads, same⟩ := (start options source).scanAll_reads
  obtain ⟨all, finished⟩ := reads.hasRead begun
  have begins : scan.scanner.lines.initial = .start := by
    rw [finished.lines, LineTable.ofText_initial]
  obtain ⟨before, last, rfl, read⟩ := reads.exists_covers begun rfl finished.chunk begins
  -- the finished scan has the tokens that were read, but for their line tables
  have covers := read.withLines scan.scanner.lines
  have split : scan.tokens = before.map (·.withLines scan.scanner.lines) ++
      [last.withLines scan.scanner.lines] := same.trans List.map_append
  have named : listed = before.map (·.withLines scan.scanner.lines) := by
    rw [← covers.filter_eq, ← split]
  rw [← named] at covers split
  have recorded : records = listed.map .ofToken := ScanReport.tokens_ofSource source options
  have ranges : (records.map fun record => (record.start, record.stop)) =
      listed.map fun token => (token.span.start, token.span.stop) := List.map_map
  have texts : (records.flatMap fun record => record.text.toList) =
      listed.flatMap fun token => token.text.toList := List.flatMap_map ..
  refine ⟨recorded, ⟨_, split, covers.ended, ?_, ?_, ?_, covers.remainder⟩, ?_, ?_, ?_, ?_, ?_⟩
  · rw [ranges]
    exact covers.adjoining
  · exact covers.stop.trans (Nat.zero_add _)
  · rw [texts]
    exact covers.whole
  · rw [split]
    exact covers.sourceText
  · rw [recorded, List.map_eq_nil_iff]
    exact Listing.textOf_eq_empty_iff
  · intro filled
    rw [recorded, ne_eq, List.map_eq_nil_iff] at filled
    rw [recorded, List.map_map]
    exact Listing.splitOn_textOf filled
  · exact Listing.read?_textOf listed
  · intro other otherStrict
    dsimp only
    rw [ScanReport.tokens_ofSource other, recorded]
    intro differ equal
    have told := congrArg (List.map (·.text)) (Listing.ofToken_eq_of_textOf_eq equal)
    apply differ
    rw [List.map_map, List.map_map] at told ⊢
    exact told

end ScriptSyntax

import ScriptSyntax.Proofs.Scanner.Run
import Mathlib.Data.Nat.Find

/-! A scanner that keeps its trivia loses nothing and always comes to the end: its tokens
stand next to each other and together cover the source. -/
namespace ScriptSyntax

namespace Scanner

variable {scanner : Scanner} {source taken : List Char} {initial : Location}

theorem scan_eq_readLexeme (keeps : scanner.options.skipTrivia = false) (regex : Bool) :
    scanner.scan regex = scanner.readLexeme regex := by
  rw [scan]
  simp [keeps]

theorem call_eq_readLexeme (keeps : scanner.options.skipTrivia = false) (hint : Option Bool) :
    scanner.call hint = scanner.readLexeme (hint.getD scanner.allowsRegex) :=
  scan_eq_readLexeme keeps _

theorem next_eq_readLexeme (keeps : scanner.options.skipTrivia = false) :
    scanner.next = scanner.readLexeme scanner.allowsRegex :=
  scan_eq_readLexeme keeps _

theorem readLexeme_append (scanner : Scanner) (regex : Bool) :
    (scanner.lexeme regex).text ++ (scanner.readLexeme regex).scanner.rest = scanner.rest :=
  Lexeme.read_append (scanner.lexMode regex) scanner.rest

theorem after_keeps (keeps : scanner.options.skipTrivia = false) (hints : Nat → Option Bool)
    (count : Nat) : (scanner.after hints count).options.skipTrivia = false := by
  induction count with
  | zero => exact keeps
  | succ count ih =>
    rw [after, call, scan_eq_readLexeme ih]
    exact ih

theorem callAt_eq_readLexeme (keeps : scanner.options.skipTrivia = false)
    (hints : Nat → Option Bool) (number : Nat) :
    scanner.callAt hints number =
      (scanner.after hints number).readLexeme
        ((hints number).getD (scanner.after hints number).allowsRegex) :=
  call_eq_readLexeme (after_keeps keeps hints number) (hints number)

/-- A token that is kept begins where the scanner stands. -/
theorem scan_start (keeps : scanner.options.skipTrivia = false) (regex : Bool) :
    (scanner.scan regex).token.span.start = scanner.position := by
  rw [scan_eq_readLexeme keeps]
  rfl

/-- With nothing left to read every token is the end of file. -/
theorem scan_of_rest_eq_nil (keeps : scanner.options.skipTrivia = false) (empty : scanner.rest = [])
    (regex : Bool) :
    (scanner.scan regex).token.kind = .endOfFile ∧ (scanner.scan regex).scanner.rest = [] := by
  rw [scan_eq_readLexeme keeps]
  simp [readLexeme, accept, ScanStep.token, Token.kind, Lexeme.read, empty]

/-- What is left to read ends where the source ends. -/
theorem HasRead.position_add_rest (read : scanner.HasRead source initial taken) :
    scanner.position + scanner.rest.length = initial.index + source.length := by
  have whole := congrArg List.length read.whole
  rw [List.length_append] at whole
  rw [read.position, Nat.add_assoc, whole]

/-- Every call before the end takes a character off what is left. -/
theorem after_rest_length_le (hints : Nat → Option Bool) {count : Nat}
    (unfinished : ∀ number < count, (scanner.callAt hints number).token.kind ≠ .endOfFile) :
    (scanner.after hints count).rest.length + count ≤ scanner.rest.length := by
  induction count with
  | zero => exact Nat.le_refl _
  | succ count ih =>
    have before := ih fun number earlier => unfinished number (Nat.lt_succ_of_lt earlier)
    have shorter : (scanner.after hints (count + 1)).rest.length <
        (scanner.after hints count).rest.length :=
      scan_rest_length_lt _ _ (unfinished count (Nat.lt_succ_self count))
    omega

/-- Repeated reading meets the end of file. -/
theorem exists_first_endOfFile (scanner : Scanner) (hints : Nat → Option Bool) :
    ∃ last ≤ scanner.rest.length,
      (∀ number < last, (scanner.callAt hints number).token.kind ≠ .endOfFile) ∧
      (scanner.callAt hints last).token.kind = .endOfFile := by
  have ends : ∃ number, (scanner.callAt hints number).token.kind = .endOfFile := by
    by_contra never
    have unfinished := not_exists.mp never
    have bound := after_rest_length_le hints fun number (_ : number < scanner.rest.length + 1) =>
      unfinished number
    omega
  have unfinished : ∀ number < Nat.find ends,
      (scanner.callAt hints number).token.kind ≠ .endOfFile := fun number => Nat.find_min ends
  have bound := after_rest_length_le hints unfinished
  exact ⟨Nat.find ends, by omega, unfinished, Nat.find_spec ends⟩

theorem after_endOfFile (keeps : scanner.options.skipTrivia = false) (hints : Nat → Option Bool)
    {last : Nat} (ended : (scanner.callAt hints last).token.kind = .endOfFile) {number : Nat}
    (later : last < number) : (scanner.after hints number).rest = [] := by
  induction later with
  | refl => exact scan_endOfFile ended
  | step _ ih => exact (scan_of_rest_eq_nil (after_keeps keeps hints _) ih _).2

/-- A span that begins after `left` and takes in `piece` covers just that piece. -/
theorem sourceText_piece {left piece right : List Char} (span : Span)
    (chunk : scanner.chunk = left ++ piece ++ right) (begins : scanner.lines.initial = initial)
    (start : span.start = initial.index + left.length)
    (stop : span.stop = initial.index + left.length + piece.length) :
    scanner.sourceText span = piece := by
  have first : span.start - initial.index = left.length := by omega
  have inside : min left.length scanner.chunk.length = left.length := by
    rw [chunk, List.length_append, List.length_append]
    omega
  have width : span.stop - initial.index - left.length = piece.length := by omega
  simp only [sourceText, begins, first, inside, width]
  rw [chunk, List.append_assoc, List.drop_left, List.take_left]

/-- A step takes a piece off what is left, and the span of its token covers that piece. -/
theorem HasRead.scan_piece {viewer : Scanner} (read : scanner.HasRead source initial taken)
    (keeps : scanner.options.skipTrivia = false) (chunk : viewer.chunk = source)
    (begins : viewer.lines.initial = initial) (regex : Bool) :
    ∃ piece, (scanner.scan regex).scanner.HasRead source initial (taken ++ piece) ∧
      viewer.sourceText (scanner.scan regex).token.span = piece ∧
      piece ++ (scanner.scan regex).scanner.rest = scanner.rest := by
  have start := scan_start keeps regex
  obtain ⟨⟨piece, next⟩, -⟩ := read.scan regex
  refine ⟨piece, next, ?_, ?_⟩
  · have whole : viewer.chunk = taken ++ piece ++ (scanner.scan regex).scanner.rest :=
      chunk.trans next.whole.symm
    have stop : (scanner.scan regex).token.span.stop =
        initial.index + taken.length + piece.length := by
      rw [Nat.add_assoc, ← List.length_append]
      exact next.position
    exact sourceText_piece _ whole begins (start.trans read.position) stop
  · have whole := next.whole.trans read.whole.symm
    rw [List.append_assoc] at whole
    exact List.append_cancel_left whole

/-- The texts of the tokens, one after another, are what was left to read. -/
theorem Reads.flatMap_sourceText {final viewer : Scanner} {tokens : List Token}
    {reports : List Report} (reads : Reads scanner tokens reports final)
    (read : scanner.HasRead source initial taken) (keeps : scanner.options.skipTrivia = false)
    (chunk : viewer.chunk = source) (begins : viewer.lines.initial = initial) :
    (tokens.flatMap fun token => viewer.sourceText token.span) = scanner.rest := by
  induction reads generalizing taken with
  | @last scanner ended =>
    obtain ⟨piece, -, covers, split⟩ := read.scan_piece keeps chunk begins scanner.allowsRegex
    have none : scanner.next.scanner.rest = [] := scan_endOfFile ended
    calc ([scanner.next.token].flatMap fun token => viewer.sourceText token.span)
        = viewer.sourceText scanner.next.token.span := List.append_nil _
      _ = piece := covers
      _ = piece ++ scanner.next.scanner.rest := by rw [none, List.append_nil]
      _ = scanner.rest := split
  | @more scanner final tokens reports unfinished later ih =>
    obtain ⟨piece, next, covers, split⟩ := read.scan_piece keeps chunk begins scanner.allowsRegex
    have rest := ih next (after_keeps keeps (fun _ => none) 1)
    calc ((scanner.next.token :: tokens).flatMap fun token => viewer.sourceText token.span)
        = viewer.sourceText scanner.next.token.span ++
            tokens.flatMap fun token => viewer.sourceText token.span := rfl
      _ = piece ++ scanner.next.scanner.rest := congrArg₂ (· ++ ·) covers rest
      _ = scanner.rest := split

theorem Reads.hasRead {final : Scanner} {tokens : List Token} {reports : List Report}
    (reads : Reads scanner tokens reports final) (read : scanner.HasRead source initial taken) :
    ∃ more, final.HasRead source initial (taken ++ more) := by
  induction reads generalizing taken with
  | @last scanner _ => exact (read.scan scanner.allowsRegex).1
  | @more scanner final _ _ _ _ ih =>
    obtain ⟨⟨piece, next⟩, -⟩ := read.scan scanner.allowsRegex
    obtain ⟨more, finished⟩ := ih next
    exact ⟨piece ++ more, List.append_assoc .. ▸ finished⟩

end Scanner

open Scanner in
/-- Nothing is lost and the end is reached. Whatever the hints, each token begins where
the last one ended, takes at least one character unless it is the end of file, and stays
inside the source; some call gives the end of file at the end of the source, and so do
all later ones. Put together, the texts of all tokens are the source. -/
theorem scan_lossless (strict inComment : Bool) (source : List Char) (initial : Location)
    (hints : Nat → Option Bool) :
    let scanner := resume { strict, skipTrivia := false } source inComment initial
    let ending := initial.index + source.length
    let token := fun number => (scanner.callAt hints number).token
    (∀ number, initial.index ≤ (token number).span.start ∧
      (token number).span.start ≤ (token number).span.stop ∧
      (token number).span.stop ≤ ending) ∧
    (∀ number, (token number).kind ≠ .endOfFile →
      (token number).span.start < (token number).span.stop) ∧
    (token 0).span.start = initial.index ∧
    (∀ number, (token (number + 1)).span.start = (token number).span.stop) ∧
    (∃ last ≤ source.length,
      (∀ number < last, (token number).kind ≠ .endOfFile) ∧
      (token last).kind = .endOfFile ∧ (token last).span.stop = ending ∧
      ∀ number > last, (token number).kind = .endOfFile ∧
        (token number).span.start = ending ∧ (token number).span.stop = ending) ∧
    (scanner.scanAll.tokens.flatMap fun token =>
      scanner.scanAll.scanner.sourceText token.span) = source := by
  intro scanner ending token
  have begun : scanner.HasRead source initial [] := hasRead_resume _ source inComment initial
  have keeps : scanner.options.skipTrivia = false := rfl
  have keepsAfter := after_keeps keeps hints
  -- every scanner on the way stands as far before the end as it has left to read
  have level (count : Nat) : (scanner.after hints count).position +
      (scanner.after hints count).rest.length = ending := by
    obtain ⟨more, read⟩ := begun.after hints count
    exact read.position_add_rest
  have start (number : Nat) : (token number).span.start = (scanner.after hints number).position :=
    scan_start (keepsAfter number) _
  have stop (number : Nat) :
      (token number).span.stop = (scanner.after hints (number + 1)).position := rfl
  have first (number : Nat) : initial.index ≤ (token number).span.start := by
    obtain ⟨more, read⟩ := begun.after hints number
    rw [start, read.position]
    exact Nat.le_add_right _ _
  have ordered (number : Nat) : (token number).span.start ≤ (token number).span.stop := by
    obtain ⟨more, read⟩ := begun.after hints number
    exact (read.scan _).2.start_le
  refine ⟨?_, ?_, ?_, ?_, ?_, ?_⟩
  · intro number
    have inside := level (number + 1)
    rw [← stop] at inside
    exact ⟨first number, ordered number, by omega⟩
  · intro number unfinished
    have before := level number
    have behind := level (number + 1)
    have shorter : (scanner.after hints (number + 1)).rest.length <
        (scanner.after hints number).rest.length := scan_rest_length_lt _ _ unfinished
    rw [start, stop]
    omega
  · exact (start 0).trans rfl
  · intro number
    rw [start, stop]
  · obtain ⟨last, bound, unfinished, ended⟩ := scanner.exists_first_endOfFile hints
    have finished {number : Nat} (later : last < number) :
        (scanner.after hints number).position = ending := by
      have place := level number
      rw [after_endOfFile keeps hints ended later] at place
      exact place
    refine ⟨last, bound, unfinished, ended, finished (Nat.lt_succ_self last), ?_⟩
    intro number later
    have empty := after_endOfFile keeps hints ended later
    refine ⟨(scan_of_rest_eq_nil (keepsAfter number) empty _).1, ?_, ?_⟩
    · rw [start, finished later]
    · exact finished (Nat.lt_succ_of_lt later)
  · obtain ⟨tokens, reads, same⟩ := scanner.scanAll_reads
    obtain ⟨all, read⟩ := reads.hasRead begun
    have begins : scanner.scanAll.scanner.lines.initial = initial := by
      rw [read.lines, LineTable.ofText_initial]
    have covered := reads.flatMap_sourceText begun keeps read.chunk begins
    rw [same, List.flatMap_map]
    exact covered

end ScriptSyntax

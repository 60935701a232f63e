import ScriptSyntax.Proofs.Lexeme.Flaws
import ScriptSyntax.Scanner.Scan

/-! Runs of a scanner, one token a call. However the calls are made, the scanner stands
between two parts of its source, and its line table is that of the first part. -/
namespace ScriptSyntax

open LineTable

namespace Scanner

/-- Read one token. A hint says whether a slash may begin a regular expression; without
one the last significant token decides. -/
def call (scanner : Scanner) (hint : Option Bool) : ScanStep :=
  scanner.scan (hint.getD scanner.allowsRegex)

/-- The scanner after the first `count` calls, with a hint for each. -/
def after (scanner : Scanner) (hints : Nat → Option Bool) : Nat → Scanner
  | 0 => scanner
  | count + 1 => ((scanner.after hints count).call (hints count)).scanner

/-- What the call with this number gives; the first is number zero. -/
def callAt (scanner : Scanner) (hints : Nat → Option Bool) (number : Nat) : ScanStep :=
  (scanner.after hints number).call (hints number)

/-- Some calls, and then others with the hints that come next. -/
theorem after_add (scanner : Scanner) (hints : Nat → Option Bool) (count further : Nat) :
    scanner.after hints (count + further) =
      (scanner.after hints count).after (fun number => hints (count + number)) further := by
  induction further with
  | zero => rfl
  | succ further ih => exact congrArg (fun now => (now.call (hints (count + further))).scanner) ih

/-- The scanner has read `taken` of `source`, which begins at `initial`. -/
structure HasRead (scanner : Scanner) (source : List Char) (initial : Location)
    (taken : List Char) : Prop where
  chunk : scanner.chunk = source
  whole : taken ++ scanner.rest = source
  position : scanner.position = initial.index + taken.length
  lines : scanner.lines = ofText taken initial
  uncut : ¬ CutsBreak taken scanner.rest

theorem hasRead_resume (options : ScanOptions) (source : List Char) (inComment : Bool)
    (initial : Location) :
    (resume options source inComment initial).HasRead source initial [] where
  chunk := rfl
  whole := rfl
  position := rfl
  lines := rfl
  uncut := Plain.nil.not_cutsBreak

end Scanner

/-- A report whose span lies before `position` and sees the lines begun by its end. -/
structure Report.Placed (report : Report) (source : List Char) (initial : Location)
    (position : Nat) : Prop where
  start_lt : report.span.start < report.span.stop
  stop_le : report.span.stop ≤ position
  lines : ∃ table, report.span.lines = some table ∧
    table.UpTo source initial report.span.stop

/-- A step that gives a token behind `origin` and no report past where it ends. -/
structure ScanStep.Placed (step : ScanStep) (source : List Char) (initial : Location)
    (origin : Nat) : Prop where
  origin_le : origin ≤ step.token.span.start
  start_le : step.token.span.start ≤ step.token.span.stop
  lines : step.token.span.lines = some step.scanner.lines
  reports : ∀ report ∈ step.reports, report.Placed source initial step.scanner.position

namespace Scanner

variable {scanner : Scanner} {source taken : List Char} {initial : Location}

theorem HasRead.position_le (read : scanner.HasRead source initial taken) :
    scanner.position ≤ initial.index + source.length := by
  have whole := congrArg List.length read.whole
  rw [List.length_append] at whole
  rw [read.position]
  omega

theorem HasRead.uncut_of_append {piece rest : List Char}
    (read : scanner.HasRead source initial taken) (split : piece ++ rest = scanner.rest) :
    ¬ CutsBreak taken piece := by
  intro cut
  have nonempty : piece ≠ [] := by
    intro empty
    simp [CutsBreak, empty] at cut
  exact read.uncut (split ▸ cut.of_append nonempty)

/-- A lexeme that notes its lines moves the scanner to its end. -/
theorem HasRead.accept {lexeme : Lexeme} {rest : List Char}
    (read : scanner.HasRead source initial taken) (split : lexeme.text ++ rest = scanner.rest)
    (lined : lexeme.Lined rest) :
    (scanner.accept lexeme rest).scanner.HasRead source initial (taken ++ lexeme.text) := by
  refine ⟨read.chunk, ?_, ?_, ?_, ?_⟩
  · calc taken ++ lexeme.text ++ rest
        = taken ++ (lexeme.text ++ rest) := List.append_assoc ..
      _ = source := by rw [split, read.whole]
  · calc scanner.position + lexeme.text.length
        = initial.index + (taken.length + lexeme.text.length) := by
          rw [read.position, Nat.add_assoc]
      _ = initial.index + (taken ++ lexeme.text).length := by rw [List.length_append]
  · calc scanner.lines.recordAll (lexeme.breaks.map (scanner.position + ·))
        = (ofText taken initial).recordAll
            (startsIn (initial.index + taken.length) lexeme.text) := by
          rw [read.lines, read.position, lined.breaks, ← startsIn_add, Nat.add_zero]
      _ = ofText (taken ++ lexeme.text) initial :=
          ofText_append initial (read.uncut_of_append split)
  · change ¬ CutsBreak (taken ++ lexeme.text) rest
    by_cases empty : lexeme.text = []
    · rw [empty, List.nil_append] at split
      rw [empty, List.append_nil, split]
      exact read.uncut
    · exact not_cutsBreak_append empty lined.uncut

theorem HasRead.accept_placed {lexeme : Lexeme} {rest : List Char}
    (read : scanner.HasRead source initial taken) (split : lexeme.text ++ rest = scanner.rest)
    (lined : lexeme.Lined rest) (flaws : lexeme.FlawsWithin) :
    (scanner.accept lexeme rest).Placed source initial scanner.position := by
  refine ⟨Nat.le_refl _, Nat.le_add_right _ _, rfl, ?_⟩
  intro report member
  obtain ⟨flaw, present, rfl⟩ := List.mem_map.mp member
  have within := flaws flaw present
  have next := read.accept split lined
  have upTo := recordAll_upTo initial (read.uncut_of_append split) next.uncut within.le_last
  rw [next.whole, ← lined.breaks, ← read.lines, ← read.position] at upTo
  exact ⟨Nat.add_lt_add_left within.start_lt _, Nat.add_le_add_left within.le_last _, _, rfl, upTo⟩

/-- The lexeme that comes next. -/
def lexeme (scanner : Scanner) (regex : Bool) : Lexeme :=
  (Lexeme.read (scanner.lexMode regex) scanner.rest).1

theorem HasRead.readLexeme (read : scanner.HasRead source initial taken) (regex : Bool) :
    (scanner.readLexeme regex).scanner.HasRead source initial
        (taken ++ (scanner.lexeme regex).text) ∧
      (scanner.readLexeme regex).Placed source initial scanner.position := by
  have split := Lexeme.read_append (scanner.lexMode regex) scanner.rest
  have lined := Lexeme.read_lined (scanner.lexMode regex) scanner.rest
  have flaws := Lexeme.read_flawsWithin (scanner.lexMode regex) scanner.rest
  exact ⟨read.accept split lined, read.accept_placed split lined flaws⟩

/-- Reading a token leaves the scanner further on in the same source. -/
theorem HasRead.scan (read : scanner.HasRead source initial taken) (regex : Bool) :
    (∃ more, (scanner.scan regex).scanner.HasRead source initial (taken ++ more)) ∧
      (scanner.scan regex).Placed source initial scanner.position := by
  fun_induction Scanner.scan scanner regex generalizing taken
  case case1 scanner step skipped final ih =>
    obtain ⟨next, first⟩ := read.readLexeme regex
    obtain ⟨⟨more, later⟩, placed⟩ := ih next
    have behind : step.scanner.position ≤ final.scanner.position := by
      have start : step.scanner.position = _ := next.position
      have stop : final.scanner.position = _ := later.position
      rw [List.length_append] at stop
      omega
    refine ⟨⟨_, List.append_assoc .. ▸ later⟩, ?_, placed.start_le, placed.lines, ?_⟩
    · exact Nat.le_trans (Nat.le_trans first.origin_le first.start_le) placed.origin_le
    · intro report member
      rcases List.mem_append.mp member with early | late
      · have before := first.reports report early
        exact ⟨before.start_lt, Nat.le_trans before.stop_le behind, before.lines⟩
      · exact placed.reports report late
  case case2 scanner step kept =>
    obtain ⟨next, placed⟩ := read.readLexeme regex
    exact ⟨⟨_, next⟩, placed⟩

/-- A token that is no trivia is given to the reader as it is. -/
theorem scan_of_significant {regex : Bool}
    (significant : (scanner.readLexeme regex).token.kind.isTrivia = false) :
    scanner.scan regex = scanner.readLexeme regex := by
  rw [scan, dif_neg]
  rintro ⟨-, trivia⟩
  exact Bool.eq_false_iff.mp significant trivia

theorem scan_of_read {regex : Bool} {lexeme : Lexeme} {rest : List Char}
    (reads : Lexeme.read (scanner.lexMode regex) scanner.rest = (lexeme, rest))
    (significant : lexeme.kind.isTrivia = false) :
    scanner.scan regex = scanner.accept lexeme rest := by
  have same : scanner.readLexeme regex = scanner.accept lexeme rest := by rw [readLexeme, reads]
  rw [scan_of_significant, same]
  rw [same]
  exact significant

/-- Nothing is left to read behind the end of file. -/
theorem scan_endOfFile {regex : Bool} (ended : (scanner.scan regex).token.kind = .endOfFile) :
    (scanner.scan regex).scanner.rest = [] := by
  fun_induction Scanner.scan scanner regex with
  | case1 scanner step skipped final ih => exact ih ended
  | case2 scanner step kept => exact Lexeme.read_endOfFile ended

theorem HasRead.after (read : scanner.HasRead source initial taken) (hints : Nat → Option Bool)
    (count : Nat) : ∃ more, (scanner.after hints count).HasRead source initial (taken ++ more) := by
  induction count with
  | zero =>
    refine ⟨[], ?_⟩
    rw [List.append_nil]
    exact read
  | succ count ih =>
    obtain ⟨more, before⟩ := ih
    obtain ⟨⟨last, next⟩, -⟩ :=
      before.scan ((hints count).getD (scanner.after hints count).allowsRegex)
    refine ⟨more ++ last, ?_⟩
    rw [← List.append_assoc]
    exact next

/-- Reading on to the end of input, one token after another. -/
inductive Reads : Scanner → List Token → List Report → Scanner → Prop where
  | last {scanner : Scanner} (ended : scanner.next.token.kind = .endOfFile) :
      Reads scanner [scanner.next.token] scanner.next.reports scanner.next.scanner
  | more {scanner final : Scanner} {tokens : List Token} {reports : List Report}
      (unfinished : scanner.next.token.kind ≠ .endOfFile)
      (later : Reads scanner.next.scanner tokens reports final) :
      Reads scanner (scanner.next.token :: tokens) (scanner.next.reports ++ reports) final

theorem callAt_next (scanner : Scanner) (number : Nat) :
    scanner.next.scanner.callAt (fun _ => none) number =
      scanner.callAt (fun _ => none) (1 + number) :=
  congrArg (·.call none) (after_add scanner (fun _ => none) 1 number).symm

/-- Every token of a reading comes from a call before which nothing has ended. -/
theorem Reads.exists_call {final : Scanner} {tokens : List Token} {reports : List Report}
    (reads : Reads scanner tokens reports final) {token : Token} (member : token ∈ tokens) :
    ∃ number, (scanner.callAt (fun _ => none) number).token = token ∧
      ∀ earlier < number, (scanner.callAt (fun _ => none) earlier).token.kind ≠ .endOfFile := by
  induction reads with
  | last ended =>
    obtain rfl := List.mem_singleton.mp member
    exact ⟨0, rfl, fun earlier before => absurd before (Nat.not_lt_zero earlier)⟩
  | @more scanner final tokens reports unfinished _ ih =>
    rcases List.mem_cons.mp member with rfl | later
    · exact ⟨0, rfl, fun earlier before => absurd before (Nat.not_lt_zero earlier)⟩
    · obtain ⟨number, same, before⟩ := ih later
      refine ⟨1 + number, callAt_next scanner number ▸ same, ?_⟩
      intro earlier bound
      cases earlier with
      | zero => exact unfinished
      | succ earlier =>
        rw [Nat.add_comm, ← callAt_next]
        exact before earlier (by omega)

/-- The tokens of the first calls, and those that are read from there on. -/
theorem Reads.split {final : Scanner} {tokens : List Token} {reports : List Report}
    (reads : Reads scanner tokens reports final) {count : Nat}
    (unfinished : ∀ number < count,
      (scanner.callAt (fun _ => none) number).token.kind ≠ .endOfFile) :
    ∃ later laterReports,
      tokens = (List.range count).map (scanner.callAt (fun _ => none) · |>.token) ++ later ∧
      Reads (scanner.after (fun _ => none) count) later laterReports final := by
  induction count with
  | zero => exact ⟨tokens, reports, rfl, reads⟩
  | succ count ih =>
    obtain ⟨later, laterReports, split, behind⟩ :=
      ih fun number earlier => unfinished number (Nat.lt_succ_of_lt earlier)
    cases behind with
    | last ended => exact absurd ended (unfinished count (Nat.lt_succ_self count))
    | more _ behind =>
      refine ⟨_, _, ?_, behind⟩
      rw [split, List.range_succ, List.map_append, List.append_assoc]
      rfl

theorem scanOnto_reads (scanner : Scanner) (tokens : List Token) (reports : List Report) :
    ∃ newTokens newReports,
      Reads scanner newTokens newReports (scanner.scanOnto tokens reports).scanner ∧
      (scanner.scanOnto tokens reports).tokens = tokens.reverse ++ newTokens ∧
      (scanner.scanOnto tokens reports).reports = reports.reverse ++ newReports := by
  fun_induction Scanner.scanOnto scanner tokens reports with
  | case1 scanner tokens reports step allTokens allReports ended =>
    exact ⟨_, _, .last ended, by simp [allTokens, step], by simp [allReports, step]⟩
  | case2 scanner tokens reports step allTokens allReports unfinished ih =>
    obtain ⟨laterTokens, laterReports, later, sameTokens, sameReports⟩ := ih
    refine ⟨_, _, .more unfinished later, ?_, ?_⟩
    · simpa [allTokens, step] using sameTokens
    · simpa [allReports, step] using sameReports

/-- A scan to the end gives just what was read on the way. -/
theorem Reads.scanOnto_eq {final : Scanner} {tokens : List Token} {reports : List Report}
    (reads : Reads scanner tokens reports final) (earlier : List Token) (reported : List Report) :
    scanner.scanOnto earlier reported =
      { tokens := earlier.reverse ++ tokens
        reports := reported.reverse ++ reports
        scanner := final } := by
  induction reads generalizing earlier reported with
  | last ended =>
    rw [Scanner.scanOnto]
    simp [ended]
  | more unfinished _ ih =>
    rw [Scanner.scanOnto]
    simp [unfinished, ih]

theorem Reads.scanAll_eq {final : Scanner} {tokens : List Token} {reports : List Report}
    (reads : Reads scanner tokens reports final) :
    scanner.scanAll =
      { tokens := tokens.map (·.withLines final.lines), reports, scanner := final } := by
  rw [scanAll, reads.scanOnto_eq]
  rfl

theorem scanAll_reads (scanner : Scanner) :
    ∃ tokens, Reads scanner tokens scanner.scanAll.reports scanner.scanAll.scanner ∧
      scanner.scanAll.tokens = tokens.map (·.withLines scanner.scanAll.scanner.lines) := by
  obtain ⟨tokens, reports, reads, sameTokens, sameReports⟩ := scanner.scanOnto_reads [] []
  have all : scanner.scanAll.reports = reports := sameReports
  refine ⟨tokens, all ▸ reads, ?_⟩
  exact congrArg (List.map _) sameTokens

end Scanner

end ScriptSyntax

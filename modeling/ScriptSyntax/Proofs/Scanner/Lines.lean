import ScriptSyntax.Proofs.Scanner.Run
import ScriptSyntax.Proofs.Source.LineIndex

/-! The line table of a scanner is that of its whole source, as far as it has read. So
whatever is located during a scan is located as in the whole source, also in words if these go
far enough. -/
namespace ScriptSyntax

open LineTable

namespace Scanner

variable {scanner : Scanner} {source taken : List Char} {initial : Location}

theorem HasRead.upTo (read : scanner.HasRead source initial taken) :
    scanner.lines.UpTo source initial scanner.position := by
  have table : (ofText taken initial).UpTo (taken ++ scanner.rest) initial
      (initial.index + taken.length) := ofText_upTo read.uncut
  rw [read.whole] at table
  rw [read.lines, read.position]
  exact table

theorem HasRead.lines_of_finished (read : scanner.HasRead source initial taken)
    (finished : scanner.rest = []) : scanner.lines = ofText source initial := by
  have whole := read.whole
  rw [finished, List.append_nil] at whole
  rw [read.lines, whole]

/-- Reading on never moves back. -/
theorem HasRead.position_le_after (read : scanner.HasRead source initial taken)
    (hints : Nat → Option Bool) {count later : Nat} (before : count ≤ later) :
    (scanner.after hints count).position ≤ (scanner.after hints later).position := by
  induction before with
  | refl => exact Nat.le_refl _
  | @step later _ ih =>
    obtain ⟨more, reached⟩ := read.after hints later
    have placed := (reached.scan ((hints later).getD (scanner.after hints later).allowsRegex)).2
    exact Nat.le_trans ih (Nat.le_trans placed.origin_le placed.start_le)

end Scanner

/-- A report is located where the table of the whole source has its start. -/
theorem Report.Placed.location {report : Report} {source : List Char} {initial : Location}
    {position : Nat} (placed : report.Placed source initial position) (log : DiagnosticLog) :
    (log.resolve report).location = (ofText source initial).locate report.span.start := by
  obtain ⟨table, lines, upTo⟩ := placed.lines
  have located : report.span.startLocation = table.locate report.span.start := by
    rw [Span.startLocation, Span.locate, lines]
  exact located.trans (upTo.locate (Nat.le_of_lt placed.start_lt))

theorem Scanner.Reads.located {scanner final : Scanner} {tokens : List Token}
    {reports : List Report} {source taken : List Char} {initial : Location}
    (reads : Reads scanner tokens reports final) (read : scanner.HasRead source initial taken) :
    final.lines = ofText source initial ∧
      ∀ report ∈ reports, ∃ position ≤ initial.index + source.length,
        report.Placed source initial position := by
  induction reads generalizing taken with
  | @last scanner ended =>
    obtain ⟨⟨more, next⟩, placed⟩ := read.scan scanner.allowsRegex
    refine ⟨next.lines_of_finished (scan_endOfFile ended), ?_⟩
    intro report member
    exact ⟨_, next.position_le, placed.reports report member⟩
  | @more scanner final tokens reports unfinished later ih =>
    obtain ⟨⟨more, next⟩, placed⟩ := read.scan scanner.allowsRegex
    obtain ⟨lines, others⟩ := ih next
    refine ⟨lines, ?_⟩
    intro report member
    rcases List.mem_append.mp member with early | late
    · exact ⟨_, next.position_le, placed.reports report early⟩
    · exact others report late

namespace Scanner

variable {scanner : Scanner} {source taken : List Char} {initial : Place}

theorem HasRead.lineIndex (read : scanner.HasRead source initial.toLocation taken) :
    scanner.lineIndex = .ofText taken initial := by
  rw [Scanner.lineIndex, read.lines, LineIndex.toIndex_ofText]

end Scanner

end ScriptSyntax

import ScriptSyntax.Source.LineTable

/-! The same text elsewhere in a document. Offsets and lines move along with it, columns on
its first line only. -/
namespace ScriptSyntax

/-- Where a location of a text that begins a document comes to be when the text begins at
`origin` instead. -/
def Location.movedTo (location origin : Location) : Location where
  index := origin.index + location.index
  line := origin.line + location.line - 1
  column := if location.line = 1 then location.column + origin.column - 1 else location.column

@[simp] theorem Location.start_movedTo (origin : Location) : start.movedTo origin = origin := by
  simp [movedTo, start]

namespace LineTable

variable {table : LineTable} {origin : Location}

def movedTo (table : LineTable) (origin : Location) : LineTable where
  initial := table.initial.movedTo origin
  recorded := table.recorded.map (origin.index + ·)

theorem movedTo_record (table : LineTable) (origin : Location) (offset : Nat) :
    (table.movedTo origin).record (origin.index + offset) =
      (table.record offset).movedTo origin := by
  unfold record
  cases same : table.recorded with
  | nil => simp [movedTo, same]
  | cons last earlier =>
    by_cases past : last < offset <;> simp [movedTo, same, past]

theorem movedTo_recordAll (table : LineTable) (origin : Location) (offsets : List Nat) :
    (table.movedTo origin).recordAll (offsets.map (origin.index + ·)) =
      (table.recordAll offsets).movedTo origin := by
  induction offsets generalizing table with
  | nil => rfl
  | cons offset rest ih =>
    calc (table.movedTo origin).recordAll ((offset :: rest).map (origin.index + ·))
        = ((table.movedTo origin).record (origin.index + offset)).recordAll
            (rest.map (origin.index + ·)) := rfl
      _ = ((table.record offset).movedTo origin).recordAll (rest.map (origin.index + ·)) := by
        rw [movedTo_record]
      _ = ((table.record offset).recordAll rest).movedTo origin := ih (table.record offset)

/-- Only on the first line the column of the origin counts. -/
theorem locate_movedTo (begins : table.initial = .start) (origin : Location) (index : Nat) :
    (table.movedTo origin).locate (origin.index + index) =
      (table.locate index).movedTo origin := by
  have moved : (table.movedTo origin).recorded.dropWhile (origin.index + index < ·) =
      (table.recorded.dropWhile (index < ·)).map (origin.index + ·) := by
    rw [movedTo, List.dropWhile_map]
    congr 2
    funext start
    simp
  unfold locate
  rw [moved]
  cases table.recorded.dropWhile (index < ·) with
  | nil =>
    simp only [movedTo, begins, Location.movedTo, Location.start, List.map_nil, if_true,
      Location.mk.injEq, true_and]
    omega
  | cons start earlier =>
    have later : (1 : Nat) + earlier.length + 1 ≠ 1 := by omega
    simp only [movedTo, begins, Location.movedTo, Location.start, List.map_cons, List.length_map,
      if_neg later, Location.mk.injEq, true_and]
    omega

end LineTable

end ScriptSyntax

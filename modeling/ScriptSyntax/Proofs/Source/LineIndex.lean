import ScriptSyntax.Proofs.Source.Locating
import ScriptSyntax.Source.LineIndex

/-! The line index does in words what the line table does in numbers. What it gives is the word
of what the table gives; where that goes past the last word, positions are no longer counted. -/
namespace ScriptSyntax

theorem toNat_ofNat_of_lt {number : Nat} (inWords : number < UInt32.size) :
    (UInt32.ofNat number).toNat = number :=
  UInt32.toNat_ofNat_of_lt' inWords

theorem ofNat_lt_ofNat_iff {first second : Nat} (firstIn : first < UInt32.size)
    (secondIn : second < UInt32.size) : UInt32.ofNat first < .ofNat second ↔ first < second := by
  rw [UInt32.lt_iff_toNat_lt, toNat_ofNat_of_lt firstIn, toNat_ofNat_of_lt secondIn]

@[simp] theorem Place.toLocation_toPlace (place : Place) : place.toLocation.toPlace = place := by
  simp [toLocation, Location.toPlace]

/-- No number of the location goes past the last word. -/
structure Location.InWords (location : Location) : Prop where
  index : location.index < UInt32.size
  line : location.line < UInt32.size
  column : location.column < UInt32.size

theorem Place.toLocation_inWords (place : Place) : place.toLocation.InWords :=
  ⟨place.index.toNat_lt_size, place.line.toNat_lt_size, place.column.toNat_lt_size⟩

/-- The place stands earlier in the text as people read it. -/
def Place.Precedes (first second : Place) : Prop :=
  first.line < second.line ∨ first.line = second.line ∧ first.column < second.column

theorem Location.Precedes.toPlace {first second : Location} (precedes : first.Precedes second)
    (inWords : second.InWords) : first.toPlace.Precedes second.toPlace := by
  rcases precedes with above | ⟨same, ahead⟩
  · exact .inl ((ofNat_lt_ofNat_iff (Nat.lt_trans above inWords.line) inWords.line).mpr above)
  · refine .inr ⟨congrArg UInt32.ofNat same, ?_⟩
    exact (ofNat_lt_ofNat_iff (Nat.lt_trans ahead inWords.column) inWords.column).mpr ahead

namespace LineIndex

variable {lines : LineIndex} {offset line : UInt32}

/-- The table of the numbers that the words stand for. -/
def toTable (lines : LineIndex) : LineTable :=
  ⟨lines.initial.toLocation, lines.recorded.map UInt32.toNat⟩

/-- Line starts stand in words as in numbers: one word for each. -/
theorem startsIn_ofNat (offset : Nat) (text : List Char) :
    startsIn (.ofNat offset) text = (LineTable.startsIn offset text).map .ofNat := by
  fun_induction LineTable.startsIn offset text with
  | case1 offset => rfl
  | case2 offset rest ih =>
    rw [startsIn, ← UInt32.ofNat_one, ← UInt32.ofNat_add, ← UInt32.ofNat_add, ih]
    rfl
  | case3 offset c rest whole terminator ih =>
    rw [startsIn.eq_3 _ _ _ whole, if_pos terminator, ← UInt32.ofNat_one, ← UInt32.ofNat_add, ih]
    rfl
  | case4 offset c rest whole plain ih =>
    rw [startsIn.eq_3 _ _ _ whole, if_neg plain, ← UInt32.ofNat_one, ← UInt32.ofNat_add, ih]

/-- The complete index of a text is the one that is kept of its complete table. -/
theorem toIndex_ofText (text : List Char) (initial : Place) :
    (LineTable.ofText text initial.toLocation).toIndex = ofText text initial := by
  rw [LineTable.toIndex, LineTable.ofText_initial, LineTable.ofText_starts, ofText,
    Place.toLocation_toPlace, ← startsIn_ofNat]
  exact congrArg (fun offset => addAll { initial } (startsIn offset text)) UInt32.ofNat_toNat

end LineIndex

/-- The line starts of the table increase and do not go past the last word. -/
structure LineTable.InWords (table : LineTable) : Prop where
  initial : table.initial.InWords
  increasing : table.starts.Pairwise (· < ·)
  starts : ∀ start ∈ table.starts, start < UInt32.size

namespace LineTable.InWords

variable {table : LineTable} {index : Nat}

end LineTable.InWords

/-- The line starts of a text that ends before the last word. -/
theorem LineTable.ofText_inWords {text : List Char} {initial : Place}
    (room : initial.index.toNat + text.length < UInt32.size) :
    (ofText text initial.toLocation).InWords where
  initial := by
    rw [ofText_initial]
    exact initial.toLocation_inWords
  increasing := (ofText_increasing text initial.toLocation).starts
  starts start member := by
    rw [ofText_starts] at member
    exact Nat.lt_of_le_of_lt (mem_startsIn_bounds member).2 room

/-- The line starts of a text as far as it has been read. -/
theorem LineTable.UpTo.inWords {table : LineTable} {source : List Char} {initial : Place}
    {bound : Nat} (upTo : table.UpTo source initial.toLocation bound)
    (room : initial.index.toNat + source.length < UInt32.size) : table.InWords where
  initial := upTo.begins ▸ initial.toLocation_inWords
  increasing := by
    rw [upTo.starts]
    exact (ofText_inWords room).increasing.filter _
  starts start member := by
    rw [upTo.starts] at member
    exact (ofText_inWords room).starts start (List.mem_of_mem_filter member)

namespace LineIndex

variable {lines : LineIndex}

end LineIndex

namespace LineIndex

variable {lines : LineIndex}

/-- The line of an offset, counted without end, does not go past the last word. -/
def LineFits (lines : LineIndex) (offset : UInt32) : Prop :=
  (lines.toTable.locate offset.toNat).line < UInt32.size

instance (lines : LineIndex) (offset : UInt32) : Decidable (lines.LineFits offset) :=
  inferInstanceAs (Decidable (_ < _))

/-- Neither the line of an offset nor its column goes past the last word. -/
structure Fits (lines : LineIndex) (offset : UInt32) : Prop where
  line : lines.LineFits offset
  column : (lines.toTable.locate offset.toNat).column < UInt32.size

theorem Fits.inWords {offset : UInt32} (fits : lines.Fits offset) :
    (lines.toTable.locate offset.toNat).InWords where
  index := by
    rw [LineTable.locate_index]
    exact offset.toNat_lt_size
  line := fits.line
  column := fits.column

end LineIndex

end ScriptSyntax

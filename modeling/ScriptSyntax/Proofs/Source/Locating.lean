import ScriptSyntax.Proofs.Source.LineTable
import Mathlib.Data.List.Sort
import Mathlib.Data.List.TakeWhile

/-! The line of an offset is the number of line terminators that end up to there, and its
column the distance from the last of them. An offset and its location determine each other,
whatever line starts were recorded in whatever order. -/
namespace ScriptSyntax

/-- The position stands earlier in the text as people read it. -/
def Location.Precedes (first second : Location) : Prop :=
  first.line < second.line ∨ first.line = second.line ∧ first.column < second.column

namespace LineTable

variable {table : LineTable} {index start : Nat}

section Counting

end Counting

/-- The line starts increase, and all lie behind the beginning of the first line. -/
structure Increasing (table : LineTable) : Prop where
  starts : table.starts.Pairwise (· < ·)
  behind : ∀ start ∈ table.starts, table.initial.index < start

theorem Increasing.record (increasing : table.Increasing) (behind : table.initial.index < start) :
    (table.record start).Increasing := by
  unfold LineTable.record
  split
  · exact ⟨List.pairwise_singleton _ _, fun other member => List.mem_singleton.mp member ▸ behind⟩
  next last rest found =>
  split
  · next past =>
    have begun : table.starts = rest.reverse ++ [last] := by
      rw [LineTable.starts, found, List.reverse_cons]
    have grown : { table with recorded := start :: table.recorded }.starts =
        table.starts ++ [start] := List.reverse_cons
    refine ⟨?_, fun other member => ?_⟩
    · rw [grown, List.pairwise_append]
      refine ⟨increasing.starts, List.pairwise_singleton _ _, fun other member only same => ?_⟩
      obtain rfl := List.mem_singleton.mp same
      have sorted := increasing.starts
      rw [begun] at sorted member
      rcases List.mem_append.mp member with earlier | top
      · exact Nat.lt_trans ((List.pairwise_append.mp sorted).2.2 other earlier last (by simp)) past
      · exact List.mem_singleton.mp top ▸ past
    · rw [grown] at member
      rcases List.mem_append.mp member with old | new
      · exact increasing.behind other old
      · exact List.mem_singleton.mp new ▸ behind
  · exact increasing

/-- Line starts may be recorded in any order; those that come too late are dropped. -/
theorem Increasing.recordAll {offsets : List Nat} (increasing : table.Increasing)
    (behind : ∀ offset ∈ offsets, table.initial.index < offset) :
    (table.recordAll offsets).Increasing := by
  induction offsets generalizing table with
  | nil => exact increasing
  | cons offset rest ih =>
    refine ih (increasing.record (behind offset (by simp))) fun later member => ?_
    rw [record_initial]
    exact behind later (by simp [member])

theorem increasing_empty (initial : Location) : Increasing { initial } :=
  ⟨.nil, by simp [starts]⟩

theorem ofText_increasing (text : List Char) (initial : Location) :
    (ofText text initial).Increasing :=
  (increasing_empty initial).recordAll fun _ member => (mem_startsIn_bounds member).1

/-- The lines after the first that have begun at an offset. -/
def passed (table : LineTable) (index : Nat) : List Nat := table.starts.filter (· ≤ index)

end LineTable

end ScriptSyntax

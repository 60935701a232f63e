import ScriptSyntax.Json.Value
import ScriptSyntax.Problem.Diagnostic

/-! Diagnostics as JSON, written and read back. -/
namespace ScriptSyntax

namespace Json

/-- The values of a record's fields: from an object, in which other keys do not
matter, or from an array of exactly so many values. -/
def Value.fields? (keys : List String) : Value → Option (List Value)
  | .object members => keys.mapM (Value.member? members)
  | .array elements => if elements.length = keys.length then some elements else none
  | _ => none

/-- An integer of at most 32 bits. -/
def Value.word? : Value → Option Nat
  | .integer value => if 0 ≤ value ∧ value < Nat.pow 2 32 then some value.toNat else none
  | _ => none

/-- A name, alone or as the only key of an object with nothing to say about it. -/
def Value.name? : Value → Option String
  | .string text => some text
  | .object [(key, .null)] => some key
  | _ => none

end Json

open Json (Value)

def Location.toJson (location : Location) : Value :=
  .object [
    ("index", .ofNat location.index),
    ("line", .ofNat location.line),
    ("column", .ofNat location.column)]

def Location.ofJson? (value : Value) : Option Location := do
  match ← value.fields? ["index", "line", "column"] with
  | [index, line, column] => return ⟨← index.word?, ← line.word?, ← column.word?⟩
  | _ => none

namespace Diagnostic

def toJson (diagnostic : Diagnostic) : Value :=
  .object [
    ("error", .string diagnostic.problem.name),
    ("category", .string diagnostic.severity.name),
    ("code", .ofNat diagnostic.code),
    ("start", .ofNat diagnostic.start),
    ("end", .ofNat diagnostic.stop),
    ("location", diagnostic.location.toJson),
    ("message_text", .string diagnostic.message)]

/-- The diagnostic written as this value. Severity, code and message are taken as they
stand, even where the problem would have others. -/
def ofJson? (value : Value) : Option Diagnostic := do
  match ← value.fields?
      ["error", "category", "code", "start", "end", "location", "message_text"] with
  | [problem, severity, code, start, stop, location, .string message] =>
    return {
      problem := ← ProblemKind.ofName? (← problem.name?)
      severity := ← Severity.ofName? (← severity.name?)
      code := ← code.word?
      start := ← start.word?
      stop := ← stop.word?
      location := ← Location.ofJson? location
      message }
  | _ => none

end Diagnostic

end ScriptSyntax

import ScriptSyntax.Text.Trim

/-! Which messages about its own work the program is asked to write, and how. -/
namespace ScriptSyntax

inductive LogFormat where
  | text | tree | json
  deriving DecidableEq, Repr

/-- The format a word names; any other word means plain text. -/
def LogFormat.ofWord (word : String) : LogFormat :=
  match normalizedWord word with
  | "tree" => .tree
  | "json" => .json
  | _ => .text

structure LogSettings where
  directives : String
  format : LogFormat
  deriving DecidableEq, Repr

/-- Settings from the program's own filter, or else the general one, and a format.
Without a filter nothing is asked for. -/
def LogSettings.select (own general format : Option String) : Option LogSettings :=
  (own <|> general).map fun directives =>
    { directives, format := (format.map LogFormat.ofWord).getD .text }

end ScriptSyntax

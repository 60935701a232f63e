import ScriptSyntax.Scanner.Basic

/-! Command-line arguments. A value that stands apart from its option, and the file,
are judged only when the next argument that is understood comes along, or at the end;
so an argument that is not understood is reported before them. -/
namespace ScriptSyntax

inductive OutputFormat where
  | text | json
  deriving DecidableEq, Repr

def OutputFormat.ofName? : String → Option OutputFormat
  | "text" => some .text
  | "json" => some .json
  | _ => none

/-- The arguments as understood. -/
structure Arguments where
  file : String
  config : Option String
  strict : Bool
  skipTrivia : Bool
  noColor : Bool
  format : OutputFormat
  deriving DecidableEq, Repr

/-- Switches turn options on and never off. -/
def Arguments.scanOptions (arguments : Arguments) (base : ScanOptions) : ScanOptions where
  strict := base.strict || arguments.strict
  skipTrivia := base.skipTrivia || arguments.skipTrivia

/-- Why the arguments name nothing to do. -/
inductive UsageError where
  | missingFile
  /-- An option without its value, an empty path or an unknown format. -/
  | invalidValue
  | unknownArgument
  /-- An option given twice. -/
  | repeatedOption
  /-- A value given to a switch. -/
  | valueOnSwitch
  | helpRequested
  | versionRequested
  deriving DecidableEq, Repr

/-- Options that take a value. -/
inductive ValueOption where
  | config | format
  deriving DecidableEq, Repr

/-- Options that take none. -/
inductive Switch where
  | strict | skipTrivia | noColor
  deriving DecidableEq, Repr

/-- What the name after two dashes means. -/
inductive LongOption where
  | value (option : ValueOption)
  | switch (switch : Switch)
  | stop (reason : UsageError)
  deriving DecidableEq, Repr

def LongOption.ofName? : String → Option LongOption
  | "config" => some (.value .config)
  | "format" => some (.value .format)
  | "strict" => some (.switch .strict)
  | "skip-trivia" => some (.switch .skipTrivia)
  | "no-color" => some (.switch .noColor)
  | "help" => some (.stop .helpRequested)
  | "version" => some (.stop .versionRequested)
  | _ => none

/-- A value that has been given but not judged. -/
inductive PendingValue where
  | file (path : String)
  | option (option : ValueOption) (value : Option String)
  deriving DecidableEq, Repr

/-- What the arguments so far amount to. -/
structure ArgumentDraft where
  file : Option String := none
  config : Option String := none
  format : Option OutputFormat := none
  switches : List Switch := []
  pending : Option PendingValue := none
  /-- A file has been given, judged or not. -/
  hasFile : Bool := false
  /-- Two dashes have been met: no more options. -/
  onlyFiles : Bool := false
  deriving DecidableEq, Repr

namespace ArgumentDraft

/-- Judge the value of an option. A repeated option is refused whatever its value. -/
def setValue (draft : ArgumentDraft) (option : ValueOption) (value : String) :
    Except UsageError ArgumentDraft :=
  match option with
  | .config =>
    if draft.config.isSome then .error .repeatedOption
    else if value.isEmpty then .error .invalidValue
    else .ok { draft with config := some value }
  | .format =>
    if draft.format.isSome then .error .repeatedOption
    else match OutputFormat.ofName? value with
      | some format => .ok { draft with format := some format }
      | none => .error .invalidValue

/-- Judge the value that is waiting, if any. -/
def settle (draft : ArgumentDraft) : Except UsageError ArgumentDraft :=
  match draft.pending with
  | none => .ok draft
  | some (.file path) =>
    if path.isEmpty then .error .invalidValue
    else .ok { draft with file := some path, pending := none }
  | some (.option _ none) => .error .invalidValue
  | some (.option option (some value)) => { draft with pending := none }.setValue option value

def setSwitch (draft : ArgumentDraft) (switch : Switch) : Except UsageError ArgumentDraft :=
  if draft.switches.contains switch then .error .repeatedOption
  else .ok { draft with switches := switch :: draft.switches }

/-- Take an argument with two dashes, split at its first equals sign. -/
def addLong (draft : ArgumentDraft) (name : String) (attached : Option String) :
    Except UsageError ArgumentDraft :=
  match LongOption.ofName? name, attached with
  | none, _ => .error .unknownArgument
  | some (.value option), some value => do (← draft.settle).setValue option value
  | some (.value option), none => do
    return { ← draft.settle with pending := some (.option option none) }
  | some _, some _ => .error .valueOnSwitch
  | some (.switch switch), none => do (← draft.settle).setSwitch switch
  | some (.stop reason), none => do
    let _ ← draft.settle
    throw reason

/-- Take an argument with one dash by its first letter. -/
def addShort (draft : ArgumentDraft) (letter : Char) : Except UsageError ArgumentDraft := do
  let stop (reason : UsageError) : Except UsageError ArgumentDraft := do
    let _ ← draft.settle
    throw reason
  if letter == 'h' then stop .helpRequested
  else if letter == 'V' then stop .versionRequested
  else throw .unknownArgument

/-- Take the file. There is only one. -/
def addFile (draft : ArgumentDraft) (path : String) : Except UsageError ArgumentDraft :=
  if draft.hasFile then .error .unknownArgument
  else do return { ← draft.settle with pending := some (.file path), hasFile := true }

/-- Take an argument that is no option: a value somebody waits for, or the file. -/
def addPlain (draft : ArgumentDraft) (text : String) : Except UsageError ArgumentDraft :=
  match draft.pending with
  | some (.option option none) =>
    .ok { draft with pending := some (.option option (some text)) }
  | _ => draft.addFile text

def add (draft : ArgumentDraft) (argument : String) : Except UsageError ArgumentDraft :=
  if draft.onlyFiles then draft.addFile argument
  else match argument.toList with
    | ['-', '-'] => .ok { draft with onlyFiles := true }
    | '-' :: '-' :: rest =>
      let name := rest.takeWhile (· != '=')
      let attached := match rest.dropWhile (· != '=') with
        | _ :: value => some (String.ofList value)
        | [] => none
      draft.addLong (String.ofList name) attached
    | '-' :: letter :: _ => draft.addShort letter
    | _ => draft.addPlain argument

/-- The arguments, once the last of them is judged. -/
def finish (draft : ArgumentDraft) : Except UsageError Arguments := do
  let draft ← draft.settle
  match draft.file with
  | none => throw .missingFile
  | some file =>
    return {
      file
      config := draft.config
      strict := draft.switches.contains .strict
      skipTrivia := draft.switches.contains .skipTrivia
      noColor := draft.switches.contains .noColor
      format := draft.format.getD .text }

end ArgumentDraft

/-- Understand the arguments that follow the program's name. -/
def Arguments.parse (arguments : List String) : Except UsageError Arguments := do
  (← arguments.foldlM ArgumentDraft.add {}).finish

end ScriptSyntax

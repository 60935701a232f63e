import ScriptSyntax.Command.Arguments
import ScriptSyntax.Command.Listing
import ScriptSyntax.Command.Settings

/-! Scanning the file that the arguments name. Files are read through a function given
by the caller; all else is computed here. -/
namespace ScriptSyntax

/-- Why a file has no text. -/
inductive ReadError where
  | notFound | isDirectory | notDirectory | nameTooLong | permissionDenied
  | nulInName | notUtf8
  | other (text : String)
  deriving DecidableEq, Repr

def ReadError.text : ReadError → String
  | notFound => "No such file or directory (os error 2)"
  | isDirectory => "Is a directory (os error 21)"
  | notDirectory => "Not a directory (os error 20)"
  | nameTooLong => "File name too long (os error 36)"
  | permissionDenied => "Permission denied (os error 13)"
  | nulInName => "file name contained an unexpected NUL byte"
  | notUtf8 => "stream did not contain valid UTF-8"
  | other text => text

/-- Why a run gives no report. -/
inductive RunError where
  | settingsUnreadable (path : String) (reason : ReadError)
  | settingsInvalid (path : String) (fault : SettingsFault)
  | sourceUnreadable (path : String) (reason : ReadError)
  deriving DecidableEq, Repr

/-- What went wrong with a settings text, the most general first. -/
def SettingsFault.chain (fault : SettingsFault) : List String :=
  ["failed to parse scanner config", fault.message]

namespace RunError

/-- What went wrong, the most general first. -/
def chain : RunError → List String
  | settingsUnreadable path reason => [s!"failed to read config: {path}", reason.text]
  | settingsInvalid path fault => s!"in config file {path}" :: fault.chain
  | sourceUnreadable path reason => [s!"failed to read {path}", reason.text]

/-- A cause with the lines after its first indented. -/
def indented (first later cause : String) : String :=
  first ++ String.intercalate ("\n" ++ later) (cause.splitOn "\n")

/-- The error with its causes below it, numbered when there are several. -/
def report (error : RunError) : String :=
  match error.chain with
  | [] => ""
  | [only] => s!"Error: {only}\n"
  | [outer, cause] => s!"Error: {outer}\n\nCaused by:\n" ++ indented "    " "    " cause ++ "\n"
  | outer :: causes =>
    let lines := causes.zipIdx.map fun (cause, number) =>
      indented s!"    {number}: " "       " cause
    s!"Error: {outer}\n\nCaused by:\n" ++ String.intercalate "\n" lines ++ "\n"

end RunError

/-- How a file is read. -/
abbrev FileReader (m : Type → Type) := String → m (Except ReadError String)

namespace Arguments

variable {m : Type → Type} [Monad m]

/-- The options of the settings file, if one is named, with the switches on top. -/
def resolveOptions (arguments : Arguments) (read : FileReader m) :
    ExceptT RunError m ScanOptions := do
  match arguments.config with
  | none => return arguments.scanOptions {}
  | some path =>
    match ← read path with
    | .error reason => throw (.settingsUnreadable path reason)
    | .ok text =>
      match Settings.parse text.toList with
      | .error fault => throw (.settingsInvalid path fault)
      | .ok options => return arguments.scanOptions options

/-- Scan the file. -/
def run (arguments : Arguments) (read : FileReader m) : ExceptT RunError m ScanReport := do
  let options ← arguments.resolveOptions read
  match ← read arguments.file with
  | .error reason => throw (.sourceUnreadable arguments.file reason)
  | .ok text => return .ofSource text.toList options

end Arguments

/-- What a finished program leaves behind. -/
structure Outcome where
  code : Nat
  output : String := ""
  errors : String := ""
  deriving DecidableEq, Repr

namespace Outcome

def programName : String := "ecma-tokens"

def version : String := "0.1.0"

def usage : String :=
  s!"Usage: {programName} [--config PATH] [--strict] [--skip-trivia]" ++
  " [--format text|json] [--no-color] FILE\n"

/-- The outcome when there is nothing to do. -/
def ofUsageError : UsageError → Outcome
  | .helpRequested => { code := 0, output := usage }
  | .versionRequested => { code := 0, output := s!"{programName} {version}\n" }
  | .missingFile => { code := 2, errors := "error: no file given\n\n" ++ usage }
  | .invalidValue => { code := 2, errors := "error: an option has no valid value\n\n" ++ usage }
  | .unknownArgument => { code := 2, errors := "error: unknown argument\n\n" ++ usage }
  | .repeatedOption => { code := 2, errors := "error: an option is given twice\n\n" ++ usage }
  | .valueOnSwitch => { code := 2, errors := "error: a switch takes no value\n\n" ++ usage }

/-- A text on a line of its own, if there is any. -/
def onLine (text : String) : String := if text.isEmpty then "" else text ++ "\n"

/-- The listing and the problems; the code tells whether there are errors. -/
def ofReport (arguments : Arguments) (color : Bool) (report : ScanReport) : Outcome where
  code := if report.hasErrors then 1 else 0
  output := onLine <| match arguments.format with
    | .text => Listing.textOf report.tokens
    | .json => Listing.jsonOf report.tokens
  errors := onLine <| Listing.diagnosticsOf (color && !arguments.noColor) arguments.file
    report.diagnostics

end Outcome

/-- The whole program, given its arguments and whether it may use colour. -/
def execute {m : Type → Type} [Monad m] (arguments : List String) (color : Bool)
    (read : FileReader m) : m Outcome := do
  match Arguments.parse arguments with
  | .error reason => return .ofUsageError reason
  | .ok arguments =>
    match ← arguments.run read with
    | .error error => return { code := 1, errors := error.report }
    | .ok report => return .ofReport arguments color report

end ScriptSyntax

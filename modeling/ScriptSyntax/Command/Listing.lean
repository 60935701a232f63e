import ScriptSyntax.Json.Value
import ScriptSyntax.Scanner.Scan

/-! What a scan of a whole source gives, and how it is shown: tokens line by line or as
JSON, and problems with the file they are in. -/
namespace ScriptSyntax

/-- One token as listed. -/
structure TokenRecord where
  kind : String
  start : Nat
  stop : Nat
  line : Nat
  column : Nat
  text : String
  deriving DecidableEq, Repr

namespace TokenRecord

def ofToken (token : Token) : TokenRecord :=
  let location := token.span.startLocation
  { kind := token.kind.name
    start := token.span.start
    stop := token.span.stop
    line := location.line
    column := location.column
    text := token.text }

/-- Position, kind and quoted text, on one line. -/
def lineText (record : TokenRecord) : String :=
  s!"{record.line}:{record.column} {record.kind} {quoted record.text}"

def toJson (record : TokenRecord) : Json.Value :=
  .object [
    ("kind", .string record.kind),
    ("start", .ofNat record.start),
    ("end", .ofNat record.stop),
    ("line", .ofNat record.line),
    ("column", .ofNat record.column),
    ("text", .string record.text)]

end TokenRecord

/-- Everything one scan gives. -/
structure ScanReport where
  /-- The tokens in source order, without the end of file. -/
  tokens : List TokenRecord
  diagnostics : List Diagnostic
  deriving DecidableEq, Repr

namespace ScanReport

def ofSource (source : List Char) (options : ScanOptions) : ScanReport :=
  let scan := (Scanner.start options source).scanAll
  { tokens := (scan.tokens.filter fun token => token.kind != .endOfFile).map .ofToken
    diagnostics := (({} : DiagnosticLog).addAll scan.reports).diagnostics }

/-- Warnings alone do not count. -/
def hasErrors (report : ScanReport) : Bool := report.diagnostics.any Diagnostic.isError

end ScanReport

namespace Listing

/-- One line for each token. -/
def textOf (tokens : List TokenRecord) : String :=
  String.intercalate "\n" (tokens.map TokenRecord.lineText)

def jsonOf (tokens : List TokenRecord) : String :=
  (Json.Value.array (tokens.map TokenRecord.toJson)).pretty

/-- A text in a terminal style, or as it is. -/
def styled (color : Bool) (style text : String) : String :=
  if color then s!"\x1b[{style}m{text}\x1b[0m" else text

/-- Bold, and a colour for each severity. -/
def severityStyle : Severity → String
  | .error => "1;31"
  | .warning => "1;33"
  | .suggestion => "1;34"
  | .message => "1;36"

/-- Gray. -/
def codeStyle : String := "90"

/-- File, position, severity, code and message, on one line. -/
def diagnosticLine (color : Bool) (file : String) (diagnostic : Diagnostic) : String :=
  let label := styled color (severityStyle diagnostic.severity) diagnostic.severity.label
  let code := styled color codeStyle s!"JS{diagnostic.code}"
  s!"{file}:{diagnostic.location.text} - {label} {code}: {diagnostic.message}"

/-- One line for each diagnostic. -/
def diagnosticsOf (color : Bool) (file : String) (diagnostics : List Diagnostic) : String :=
  String.intercalate "\n" (diagnostics.map (diagnosticLine color file))

end Listing

end ScriptSyntax

import ScriptSyntax.Problem.Kind
import ScriptSyntax.Token.Span

/-! Problems as they are reported: a scan reports a problem with the span it covers,
and a log resolves where that is and how serious it is. -/
namespace ScriptSyntax

/-- A problem and the text it concerns. -/
structure Report where
  problem : ProblemKind
  span : Span
  deriving DecidableEq, Repr

/-- A report resolved for people to read. -/
structure Diagnostic where
  problem : ProblemKind
  severity : Severity
  code : Nat
  start : Nat
  stop : Nat
  location : Location
  message : String
  deriving DecidableEq, Repr

namespace Diagnostic

/-- A diagnostic with the severity, code and wording its problem has by default. -/
def ofProblem (problem : ProblemKind) (start stop : Nat) (location : Location) : Diagnostic where
  problem
  severity := problem.severity
  code := problem.code
  start
  stop
  location
  message := problem.message

def withSeverity (diagnostic : Diagnostic) (severity : Severity) : Diagnostic :=
  { diagnostic with severity }

def length (diagnostic : Diagnostic) : Nat := diagnostic.stop - diagnostic.start

def isError (diagnostic : Diagnostic) : Bool := diagnostic.severity == .error

def text (diagnostic : Diagnostic) : String :=
  s!"({diagnostic.location.text}) {diagnostic.severity.label} JS{diagnostic.code}: " ++
  diagnostic.message

end Diagnostic

/-- Diagnostics in the order they were reported, and the severities chosen for some
kinds of problem in place of the usual ones. -/
structure DiagnosticLog where
  diagnostics : List Diagnostic := []
  severities : List (ProblemKind × Severity) := []
  deriving DecidableEq, Repr, Inhabited

namespace DiagnosticLog

/-- From now on report this problem with this severity. -/
def setSeverity (log : DiagnosticLog) (problem : ProblemKind) (severity : Severity) :
    DiagnosticLog :=
  { log with severities := log.severities.filter (·.1 != problem) ++ [(problem, severity)] }

def severityFor (log : DiagnosticLog) (problem : ProblemKind) : Severity :=
  (log.severities.lookup problem).getD problem.severity

/-- The diagnostic a report becomes, counting without end. -/
def resolve (log : DiagnosticLog) (report : Report) : Diagnostic :=
  (Diagnostic.ofProblem report.problem report.span.start report.span.stop
    report.span.startLocation).withSeverity (log.severityFor report.problem)

/-- The diagnostic that is kept of a report: its offsets and its location in words. -/
def keep (log : DiagnosticLog) (report : Report) : Diagnostic :=
  (Diagnostic.ofProblem report.problem report.span.startWord.toNat report.span.stopWord.toNat
    report.span.startPlace.toLocation).withSeverity (log.severityFor report.problem)

/-- Keep the diagnostics of reports behind those already there. -/
def addAll (log : DiagnosticLog) (reports : List Report) : DiagnosticLog :=
  { log with diagnostics := log.diagnostics ++ reports.map log.keep }

def hasErrors (log : DiagnosticLog) : Bool := log.diagnostics.any Diagnostic.isError

/-- Whether a problem of this kind was reported. -/
def contains (log : DiagnosticLog) (problem : ProblemKind) : Bool :=
  log.diagnostics.any fun diagnostic => diagnostic.problem == problem

/-- Forget the diagnostics, but not the chosen severities. -/
def clear (log : DiagnosticLog) : DiagnosticLog := { log with diagnostics := [] }

end DiagnosticLog

end ScriptSyntax

import ScriptSyntax.Command.Run

/-! The command line. -/
namespace ScriptSyntax

/-- An error number of the system, which may come with its sign turned. -/
def errorNumber (code : UInt32) : Nat :=
  if code.toNat < Nat.pow 2 31 then code.toNat else Nat.pow 2 32 - code.toNat

/-- Why the system gives no bytes. -/
def ReadError.ofSystem : IO.Error → ReadError
  | .noFileOrDirectory .. | .noSuchThing .. => .notFound
  | .inappropriateType _ code _ =>
    if errorNumber code == 20 then .notDirectory else .isDirectory
  | .permissionDenied .. => .permissionDenied
  | .invalidArgument _ code details =>
    if errorNumber code == 36 then .nameTooLong
    else .other s!"{details} (os error {errorNumber code})"
  | error => .other (toString error)

/-- Read a file as UTF-8 text. -/
def readTextFile (path : String) : IO (Except ReadError String) := do
  if path.contains '\x00' then return .error .nulInName
  try
    let bytes ← IO.FS.readBinFile path
    match String.fromUTF8? bytes with
    | some text => return .ok text
    | none => return .error .notUtf8
  catch error => return .error (.ofSystem error)

end ScriptSyntax

open ScriptSyntax in
def main (arguments : List String) : IO UInt32 := do
  let errors ← IO.getStderr
  let outcome ← execute arguments (← errors.isTty) readTextFile
  (← IO.getStdout).putStr outcome.output
  errors.putStr outcome.errors
  return outcome.code.toUInt32

import ScriptSyntax.Command.Run

/-! Files held in memory, so that a run can be followed without a disk. -/
namespace ScriptSyntax

/-- Files and directories by the names that lead to them from the root, and the
directory where relative paths start. -/
structure FileTree where
  files : List (List String × ByteArray)
  directories : List (List String)
  current : List String := []

namespace FileTree

/-- The names on a path; empty ones and single dots lead nowhere. -/
def names (path : String) : List String :=
  (path.splitOn "/").filter fun name => name != "" && name != "."

/-- The directories on the way to a place. -/
def waysTo (place : List String) : List (List String) :=
  (List.range place.length).map place.take

/-- Where relative paths start: a directory of its own among temporary ones. -/
def workplace : List String := ["tmp", "work"]

/-- The directories that stand below the root beside the temporary ones. -/
def standardDirectories : List (List String) :=
  ["bin", "dev", "etc", "home", "proc", "root", "sys", "tmp", "usr", "var"].map ([·])

/-- The device that is read as an empty file. -/
def nullDevice : List String := ["dev", "null"]

/-- These files and directories in the current directory, with all directories on the
way to them and what stands on any machine. -/
def ofPaths (files : List (String × ByteArray)) (directories : List String) : FileTree :=
  let files := files.map fun (path, bytes) => (workplace ++ names path, bytes)
  let directories := workplace :: directories.map fun path => workplace ++ names path
  { files := files ++ [(nullDevice, .empty)]
    directories :=
      standardDirectories ++ directories ++ (files.map (·.1) ++ directories).flatMap waysTo
    current := workplace }

/-- The longest name in bytes. -/
def nameLimit : Nat := 255

/-- The longest path in bytes. -/
def pathLimit : Nat := 4095

/-- Follow names from a place. Only a directory leads on, or back with two dots; the root
leads back to itself. -/
def follow (tree : FileTree) (place : List String) :
    List String → Except ReadError (List String)
  | [] => .ok place
  | name :: rest =>
    if !tree.directories.contains place then
      .error (if (tree.files.lookup place).isSome then .notDirectory else .notFound)
    else if name == ".." then tree.follow place.dropLast rest
    else if name == "" || name == "." then tree.follow place rest
    else if name.utf8ByteSize > nameLimit then .error .nameTooLong
    else tree.follow (place ++ [name]) rest

/-- The place that a path leads to, from the root if it starts with a slash. -/
def resolve (tree : FileTree) (path : String) : Except ReadError (List String) :=
  if path.contains '\x00' then .error .nulInName
  else if path.utf8ByteSize > pathLimit then .error .nameTooLong
  else if path.isEmpty then .error .notFound
  else tree.follow (if path.startsWith "/" then [] else tree.current) (path.splitOn "/")

/-- The text of the file that a path leads to. -/
def read (tree : FileTree) (path : String) : Except ReadError String := do
  let place ← tree.resolve path
  if tree.directories.contains place then throw .isDirectory
  match tree.files.lookup place with
  | none => throw .notFound
  | some bytes =>
    match String.fromUTF8? bytes with
    | some content => return content
    | none => throw .notUtf8

end FileTree

end ScriptSyntax

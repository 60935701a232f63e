/-! The reserved words, nine of which are reserved in strict code only. -/
namespace ScriptSyntax

/-- A reserved word; the last nine are plain identifiers outside strict code. -/
inductive ReservedWord where
  | breakWord | caseWord | catchWord | classWord | constWord | continueWord | debuggerWord
  | defaultWord | deleteWord | doWord | elseWord | enumWord | exportWord | extendsWord
  | falseWord | finallyWord | forWord | functionWord | ifWord | importWord | inWord
  | instanceOfWord | newWord | nullWord | returnWord | superWord | switchWord | thisWord
  | throwWord | trueWord | tryWord | typeOfWord | varWord | voidWord | whileWord | withWord
  | implementsWord | interfaceWord | letWord | packageWord | privateWord | protectedWord
  | publicWord | staticWord | yieldWord
  deriving DecidableEq, Repr, Inhabited

namespace ReservedWord

/-- The spelling in source text. -/
def spelling : ReservedWord → String
  | breakWord => "break"
  | caseWord => "case"
  | catchWord => "catch"
  | classWord => "class"
  | constWord => "const"
  | continueWord => "continue"
  | debuggerWord => "debugger"
  | defaultWord => "default"
  | deleteWord => "delete"
  | doWord => "do"
  | elseWord => "else"
  | enumWord => "enum"
  | exportWord => "export"
  | extendsWord => "extends"
  | falseWord => "false"
  | finallyWord => "finally"
  | forWord => "for"
  | functionWord => "function"
  | ifWord => "if"
  | importWord => "import"
  | inWord => "in"
  | instanceOfWord => "instanceof"
  | newWord => "new"
  | nullWord => "null"
  | returnWord => "return"
  | superWord => "super"
  | switchWord => "switch"
  | thisWord => "this"
  | throwWord => "throw"
  | trueWord => "true"
  | tryWord => "try"
  | typeOfWord => "typeof"
  | varWord => "var"
  | voidWord => "void"
  | whileWord => "while"
  | withWord => "with"
  | implementsWord => "implements"
  | interfaceWord => "interface"
  | letWord => "let"
  | packageWord => "package"
  | privateWord => "private"
  | protectedWord => "protected"
  | publicWord => "public"
  | staticWord => "static"
  | yieldWord => "yield"

/-- The name in listings. -/
def name : ReservedWord → String
  | breakWord => "Break"
  | caseWord => "Case"
  | catchWord => "Catch"
  | classWord => "Class"
  | constWord => "Const"
  | continueWord => "Continue"
  | debuggerWord => "Debugger"
  | defaultWord => "Default"
  | deleteWord => "Delete"
  | doWord => "Do"
  | elseWord => "Else"
  | enumWord => "Enum"
  | exportWord => "Export"
  | extendsWord => "Extends"
  | falseWord => "False"
  | finallyWord => "Finally"
  | forWord => "For"
  | functionWord => "Function"
  | ifWord => "If"
  | importWord => "Import"
  | inWord => "In"
  | instanceOfWord => "InstanceOf"
  | newWord => "New"
  | nullWord => "Null"
  | returnWord => "Return"
  | superWord => "Super"
  | switchWord => "Switch"
  | thisWord => "This"
  | throwWord => "Throw"
  | trueWord => "True"
  | tryWord => "Try"
  | typeOfWord => "TypeOf"
  | varWord => "Var"
  | voidWord => "Void"
  | whileWord => "While"
  | withWord => "With"
  | implementsWord => "Implements"
  | interfaceWord => "Interface"
  | letWord => "Let"
  | packageWord => "Package"
  | privateWord => "Private"
  | protectedWord => "Protected"
  | publicWord => "Public"
  | staticWord => "Static"
  | yieldWord => "Yield"

/-- Reserved in strict code only. -/
def isStrictOnly : ReservedWord → Bool
  | implementsWord | interfaceWord | letWord | packageWord | privateWord | protectedWord
  | publicWord | staticWord | yieldWord => true
  | _ => false

/-- Whether the word is reserved in code of this strictness. -/
def isReserved (word : ReservedWord) (strict : Bool) : Bool := !word.isStrictOnly || strict

/-- All words in declaration order. -/
def all : List ReservedWord := [
  breakWord, caseWord, catchWord, classWord, constWord, continueWord, debuggerWord, defaultWord,
  deleteWord, doWord, elseWord, enumWord, exportWord, extendsWord, falseWord, finallyWord,
  forWord, functionWord, ifWord, importWord, inWord, instanceOfWord, newWord, nullWord,
  returnWord, superWord, switchWord, thisWord, throwWord, trueWord, tryWord, typeOfWord, varWord,
  voidWord, whileWord, withWord, implementsWord, interfaceWord, letWord, packageWord,
  privateWord, protectedWord, publicWord, staticWord, yieldWord]

/-- All words in alphabetical order of spelling. -/
def alphabetical : List ReservedWord := [
  breakWord, caseWord, catchWord, classWord, constWord, continueWord, debuggerWord, defaultWord,
  deleteWord, doWord, elseWord, enumWord, exportWord, extendsWord, falseWord, finallyWord,
  forWord, functionWord, ifWord, implementsWord, importWord, inWord, instanceOfWord,
  interfaceWord, letWord, newWord, nullWord, packageWord, privateWord, protectedWord, publicWord,
  returnWord, staticWord, superWord, switchWord, thisWord, throwWord, trueWord, tryWord,
  typeOfWord, varWord, voidWord, whileWord, withWord, yieldWord]

/-- The words whose spelling begins with `first`. -/
def startingWith (first : Char) : List ReservedWord :=
  alphabetical.filter fun word => word.spelling.toList.head? == some first

/-- The word spelled exactly so. -/
def ofSpelling? (text : String) : Option ReservedWord :=
  match text.toList.head? with
  | none => none
  | some first => (startingWith first).find? fun word => word.spelling == text

end ReservedWord

/-- Whether `text` is a reserved word in code of this strictness. -/
def isReservedWord (text : String) (strict : Bool) : Bool :=
  (ReservedWord.ofSpelling? text).any fun word => word.isReserved strict

end ScriptSyntax

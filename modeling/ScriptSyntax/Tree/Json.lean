import ScriptSyntax.Json.Value
import ScriptSyntax.Tree.Basic

/-! Trees as JSON. A node is an object with one member, named for its form; children
stand in it under the names of their slots. -/
namespace ScriptSyntax

open Json (Value)

/-- The number written for a handle that names no node. -/
def absentHandle : Nat := Nat.pow 2 32 - 1

def handleToJson (handle : Handle) : Value := .ofNat (handle.getD absentHandle)

def Span.toJson (span : Span) : Value :=
  .object [
    ("start", .ofNat span.start),
    ("end", .ofNat span.stop),
    ("token", .string span.kind.name)]

/-- Most values are named by their type; null stands by itself. -/
def Constant.toJson : Constant → Value
  | number value => .object [("Number", .number value)]
  | string value => .object [("String", .string value)]
  | boolean value => .object [("Boolean", .bool value)]
  | null => .string "Null"

namespace Form

/-- The members that stand before the children. -/
def membersBefore : Form → List (String × Value)
  | regularExpression pattern flags => [("pattern", .string pattern), ("flags", .string flags)]
  | lookup name field => [("name", .string name), ("field", .ofOption .ofNat field)]
  | binary op => [("op", .string op.name)]
  | unary op _ => [("op", .string op.name)]
  | propertyName name => [("name", .string name)]
  | function name _ => [("name", .ofOption .string name)]
  | parameter name field => [("name", .string name), ("field", .ofOption .ofNat field)]
  | declaration name _ => [("name", .string name)]
  | _ => []

/-- The members that stand after the children. -/
def membersAfter : Form → List (String × Value)
  | unary _ afterOperand => [("postfix", .bool afterOperand)]
  | function _ scope | block scope | program scope => [("scope", .ofOption .ofNat scope)]
  | declaration _ field => [("field", .ofOption .ofNat field)]
  | _ => []

end Form

namespace Node

/-- The form with its children. -/
def contentToJson (node : Node) : Value :=
  let content := match node.form with
    | .constant value => value.toJson
    | .list family =>
      .object [
        ("family", .string family.name),
        ("nodes", .array (node.slots.map handleToJson))]
    | form =>
      .object (form.membersBefore ++ form.slotNames.zip (node.slots.map handleToJson) ++
        form.membersAfter)
  .object [(node.form.name, content)]

def toJson (node : Node) : Value :=
  .object [
    ("data", node.contentToJson),
    ("span", node.span.toJson),
    ("parent", handleToJson node.parent)]

end Node

def Tree.toJson (tree : Tree) : Value :=
  .object [("nodes", .array (tree.nodes.toList.map Node.toJson))]

end ScriptSyntax

import ScriptSyntax.Scope.Table
import ScriptSyntax.Tree.Json

/-! Scopes and fields as JSON. -/
namespace ScriptSyntax

open Json (Value)

def Scope.toJson (scope : Scope) : Value :=
  .object [
    ("kind", .string scope.kind.name),
    ("parent", .ofOption .ofNat scope.parent),
    ("node", handleToJson scope.node),
    ("len", .ofNat scope.names.length),
    ("empty", .bool scope.names.isEmpty)]

def Field.toJson (field : Field) : Value :=
  .object [
    ("name", .string field.name),
    ("kind", .string field.kind.name),
    ("scope", .ofNat field.scope),
    ("declarations", .array (field.declarations.map .ofNat)),
    ("references", .ofNat field.references)]

end ScriptSyntax

import ScriptSyntax.Scope.Table
import Mathlib.Data.Option.Basic

/-! What names refer to while names are added to the global scope. Nothing is around that
scope, so a new name in it is found just where the search ends there without a find. -/
namespace ScriptSyntax

theorem lookup_zipIdx (names : List String) (first : Nat) (name : String) :
    (names.zipIdx first).lookup name = (names.idxOf? name).map (first + ·) := by
  induction names generalizing first with
  | nil => rfl
  | cons head rest ih =>
    rw [List.zipIdx_cons, List.lookup_cons, List.idxOf?_cons]
    by_cases same : name = head
    · simp [same]
    · have apart : (name == head) = false := beq_false_of_ne same
      rw [apart, if_neg (by simpa using Ne.symm same), Option.map_map]
      dsimp only
      rw [ih]
      congr 1
      funext position
      exact Nat.succ_add_eq_add_succ first position

theorem idxOf?_concat (names : List String) (last name : String) :
    (names ++ [last]).idxOf? name =
      (names.idxOf? name).or (if last = name then some names.length else none) := by
  rw [List.idxOf?, List.findIdx?_append]
  by_cases same : last = name <;> simp [List.findIdx?_cons, same]

namespace ScopeTable

variable {table before after : ScopeTable} {scope : ScopeId} {id : FieldId} {name : String}
  {created : List String}

theorem field?_modifyField (table : ScopeTable) (id other : FieldId) (change : Field → Field) :
    (table.modifyField id change).field? other =
      if other = id then (table.field? other).map change else table.field? other := by
  have changed : (table.modifyField id change).field? other =
      if id = other then (table.field? other).map change else table.field? other :=
    Array.getElem?_modify
  simpa only [eq_comm] using changed

theorem size_modifyField (table : ScopeTable) (id : FieldId) (change : Field → Field) :
    (table.modifyField id change).fields.size = table.fields.size :=
  Array.size_modify

theorem scope?_createScope (table : ScopeTable) (kind : ScopeKind) (parent : ScopeId)
    (node : Handle) (scope : ScopeId) :
    (table.createScope kind parent node).1.scope? scope =
      if scope = table.scopes.size then some { kind, parent := some parent, node }
      else table.scope? scope :=
  Array.getElem?_push

theorem field?_addField (table : ScopeTable) (field : Field) (id : FieldId) :
    (table.addField field).1.field? id =
      if id = table.fields.size then some field else table.field? id :=
  Array.getElem?_push

theorem scope?_addField (table : ScopeTable) (field : Field) (scope : ScopeId) :
    (table.addField field).1.scope? scope =
      if scope = field.scope then
        (table.scope? scope).map fun record =>
          { record with names := record.names ++ [(field.name, table.fields.size)] }
      else table.scope? scope := by
  have changed : (table.addField field).1.scope? scope =
      if field.scope = scope then
        (table.scope? scope).map fun record =>
          { record with names := record.names ++ [(field.name, table.fields.size)] }
      else table.scope? scope := Array.getElem?_modify
  simpa only [eq_comm] using changed

theorem findIn_addField (table : ScopeTable) (field : Field) (scope : ScopeId) (name : String) :
    (table.addField field).1.findIn scope name =
      (table.findIn scope name).or
        (if scope = field.scope ∧ (table.scope? scope).isSome ∧ name = field.name then
          some table.fields.size else none) := by
  unfold findIn
  rw [scope?_addField]
  by_cases here : scope = field.scope
  · cases found : table.scope? scope with
    | none => simp [here]
    | some record =>
      by_cases same : name = field.name
      · simp [here, same, List.lookup_append]
      · have apart : (name == field.name) = false := beq_false_of_ne same
        simp [here, same, List.lookup_append, List.lookup_cons, apart]
  · simp [here]

/-- A declaration by no node changes nothing. -/
theorem addDeclaration_none (table : ScopeTable) (id : FieldId) :
    table.addDeclaration id none = table := by
  have same : table.fields.modify id (fun field =>
      { field with declarations := field.declarations ++ [] }) = table.fields := by
    refine Array.ext_getElem? fun other => ?_
    rw [Array.getElem?_modify]
    simp
  exact congrArg (fun fields => { table with fields }) same

/-- The tables that come of the one with the global scope alone: scopes are opened, names are
declared, and fields are changed in any way. -/
inductive Reached : ScopeTable → Prop where
  | new : Reached .new
  | createScope {table : ScopeTable} (reached : Reached table) (kind : ScopeKind)
      (parent : ScopeId) (node : Handle) : Reached (table.createScope kind parent node).1
  | declare {table : ScopeTable} (reached : Reached table) (scope : ScopeId) (name : String)
      (kind : FieldKind) (node : Handle) : Reached (table.declare scope name kind node).1
  | declareVariable {table : ScopeTable} (reached : Reached table) (scope : ScopeId)
      (name : String) (node : Handle) : Reached (table.declareVariable scope name node).1
  | declarePredefined {table : ScopeTable} (reached : Reached table) (name : String) :
      Reached (table.declarePredefined name).1
  | modifyField {table : ScopeTable} (reached : Reached table) (id : FieldId)
      (change : Field → Field) : Reached (table.modifyField id change)

/-- Nothing is around the global scope, and every name stands for a field. -/
structure Grounded (table : ScopeTable) : Prop where
  outermost : ∃ record, table.scope? globalScope = some record ∧ record.parent = none
  known : ∀ scope name id, table.findIn scope name = some id → id < table.fields.size

namespace Grounded

theorem new : Grounded .new where
  outermost := ⟨_, rfl, rfl⟩
  known scope name id found := by
    cases scope <;> simp [findIn, scope?, ScopeTable.new] at found

theorem modifyField (grounded : table.Grounded) (id : FieldId) (change : Field → Field) :
    (table.modifyField id change).Grounded where
  outermost := grounded.outermost
  known scope name other found := by
    rw [size_modifyField]
    exact grounded.known scope name other found

theorem createScope (grounded : table.Grounded) (kind : ScopeKind) (parent : ScopeId)
    (node : Handle) : (table.createScope kind parent node).1.Grounded where
  outermost := by
    obtain ⟨record, found, top⟩ := grounded.outermost
    refine ⟨record, ?_, top⟩
    obtain ⟨inside, -⟩ := Array.getElem?_eq_some_iff.mp found
    exact (Array.getElem?_push_lt inside).trans ((Array.getElem?_eq_getElem inside).symm.trans found)
  known scope name id found := by
    unfold findIn at found
    rw [scope?_createScope] at found
    split at found
    · cases found
    · exact grounded.known scope name id found

theorem addField (grounded : table.Grounded) (field : Field) : (table.addField field).1.Grounded where
  outermost := by
    obtain ⟨record, found, top⟩ := grounded.outermost
    rw [scope?_addField, found]
    split
    · exact ⟨_, rfl, top⟩
    · exact ⟨record, rfl, top⟩
  known scope name id found := by
    have larger : (table.addField field).1.fields.size = table.fields.size + 1 := Array.size_push _
    rw [findIn_addField, Option.or_eq_some_iff] at found
    rw [larger]
    rcases found with old | ⟨-, new⟩
    · exact Nat.lt_succ_of_lt (grounded.known scope name id old)
    · split at new
      · exact Option.some.inj new ▸ Nat.lt_succ_self _
      · cases new

theorem declare (grounded : table.Grounded) (scope : ScopeId) (name : String) (kind : FieldKind)
    (node : Handle) : (table.declare scope name kind node).1.Grounded := by
  unfold ScopeTable.declare
  split
  · exact grounded.modifyField ..
  · exact grounded.addField _

end Grounded

theorem Reached.grounded (reached : table.Reached) : table.Grounded := by
  induction reached with
  | new => exact .new
  | createScope _ kind parent node ih => exact ih.createScope kind parent node
  | declare _ scope name kind node ih => exact ih.declare scope name kind node
  | declareVariable _ scope name node ih => exact ih.declare ..
  | declarePredefined _ name ih => exact ih.declare ..
  | modifyField _ id change ih => exact ih.modifyField id change

theorem resolve_lt (grounded : table.Grounded) (found : table.resolve scope name = some id) :
    id < table.fields.size := by
  obtain ⟨other, -, there⟩ := List.exists_of_findSome?_eq_some found
  exact grounded.known other name id there

/-- What a name refers to in a scope, or else in the global scope: this need not be among the
scopes that are searched. -/
def meaning? (table : ScopeTable) (scope : ScopeId) (name : String) : Option FieldId :=
  (table.resolve scope name).or (table.findIn globalScope name)

theorem meaning?_lt (grounded : table.Grounded) (found : table.meaning? scope name = some id) :
    id < table.fields.size := by
  rcases Option.or_eq_some_iff.mp found with near | ⟨-, far⟩
  · exact resolve_lt grounded near
  · exact grounded.known _ name id far

/-- A name that is not found where it stands is declared in the global scope, unless it is
there already; then the declaration changes nothing. -/
theorem resolve_or_declare (table : ScopeTable) (scope : ScopeId) (name : String) :
    (match table.resolve scope name with
      | some field => (table, field)
      | none => table.declare globalScope name .undeclared none) =
    match table.meaning? scope name with
      | some field => (table, field)
      | none => table.addField { name, kind := .undeclared, scope := globalScope } := by
  unfold meaning?
  cases table.resolve scope name with
  | some field => rfl
  | none =>
    rw [Option.none_or, declare]
    cases table.findIn globalScope name with
    | some field => simp only [addDeclaration_none]
    | none => rfl

/-- The scopes that are searched depend on what is around which. -/
theorem chain_congr (parents : ∀ id,
    (after.scope? id).map Scope.parent = (before.scope? id).map Scope.parent) (scope : ScopeId) :
    after.chain scope = before.chain scope := by
  have links (inner : ScopeId) :
      (after.scope? inner).bind Scope.parent = (before.scope? inner).bind Scope.parent := by
    have same := congrArg (Option.bind · id) (parents inner)
    simpa only [Option.bind_map, Function.id_comp] using same
  have further (limit : Nat) (start : Option ScopeId) :
      after.chainFrom limit start = before.chainFrom limit start := by
    induction limit generalizing start with
    | zero => rfl
    | succ limit ih =>
      cases start with
      | none => rfl
      | some id => rw [chainFrom, chainFrom, links, ih]
  have there : (after.scope? scope).map (fun _ => scope) =
      (before.scope? scope).map fun _ => scope := by
    have same := congrArg (Option.map fun _ => scope) (parents scope)
    rwa [Option.map_map, Option.map_map] at same
  rw [chain, further, there]
  rfl

theorem meaning?_modifyField (table : ScopeTable) (id : FieldId) (change : Field → Field)
    (scope : ScopeId) (name : String) :
    (table.modifyField id change).meaning? scope name = table.meaning? scope name := by
  have parents (other : ScopeId) : ((table.modifyField id change).scope? other).map Scope.parent =
      (table.scope? other).map Scope.parent := rfl
  have searched := chain_congr parents scope
  unfold meaning? resolve
  rw [searched]
  rfl

/-- Names have been added to the global scope, for fields with the next numbers. -/
def Extends (before after : ScopeTable) (created : List String) : Prop :=
  ∀ scope, after.scope? scope = (before.scope? scope).map fun record =>
    if scope = globalScope then
      { record with names := record.names ++ created.zipIdx before.fields.size }
    else record

namespace Extends

variable (extended : Extends before after created)

include extended

theorem chain (scope : ScopeId) : after.chain scope = before.chain scope := by
  refine chain_congr (fun id => ?_) scope
  rw [extended, Option.map_map]
  congr 1
  funext record
  dsimp only [Function.comp]
  split <;> rfl

theorem findIn (grounded : before.Grounded) (scope : ScopeId) (name : String) :
    after.findIn scope name = (before.findIn scope name).or
      (if scope = globalScope then (created.idxOf? name).map (before.fields.size + ·) else none) := by
  unfold ScopeTable.findIn
  rw [extended]
  by_cases top : scope = globalScope
  · obtain ⟨record, found, -⟩ := grounded.outermost
    simp [top, found, List.lookup_append, lookup_zipIdx]
  · simp [top]

/-- A new name is found where the search comes to the global scope. -/
theorem resolve (grounded : before.Grounded) (scope : ScopeId) (name : String) :
    after.resolve scope name = (before.resolve scope name).or
      (if globalScope ∈ before.chain scope then
        (created.idxOf? name).map (before.fields.size + ·) else none) := by
  have search (limit : Nat) (start : Option ScopeId) :
      (before.chainFrom limit start).findSome? (after.findIn · name) =
        ((before.chainFrom limit start).findSome? (before.findIn · name)).or
          (if globalScope ∈ before.chainFrom limit start then
            (created.idxOf? name).map (before.fields.size + ·) else none) := by
    induction limit generalizing start with
    | zero => rfl
    | succ limit ih =>
      cases start with
      | none => rfl
      | some id =>
        rw [chainFrom, List.findSome?_cons, List.findSome?_cons, extended.findIn grounded]
        by_cases top : id = globalScope
        · -- the search ends here
          obtain ⟨record, found, free⟩ := grounded.outermost
          have last : before.chainFrom limit ((before.scope? id).bind Scope.parent) = [] := by
            rw [top, found, Option.bind_some, free]
            cases limit <;> rfl
          rw [last, if_pos top, top, if_pos List.mem_cons_self]
          cases before.findIn globalScope name with
          | some field => rfl
          | none => cases (created.idxOf? name).map (before.fields.size + ·) <;> rfl
        · have later : globalScope ∈ id :: before.chainFrom limit
              ((before.scope? id).bind Scope.parent) ↔
              globalScope ∈ before.chainFrom limit ((before.scope? id).bind Scope.parent) := by
            rw [List.mem_cons]
            exact or_iff_right (Ne.symm top)
          rw [if_neg top, Option.or_none, if_congr later rfl rfl]
          cases before.findIn id name with
          | some field => rfl
          | none => exact ih _
  unfold ScopeTable.resolve
  rw [extended.chain]
  exact search ..

/-- A name means what it meant, or the new field of that name. -/
theorem meaning? (grounded : before.Grounded) (scope : ScopeId) (name : String) :
    after.meaning? scope name = (before.meaning? scope name).or
      ((created.idxOf? name).map (before.fields.size + ·)) := by
  unfold ScopeTable.meaning?
  rw [extended.resolve grounded, extended.findIn grounded, if_pos rfl]
  cases found : before.resolve scope name with
  | some field => rfl
  | none =>
    rw [Option.none_or, Option.none_or]
    split
    · next within =>
      have missing : before.findIn globalScope name = none :=
        List.findSome?_eq_none_iff.mp found _ within
      rw [missing, Option.none_or, Option.or_self]
    · rfl

end Extends

end ScopeTable

end ScriptSyntax

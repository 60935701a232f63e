import ScriptSyntax.Proofs.Scope.Resolution
import ScriptSyntax.Proofs.Tree.Operations
import Mathlib.Data.List.Induction

/-! Binding lookups one after another. Each is bound to what its name means, which is what it
meant at first or a field that the lookups before it have made; so another order gives the new
fields other numbers and changes nothing else. -/
namespace ScriptSyntax

namespace Form

/-- The name of a lookup. -/
def lookupName? : Form → Option String
  | lookup name _ => some name
  | _ => none

/-- A lookup bound to another field; any other form as it was. -/
def withField (field : Option FieldId) : Form → Form
  | lookup name _ => lookup name field
  | form => form

theorem withField_scope? (form : Form) (field : Option FieldId) :
    (form.withField field).scope? = form.scope? := by
  cases form <;> rfl

theorem withField_lookupName? (form : Form) (field : Option FieldId) :
    (form.withField field).lookupName? = form.lookupName? := by
  cases form <;> rfl

theorem withField_like (form : Form) (field : Option FieldId) :
    (form.withField field).Like form := by
  cases form <;> exact ⟨rfl, rfl⟩

end Form

/-- A node with its form changed: what is in its slots, its span and its parent stay. -/
def Node.mapForm (node : Node) (change : Form → Form) : Node := node.withForm (change node.form)

theorem Node.form_withField (node : Node) (field : Option FieldId) :
    (node.mapForm (·.withField field)).form = node.form.withField field :=
  withForm_form (node.form.withField_like field)

/-- A field that so many more lookups are bound to. -/
def Field.referred (field : Field) (count : Nat) : Field :=
  { field with references := field.references + count }

theorem Field.referred_zero (field : Field) : field.referred 0 = field := rfl

namespace ScopeTable

/-- The global field of a name that is declared nowhere. -/
def undeclaredField (name : String) : Field := { name, kind := .undeclared, scope := globalScope }

/-- The fields of a table and after them those of names that are declared nowhere. -/
def withUndeclared (table : ScopeTable) (names : List String) (id : FieldId) : Option Field :=
  if id < table.fields.size then table.field? id
  else names[id - table.fields.size]?.map undeclaredField

theorem withUndeclared_nil (table : ScopeTable) (id : FieldId) :
    table.withUndeclared [] id = table.field? id := by
  unfold withUndeclared
  split
  · rfl
  · next outside => exact (Array.getElem?_eq_none (Nat.le_of_not_lt outside)).symm

theorem withUndeclared_concat (table : ScopeTable) (names : List String) (name : String)
    (id : Nat) :
    table.withUndeclared (names ++ [name]) id =
      if id = table.fields.size + names.length then some (undeclaredField name)
      else table.withUndeclared names id := by
  unfold withUndeclared
  by_cases old : id < table.fields.size
  · rw [if_pos old, if_pos old, if_neg (by omega)]
  · rw [if_neg old, if_neg old]
    by_cases last : id = table.fields.size + names.length
    · rw [if_pos last, last, Nat.add_sub_cancel_left, List.getElem?_concat_length]
      rfl
    · rw [if_neg last, List.getElem?_append]
      split
      · rfl
      · rw [List.getElem?_eq_none (by simp; omega), List.getElem?_eq_none (by omega)]

/-- One more name that is declared nowhere. -/
theorem Extends.addUndeclared {before after : ScopeTable} {created : List String}
    (extended : before.Extends after created)
    (counted : after.fields.size = before.fields.size + created.length) (name : String) :
    before.Extends (after.addField (undeclaredField name)).1 (created ++ [name]) := by
  intro scope
  rw [scope?_addField, extended]
  by_cases top : scope = globalScope
  · simp [top, undeclaredField, List.zipIdx_append, counted, Function.comp_def]
  · simp [top, undeclaredField]

end ScopeTable

namespace Tree

variable {tree before after : Tree} {id : NodeId} {name : String}

/-- The scope a lookup is resolved from. -/
def scopeOf (tree : Tree) (id : NodeId) : ScopeId :=
  (tree.lexicalScope? (some id)).getD ScopeTable.globalScope

/-- What a lookup means in a table. -/
def meaning? (tree : Tree) (table : ScopeTable) (id : NodeId) : Option FieldId :=
  (tree.lookupName? (some id)).bind (table.meaning? (tree.scopeOf id))

theorem meaning?_addReference (tree : Tree) (table : ScopeTable) (field : FieldId) (id : NodeId) :
    tree.meaning? (table.addReference field) id = tree.meaning? table id :=
  congrArg _ (funext fun _ => ScopeTable.meaning?_modifyField ..)

/-- To bind a lookup is to note what it means, or to make a new field for it. -/
theorem bindLookup_eq (named : tree.lookupName? (some id) = some name) (scopes : ScopeTable) :
    tree.bindLookup (some id) scopes =
      let bound := match scopes.meaning? (tree.scopeOf id) name with
        | some field => (scopes, field)
        | none => scopes.addField (ScopeTable.undeclaredField name)
      some {
        tree := tree.modify (some id) (·.withForm (.lookup name (some bound.2)))
        scopes := bound.1.addReference bound.2
        field := bound.2 } := by
  have same := ScopeTable.resolve_or_declare scopes (tree.scopeOf id) name
  rw [bindLookup, named]
  exact congrArg (fun bound : ScopeTable × FieldId => some
    ({ tree := tree.modify (some id) (·.withForm (.lookup name (some bound.2)))
       scopes := bound.1.addReference bound.2
       field := bound.2 } : Bound)) same

theorem lookupName?_eq (tree : Tree) (handle : Handle) :
    tree.lookupName? handle = (tree.form? handle).bind Form.lookupName? := by
  unfold lookupName?
  cases tree.form? handle with
  | none => rfl
  | some form => cases form <;> rfl

theorem chain_congr (links : ∀ handle, after.parentOf handle = before.parentOf handle)
    (limit : Nat) (handle : Handle) : after.chain limit handle = before.chain limit handle := by
  induction limit generalizing handle with
  | zero => rfl
  | succ limit ih =>
    cases handle with
    | none => rfl
    | some id => rw [chain, chain, links, ih]

end Tree

open ScopeTable (globalScope)

/-- Some lookups of a tree have been bound. The fields of the new names have been made, in this
order, for those that meant nothing before. -/
structure Bindings (before : Tree) (table : ScopeTable) (lookups : List NodeId)
    (created : List String) (after : Editing BindingState) : Prop where
  distinct : created.Nodup
  mem_created : ∀ name, name ∈ created ↔ ∃ id ∈ lookups,
    before.lookupName? (some id) = some name ∧ table.meaning? (before.scopeOf id) name = none
  size : after.tree.size = before.size
  get? : ∀ id, after.tree.get? (some id) =
    if id ∈ lookups then
      (before.get? (some id)).map
        (·.mapForm (·.withField (before.meaning? after.state.scopes id)))
    else before.get? (some id)
  scopes : table.Extends after.state.scopes created
  fieldCount : after.state.scopes.fields.size = table.fields.size + created.length
  field? : ∀ id, after.state.scopes.field? id = (table.withUndeclared created id).map
    (·.referred (lookups.countP fun lookup => before.meaning? after.state.scopes lookup = some id))

namespace Bindings

variable {before : Tree} {table : ScopeTable} {lookups : List NodeId} {created : List String}
  {after : Editing BindingState} {id : NodeId} {name : String} {field : FieldId}

theorem refl (before : Tree) (table : ScopeTable) (count : Nat) :
    Bindings before table [] [] ⟨before, table, count⟩ where
  distinct := .nil
  mem_created name := by simp
  size := rfl
  get? id := rfl
  scopes scope := by
    cases table.scope? scope with
    | none => rfl
    | some record => simp
  fieldCount := rfl
  field? id := by
    simp only [List.countP_nil, Field.referred_zero, Option.map_id_fun']
    exact (table.withUndeclared_nil id).symm

section View

variable (bindings : Bindings before table lookups created after)

include bindings

theorem parentOf (handle : Handle) : after.tree.parentOf handle = before.parentOf handle := by
  cases handle with
  | none => rfl
  | some id =>
    rw [Tree.parentOf, bindings.get?]
    split
    · rw [Option.bind_map]
      exact congrArg _ (funext fun node => node.withForm_parent _)
    · rfl

/-- What a form tells whatever field it is bound to it tells as before. -/
theorem bind_form? {View : Type} {view : Form → Option View}
    (keeps : ∀ form field, view (Form.withField field form) = view form) (handle : Handle) :
    (after.tree.form? handle).bind view = (before.form? handle).bind view := by
  cases handle with
  | none => rfl
  | some id =>
    rw [Tree.form?, Tree.form?, bindings.get?]
    split
    · rw [Option.map_map, Option.bind_map, Option.bind_map]
      refine congrArg _ (funext fun node => ?_)
      exact (congrArg view (node.form_withField _)).trans (keeps node.form _)
    · rfl

theorem lookupName? (handle : Handle) :
    after.tree.lookupName? handle = before.lookupName? handle := by
  rw [Tree.lookupName?_eq, Tree.lookupName?_eq]
  exact bindings.bind_form? Form.withField_lookupName? handle

theorem scopeOf (id : NodeId) : after.tree.scopeOf id = before.scopeOf id := by
  unfold Tree.scopeOf Tree.lexicalScope? Tree.scopesAround Tree.ancestors
  rw [bindings.parentOf, Tree.chain_congr bindings.parentOf]
  simp only [bindings.bind_form? Form.withField_scope?]

end View

section Step

variable (bindings : Bindings before table lookups created after) (grounded : table.Grounded)

include bindings grounded

theorem meaning?_eq (scope : ScopeId) (name : String) :
    after.state.scopes.meaning? scope name = (table.meaning? scope name).or
      ((created.idxOf? name).map (table.fields.size + ·)) :=
  bindings.scopes.meaning? grounded scope name

theorem meaning?_lt {scope : ScopeId}
    (found : after.state.scopes.meaning? scope name = some field) :
    field < table.fields.size + created.length := by
  rw [bindings.meaning?_eq grounded, Option.or_eq_some_iff] at found
  rcases found with old | ⟨-, new⟩
  · exact Nat.lt_add_right _ (ScopeTable.meaning?_lt grounded old)
  · obtain ⟨position, there, rfl⟩ := Option.map_eq_some_iff.mp new
    obtain ⟨inside, -⟩ := List.idxOf?_eq_some_iff.mp there
    exact Nat.add_lt_add_left inside _

/-- A lookup that has been bound means something. -/
theorem meaning?_isSome (member : id ∈ lookups) (named : before.lookupName? (some id) = some name) :
    (after.state.scopes.meaning? (before.scopeOf id) name).isSome := by
  rw [bindings.meaning?_eq grounded]
  cases old : table.meaning? (before.scopeOf id) name with
  | some field => rfl
  | none =>
    have new := (bindings.mem_created name).mpr ⟨id, member, named, old⟩
    simpa using new

/-- A field that is not there yet is what no lookup has been bound to. -/
theorem countP_fieldCount : (lookups.countP fun lookup =>
    before.meaning? after.state.scopes lookup = some after.state.scopes.fields.size) = 0 := by
  refine List.countP_eq_zero.mpr fun lookup _ bound => ?_
  obtain ⟨called, -, found⟩ := Option.bind_eq_some_iff.mp (of_decide_eq_true bound)
  exact absurd bindings.fieldCount (Nat.ne_of_lt (bindings.meaning?_lt grounded found))

section Larger

variable {scopes : ScopeTable} (larger : table.Extends scopes (created ++ [name]))

include larger

/-- Lookups that have been bound mean the same when there is one more name. -/
theorem meaning?_earlier (member : id ∈ lookups) :
    before.meaning? scopes id = before.meaning? after.state.scopes id := by
  unfold Tree.meaning?
  cases called : before.lookupName? (some id) with
  | none => rfl
  | some other =>
    have meant := bindings.meaning?_isSome grounded member called
    rw [bindings.meaning?_eq grounded] at meant
    rw [Option.bind_some, Option.bind_some, larger.meaning? grounded,
      bindings.meaning?_eq grounded, idxOf?_concat]
    cases kept : table.meaning? (before.scopeOf id) other with
    | some field => rfl
    | none =>
      rw [kept, Option.none_or, Option.isSome_map] at meant
      rw [Option.or_of_isSome meant]

/-- A lookup of the new name means the new field, if it meant nothing before. -/
theorem meaning?_latest (named : before.lookupName? (some id) = some name)
    (missing : after.state.scopes.meaning? (before.scopeOf id) name = none) :
    before.meaning? scopes id = some after.state.scopes.fields.size := by
  rw [bindings.meaning?_eq grounded, Option.or_eq_none_iff, Option.map_eq_none_iff] at missing
  rw [Tree.meaning?, named, Option.bind_some, larger.meaning? grounded, missing.1,
    idxOf?_concat, missing.2, if_pos rfl, bindings.fieldCount]
  rfl

end Larger

omit grounded

/-- The nodes when one more lookup has been bound. -/
theorem get?_bound {scopes : ScopeTable} (fresh : id ∉ lookups)
    (named : before.lookupName? (some id) = some name)
    (same : ∀ other ∈ lookups,
      before.meaning? scopes other = before.meaning? after.state.scopes other)
    (here : before.meaning? scopes id = some field) (other : NodeId) :
    (after.tree.modify (some id) (·.withForm (.lookup name (some field)))).get? (some other) =
      if other ∈ lookups ++ [id] then
        (before.get? (some other)).map (·.mapForm (·.withField (before.meaning? scopes other)))
      else before.get? (some other) := by
  rw [Tree.get?_modify, bindings.get?]
  by_cases bound : other = id
  · subst bound
    rw [if_pos rfl, if_neg fresh, if_pos (by simp), here]
    obtain ⟨form, stands, called⟩ := Option.bind_eq_some_iff.mp (Tree.lookupName?_eq .. ▸ named)
    obtain ⟨node, found, rfl⟩ := Option.map_eq_some_iff.mp stands
    rw [found]
    cases shape : node.form with
    | lookup called' _ =>
      rw [shape] at called
      obtain rfl := Option.some.inj called
      simp [Node.mapForm, shape, Form.withField]
    | _ => simp [shape, Form.lookupName?] at called
  · rw [if_neg bound]
    by_cases member : other ∈ lookups
    · rw [if_pos member, if_pos (List.mem_append_left _ member), same other member]
    · rw [if_neg member, if_neg (by simp [member, bound])]

omit bindings in
/-- How often fields are referred to when one more lookup has been bound. -/
theorem field?_bound {scopes : ScopeTable} (base : Option Field) (other : FieldId)
    (same : ∀ lookup ∈ lookups,
      before.meaning? scopes lookup = before.meaning? after.state.scopes lookup)
    (here : before.meaning? scopes id = some field) :
    (if other = field then
        (base.map (·.referred (lookups.countP fun lookup =>
          before.meaning? after.state.scopes lookup = some other))).map
          fun record => { record with references := record.references + 1 }
      else base.map (·.referred (lookups.countP fun lookup =>
        before.meaning? after.state.scopes lookup = some other))) =
    base.map (·.referred ((lookups ++ [id]).countP fun lookup =>
      before.meaning? scopes lookup = some other)) := by
  have counted : lookups.countP (fun lookup => before.meaning? scopes lookup = some other) =
      lookups.countP (fun lookup => before.meaning? after.state.scopes lookup = some other) :=
    List.countP_congr fun lookup member => by rw [same lookup member]
  rw [List.countP_append, counted, List.countP_singleton]
  by_cases equal : other = field
  · subst equal
    simp only [if_true, Option.map_map, here, decide_true]
    rfl
  · simp [equal, here, Ne.symm equal]

end Step

section Step

variable (bindings : Bindings before table lookups created after) (grounded : table.Grounded)
  (fresh : id ∉ lookups) (named : before.lookupName? (some id) = some name)

include bindings grounded fresh named

/-- Binding a lookup that means something by now. -/
theorem step_known
    (found : after.state.scopes.meaning? (before.scopeOf id) name = some field) :
    Bindings before table (lookups ++ [id]) created
      ⟨after.tree.modify (some id) (·.withForm (.lookup name (some field))),
        after.state.scopes.addReference field, after.state.count + 1⟩ := by
  have same (lookup : NodeId) := before.meaning?_addReference after.state.scopes field lookup
  have here : before.meaning? (after.state.scopes.addReference field) id = some field := by
    rw [same, Tree.meaning?, named]
    exact found
  refine ⟨bindings.distinct, fun other => ?_, (Tree.size_modify ..).trans bindings.size,
    bindings.get?_bound fresh named (fun lookup _ => same lookup) here, bindings.scopes,
    (ScopeTable.size_modifyField ..).trans bindings.fieldCount, fun other => ?_⟩
  · rw [bindings.mem_created]
    constructor
    · rintro ⟨lookup, member, meant⟩
      exact ⟨lookup, List.mem_append_left _ member, meant⟩
    · rintro ⟨lookup, member, called, missing⟩
      rcases List.mem_append.mp member with old | new
      · exact ⟨lookup, old, called, missing⟩
      · obtain rfl := List.mem_singleton.mp new
        obtain rfl := Option.some.inj (named.symm.trans called)
        rw [bindings.meaning?_eq grounded, missing, Option.none_or] at found
        obtain ⟨position, there, -⟩ := Option.map_eq_some_iff.mp found
        have member : name ∈ created := List.isSome_idxOf?.mp (Option.isSome_of_mem there)
        exact (bindings.mem_created name).mp member
  · rw [ScopeTable.addReference, ScopeTable.field?_modifyField, bindings.field?]
    exact field?_bound _ other (fun lookup _ => same lookup) here

/-- Binding a lookup that means nothing yet: its name gets a field. -/
theorem step_new (missing : after.state.scopes.meaning? (before.scopeOf id) name = none) :
    Bindings before table (lookups ++ [id]) (created ++ [name])
      ⟨after.tree.modify (some id)
          (·.withForm (.lookup name (some after.state.scopes.fields.size))),
        (after.state.scopes.addField (ScopeTable.undeclaredField name)).1.addReference
          after.state.scopes.fields.size, after.state.count + 1⟩ := by
  let scopes := (after.state.scopes.addField (ScopeTable.undeclaredField name)).1.addReference
    after.state.scopes.fields.size
  have larger : table.Extends scopes (created ++ [name]) :=
    bindings.scopes.addUndeclared bindings.fieldCount name
  have same (lookup : NodeId) (member : lookup ∈ lookups) :=
    bindings.meaning?_earlier grounded larger member
  have here := bindings.meaning?_latest grounded larger named missing
  rw [bindings.meaning?_eq grounded, Option.or_eq_none_iff, Option.map_eq_none_iff,
    List.idxOf?_eq_none_iff] at missing
  obtain ⟨old, outside⟩ := missing
  refine ⟨List.concat_eq_append ▸ bindings.distinct.concat outside, fun other => ?_,
    (Tree.size_modify ..).trans bindings.size, bindings.get?_bound fresh named same here, larger,
    ?_, fun other => ?_⟩
  · rw [List.mem_append, List.mem_singleton, bindings.mem_created]
    constructor
    · rintro (⟨lookup, member, called⟩ | rfl)
      · exact ⟨lookup, List.mem_append_left _ member, called⟩
      · exact ⟨id, by simp, named, old⟩
    · rintro ⟨lookup, member, called, missing⟩
      rcases List.mem_append.mp member with earlier | now
      · exact .inl ⟨lookup, earlier, called, missing⟩
      · obtain rfl := List.mem_singleton.mp now
        exact .inr (Option.some.inj (called.symm.trans named))
  · have counted : scopes.fields.size = after.state.scopes.fields.size + 1 :=
      (ScopeTable.size_modifyField ..).trans (Array.size_push _)
    rw [List.length_append, List.length_singleton, ← Nat.add_assoc, ← bindings.fieldCount]
    exact counted
  · rw [ScopeTable.addReference, ScopeTable.field?_modifyField, ScopeTable.field?_addField,
      bindings.field?]
    refine Eq.trans ?_ (field?_bound (table.withUndeclared (created ++ [name]) other) other same here)
    rw [ScopeTable.withUndeclared_concat, ← bindings.fieldCount]
    by_cases new : other = after.state.scopes.fields.size
    · subst new
      simp only [if_true, bindings.countP_fieldCount grounded, Option.map_some, Field.referred_zero]
    · simp only [if_neg new]

/-- Binding one more lookup. -/
theorem enter : ∃ created,
    Bindings before table (lookups ++ [id]) created (lookupBinder.enter id after).2 ∧
      (lookupBinder.enter id after).2.state.count = after.state.count + 1 := by
  have binds := Tree.bindLookup_eq ((bindings.lookupName? (some id)).trans named) after.state.scopes
  rw [bindings.scopeOf] at binds
  simp only [lookupBinder]
  cases found : after.state.scopes.meaning? (before.scopeOf id) name with
  | some field =>
    rw [found] at binds
    rw [binds]
    exact ⟨created, bindings.step_known grounded fresh named found, rfl⟩
  | none =>
    rw [found] at binds
    rw [binds]
    exact ⟨created ++ [name], bindings.step_new grounded fresh named found, rfl⟩

end Step

end Bindings

end ScriptSyntax

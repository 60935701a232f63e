import ScriptSyntax.Proofs.Scope.Resolution

/-! The nearest declaration. A table keeps the names of a scope and the fields of all scopes in
step, so to look a name up scope by scope is to find the field of the nearest scope around that
declares it. -/
namespace ScriptSyntax

namespace ScopeTable

/-- The tables that are made from the one with the global scope alone: scopes are opened inside
others, names are declared in scopes that there are, and lookups are bound to fields. -/
inductive Built : ScopeTable → Prop where
  | new : Built .new
  | createScope {table : ScopeTable} (built : Built table) (kind : ScopeKind) {parent : ScopeId}
      (present : (table.scope? parent).isSome) (node : Handle) :
      Built (table.createScope kind parent node).1
  | declare {table : ScopeTable} (built : Built table) {scope : ScopeId}
      (present : (table.scope? scope).isSome) (name : String) (kind : FieldKind) (node : Handle) :
      Built (table.declare scope name kind node).1
  | declareVariable {table : ScopeTable} (built : Built table) {scope : ScopeId}
      (present : (table.scope? scope).isSome) (name : String) (node : Handle) :
      Built (table.declareVariable scope name node).1
  | declarePredefined {table : ScopeTable} (built : Built table) (name : String) :
      Built (table.declarePredefined name).1
  | addReference {table : ScopeTable} (built : Built table) (id : FieldId) :
      Built (table.addReference id)

/-- The field is one that the scope has under the name. -/
def Holds (table : ScopeTable) (scope : ScopeId) (name : String) (id : FieldId) : Prop :=
  ∃ field, table.field? id = some field ∧ field.scope = scope ∧ field.name = name

/-- From a scope outwards: the scope, the one around it, and so on to one with none around. -/
inductive Outwards (table : ScopeTable) : ScopeId → List ScopeId → Prop where
  | outermost {scope : ScopeId} {record : Scope} (found : table.scope? scope = some record)
      (top : record.parent = none) : Outwards table scope [scope]
  | inside {scope parent : ScopeId} {record : Scope} {path : List ScopeId}
      (found : table.scope? scope = some record) (around : record.parent = some parent)
      (further : Outwards table parent path) : Outwards table scope (scope :: path)

/-- Fewer scopes than the limit are around any scope. -/
def Shallow (table : ScopeTable) : Prop :=
  ∀ scope around, table.Outwards scope (scope :: around) → around.length < scopeDepthLimit

/-- From `start` outwards one comes to `scope` before any other scope that has the name. -/
def Reaches (table : ScopeTable) (start scope : ScopeId) (name : String) : Prop :=
  ∃ inner outer, table.Outwards start (inner ++ scope :: outer) ∧
    ∀ between ∈ inner, ∀ id, ¬ table.Holds between name id

/-- What a scope is and where it stands, without its names. -/
def frame (table : ScopeTable) (scope : ScopeId) : Option (ScopeKind × Option ScopeId) :=
  (table.scope? scope).map fun record => (record.kind, record.parent)

variable {table before after : ScopeTable} {scope : ScopeId} {name : String} {id : FieldId}

theorem frame_addField (table : ScopeTable) (field : Field) (scope : ScopeId) :
    (table.addField field).1.frame scope = table.frame scope := by
  unfold frame
  rw [scope?_addField]
  split
  · rw [Option.map_map]
    rfl
  · rfl

theorem frame_declare (table : ScopeTable) (home : ScopeId) (name : String) (kind : FieldKind)
    (node : Handle) (scope : ScopeId) :
    (table.declare home name kind node).1.frame scope = table.frame scope := by
  unfold declare
  split
  · rfl
  · exact frame_addField ..

theorem lt_size_of_scope? {record : Scope} (found : table.scope? scope = some record) :
    scope < table.scopes.size :=
  (Array.getElem?_eq_some_iff.mp found).1

/-- The global scope is outermost, and every other scope was opened after the one around it. -/
structure Nested (table : ScopeTable) : Prop where
  global : table.frame globalScope = some (.global, none)
  inside : ∀ scope record, table.scope? scope = some record →
    scope = globalScope ∨ ∃ parent < scope, record.parent = some parent

namespace Nested

theorem congr (nested : before.Nested) (same : ∀ scope, after.frame scope = before.frame scope) :
    after.Nested where
  global := (same globalScope).trans nested.global
  inside scope record found := by
    have there : before.frame scope = some (record.kind, record.parent) := by
      rw [← same, frame, found]
      rfl
    obtain ⟨old, foundBefore, frames⟩ := Option.map_eq_some_iff.mp there
    obtain ⟨-, sameParent⟩ := Prod.mk.inj frames
    rw [← sameParent]
    exact nested.inside scope old foundBefore

theorem new : Nested .new where
  global := rfl
  inside scope record found := by
    have first : scope < 1 := lt_size_of_scope? found
    exact .inl (Nat.lt_one_iff.mp first)

theorem createScope (nested : table.Nested) (kind : ScopeKind) {parent : ScopeId}
    (present : (table.scope? parent).isSome) (node : Handle) :
    (table.createScope kind parent node).1.Nested where
  global := by
    obtain ⟨record, found, same⟩ := Option.map_eq_some_iff.mp nested.global
    have old : globalScope ≠ table.scopes.size := Nat.ne_of_lt (lt_size_of_scope? found)
    rw [frame, scope?_createScope, if_neg old]
    exact nested.global
  inside scope record found := by
    rw [scope?_createScope] at found
    split at found
    · next last =>
      obtain ⟨around, there⟩ := Option.isSome_iff_exists.mp present
      refine .inr ⟨parent, last ▸ lt_size_of_scope? there, ?_⟩
      rw [← Option.some.inj found]
    · exact nested.inside scope record found

end Nested

/-- A scope finds just the fields that it has. -/
def InStep (table : ScopeTable) : Prop :=
  ∀ scope name id, table.findIn scope name = some id ↔ table.Holds scope name id

theorem holds_modifyField (other : FieldId) (change : Field → Field)
    (keeps : ∀ field, (change field).scope = field.scope ∧ (change field).name = field.name) :
    (table.modifyField other change).Holds scope name id ↔ table.Holds scope name id := by
  unfold Holds
  rw [field?_modifyField]
  split
  · cases table.field? id with
    | none => simp
    | some field => simp [keeps field]
  · rfl

theorem holds_addField (field : Field) :
    (table.addField field).1.Holds scope name id ↔
      table.Holds scope name id ∨
        (id = table.fields.size ∧ field.scope = scope ∧ field.name = name) := by
  unfold Holds
  rw [field?_addField]
  by_cases last : id = table.fields.size
  · have none : table.field? id = none :=
      Array.getElem?_eq_none (Nat.le_of_eq last.symm)
    rw [none]
    simp [last]
  · simp [last]

namespace InStep

theorem new : InStep .new := by
  intro scope name id
  have noField : ScopeTable.new.field? id = none := Array.getElem?_eq_none (Nat.zero_le id)
  have noName : ScopeTable.new.findIn scope name = none := by
    cases scope <;> rfl
  simp [Holds, noField, noName]

theorem modifyField (inStep : table.InStep) (other : FieldId) (change : Field → Field)
    (keeps : ∀ field, (change field).scope = field.scope ∧ (change field).name = field.name) :
    (table.modifyField other change).InStep := by
  intro scope name id
  rw [holds_modifyField other change keeps]
  exact inStep scope name id

/-- Only scopes that there are have fields. -/
theorem present (inStep : table.InStep) (holds : table.Holds scope name id) :
    (table.scope? scope).isSome := by
  obtain ⟨record, found, -⟩ := Option.bind_eq_some_iff.mp ((inStep scope name id).mpr holds)
  exact found ▸ rfl

theorem createScope (inStep : table.InStep) (kind : ScopeKind) (parent : ScopeId) (node : Handle) :
    (table.createScope kind parent node).1.InStep := by
  intro scope name id
  change _ ↔ table.Holds scope name id
  rw [findIn, scope?_createScope]
  split
  · next last =>
    refine ⟨fun found => (by cases found), fun holds => ?_⟩
    obtain ⟨record, found⟩ := Option.isSome_iff_exists.mp (inStep.present holds)
    exact absurd (lt_size_of_scope? found) (Nat.not_lt.mpr (Nat.le_of_eq last.symm))
  · exact inStep scope name id

/-- A field is added with its name. -/
theorem addField (inStep : table.InStep) {field : Field}
    (present : (table.scope? field.scope).isSome)
    (missing : table.findIn field.scope field.name = none) : (table.addField field).1.InStep := by
  intro scope name id
  rw [holds_addField, ← inStep, findIn_addField]
  by_cases here : scope = field.scope ∧ name = field.name
  · obtain ⟨rfl, rfl⟩ := here
    simp [missing, present, eq_comm]
  · have other : ¬ (scope = field.scope ∧ (table.scope? scope).isSome ∧ name = field.name) :=
      fun same => here ⟨same.1, same.2.2⟩
    have apart : ¬ (field.scope = scope ∧ field.name = name) :=
      fun same => here ⟨same.1.symm, same.2.symm⟩
    simp [other, apart]

theorem declare (inStep : table.InStep) (present : (table.scope? scope).isSome) (name : String)
    (kind : FieldKind) (node : Handle) : (table.declare scope name kind node).1.InStep := by
  unfold ScopeTable.declare
  split
  · exact inStep.modifyField _ _ fun field => ⟨rfl, rfl⟩
  · next missing => exact inStep.addField present missing

end InStep

theorem Nested.globalScope_isSome (nested : table.Nested) : (table.scope? globalScope).isSome := by
  obtain ⟨record, found, -⟩ := Option.map_eq_some_iff.mp nested.global
  exact found ▸ rfl

/-- A variable belongs to a scope that there is. -/
theorem Nested.variableScope_isSome (nested : table.Nested) (scope : ScopeId) :
    (table.scope? (table.variableScope scope)).isSome := by
  unfold variableScope
  cases home : (table.chain scope).find? fun id =>
      (table.scope? id).any fun scope => scope.kind.holdsVariables with
  | none => exact nested.globalScope_isSome
  | some id =>
    have holds := List.find?_some home
    obtain ⟨record, found, -⟩ := (Option.any_eq_true _ _).mp holds
    exact found ▸ rfl

/-- What holds of every table that is built. -/
theorem Built.nested_inStep (built : table.Built) : table.Nested ∧ table.InStep := by
  induction built with
  | new => exact ⟨.new, .new⟩
  | createScope _ kind present node ih =>
    exact ⟨ih.1.createScope kind present node, ih.2.createScope kind _ node⟩
  | declare _ present name kind node ih =>
    exact ⟨ih.1.congr (frame_declare _ _ _ _ _), ih.2.declare present name kind node⟩
  | declareVariable _ _ name node ih =>
    exact ⟨ih.1.congr (frame_declare _ _ _ _ _),
      ih.2.declare (ih.1.variableScope_isSome _) name _ node⟩
  | declarePredefined _ name ih =>
    exact ⟨ih.1.congr (frame_declare _ _ _ _ _), ih.2.declare ih.1.globalScope_isSome name _ none⟩
  | addReference _ id ih =>
    exact ⟨ih.1.congr fun _ => rfl, ih.2.modifyField id _ fun field => ⟨rfl, rfl⟩⟩

namespace Outwards

variable {path other : List ScopeId} {limit : Nat}

/-- Where there is room enough the scopes that are visited are those around. -/
theorem chainFrom_eq (outwards : table.Outwards scope path) (room : path.length ≤ limit) :
    table.chainFrom limit (some scope) = path := by
  induction outwards generalizing limit with
  | outermost found top =>
    cases limit with
    | zero => cases room
    | succ limit =>
      rw [chainFrom, found, Option.bind_some, top]
      cases limit <;> rfl
  | inside found around _ ih =>
    cases limit with
    | zero => cases room
    | succ limit =>
      rw [chainFrom, found, Option.bind_some, around, ih (Nat.le_of_succ_le_succ room)]

theorem unique (first : table.Outwards scope path) (second : table.Outwards scope other) :
    path = other := by
  have room : path.length ≤ path.length + other.length := Nat.le_add_right ..
  have otherRoom : other.length ≤ path.length + other.length := Nat.le_add_left ..
  exact (first.chainFrom_eq room).symm.trans (second.chainFrom_eq otherRoom)

theorem isSome (outwards : table.Outwards scope path) : (table.scope? scope).isSome := by
  cases outwards with
  | outermost found => exact found ▸ rfl
  | inside found => exact found ▸ rfl

theorem exists_cons (outwards : table.Outwards scope path) : ∃ around, path = scope :: around := by
  cases outwards with
  | outermost => exact ⟨[], rfl⟩
  | inside => exact ⟨_, rfl⟩

theorem getLast?_eq (outwards : table.Outwards scope path) (nested : table.Nested) :
    path.getLast? = some globalScope := by
  induction outwards with
  | @outermost scope record found top =>
    rcases nested.inside scope record found with rfl | ⟨parent, -, around⟩
    · rfl
    · rw [top] at around
      cases around
  | inside _ _ further ih =>
    obtain ⟨around, rfl⟩ := further.exists_cons
    rw [List.getLast?_cons_cons]
    exact ih

theorem chain_eq (outwards : table.Outwards scope path) (shallow : table.Shallow) :
    table.chain scope = path := by
  obtain ⟨around, rfl⟩ := outwards.exists_cons
  obtain ⟨record, found⟩ := Option.isSome_iff_exists.mp outwards.isSome
  have start : (table.scope? scope).map (fun _ => scope) = some scope := by rw [found]; rfl
  rw [chain, start]
  exact outwards.chainFrom_eq (shallow scope around outwards)

end Outwards

/-- From every scope one comes to the global one, and around it stand only scopes opened before. -/
theorem Nested.exists_outwards (nested : table.Nested) (present : (table.scope? scope).isSome) :
    ∃ around, table.Outwards scope (scope :: around) ∧ around.length ≤ scope := by
  induction scope using Nat.strongRecOn with
  | ind scope ih =>
    obtain ⟨record, found⟩ := Option.isSome_iff_exists.mp present
    rcases nested.inside scope record found with rfl | ⟨parent, earlier, around⟩
    · obtain ⟨global, there, same⟩ := Option.map_eq_some_iff.mp nested.global
      exact ⟨[], .outermost there (Prod.mk.inj same).2, Nat.le_refl 0⟩
    · have inside : parent < table.scopes.size :=
        Nat.lt_trans earlier (lt_size_of_scope? found)
      have parentPresent : (table.scope? parent).isSome := by
        rw [scope?, Array.getElem?_eq_getElem inside]
        rfl
      obtain ⟨further, outwards, bounded⟩ := ih parent earlier parentPresent
      refine ⟨parent :: further, .inside found around outwards, ?_⟩
      exact Nat.le_trans (Nat.succ_le_succ bounded) earlier

/-- A table with few scopes is not deep. -/
theorem Nested.shallow (nested : table.Nested) (few : table.scopes.size ≤ scopeDepthLimit) :
    table.Shallow := by
  intro scope around outwards
  obtain ⟨record, found⟩ := Option.isSome_iff_exists.mp outwards.isSome
  obtain ⟨other, again, bounded⟩ := nested.exists_outwards outwards.isSome
  obtain rfl : around = other := (List.cons.inj (outwards.unique again)).2
  exact Nat.lt_of_le_of_lt bounded (Nat.lt_of_lt_of_le (lt_size_of_scope? found) few)

section

variable (nested : table.Nested) (shallow : table.Shallow)

include nested shallow

theorem outwards_chain (present : (table.scope? scope).isSome) :
    table.Outwards scope (table.chain scope) := by
  obtain ⟨around, outwards, -⟩ := nested.exists_outwards present
  rw [outwards.chain_eq shallow]
  exact outwards

theorem outwards_iff {path : List ScopeId} :
    table.Outwards scope path ↔ (table.scope? scope).isSome ∧ table.chain scope = path := by
  constructor
  · exact fun outwards => ⟨outwards.isSome, outwards.chain_eq shallow⟩
  · rintro ⟨present, rfl⟩
    exact outwards_chain nested shallow present

/-- The search for a scope that holds variables ends at the global scope, if not before. -/
theorem find?_variableScope (present : (table.scope? scope).isSome) :
    (table.chain scope).find? (fun id =>
        (table.scope? id).any fun scope => scope.kind.holdsVariables) =
      some (table.variableScope scope) := by
  have last := (outwards_chain nested shallow present).getLast?_eq nested
  obtain ⟨record, found, same⟩ := Option.map_eq_some_iff.mp nested.global
  have holds : (table.scope? globalScope).any (fun scope => scope.kind.holdsVariables) := by
    rw [found, Option.any_some, (Prod.mk.inj same).1]
    rfl
  have found : ((table.chain scope).find? fun id =>
      (table.scope? id).any fun scope => scope.kind.holdsVariables).isSome :=
    List.find?_isSome.mpr ⟨globalScope, List.mem_of_getLast? last, holds⟩
  obtain ⟨home, search⟩ := Option.isSome_iff_exists.mp found
  rw [variableScope, search]
  rfl

end

theorem chain_of_absent (absent : table.scope? scope = none) : table.chain scope = [] := by
  rw [chain, absent]
  rfl

theorem InStep.findIn_eq_none_iff (inStep : table.InStep) :
    table.findIn scope name = none ↔ ∀ id, ¬ table.Holds scope name id := by
  rw [Option.eq_none_iff_forall_ne_some]
  exact forall_congr' fun id => not_congr (inStep scope name id)

section

variable (nested : table.Nested) (shallow : table.Shallow) (inStep : table.InStep)
  {start : ScopeId}

include nested shallow inStep

theorem reaches_iff :
    table.Reaches start scope name ↔
      ∃ inner outer, table.chain start = inner ++ scope :: outer ∧
        ∀ between ∈ inner, table.findIn between name = none := by
  simp only [Reaches, outwards_iff nested shallow, inStep.findIn_eq_none_iff]
  refine exists_congr fun inner => exists_congr fun outer => and_congr_left fun _ => ?_
  refine and_iff_right_of_imp fun searched => ?_
  by_contra absent
  rw [chain_of_absent (Option.not_isSome_iff_eq_none.mp absent)] at searched
  cases inner <;> cases searched

/-- A name refers to what the nearest scope has under it. -/
theorem resolve_eq_some_iff :
    table.resolve start name = some id ↔
      ∃ scope, table.Reaches start scope name ∧ table.Holds scope name id := by
  rw [resolve, List.findSome?_eq_some_iff]
  simp only [reaches_iff nested shallow inStep]
  constructor
  · rintro ⟨inner, scope, outer, searched, found, missing⟩
    exact ⟨scope, ⟨inner, outer, searched, missing⟩, (inStep ..).mp found⟩
  · rintro ⟨scope, ⟨inner, outer, searched, missing⟩, holds⟩
    exact ⟨inner, scope, outer, searched, (inStep ..).mpr holds, missing⟩

/-- A name refers to nothing if no scope around has it. -/
theorem resolve_eq_none_iff :
    table.resolve start name = none ↔
      ∀ path, table.Outwards start path → ∀ scope ∈ path, ∀ id, ¬ table.Holds scope name id := by
  rw [resolve, List.findSome?_eq_none_iff]
  simp only [inStep.findIn_eq_none_iff]
  constructor
  · intro missing path outwards
    rw [← outwards.chain_eq shallow]
    exact missing
  · intro missing scope around
    cases found : table.scope? start with
    | none =>
      rw [chain_of_absent found] at around
      cases around
    | some record =>
      exact missing _ (outwards_chain nested shallow (found ▸ rfl)) scope around

end

theorem chain_declare (table : ScopeTable) (scope : ScopeId) (name : String) (kind : FieldKind)
    (node : Handle) (start : ScopeId) :
    (table.declare scope name kind node).1.chain start = table.chain start := by
  refine chain_congr (fun other => ?_) start
  have same := congrArg (Option.map Prod.snd) (frame_declare table scope name kind node other)
  rwa [frame, frame, Option.map_map, Option.map_map] at same

/-- A declared name is found in its scope; any other is found where it was. -/
theorem findIn_declare (present : (table.scope? scope).isSome) (name : String) (kind : FieldKind)
    (node : Handle) (other : ScopeId) (otherName : String) :
    let declared := table.declare scope name kind node
    declared.1.findIn other otherName =
      if other = scope ∧ otherName = name then some declared.2
      else table.findIn other otherName := by
  intro declared
  cases found : table.findIn scope name with
  | some id =>
    have known : declared = (table.addDeclaration id node, id) := by
      simp only [declared, declare, found]
    rw [known]
    change table.findIn other otherName = _
    split
    · next here => rw [here.1, here.2, found]
    · rfl
  | none =>
    have new : declared =
        table.addField { name, kind, scope, declarations := node.toList } := by
      simp only [declared, declare, found]
    rw [new, findIn_addField]
    by_cases here : other = scope ∧ otherName = name
    · obtain ⟨rfl, rfl⟩ := here
      simp [found, present, addField]
    · have apart : ¬ (other = scope ∧ (table.scope? other).isSome ∧ otherName = name) :=
        fun same => here ⟨same.1, same.2.2⟩
      rw [if_neg here, if_neg apart, Option.or_none]

/-- A declaration adds to the declarations of one field at most, and changes nothing else of the
fields that there are. -/
theorem field?_declare (table : ScopeTable) (scope : ScopeId) (name : String) (kind : FieldKind)
    (node : Handle) {field : Field} (found : table.field? id = some field) :
    ∃ more, (table.declare scope name kind node).1.field? id =
      some { field with declarations := field.declarations ++ more } := by
  have same : ∃ more : List NodeId,
      some field = some { field with declarations := field.declarations ++ more } :=
    ⟨[], by rw [List.append_nil]⟩
  unfold declare
  split
  · next known _ =>
    rw [addDeclaration, field?_modifyField, found]
    split
    · exact ⟨node.toList, rfl⟩
    · exact same
  · have old : id ≠ table.fields.size :=
      Nat.ne_of_lt (Array.getElem?_eq_some_iff.mp found).1
    rw [field?_addField, if_neg old, found]
    exact same

section

variable {scopes inner outer : List ScopeId} {search : ScopeId → Option FieldId}

/-- A search that comes to the scope before it finds anything else finds what is there. -/
theorem findSome?_of_reached (missing : ∀ between ∈ inner, search between = none) :
    (inner ++ scope :: outer).findSome?
      (fun other => if other = scope then some id else search other) = some id := by
  induction inner with
  | nil => simp
  | cons other rest ih =>
    obtain ⟨here, later⟩ := List.forall_mem_cons.mp missing
    rw [List.cons_append, List.findSome?_cons, here]
    by_cases same : other = scope
    · rw [if_pos same]
    · rw [if_neg same]
      exact ih later

/-- Any other search finds what it found. -/
theorem findSome?_of_unreached
    (unreached : ¬ ∃ inner outer, scopes = inner ++ scope :: outer ∧
      ∀ between ∈ inner, search between = none) :
    scopes.findSome? (fun other => if other = scope then some id else search other) =
      scopes.findSome? search := by
  induction scopes with
  | nil => rfl
  | cons other rest ih =>
    have apart : other ≠ scope := by
      rintro rfl
      exact unreached ⟨[], rest, rfl, List.forall_mem_nil _⟩
    rw [List.findSome?_cons, List.findSome?_cons, if_neg apart]
    cases found : search other with
    | some field => rfl
    | none =>
      refine ih fun ⟨inner, outer, split, missing⟩ => unreached ?_
      exact ⟨other :: inner, outer, congrArg (other :: ·) split,
        List.forall_mem_cons.mpr ⟨found, missing⟩⟩

end

section

variable (nested : table.Nested) (shallow : table.Shallow) (inStep : table.InStep)
  (present : (table.scope? scope).isSome) (kind : FieldKind) (node : Handle) {start : ScopeId}

include nested shallow inStep present

theorem resolve_declare_of_reaches (reaches : table.Reaches start scope name) :
    let declared := table.declare scope name kind node
    declared.1.resolve start name = some declared.2 := by
  intro declared
  obtain ⟨inner, outer, searched, missing⟩ := (reaches_iff nested shallow inStep).mp reaches
  have search : (declared.1.findIn · name) =
      fun other => if other = scope then some declared.2 else table.findIn other name := by
    funext other
    simp [declared, findIn_declare present name kind node other name]
  rw [resolve, chain_declare, searched, search]
  exact findSome?_of_reached missing

theorem resolve_declare_of_not_reaches {other : String}
    (apart : ¬ (other = name ∧ table.Reaches start scope name)) :
    (table.declare scope name kind node).1.resolve start other = table.resolve start other := by
  rw [resolve, chain_declare]
  by_cases same : other = name
  · subst same
    have search : ((table.declare scope other kind node).1.findIn · other) = fun home =>
        if home = scope then some (table.declare scope other kind node).2
        else table.findIn home other := by
      funext home
      simp [findIn_declare present other kind node home other]
    rw [search]
    refine findSome?_of_unreached fun reached => apart ⟨rfl, ?_⟩
    exact (reaches_iff nested shallow inStep).mpr reached
  · have search : ((table.declare scope name kind node).1.findIn · other) =
        (table.findIn · other) := by
      funext home
      simp [findIn_declare present name kind node home other, same]
    rw [search]
    rfl

end

end ScopeTable

open ScopeTable (globalScope) in
/-- One field for a name in a scope, and for a lookup the nearest. In a table that is built by
opening scopes and declaring names, and is not too deep, a scope finds under a name the one
field that it has. Going outwards from any scope one comes to the global scope, so there is
always a scope for a variable. A name refers to the field that the nearest scope outwards has
under it, and to nothing if none has. A declaration decides what its name refers to wherever
the search comes to its scope before it finds another; it changes no other meaning, and of the
fields there are it only adds to the declarations. -/
theorem resolve_nearest {table : ScopeTable} (built : table.Built) (shallow : table.Shallow) :
    (∀ scope name id, table.findIn scope name = some id ↔ table.Holds scope name id) ∧
    (∀ scope name id other,
      table.Holds scope name id → table.Holds scope name other → id = other) ∧
    (∀ scope, (table.scope? scope).isSome →
      table.Outwards scope (table.chain scope) ∧
      (table.chain scope).getLast? = some globalScope ∧
      (table.chain scope).find? (fun id =>
          (table.scope? id).any fun record => record.kind.holdsVariables) =
        some (table.variableScope scope)) ∧
    (∀ start name id, table.resolve start name = some id ↔
      ∃ scope, table.Reaches start scope name ∧ table.Holds scope name id) ∧
    (∀ start name, table.resolve start name = none ↔
      ∀ path, table.Outwards start path → ∀ scope ∈ path, ∀ id, ¬ table.Holds scope name id) ∧
    ∀ scope name kind node, (table.scope? scope).isSome →
      let declared := table.declare scope name kind node
      (∀ start, table.Reaches start scope name →
        declared.1.resolve start name = some declared.2) ∧
      (∀ start other, ¬ (other = name ∧ table.Reaches start scope name) →
        declared.1.resolve start other = table.resolve start other) ∧
      ∀ id field, table.field? id = some field →
        ∃ more, declared.1.field? id =
          some { field with declarations := field.declarations ++ more } := by
  obtain ⟨nested, inStep⟩ := built.nested_inStep
  refine ⟨inStep, ?_, ?_, ?_, ?_, ?_⟩
  · intro scope name id other first second
    have found := (inStep scope name id).mpr first
    exact Option.some.inj (found.symm.trans ((inStep scope name other).mpr second))
  · intro scope present
    have outwards := ScopeTable.outwards_chain nested shallow present
    exact ⟨outwards, outwards.getLast?_eq nested,
      ScopeTable.find?_variableScope nested shallow present⟩
  · exact fun start name id => ScopeTable.resolve_eq_some_iff nested shallow inStep
  · exact fun start name => ScopeTable.resolve_eq_none_iff nested shallow inStep
  · intro scope name kind node present
    refine ⟨?_, ?_, fun id field => ScopeTable.field?_declare table scope name kind node⟩
    · exact fun start =>
        ScopeTable.resolve_declare_of_reaches nested shallow inStep present kind node
    · exact fun start other =>
        ScopeTable.resolve_declare_of_not_reaches nested shallow inStep present kind node

open ScopeTable (globalScope) in
/-- A variable declared in a block of a function belongs to the function; a name declared in the
block afterwards hides it there, and there alone. -/
theorem resolve_nearest_of_hidden_variable :
    let function := (ScopeTable.new.createScope .function globalScope none).1
    let block := (function.createScope .block 1 none).1
    let table := (block.declareVariable 2 "x" none).1
    let declared := table.declare 2 "x" .local none
    table.Built ∧ table.Shallow ∧ (table.scope? 2).isSome ∧
    table.Holds 1 "x" 0 ∧ table.resolve 2 "x" = some 0 ∧
    table.Reaches 2 2 "x" ∧ declared.1.resolve 2 "x" = some 1 ∧
    ¬ table.Reaches 1 2 "x" ∧ declared.1.resolve 1 "x" = some 0 := by
  intro function block table declared
  have built : table.Built :=
    .declareVariable (.createScope (.createScope .new .function rfl none) .block rfl none) rfl
      "x" none
  have shallow : table.Shallow := built.nested_inStep.1.shallow (by decide)
  have inner : (table.scope? 2).isSome := rfl
  have outer : (table.scope? 1).isSome := rfl
  obtain ⟨finds, -, around, resolves, -, declares⟩ := resolve_nearest built shallow
  have function_holds : table.Holds 1 "x" 0 := (finds 1 "x" 0).mp rfl
  have block_holds (id : FieldId) : ¬ table.Holds 2 "x" id := fun holds => by
    have found := (finds 2 "x" id).mpr holds
    cases found
  have outwards : table.Outwards 2 [2, 1, 0] := (around 2 inner).1
  have outwardsOuter : table.Outwards 1 [1, 0] := (around 1 outer).1
  have hidden : table.Reaches 2 2 "x" := ⟨[], [1, 0], outwards, List.forall_mem_nil _⟩
  have beside : ¬ table.Reaches 1 2 "x" := by
    rintro ⟨before, after, path, -⟩
    have member : 2 ∈ [1, 0] := by
      rw [outwardsOuter.unique path]
      exact List.mem_append_right _ List.mem_cons_self
    exact absurd member (by decide)
  obtain ⟨changes, keeps, -⟩ := declares 2 "x" .local none inner
  refine ⟨built, shallow, inner, function_holds, ?_, hidden, changes 2 hidden, beside, ?_⟩
  · refine (resolves 2 "x" 0).mpr ⟨1, ⟨[2], [0], outwards, ?_⟩, function_holds⟩
    exact List.forall_mem_singleton.mpr block_holds
  · refine (keeps 1 "x" fun same => beside same.2).trans ?_
    exact (resolves 1 "x" 0).mpr
      ⟨1, ⟨[], [0], outwardsOuter, List.forall_mem_nil _⟩, function_holds⟩

end ScriptSyntax

import StructuralTypes.Compilation.Synthesis

/-!
# Stored handles

Tables hand out handles, and nearly everything stores some: symbols, types, nodes, definitions,
remembered variants. `handles` lists what a value stores. An `Extent` says how far the tables reach,
and a value is `Within` an extent if each of its handles is. Tables never shrink, so what is within
an extent stays within all later ones.

A session or compilation is closed if all that it stores is within its own extent.

Results:
* `Within.mono`: what is within an extent is within a larger one.
* `within_symbolTable`, `within_typeTable`, ...: a value is within if its parts are.
* `Session.closed_iff`, `Compilation.closed_iff`: closedness, part by part.
-/

namespace StructuralTypes

/-! ## Handles and extents -/

/-- A handle of any of the tables. -/
inductive Handle
  /-- The handle of a symbol. -/
  | symbol (s : SymbolId)
  /-- The handle of a scope. -/
  | scope (s : ScopeId)
  /-- The handle of a type. -/
  | type (ty : TypeId)
deriving DecidableEq, Repr

/-- How far the tables reach. -/
structure Extent where
  /-- The number of symbols. -/
  symbols : Nat
  /-- The number of scopes. -/
  scopes : Nat
  /-- The number of types. -/
  types : Nat

instance : LE Extent :=
  ⟨fun b b' => b.symbols ≤ b'.symbols ∧ b.scopes ≤ b'.scopes ∧ b.types ≤ b'.types⟩

variable {b b' b'' : Extent}

theorem Extent.le_refl (b : Extent) : b ≤ b :=
  ⟨Nat.le_refl _, Nat.le_refl _, Nat.le_refl _⟩

theorem Extent.le_trans (h : b ≤ b') (h' : b' ≤ b'') : b ≤ b'' :=
  ⟨Nat.le_trans h.1 h'.1, Nat.le_trans h.2.1 h'.2.1, Nat.le_trans h.2.2 h'.2.2⟩

/-- The table of the handle reaches as far as the handle. -/
def Handle.Within (b : Extent) : Handle → Prop
  | symbol s => s.index < b.symbols
  | scope s => s.index < b.scopes
  | type ty => ty.index < b.types

instance (b : Extent) : DecidablePred (Handle.Within b)
  | .symbol s => inferInstanceAs (Decidable (s.index < b.symbols))
  | .scope s => inferInstanceAs (Decidable (s.index < b.scopes))
  | .type ty => inferInstanceAs (Decidable (ty.index < b.types))

theorem Handle.Within.mono {h : Handle} (hh : h.Within b) (hb : b ≤ b') : h.Within b' := by
  cases h with
  | symbol s => exact Nat.lt_of_lt_of_le hh hb.1
  | scope s => exact Nat.lt_of_lt_of_le hh hb.2.1
  | type ty => exact Nat.lt_of_lt_of_le hh hb.2.2

/-- Values of the type store handles. -/
class HasHandles (α : Type) where
  /-- The handles that a value stores. -/
  handles : α → List Handle

export HasHandles (handles)

variable {α β : Type} [HasHandles α] [HasHandles β]

/-- All handles that the value stores are within the extent. -/
def Within (b : Extent) (a : α) : Prop := ∀ h ∈ handles a, h.Within b

instance (b : Extent) (a : α) : Decidable (Within b a) :=
  inferInstanceAs (Decidable (∀ h ∈ handles a, h.Within b))

theorem Within.mono {a : α} (h : Within b a) (hb : b ≤ b') : Within b' a :=
  fun x hx => (h x hx).mono hb

/-- A value that stores what two values store is within if both are. -/
theorem within_of_append {γ : Type} [HasHandles γ] {c : γ} {a : α} {a' : β}
    (h : handles c = handles a ++ handles a') : Within b c ↔ Within b a ∧ Within b a' := by
  unfold Within
  rw [h, List.forall_mem_append]

/-! ## Plain values and containers -/

instance : HasHandles SymbolId := ⟨fun s => [.symbol s]⟩

instance : HasHandles ScopeId := ⟨fun s => [.scope s]⟩

instance : HasHandles TypeId := ⟨fun ty => [.type ty]⟩

instance : HasHandles Unit := ⟨fun _ => []⟩

instance : HasHandles Bool := ⟨fun _ => []⟩

instance : HasHandles Nat := ⟨fun _ => []⟩

instance : HasHandles String := ⟨fun _ => []⟩

instance : HasHandles PackageId := ⟨fun _ => []⟩

instance : HasHandles StructureKind := ⟨fun _ => []⟩

instance : HasHandles (α × β) := ⟨fun p => handles p.1 ++ handles p.2⟩

instance : HasHandles (List α) := ⟨fun l => l.flatMap handles⟩

instance : HasHandles (Option α) := ⟨fun o => handles o.toList⟩

instance : HasHandles (Array α) := ⟨fun a => handles a.toList⟩

instance {κ : Type} [HasHandles κ] : HasHandles (OrderedMap κ α) := ⟨fun m => handles m.entries⟩

section Containers

variable {κ : Type} [HasHandles κ] {m : OrderedMap κ α} {k : κ} {a v : α} {l : List α}

@[simp] theorem within_symbolId {s : SymbolId} : Within b s ↔ s.index < b.symbols :=
  List.forall_mem_singleton

@[simp] theorem within_scopeId {s : ScopeId} : Within b s ↔ s.index < b.scopes :=
  List.forall_mem_singleton

@[simp] theorem within_typeId {ty : TypeId} : Within b ty ↔ ty.index < b.types :=
  List.forall_mem_singleton

@[simp] theorem within_unit (u : Unit) : Within b u := List.forall_mem_nil _

@[simp] theorem within_bool (x : Bool) : Within b x := List.forall_mem_nil _

@[simp] theorem within_nat (n : Nat) : Within b n := List.forall_mem_nil _

@[simp] theorem within_string (s : String) : Within b s := List.forall_mem_nil _

@[simp] theorem within_packageId (p : PackageId) : Within b p := List.forall_mem_nil _

@[simp] theorem within_structureKind (k : StructureKind) : Within b k := List.forall_mem_nil _

@[simp] theorem within_prod {p : α × β} : Within b p ↔ Within b p.1 ∧ Within b p.2 :=
  within_of_append rfl

theorem within_triple {γ : Type} [HasHandles γ] {a' : β} {a'' : γ} :
    Within b (a, a', a'') ↔ Within b a ∧ Within b a' ∧ Within b a'' := by
  simp

theorem within_list : Within b l ↔ ∀ a ∈ l, Within b a := by
  simp only [Within, handles, List.mem_flatMap]
  exact ⟨fun h a ha x hx => h x ⟨a, ha, hx⟩, fun h x ⟨a, ha, hx⟩ => h a ha x hx⟩

@[simp] theorem within_nil : Within b ([] : List α) := List.forall_mem_nil _

@[simp] theorem within_cons : Within b (a :: l) ↔ Within b a ∧ Within b l := by
  simp [within_list]

theorem within_append {l' : List α} : Within b (l ++ l') ↔ Within b l ∧ Within b l' := by
  simp only [within_list, List.forall_mem_append]

@[simp] theorem within_none : Within b (none : Option α) := List.forall_mem_nil _

@[simp] theorem within_some : Within b (some a) ↔ Within b a := by
  show Within b [a] ↔ Within b a
  simp

theorem within_option {o : Option α} : Within b o ↔ ∀ a ∈ o, Within b a := by
  cases o <;> simp

theorem within_array {xs : Array α} :
    Within b xs ↔ ∀ (i : Nat) (x : α), xs[i]? = some x → Within b x := by
  show Within b xs.toList ↔ _
  rw [within_list]
  constructor
  · intro h i x hx
    exact h x (Array.mem_toList_iff.2 (Array.mem_of_getElem? hx))
  · intro h x hx
    obtain ⟨i, hi⟩ := Array.mem_iff_getElem?.1 (Array.mem_toList_iff.1 hx)
    exact h i x hi

/-- What is in an array is within if the array is. -/
theorem Within.getElem? {xs : Array α} (h : Within b xs) {i : Nat} (hx : xs[i]? = some v) :
    Within b v :=
  within_array.1 h i v hx

theorem Within.push {xs : Array α} (h : Within b xs) (hv : Within b v) : Within b (xs.push v) := by
  rw [within_array] at h ⊢
  intro i x hx
  rw [Array.getElem?_push] at hx
  split at hx
  · exact Option.some.inj hx ▸ hv
  · exact h i x hx

theorem Within.setIfInBounds {xs : Array α} (h : Within b xs) (hv : Within b v) (i : Nat) :
    Within b (xs.setIfInBounds i v) := by
  rw [within_array] at h ⊢
  intro j x hx
  rw [Array.getElem?_setIfInBounds] at hx
  split at hx
  · split at hx
    · exact Option.some.inj hx ▸ hv
    · cases hx
  · exact h j x hx

theorem within_orderedMap : Within b m ↔ ∀ k v, (k, v) ∈ m.entries → Within b k ∧ Within b v := by
  show Within b m.entries ↔ _
  rw [within_list]
  exact ⟨fun h k v he => within_prod.1 (h _ he), fun h e he => within_prod.2 (h _ _ he)⟩

@[simp] theorem within_emptyMap : Within b (∅ : OrderedMap κ α) := List.forall_mem_nil _

theorem Within.values (h : Within b m) : Within b m.values := by
  rw [within_orderedMap] at h
  refine within_list.2 fun v hv => ?_
  obtain ⟨⟨k, v⟩, he, rfl⟩ := List.mem_map.1 hv
  exact (h k v he).2

variable [DecidableEq κ]

theorem Within.get? (h : Within b m) (hv : m.get? k = some v) : Within b v :=
  (within_orderedMap.1 h k v (OrderedMap.get?_eq_some_iff.1 hv)).2

theorem Within.erase (h : Within b m) (k : κ) : Within b (m.erase k) := by
  rw [within_orderedMap] at h ⊢
  intro k' v' he
  exact h k' v' (List.mem_filter.1 he).1

theorem Within.insert (h : Within b m) (hk : Within b k) (hv : Within b v) :
    Within b (m.insert k v) := by
  rw [within_orderedMap] at h ⊢
  intro k' v' he
  rw [← OrderedMap.get?_eq_some_iff, OrderedMap.get?_insert] at he
  split at he
  · rename_i hkk
    exact ⟨hkk ▸ hk, Option.some.inj he ▸ hv⟩
  · exact h k' v' (OrderedMap.get?_eq_some_iff.1 he)

theorem Within.ofList {l : List (κ × α)} (h : Within b l) : Within b (OrderedMap.ofList l) := by
  suffices hf : ∀ (l : List (κ × α)) (m : OrderedMap κ α), Within b l → Within b m →
      Within b (l.foldl (fun m e => m.insert e.1 e.2) m) from hf l ∅ h within_emptyMap
  intro l
  induction l with
  | nil => exact fun _ _ hm => hm
  | cons e l ih =>
    intro m hl hm
    rw [within_cons, within_prod] at hl
    exact ih _ hl.2 (hm.insert hl.1.1 hl.1.2)

end Containers

/-! ## Symbols and scopes -/

instance : HasHandles Declaration := ⟨fun d => handles (d.ty, d.owner)⟩

instance : HasHandles Signature := ⟨fun s => handles (s.params, s.rest, s.returns)⟩

instance : HasHandles FunctionSpec := ⟨fun f => handles (f.toSignature, f.receiver)⟩

instance : HasHandles InitializerLink := ⟨fun l => handles (l.symbol, l.ty)⟩

instance : HasHandles TypeLinks := ⟨fun l => handles (l.initializer, l.definition)⟩

instance : HasHandles SymbolKind where
  handles
    | .variable | .typeDefinition => []
    | .function info => handles info
    | .functionType signature => handles signature
    | .type info => handles info

instance : HasHandles Symbol := ⟨fun s => handles (s.toDeclaration, s.id, s.kind, s.scope)⟩

instance : HasHandles Scope := ⟨fun s => handles (s.id, s.owner, s.bindings)⟩

instance : HasHandles SymbolTable := ⟨fun t => handles (t.symbols, t.scopes)⟩

@[simp] theorem within_declaration {d : Declaration} :
    Within b d ↔ Within b d.ty ∧ Within b d.owner :=
  within_prod

@[simp] theorem within_signature {s : Signature} :
    Within b s ↔ Within b s.params ∧ Within b s.rest ∧ Within b s.returns :=
  within_triple

@[simp] theorem within_functionSpec {f : FunctionSpec} :
    Within b f ↔ Within b f.toSignature ∧ Within b f.receiver :=
  within_prod

@[simp] theorem within_initializerLink {l : InitializerLink} :
    Within b l ↔ Within b l.symbol ∧ Within b l.ty :=
  within_prod

@[simp] theorem within_typeLinks {l : TypeLinks} :
    Within b l ↔ Within b l.initializer ∧ Within b l.definition :=
  within_prod

@[simp] theorem within_variable : Within b SymbolKind.variable := List.forall_mem_nil _

@[simp] theorem within_typeDefinitionKind : Within b SymbolKind.typeDefinition :=
  List.forall_mem_nil _

@[simp] theorem within_function {info : FunctionSpec} :
    Within b (SymbolKind.function info) ↔ Within b info := Iff.rfl

@[simp] theorem within_functionType {signature : Signature} :
    Within b (SymbolKind.functionType signature) ↔ Within b signature := Iff.rfl

@[simp] theorem within_typeKind {info : TypeLinks} :
    Within b (SymbolKind.type info) ↔ Within b info := Iff.rfl

@[simp] theorem within_symbol {s : Symbol} :
    Within b s ↔ Within b s.toDeclaration ∧ Within b s.id ∧ Within b s.kind ∧ Within b s.scope := by
  show Within b (s.toDeclaration, s.id, s.kind, s.scope) ↔ _
  simp

theorem Within.mapTypeLinks {s : Symbol} {f : TypeLinks → TypeLinks} (h : Within b s)
    (hf : ∀ info, Within b info → Within b (f info)) : Within b (s.mapTypeLinks f) := by
  obtain ⟨hd, hid, hkind, hscope⟩ := within_symbol.1 h
  unfold Symbol.mapTypeLinks
  split
  · rename_i info hinfo
    rw [hinfo] at hkind
    exact within_symbol.2 ⟨hd, hid, hf info hkind, hscope⟩
  · exact h

theorem Within.mapFunction {s : Symbol} {f : FunctionSpec → FunctionSpec} (h : Within b s)
    (hf : ∀ info, Within b info → Within b (f info)) : Within b (s.mapFunction f) := by
  obtain ⟨hd, hid, hkind, hscope⟩ := within_symbol.1 h
  unfold Symbol.mapFunction
  split
  · rename_i info hinfo
    rw [hinfo] at hkind
    exact within_symbol.2 ⟨hd, hid, hf info hkind, hscope⟩
  · exact h

@[simp] theorem within_scope {s : Scope} :
    Within b s ↔ Within b s.id ∧ Within b s.owner ∧ Within b s.bindings :=
  within_triple

@[simp] theorem within_symbolTable {t : SymbolTable} :
    Within b t ↔ Within b t.symbols ∧ Within b t.scopes :=
  within_prod

/-! ## Types -/

instance : HasHandles Field := ⟨fun f => handles (f.ty, f.symbol)⟩

instance : HasHandles RecordType := ⟨fun r => handles (r.fields, r.rest)⟩

instance : HasHandles Ty where
  handles
    | .nil | .int | .float | .boolean | .string | .any | .anydata | .never | .absent
    | .semanticError | .placeholder => []
    | .union members => handles members
    | .record record => handles record
    | .object fields => handles fields
    | .error detail => handles detail
    | .map constraint => handles constraint
    | .invokable params rest returns => handles (params, rest, returns)
    | .ref target => handles target

instance : HasHandles TypeEntry := ⟨fun e => handles (e.ty, e.symbol)⟩

/-- The handles of the builtin types. -/
def Builtin.all : List TypeId := (List.range Builtin.types.length).map TypeId.mk

/-- A type table also stores where the builtin types are. -/
instance : HasHandles TypeTable := ⟨fun t => handles (Builtin.all, t.entries)⟩

@[simp] theorem within_field {f : Field} : Within b f ↔ Within b f.ty ∧ Within b f.symbol :=
  within_prod

@[simp] theorem within_recordType {r : RecordType} :
    Within b r ↔ Within b r.fields ∧ Within b r.rest :=
  within_prod

@[simp] theorem within_typeEntry {e : TypeEntry} :
    Within b e ↔ Within b e.ty ∧ Within b e.symbol :=
  within_prod

@[simp] theorem within_typeTable {t : TypeTable} :
    Within b t ↔ Within b Builtin.all ∧ Within b t.entries :=
  within_prod

@[simp] theorem within_invokable {params : List TypeId} {rest : Option TypeId} {returns : TypeId} :
    Within b (Ty.invokable params rest returns) ↔
      Within b params ∧ Within b rest ∧ Within b returns :=
  within_triple

@[simp] theorem within_recordTy {r : RecordType} : Within b (Ty.record r) ↔ Within b r := Iff.rfl

@[simp] theorem within_objectTy {fields : FieldMap} :
    Within b (Ty.object fields) ↔ Within b fields := Iff.rfl

theorem within_any : Within b Ty.any := List.forall_mem_nil _

theorem within_anydata : Within b Ty.anydata := List.forall_mem_nil _

theorem within_builtin (h : Within b Builtin.all) {n : Nat} (hn : n < Builtin.types.length) :
    Within b (TypeId.mk n) :=
  within_list.1 h _ (List.mem_map.2 ⟨n, List.mem_range.2 hn, rfl⟩)

theorem Within.fields? {ty : Ty} {fields : FieldMap} (h : Within b ty)
    (hf : ty.fields? = some fields) : Within b fields := by
  cases ty with
  | record r => exact Option.some.inj hf ▸ (within_recordType.1 h).1
  | object fs => exact Option.some.inj hf ▸ h
  | _ => cases hf

theorem Within.mapFields {ty : Ty} {f : FieldMap → FieldMap} (h : Within b ty)
    (hf : ∀ fields, Within b fields → Within b (f fields)) : Within b (ty.mapFields f) := by
  cases ty with
  | record r =>
    have hr := within_recordType.1 h
    exact within_recordType.2 ⟨hf _ hr.1, hr.2⟩
  | object fs => exact hf fs h
  | _ => exact h

theorem Within.withRest {ty : Ty} {rest : TypeId} (h : Within b ty) (hr : Within b rest) :
    Within b (ty.withRest rest) := by
  cases ty with
  | record r => exact within_recordType.2 ⟨(within_recordType.1 h).1, within_some.2 hr⟩
  | _ => exact h

/-! ## Nodes and packages -/

instance : HasHandles VariableNode := ⟨fun v => handles (v.ty, v.symbol)⟩

instance : HasHandles FunctionNode := ⟨fun f => handles (f.symbol, f.ty, f.receiver, f.returns)⟩

instance : HasHandles TypeReference := ⟨fun r => handles r.ty⟩

instance : HasHandles StructureNode :=
  ⟨fun n => handles (n.ty, n.symbol, n.fields, n.references, n.initializer)⟩

/-- The handles that a node stores. -/
def TypeNode.handles : TypeNode → List Handle
  | record node | object node => HasHandles.handles node
  | plainError _ ty => HasHandles.handles ty
  | error _ ty detail => HasHandles.handles ty ++ detail.handles
  | reference r => HasHandles.handles r
  | constrained _ base constraint => base.handles ++ constraint.handles
  | mapConstructor _ => []

instance : HasHandles TypeNode := ⟨TypeNode.handles⟩

instance : HasHandles TypeDefinition := ⟨fun d => handles (d.ty, d.symbol, d.node)⟩

instance : HasHandles ClassDefinition := ⟨fun d => handles (d.ty, d.symbol, d.fields)⟩

instance : HasHandles Package := ⟨fun p => handles (p.typeDefinitions, p.classDefinitions)⟩

@[simp] theorem within_variableNode {v : VariableNode} :
    Within b v ↔ Within b v.ty ∧ Within b v.symbol :=
  within_prod

@[simp] theorem within_functionNode {f : FunctionNode} :
    Within b f ↔ Within b f.symbol ∧ Within b f.ty ∧ Within b f.receiver ∧ Within b f.returns := by
  show Within b (f.symbol, f.ty, f.receiver, f.returns) ↔ _
  simp

@[simp] theorem within_typeReference {r : TypeReference} : Within b r ↔ Within b r.ty := Iff.rfl

@[simp] theorem within_structureNode {n : StructureNode} :
    Within b n ↔ Within b n.ty ∧ Within b n.symbol ∧ Within b n.fields ∧ Within b n.references ∧
      Within b n.initializer := by
  show Within b (n.ty, n.symbol, n.fields, n.references, n.initializer) ↔ _
  simp

@[simp] theorem within_recordNode {n : StructureNode} :
    Within b (TypeNode.record n) ↔ Within b n := Iff.rfl

@[simp] theorem within_objectNode {n : StructureNode} :
    Within b (TypeNode.object n) ↔ Within b n := Iff.rfl

@[simp] theorem within_errorNode {span : Span} {ty : Option TypeId} {detail : TypeNode} :
    Within b (TypeNode.error span ty detail) ↔ Within b ty ∧ Within b detail :=
  within_of_append rfl

@[simp] theorem within_referenceNode {r : TypeReference} :
    Within b (TypeNode.reference r) ↔ Within b r := Iff.rfl

@[simp] theorem within_constrainedNode {span : Span} {base constraint : TypeNode} :
    Within b (TypeNode.constrained span base constraint) ↔
      Within b base ∧ Within b constraint :=
  within_of_append rfl

@[simp] theorem within_mapConstructor (span : Span) : Within b (TypeNode.mapConstructor span) :=
  List.forall_mem_nil _

theorem Within.structure? {n : TypeNode} {s : StructureNode} (h : Within b n)
    (hs : n.structure? = some s) : Within b s := by
  cases n with
  | record node | object node => exact Option.some.inj hs ▸ h
  | _ => cases hs

theorem Within.withStructure {n : TypeNode} {s : StructureNode} (h : Within b n)
    (hs : Within b s) : Within b (n.withStructure s) := by
  cases n with
  | record node | object node => exact hs
  | _ => exact h

@[simp] theorem within_typeDefinition {d : TypeDefinition} :
    Within b d ↔ Within b d.ty ∧ Within b d.symbol ∧ Within b d.node :=
  within_triple

@[simp] theorem within_classDefinition {d : ClassDefinition} :
    Within b d ↔ Within b d.ty ∧ Within b d.symbol ∧ Within b d.fields :=
  within_triple

@[simp] theorem within_package {p : Package} :
    Within b p ↔ Within b p.typeDefinitions ∧ Within b p.classDefinitions :=
  within_prod

/-! ## What is given to a synthesis -/

instance : HasHandles Settings := ⟨fun s => handles s.initializerReturns⟩

instance : HasHandles Context := ⟨fun ctx => handles (ctx.settings, ctx.scopeOwner)⟩

instance : HasHandles Stamp := ⟨fun stamp => handles stamp.owner⟩

instance : HasHandles FieldPlan := ⟨fun plan => handles plan.holder⟩

instance : HasHandles Population := ⟨fun p => handles (p.target, p.source)⟩

instance : HasHandles InitializerPlan :=
  ⟨fun plan => handles (plan.ty, plan.owner, plan.returns)⟩

instance : HasHandles Environment := ⟨fun env => handles env.scopeOwner⟩

@[simp] theorem within_settings {s : Settings} : Within b s ↔ Within b s.initializerReturns :=
  Iff.rfl

@[simp] theorem within_context {ctx : Context} :
    Within b ctx ↔ Within b ctx.settings ∧ Within b ctx.scopeOwner :=
  within_prod

@[simp] theorem within_stamp {stamp : Stamp} : Within b stamp ↔ Within b stamp.owner := Iff.rfl

@[simp] theorem within_fieldPlan {plan : FieldPlan} : Within b plan ↔ Within b plan.holder :=
  Iff.rfl

@[simp] theorem within_population {p : Population} :
    Within b p ↔ Within b p.target ∧ Within b p.source :=
  within_prod

@[simp] theorem within_initializerPlan {plan : InitializerPlan} :
    Within b plan ↔ Within b plan.ty ∧ Within b plan.owner ∧ Within b plan.returns :=
  within_triple

@[simp] theorem within_environment {env : Environment} :
    Within b env ↔ Within b env.scopeOwner := Iff.rfl

/-! ## Sessions and compilations -/

/-- How far the tables of a session reach. -/
def Session.extent (s : Session) : Extent :=
  ⟨s.symbols.symbols.size, s.symbols.scopes.size, s.types.entries.size⟩

instance : HasHandles Session :=
  ⟨fun s => handles (s.symbols, s.types, s.package, s.memo, s.pending)⟩

/-- All handles that the session stores lead to something. -/
def Session.Closed (s : Session) : Prop := Within s.extent s

@[simp] theorem within_session {s : Session} :
    Within b s ↔ Within b s.symbols ∧ Within b s.types ∧ Within b s.package ∧ Within b s.memo ∧
      Within b s.pending := by
  show Within b (s.symbols, s.types, s.package, s.memo, s.pending) ↔ _
  simp only [within_prod]

namespace Compilation

/-- How far the tables of a compilation reach. -/
def extent (c : Compilation) : Extent :=
  ⟨c.symbols.symbols.size, c.symbols.scopes.size, c.types.entries.size⟩

instance : HasHandles Compilation :=
  ⟨fun c => handles (c.symbols, c.types, c.packages, c.nodes, c.memos, c.pendings, c.settings)⟩

/-- **All handles that the compilation stores lead to something.** -/
def Closed (c : Compilation) : Prop := Within c.extent c

instance : DecidablePred Closed := fun c => inferInstanceAs (Decidable (Within c.extent c))

@[simp] theorem within_compilation {c : Compilation} :
    Within b c ↔ Within b c.symbols ∧ Within b c.types ∧ Within b c.packages ∧
      Within b c.nodes ∧ Within b c.memos ∧ Within b c.pendings ∧ Within b c.settings := by
  show Within b (c.symbols, c.types, c.packages, c.nodes, c.memos, c.pendings, c.settings) ↔ _
  simp only [within_prod]

end Compilation

end StructuralTypes

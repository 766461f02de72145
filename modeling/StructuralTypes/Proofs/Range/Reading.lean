import StructuralTypes.Proofs.Display.Cut
import StructuralTypes.Proofs.Growth
import StructuralTypes.Proofs.Range.Handle

/-!
# Reading tables that store nothing beyond their ends

Tables are closed if they store only handles of things that are there. Whoever follows such handles
never comes to the end of a table: `Sound b x` says that the reading `x` ends with a value that is
within the extent `b`, or stops for another reason. Searches are read along their recursion, and
whatever they find is as good a place to go on from as the one they began at.

Results:
* `Sound.bind`, `sound_mapM`: the rules.
* **`sound_implied`**, **`sound_lookup`**, **`sound_display`**: searches in closed tables.
* `sound_deferred`, `sound_render`, `sound_renderPackage`: what is asked of nodes and packages.
-/

namespace StructuralTypes

variable {α β ι : Type} [HasHandles α] [HasHandles β] {b : Extent}

/-- The reading ends with a value within the extent, or stops, but not at the end of a table. -/
def Sound (b : Extent) (x : Except Stop α) : Prop :=
  match x with
  | .ok a => Within b a
  | .error e => e ≠ .dangling

theorem sound_iff {x : Except Stop α} :
    Sound b x ↔ (∀ a, x = .ok a → Within b a) ∧ x ≠ .error .dangling := by
  unfold Sound
  cases x <;> simp

/-! ## Rules -/

theorem sound_pure {a : α} (h : Within b a) : Sound b (pure a : Except Stop α) := h

theorem sound_fault (f : Fault) : Sound b (.error f : Except Stop α) := Stop.noConfusion

theorem Sound.bind {x : Except Stop α} {f : α → Except Stop β} (hx : Sound b x)
    (hf : ∀ a, Within b a → Sound b (f a)) : Sound b (x >>= f) := by
  cases x with
  | ok a => exact hf a hx
  | error e => exact hx

theorem sound_mapM {f : ι → Except Stop α} {l : List ι} (hf : ∀ i ∈ l, Sound b (f i)) :
    Sound b (l.mapM f) := by
  induction l with
  | nil => exact within_nil
  | cons i l ih =>
    rw [List.forall_mem_cons] at hf
    rw [List.mapM_cons]
    refine hf.1.bind fun a ha => (ih hf.2).bind fun as has => ?_
    exact sound_pure (within_cons.2 ⟨ha, has⟩)

theorem sound_anyM {f : ι → Except Stop Bool} {l : List ι} (hf : ∀ i ∈ l, Sound b (f i)) :
    Sound b (l.anyM f) := by
  induction l with
  | nil => exact within_bool _
  | cons i l ih =>
    rw [List.forall_mem_cons] at hf
    rw [List.anyM_cons]
    refine hf.1.bind fun found _ => ?_
    cases found with
    | true => exact sound_pure (within_bool _)
    | false => exact ih hf.2

/-! ## Closed tables -/

/-- The tables reach as far as the extent, and store only what is within it. -/
structure ClosedTables (b : Extent) (symbols : SymbolTable) (types : TypeTable) : Prop where
  /-- So many symbols there are. -/
  symbol_count : symbols.symbols.size = b.symbols
  /-- So many scopes there are. -/
  scope_count : symbols.scopes.size = b.scopes
  /-- So many types there are. -/
  type_count : types.entries.size = b.types
  /-- The symbols and scopes are within the extent. -/
  symbols : Within b symbols
  /-- The types are within the extent. -/
  types : Within b types

variable {S : SymbolTable} {T : TypeTable} (h : ClosedTables b S T)
include h

namespace ClosedTables

/-- A symbol in range is there. -/
theorem exists_symbol {x : SymbolId} (hx : Within b x) :
    ∃ named, S.find x = .ok named ∧ Within b named := by
  have hlt : x.index < S.symbols.size := h.symbol_count ▸ within_symbolId.1 hx
  have hget := Array.getElem?_eq_getElem hlt
  exact ⟨_, SymbolTable.find_eq_ok_iff.2 hget, (within_symbolTable.1 h.symbols).1.getElem? hget⟩

/-- A scope in range is there. -/
theorem exists_scope {x : ScopeId} (hx : Within b x) :
    ∃ scope, S.findScope x = .ok scope ∧ Within b scope := by
  have hlt : x.index < S.scopes.size := h.scope_count ▸ within_scopeId.1 hx
  have hget := Array.getElem?_eq_getElem hlt
  exact ⟨_, SymbolTable.findScope_eq_ok_iff.2 hget,
    (within_symbolTable.1 h.symbols).2.getElem? hget⟩

/-- A type in range is there. -/
theorem exists_type {ty : TypeId} (hty : Within b ty) :
    ∃ e, T.find ty = .ok e ∧ Within b e := by
  have hlt : ty.index < T.entries.size := h.type_count ▸ within_typeId.1 hty
  have hget := Array.getElem?_eq_getElem hlt
  exact ⟨_, TypeTable.find_eq_ok_iff.2 hget, (within_typeTable.1 h.types).2.getElem? hget⟩

end ClosedTables

/-! ## Symbols and scopes -/

theorem sound_symbol {x : SymbolId} (hx : Within b x) : Sound b (S.find x) := by
  obtain ⟨named, hfind, hnamed⟩ := h.exists_symbol hx
  exact hfind ▸ hnamed

theorem sound_scope {x : ScopeId} (hx : Within b x) : Sound b (S.findScope x) := by
  obtain ⟨scope, hfind, hscope⟩ := h.exists_scope hx
  exact hfind ▸ hscope

theorem sound_scopeOf {x : SymbolId} (hx : Within b x) : Sound b (S.scopeOf x) := by
  unfold SymbolTable.scopeOf
  refine (sound_symbol h hx).bind fun named hnamed => ?_
  split
  · rename_i id hid
    exact within_some.1 (hid ▸ (within_symbol.1 hnamed).2.2.2)
  · exact sound_fault _

theorem sound_enclosing {scope : Scope} (hscope : Within b scope) :
    Sound b (S.enclosing scope) := by
  unfold SymbolTable.enclosing
  refine (sound_symbol h (within_scope.1 hscope).2.1).bind fun owner howner => ?_
  split
  · rename_i outer houter
    have hdeclared := (within_declaration.1 (within_symbol.1 howner).1).2
    have hin : Within b outer := within_some.1 (houter ▸ hdeclared)
    refine (sound_symbol h hin).bind fun named hnamed => ?_
    exact sound_pure (within_symbol.1 hnamed).2.2.2
  · exact sound_pure within_none

/-- **Looking a name up goes from scopes that are there to scopes that are there.** -/
theorem sound_lookupWithin (name : String) (fuel : Nat) {x : ScopeId} (hx : Within b x) :
    Sound b (S.lookupWithin name fuel x) := by
  induction fuel generalizing x with
  | zero => exact Stop.noConfusion
  | succ fuel ih =>
    rw [SymbolTable.lookupWithin]
    refine (sound_scope h hx).bind fun scope hscope => ?_
    split
    · rename_i found hfound
      exact sound_pure (within_some.2 ((within_scope.1 hscope).2.2.get? hfound))
    · refine (sound_enclosing h hscope).bind fun o ho => ?_
      split
      · exact ih (within_some.1 ho)
      · exact sound_pure within_none

theorem sound_lookup (name : String) {x : ScopeId} (hx : Within b x) :
    Sound b (S.lookup x name) :=
  sound_lookupWithin h name _ hx

/-- A name is bound, or found to be bound. -/
theorem sound_define {id : ScopeId} {y : SymbolId} (hid : Within b id) (name : String)
    (hy : Within b y) : Sound b (S.define id name y) := by
  unfold SymbolTable.define
  refine (sound_scope h hid).bind fun scope hscope => ?_
  obtain ⟨hself, howner, hbindings⟩ := within_scope.1 hscope
  have hextended : Sound b (scope.define name y) := by
    unfold Scope.define
    split
    · exact sound_fault _
    · exact within_scope.2 ⟨hself, howner, hbindings.insert (within_string _) hy⟩
  refine hextended.bind fun extended hin => ?_
  obtain ⟨hsymbols, hscopes⟩ := within_symbolTable.1 h.symbols
  exact sound_pure (within_symbolTable.2 ⟨hsymbols, hscopes.setIfInBounds hin _⟩)

theorem sound_defineIn {owner y : SymbolId} (howner : Within b owner) (name : String)
    (hy : Within b y) : Sound b (S.defineIn owner name y) := by
  unfold SymbolTable.defineIn
  exact (sound_scopeOf h howner).bind fun id hid => sound_define h hid name hy

/-! ## Types -/

theorem sound_type {ty : TypeId} (hty : Within b ty) : Sound b (T.find ty) := by
  obtain ⟨e, hfind, he⟩ := h.exists_type hty
  exact hfind ▸ he

theorem sound_impliedWithin (fuel : Nat) {ty : TypeId} (hty : Within b ty) :
    Sound b (T.impliedWithin fuel ty) := by
  induction fuel generalizing ty with
  | zero => exact hty
  | succ fuel ih =>
    rw [TypeTable.impliedWithin]
    refine (sound_type h hty).bind fun e he => ?_
    split
    · rename_i target htarget
      have hin : Within b (Ty.ref target) := htarget ▸ (within_typeEntry.1 he).1
      exact ih hin
    · exact sound_pure hty

/-- **A chain of references leads to a type that is there.** -/
theorem sound_implied {ty : TypeId} (hty : Within b ty) : Sound b (T.implied ty) :=
  sound_impliedWithin h _ hty

theorem sound_isReadonly {ty : TypeId} (hty : Within b ty) : Sound b (T.isReadonly ty) := by
  unfold TypeTable.isReadonly
  exact (sound_type h hty).bind fun e _ => sound_pure (within_bool _)

/-! ### The text of a type -/

theorem sound_shownName? {e : TypeEntry} (he : Within b e) :
    Sound b (TypeTable.shownName? S e) := by
  unfold TypeTable.shownName?
  split
  · exact sound_pure within_none
  · rename_i x hx
    have hin : Within b x := within_some.1 (hx ▸ (within_typeEntry.1 he).2)
    refine (sound_symbol h hin).bind fun named _ => sound_pure ?_
    split
    · exact within_none
    · exact within_some.2 (within_string _)

omit h in
theorem sound_renderFields {text : TypeId → Except Stop String} {fields : FieldMap}
    (ht : ∀ ty, Within b ty → Sound b (text ty)) (hf : Within b fields) :
    Sound b (Ty.renderFields text fields) := by
  unfold Ty.renderFields
  refine (sound_mapM fun f hmem => ?_).bind fun _ _ => sound_pure (within_string _)
  have hfield : Within b f := within_list.1 hf.values f hmem
  exact (ht _ (within_field.1 hfield).1).bind fun _ _ => sound_pure (within_string _)

omit h in
/-- The text of a type is put together from the texts of the types in it. -/
theorem sound_renderTy {text : TypeId → Except Stop String} {ty : Ty}
    (ht : ∀ ty, Within b ty → Sound b (text ty)) (hty : Within b ty) :
    Sound b (ty.render text) := by
  have htexts : ∀ {l : List TypeId}, Within b l → Sound b (l.mapM text) :=
    fun hl => sound_mapM fun m hm => ht m (within_list.1 hl m hm)
  cases ty with
  | union members => exact (htexts hty).bind fun _ _ => sound_pure (within_string _)
  | record r =>
    refine (sound_renderFields ht (within_recordType.1 hty).1).bind fun _ _ => ?_
    split <;> exact sound_pure (within_string _)
  | object fields =>
    exact (sound_renderFields ht hty).bind fun _ _ => sound_pure (within_string _)
  | error detail => exact (ht _ hty).bind fun _ _ => sound_pure (within_string _)
  | map constraint => exact (ht _ hty).bind fun _ _ => sound_pure (within_string _)
  | invokable params rest returns =>
    obtain ⟨hparams, hrest, hreturns⟩ := within_invokable.1 hty
    refine (htexts hparams).bind fun _ _ => ?_
    refine (sound_mapM fun m hm => ?_).bind fun _ _ => ?_
    · exact (ht m (within_option.1 hrest m (Option.mem_toList.1 hm))).bind fun _ _ =>
        sound_pure (within_string _)
    · exact (ht _ hreturns).bind fun _ _ => sound_pure (within_string _)
  | ref target => exact ht target hty
  | _ => exact sound_pure (within_string _)

theorem sound_cutWithin (fuel : Nat) (path : List TypeId) {ty : TypeId} (hty : Within b ty) :
    Sound b (T.cutWithin S fuel path ty) := by
  induction fuel generalizing path ty with
  | zero => exact Stop.noConfusion
  | succ fuel ih =>
    rw [TypeTable.cutWithin]
    refine (sound_type h hty).bind fun e he => (sound_shownName? h he).bind fun o _ => ?_
    split
    · exact sound_pure (within_string _)
    · split
      · exact sound_pure (within_string _)
      · exact sound_renderTy (fun ty hty => ih _ hty) (within_typeEntry.1 he).1

/-- **Writing a type down follows handles that lead to something.** -/
theorem sound_display {ty : TypeId} (hty : Within b ty) : Sound b (T.display S ty) := by
  rw [TypeTable.display_eq_cutWithin]
  exact sound_cutWithin h _ _ hty

/-! ## Nodes -/

theorem sound_isPlaceholder {r : TypeReference} (hr : Within b r) :
    Sound b (r.isPlaceholder T) := by
  unfold TypeReference.isPlaceholder
  split
  · exact sound_pure (within_bool _)
  · rename_i ty hty
    have hin : Within b ty := within_some.1 (hty ▸ within_typeReference.1 hr)
    exact (sound_type h hin).bind fun _ _ => sound_pure (within_bool _)

theorem sound_deferred {n : TypeNode} (hn : Within b n) : Sound b (n.deferred T) := by
  have hreferences : ∀ node : StructureNode, Within b node →
      Sound b (node.references.anyM (·.isPlaceholder T)) := fun node hnode =>
    sound_anyM fun r hr =>
      sound_isPlaceholder h (within_list.1 (within_structureNode.1 hnode).2.2.2.1 r hr)
  induction n with
  | record node => exact hreferences node hn
  | object node => exact hreferences node hn
  | plainError span ty => exact sound_pure (within_bool _)
  | error span ty detail ih => exact ih (within_errorNode.1 hn).2
  | reference r => exact sound_isPlaceholder h hn
  | constrained span base constraint ihBase ihConstraint =>
    obtain ⟨hbase, hconstraint⟩ := within_constrainedNode.1 hn
    refine (ihBase hbase).bind fun waits _ => ?_
    split
    · exact sound_pure (within_bool _)
    · exact ihConstraint hconstraint
  | mapConstructor span => exact sound_pure (within_bool _)

/-- Binding the detail of an error node puts a type in the place of another one. -/
theorem sound_bindDetail? {n : TypeNode} {ty : TypeId} (hn : Within b n) (hty : Within b ty)
    (name : String) : Sound b (n.bindDetail? T ty name) := by
  unfold TypeNode.bindDetail?
  split
  · rename_i span errorTy detailSpan base r
    obtain ⟨herror, hdetail⟩ := within_errorNode.1 hn
    obtain ⟨hbase, hr⟩ := within_constrainedNode.1 hdetail
    refine (sound_isPlaceholder h hr).bind fun waits _ => ?_
    split
    · refine sound_pure (within_some.2 (within_errorNode.2 ⟨herror, ?_⟩))
      exact within_constrainedNode.2 ⟨hbase, within_some.2 hty⟩
    · exact sound_pure within_none
  · exact sound_pure within_none

theorem sound_renderVariables (level : Nat) {fields : List VariableNode} (hf : Within b fields) :
    Sound b (VariableNode.renderAll level S T fields) := by
  unfold VariableNode.renderAll
  refine (sound_mapM fun v hv => ?_).bind fun _ _ => sound_pure (within_string _)
  refine Sound.bind ?_ fun _ _ => sound_pure (within_string _)
  exact sound_display h (within_variableNode.1 (within_list.1 hf v hv)).1

theorem sound_renderStructure (title : String) (level : Nat) {node : StructureNode}
    (hnode : Within b node) : Sound b (node.render title level S T) := by
  unfold StructureNode.render
  refine (sound_renderVariables h _ (within_structureNode.1 hnode).2.2.1).bind fun _ _ => ?_
  exact sound_pure (within_string _)

theorem sound_render (level : Nat) {n : TypeNode} (hn : Within b n) :
    Sound b (n.render S T level) := by
  induction n generalizing level with
  | record node => exact sound_renderStructure h _ _ hn
  | object node => exact sound_renderStructure h _ _ hn
  | error span ty detail ih =>
    exact (ih _ (within_errorNode.1 hn).2).bind fun _ _ => sound_pure (within_string _)
  | constrained span base constraint ihBase ihConstraint =>
    obtain ⟨hbase, hconstraint⟩ := within_constrainedNode.1 hn
    refine (ihBase _ hbase).bind fun _ _ => (ihConstraint _ hconstraint).bind fun _ _ => ?_
    exact sound_pure (within_string _)
  | _ => exact sound_pure (within_string _)

/-! ## Packages -/

omit h in
/-- A type definition is registered, or found to be registered. -/
theorem sound_registerType {p : Package} {d : TypeDefinition} (hp : Within b p) (hd : Within b d) :
    Sound b (p.registerType d) := by
  obtain ⟨htypes, hclasses⟩ := within_package.1 hp
  unfold Package.registerType
  split
  · exact sound_fault _
  · refine sound_pure (within_prod.2 ⟨within_nat _, within_package.2 ⟨?_, hclasses⟩⟩)
    exact within_append.2 ⟨htypes, within_cons.2 ⟨hd, within_nil⟩⟩

omit h in
/-- A class definition is registered, or found to be registered. -/
theorem sound_registerClass {p : Package} {d : ClassDefinition} (hp : Within b p)
    (hd : Within b d) : Sound b (p.registerClass d) := by
  obtain ⟨htypes, hclasses⟩ := within_package.1 hp
  unfold Package.registerClass
  split
  · exact sound_fault _
  · refine sound_pure (within_prod.2 ⟨within_nat _, within_package.2 ⟨htypes, ?_⟩⟩)
    exact within_append.2 ⟨hclasses, within_cons.2 ⟨hd, within_nil⟩⟩

theorem sound_renderPackage {p : Package} (hp : Within b p) : Sound b (p.render S T) := by
  unfold Package.render
  refine (sound_mapM fun d hd => ?_).bind fun _ _ => ?_
  · have hin : Within b d := within_list.1 (within_package.1 hp).1 d hd
    refine (sound_render h 2 (within_typeDefinition.1 hin).2.2).bind fun _ _ => ?_
    exact sound_pure (within_string _)
  refine (sound_mapM fun d hd => ?_).bind fun _ _ => sound_pure (within_string _)
  have hin : Within b d := within_list.1 (within_package.1 hp).2 d hd
  obtain ⟨-, hsymbol, hfields⟩ := within_classDefinition.1 hin
  refine (sound_symbol h hsymbol).bind fun _ _ => ?_
  exact (sound_renderVariables h 2 hfields).bind fun _ _ => sound_pure (within_string _)

end StructuralTypes

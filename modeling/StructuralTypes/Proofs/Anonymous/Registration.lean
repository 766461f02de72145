import StructuralTypes.Proofs.Anonymous.Session

/-!
# What the registration of an anonymous record leaves

The definition is there, and so is its symbol, which has a scope that binds its own name. The symbol
of the record links to it. The record has a field for each that it had, in the same order; the
fields have new symbols, which are bound in a new scope of the record's symbol. Whatever else was
there is as it was, the old scope of the record and the symbols of its old fields included.

Results:
* `BuiltField.rebuilt`: what a field has become.
* **`registerAnonymousRecord_rebuilds`**: what is there after the registration.
-/

namespace StructuralTypes

/-! ## The fields -/

/-- The modifiers of the symbol of a field; without a symbol there are none. -/
def SymbolTable.modifiersOf (S : SymbolTable) (f : Field) : Flags :=
  (f.symbol.bind fun x => S.symbols[x.index]?).elim ∅ (·.flags)

/-- A field takes over the modifiers of the symbol of its template. -/
theorem SymbolTable.Describes.inherit_flags {S : SymbolTable} {f : Field} {o : Option Symbol}
    (h : S.Describes f o) (plan : FieldPlan) (ty : TypeId) :
    (plan.inherit f ty o).flags = S.modifiersOf f ∪ plan.flags := by
  unfold Describes at h
  unfold modifiersOf
  revert h
  cases f.symbol with
  | none =>
    rintro ⟨⟩
    exact (Flags.empty_union plan.flags).symm
  | some x =>
    rintro ⟨h⟩
    rw [Option.bind_some, find_eq_ok_iff.1 h]
    rfl

/-- What the type makes of a record field: it is taken over as declared, or it gets the type without
values. -/
theorem SymbolTable.Shapes.of_record {S : SymbolTable} {d d' : Declaration} {e : TypeEntry}
    {k : SymbolKind} (h : S.Shapes .record d e k d') :
    (e.ty ≠ .semanticError ∧ d'.ty = d.ty ∧ (¬e.ty.isInvokable → k = .variable) ∧
        (k = .variable → d'.flags = d.flags)) ∨
      (e.ty = .semanticError ∧ d'.ty = some Builtin.never ∧ k = .variable ∧
        d'.flags = d.flags ∪ .only .optional) := by
  cases h with
  | function invokable =>
    refine .inl ⟨fun h => ?_, rfl, absurd invokable, fun h => by cases h⟩
    rw [h] at invokable
    cases invokable
  | degraded failed => exact .inr ⟨failed, rfl, rfl, rfl⟩
  | plain resolved => exact .inl ⟨fun h => resolved ⟨h, rfl⟩, rfl, fun _ => rfl, fun _ => rfl⟩

/-- The field `f` of a record whose symbol is `y` has become `f'`, as the tables `S` and `T` told.
Its symbol is `x`, which is not in `S`, but is `a` in `S'`. -/
structure Rebuilt (S : SymbolTable) (T : TypeTable) (S' : SymbolTable) (package : PackageId)
    (y : SymbolId) (f f' : Field) (x : SymbolId) (a : Symbol) : Prop where
  /-- The field has its name. -/
  name : f'.name = f.name
  /-- It has its place. -/
  span : f'.span = f.span
  /-- It has its type, unless that failed to resolve. -/
  resolved : ¬T.Failed f.ty → f'.ty = f.ty
  /-- Instead of a type that failed to resolve it has the type without values. -/
  failed : T.Failed f.ty → f'.ty = Builtin.never
  /-- It has a symbol. -/
  symbol : f'.symbol = some x
  /-- The symbol is new. -/
  new : S.symbols.size ≤ x.index
  /-- The symbol is there. -/
  found : S'.find x = .ok a
  /-- It has the name and the type of the field. -/
  declared : a.name = f.name ∧ a.ty = some f'.ty
  /-- The symbol of the record owns it. -/
  owner : a.owner = some y
  /-- It is in the package of the definition. -/
  package : a.package = package
  /-- Unless the field is of a function type, it is a variable. -/
  kind : (∀ base e, T.implied f.ty = .ok base → T.find base = .ok e → ¬e.ty.isInvokable) →
    a.kind = .variable
  /-- A variable is required, and has the modifiers that it had. -/
  required : ¬T.Failed f.ty → a.kind = .variable → a.flags = S.modifiersOf f ∪ .only .required
  /-- If its type failed to resolve, it is optional, too. -/
  optional : T.Failed f.ty → a.kind = .variable ∧
    a.flags = S.modifiersOf f ∪ .only .required ∪ .only .optional

/-- **What a field of an anonymous record has become.** -/
theorem BuiltField.rebuilt {S S' : SymbolTable} {T : TypeTable} {ty : TypeId} {package : PackageId}
    {span : Span} {y : SymbolId} {f f' : Field}
    (h : BuiltField S T S' ((Synth.rebuilding ty package span).plan .record y) f f.ty f') :
    ∃ x a, Rebuilt S T S' package y f f' x a := by
  obtain @⟨k, d, ty', x, declares, typed, new, found⟩ := h
  have howner := declares.owner
  have hpackage := declares.package
  have hname := declares.name
  obtain @⟨o, base, e, template, implied, hbase, shapes⟩ := declares
  have hflags := template.inherit_flags ((Synth.rebuilding ty package span).plan .record y) f.ty
  have hfailed := TypeTable.failed_iff implied hbase
  have hty := FieldPlan.inherit_ty ((Synth.rebuilding ty package span).plan .record y) f f.ty o
  -- the type has resolved, or it has not
  rcases shapes.of_record with ⟨hne, hd, hkind, hd'⟩ | ⟨heq, hd, hkind, hd'⟩
  · have hresolved : ¬T.Failed f.ty := fun h => hne (hfailed.1 h)
    have htype : ty' = f.ty := Option.some.inj (typed.symm.trans (hd.trans hty))
    exact ⟨x, { d with id := x, kind := k },
      { name := rfl
        span := rfl
        resolved := fun _ => htype
        failed := fun h => absurd h hresolved
        symbol := rfl
        new
        found
        declared := ⟨hname, typed⟩
        owner := howner
        package := hpackage
        kind := fun h => hkind (h base e implied hbase)
        required := fun _ hk => (hd' hk).trans hflags
        optional := fun h => absurd h hresolved }⟩
  · have hnone : T.Failed f.ty := hfailed.2 heq
    have htype : ty' = Builtin.never := Option.some.inj (typed.symm.trans hd)
    exact ⟨x, { d with id := x, kind := k },
      { name := rfl
        span := rfl
        resolved := fun h => absurd hnone h
        failed := fun _ => htype
        symbol := rfl
        new
        found
        declared := ⟨hname, typed⟩
        owner := howner
        package := hpackage
        kind := fun _ => hkind
        required := fun h => absurd hnone h
        optional := fun _ => ⟨hkind, hd'.trans (congrArg (· ∪ Flags.only .optional) hflags)⟩ }⟩

/-! ## In a compilation -/

namespace Compilation

variable {c c' : Compilation} {env : Environment} {ty : TypeId} {span : Span}

/-- The record `r` at `ty`, which the symbol `y` names, has been registered in the package, as the
definition with the number `n`. Its symbol was `named`, with the links `info`; `outer` owns the
scope where this happened; and its fields have become `fields`. -/
structure RecordRegistered (c c' : Compilation) (env : Environment) (ty : TypeId) (span : Span)
    (n : Nat) (package : Package) (e : TypeEntry) (r : RecordType) (y : SymbolId)
    (named outer : Symbol) (info : TypeLinks) (fields : List Field) : Prop where
  /-- The package was there. -/
  package_found : c.packages[env.package]? = some package
  /-- So was the record, with a symbol. -/
  record_found : c.types.find ty = .ok e ∧ e.ty = .record r ∧ e.symbol = some y
  /-- The symbol was that of a named type. -/
  symbol_found : c.symbols.find y = .ok named ∧ named.kind = .type info
  /-- There was a symbol to own the scope. -/
  outer_found : c.symbols.find env.scopeOwner = .ok outer
  /-- One definition has been appended, and no package has been changed otherwise. -/
  appended : n = package.typeDefinitions.length ∧
    c'.packages = c.packages.setIfInBounds env.package
      { package with typeDefinitions := package.typeDefinitions ++
        [Synth.anonymousDefinition ty span y ⟨c.symbols.symbols.size⟩ named.name fields
          (symbolsFrom (c.symbols.symbols.size + 1) r.fields.values.length)] }
  /-- It has a symbol that was made for it. -/
  definition : c'.symbols.find ⟨c.symbols.symbols.size⟩ = .ok
    { name := named.name, package := outer.package, flags := named.flags, origin := .virtual, span
      ty := some ty, owner := some env.scopeOwner, id := ⟨c.symbols.symbols.size⟩
      kind := .typeDefinition, scope := some ⟨c.symbols.scopes.size⟩ }
  /-- The symbol of the record links to that, and has a new scope. -/
  linked : c'.symbols.find y = .ok
    { named with
      ty := some ty, kind := .type { info with definition := some ⟨c.symbols.symbols.size⟩ }
      scope := some ⟨c.symbols.scopes.size + 1⟩ }
  /-- Two scopes have been opened. The one binds the name of the definition, the other one those of
  the fields, in order. -/
  scopes : ∃ m : OrderedMap String SymbolId,
    m.entries = (r.fields.values.map (·.name)).zip
      (symbolsFrom (c.symbols.symbols.size + 1) r.fields.values.length) ∧
    c'.symbols.scopes =
      (c.symbols.scopes.push
        { id := ⟨c.symbols.scopes.size⟩, owner := ⟨c.symbols.symbols.size⟩
          bindings :=
            (∅ : OrderedMap String SymbolId).insert named.name ⟨c.symbols.symbols.size⟩ }).push
        { id := ⟨c.symbols.scopes.size + 1⟩, owner := y, bindings := m }
  /-- The record has the new fields and no others, and no type has been changed otherwise. -/
  types : c'.types = ⟨c.types.entries.setIfInBounds ty.index
    { e with ty := .record (Synth.rebuiltRecord r fields) }⟩
  /-- It has them under the names of the old ones, in order. -/
  kept : (Synth.rebuiltRecord r fields).fields.values = fields ∧
    (Synth.rebuiltRecord r fields).fields.keys = r.fields.values.map (·.name)
  /-- Their symbols have been made one after the other. -/
  symbols : fields.map (·.symbol) =
    (symbolsFrom (c.symbols.symbols.size + 1) r.fields.values.length).map some
  /-- Each is what its type has made of it. -/
  rebuilt : List.Forall₂
    (fun f f' => ∃ x a, Rebuilt c.symbols c.types c'.symbols outer.package y f f' x a)
    r.fields.values fields
  /-- No symbol has been made otherwise. -/
  count : c'.symbols.symbols.size = c.symbols.symbols.size + 1 + r.fields.values.length
  /-- No symbol has been changed otherwise. -/
  others : ∀ x a, x ≠ y → c.symbols.find x = .ok a → c'.symbols.find x = .ok a
  /-- Nothing else has been changed. -/
  aside : c'.names = c.names ∧ c'.nodes = c.nodes ∧ c'.settings = c.settings ∧
    c'.memo = c.memo ∧ c'.pending = c.pending

/-- **A record that is registered anonymously is built anew, and nothing else changes.** -/
theorem registerAnonymousRecord_rebuilds (c c' : Compilation) (env : Environment) (ty : TypeId)
    (span : Span) (n : Nat) (hc : c.Closed)
    (hr : registerAnonymousRecord env ty span c = .ok n c') :
    ∃ package e r y named outer info fields,
      RecordRegistered c c' env ty span n package e r y named outer info fields := by
  obtain ⟨package, t, hpackage, hrun, rfl⟩ := synthesize_eq_ok_iff.1 hr
  have h : Synth.Registers ⟨c.settings, env.scopeOwner⟩ ty span (c.session package {})
      (Synth.registerAnonymousRecord ⟨c.settings, env.scopeOwner⟩ ty span (c.session package {})) :=
    Synth.registers hc.tables (hc.package hpackage)
  rw [hrun] at h
  obtain - | - | - | @⟨e, r, y, named, outer, info, fields, m, u, finds, hkind, fills, builds⟩ := h
  obtain ⟨hsymbols, hcount⟩ := Synth.symbols_rebuilt builds
  have hbuilt := Synth.builtFields_rebuilt finds builds hkind hc.tables
  exact ⟨package, e, r, y, named, outer, info, fields,
    { package_found := hpackage
      record_found := ⟨finds.entry, finds.record, finds.symbol⟩
      symbol_found := ⟨finds.found, hkind⟩
      outer_found := finds.outer
      appended := ⟨rfl, rfl⟩
      definition := fills.find_symbol (Synth.find_definition _)
      linked := fills.find_symbol (Synth.find_reopened finds.found _)
      scopes := ⟨m, Synth.entries_rebuilt finds builds fills, Synth.scopes_of_fillsNewest fills⟩
      types := rfl
      kept := Synth.values_rebuilt finds builds
      symbols := hsymbols
      rebuilt := hbuilt.imp fun _ _ h => h.rebuilt
      count := hcount
      others := fun x a hx ha => fills.find_symbol (Synth.find_reopened_of_ne ha hx _)
      aside := ⟨rfl, rfl, rfl, memo_keep_of_eq rfl, pending_keep_of_eq rfl⟩ }⟩

/-- An anonymous record whose first field has a readonly symbol and whose second field has a type
that failed to resolve. -/
def sketch : Compilation :=
  (app [("$anonType$_0", ⟨14⟩)]
    [appRecord ⟨1⟩ [("a", Builtin.int), ("b", Builtin.semanticError)]]).execute
    [.addSymbol .variable
      { name := "a", package := ⟨0⟩, flags := .only .readonly, span := {}, ty := some Builtin.int
        owner := some ⟨1⟩ },
    .addField ⟨14⟩ "a" { name := "a", ty := Builtin.int, symbol := some ⟨2⟩ }]

theorem sketch_rebuilt : ∃ c', registerAnonymousRecord ⟨0, ⟨0⟩⟩ ⟨14⟩ {} sketch = .ok 0 c' ∧
    ∃ package e r y named outer info fields,
      RecordRegistered sketch c' ⟨0, ⟨0⟩⟩ ⟨14⟩ {} 0 package e r y named outer info fields := by
  have hrun : answers? (registerAnonymousRecord ⟨0, ⟨0⟩⟩ ⟨14⟩ {} sketch) = some 0 := by
    decide +kernel
  obtain ⟨c', hc'⟩ := answers?_eq_some hrun
  exact ⟨c', hc',
    registerAnonymousRecord_rebuilds sketch c' ⟨0, ⟨0⟩⟩ ⟨14⟩ {} 0 (by decide +kernel) hc'⟩

end Compilation

end StructuralTypes

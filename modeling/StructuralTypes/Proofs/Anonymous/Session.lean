import StructuralTypes.Proofs.Attachment.Session
import StructuralTypes.Proofs.Population.NewScope
import StructuralTypes.Proofs.Readonly.Assembly

/-!
# The registration of an anonymous record

A record is registered in two parts. First the symbol of the definition is made and the symbol of
the record starts over: it gets a new scope, its type, and a link to the definition (`reopened`).
Then the fields are built anew in that scope, in place of those that the record has, and the
definition is registered (`rebuildRecord`).

In closed tables there are four ways in which this can end, `Registers`: nothing is done because
there is no record to be registered; the symbol of the record is not that of a named type; two
fields have one name; or the definition is registered.

Results:
* `registerAnonymousRecord_eq`: the two parts.
* **`registers`**: the four ways.
-/

namespace StructuralTypes

namespace Synth

open SymbolTable

variable {ctx : Context} {ty : TypeId} {span : Span} {s t : Session} {e : TypeEntry}
  {r : RecordType} {y : SymbolId} {named outer : Symbol}

/-! ## The first part -/

/-- There is a record to be registered, and a scope to register it in. -/
structure FindsRecord (s : Session) (ctx : Context) (ty : TypeId) (e : TypeEntry) (r : RecordType)
    (y : SymbolId) (named outer : Symbol) : Prop where
  /-- The type is there. -/
  entry : s.types.find ty = .ok e
  /-- It is a record. -/
  record : e.ty = .record r
  /-- A symbol names it. -/
  symbol : e.symbol = some y
  /-- The symbol is there. -/
  found : s.symbols.find y = .ok named
  /-- So is the one that owns the scope. -/
  outer : s.symbols.find ctx.scopeOwner = .ok outer

/-- The symbol of a record that starts over. -/
def restarted (s : Session) (ty : TypeId) (named : Symbol) : Symbol :=
  { named with scope := some ⟨s.symbols.scopes.size + 1⟩, ty := some ty }

/-- The session in which the symbol `y` of a record has started over as `now`, with an empty scope,
after the symbol of the definition was made. -/
def reopened (s : Session) (ctx : Context) (ty : TypeId) (span : Span) (y : SymbolId)
    (named outer now : Symbol) : Session :=
  { s with symbols :=
    { symbols := (s.symbols.symbols.setIfInBounds y.index now).push
        (anonymousSymbol s ctx ty named outer.package span)
      scopes := (s.symbols.scopes.push (anonymousScope s named)).push
        { id := ⟨s.symbols.scopes.size + 1⟩, owner := y } } }

/-- How the fields of a record are built anew in its place. -/
def rebuilding (ty : TypeId) (package : PackageId) (span : Span) : Population :=
  { target := ty, source := ty, package, span, flags := .only .required }

/-- Build the fields of a record anew in its place, and register its definition. -/
def rebuildRecord (ctx : Context) (ty : TypeId) (package : PackageId) (span : Span)
    (y definition : SymbolId) (name : String) : Synth Nat := do
  let node ← buildFields ctx none (rebuilding ty package span)
    { span, ty := some ty, symbol := some y }
  let fields ← fieldDeclarations ty package
  changeType ty fun e => { e with ty := e.ty.withRest Builtin.absent }
  registerType {
    name := ⟨name, span⟩, ty := some ty, symbol := definition
    node := .record { node with fields, sealed := true, analyzed := true }
    flags := .only .exported ∪ .only .anonymous, span }

/-- **The symbol of the record starts over, and then the record is built anew.** -/
theorem registerAnonymousRecord_eq (h : FindsRecord s ctx ty e r y named outer) :
    registerAnonymousRecord ctx ty span s =
      (do
        changeTypeLinks y .definitionLink fun info =>
          { info with definition := some ⟨s.symbols.symbols.size⟩ }
        rebuildRecord ctx ty outer.package span y ⟨s.symbols.symbols.size⟩ named.name)
      (reopened s ctx ty span y named outer (restarted s ty named)) := by
  have hy := lt_of_find h.found
  -- the symbol of the definition comes after all others
  let made : Session :=
    { s with symbols := anonymousTable s ctx ty named outer.package span }
  have hmade : anonymousDefinitionSymbol ctx ty named outer.package span s =
      .ok ⟨s.symbols.symbols.size⟩ made := anonymousDefinitionSymbol_eq ..
  have hnamed : made.symbols.find y = .ok named := find_mono (.push _ _) h.found
  have hset : ∀ (x : Symbol) (scopes : Array Scope),
      find ⟨made.symbols.symbols.setIfInBounds y.index x, scopes⟩ y = .ok x := fun x scopes =>
    find_eq_ok_iff.2 (Array.getElem?_setIfInBounds_self_of_lt (lt_of_find hnamed))
  unfold registerAnonymousRecord
  rw [bind_of_ok (requireRecord_eq h.entry h.record), bind_of_ok (symbolOf_eq h.entry h.symbol),
    bind_of_ok (symbol_eq h.found), bind_of_ok (symbol_eq h.outer), bind_of_ok hmade,
    bind_of_ok (openScope_eq hnamed), bind_of_ok (changeSymbol_eq (hset _ _) _)]
  have hy' : ∀ x, y.index < (s.symbols.symbols.setIfInBounds y.index x).size := fun x => by
    rwa [Array.size_setIfInBounds]
  simp only [reopened, made, anonymousTable, restarted, Array.size_push, rebuildRecord,
    rebuilding, Grows.setIfInBounds_push_of_lt hy, Grows.setIfInBounds_push_of_lt (hy' _),
    Array.setIfInBounds_setIfInBounds]

/-! ## The second part -/

/-- The definition of an anonymous record, whose fields have the symbols `xs`. -/
def anonymousDefinition (ty : TypeId) (span : Span) (y definition : SymbolId) (name : String)
    (fields : List Field) (xs : List SymbolId) : TypeDefinition :=
  { name := ⟨name, span⟩, ty := some ty, symbol := definition
    node := .record
      { span, ty := some ty, symbol := some y
        fields := (fields.zip xs).map fun f => f.1.declared f.2
        sealed := true, analyzed := true }
    flags := .only .exported ∪ .only .anonymous, span }

/-- The record with other fields, and with no undeclared ones. -/
def rebuiltRecord (r : RecordType) (fields : List Field) : RecordType :=
  { r with
    fields := .ofList (fields.map fun f => (f.name, f))
    rest := some Builtin.absent }

/-- Fields that were built have symbols of their names. -/
theorem BuildsAll.exists_named {cloner : Option Cloner} {plan : FieldPlan} {fs fields : List Field}
    (h : BuildsAll ctx cloner plan fs s fields t) (hcl : ∀ cl ∈ cloner, cl.Searches) :
    ∀ f ∈ fields, ∃ x named, f.symbol = some x ∧ t.symbols.find x = .ok named ∧
      named.name = f.name := by
  induction h with
  | nil => simp
  | cons first rest ih =>
    refine List.forall_mem_cons.2 ⟨?_, ih⟩
    obtain ⟨v, u, -, -, hbuilt⟩ := first.builtField
    obtain ⟨declares, -, -, found⟩ := hbuilt.grows (rest.preserves hcl).symbols
    exact ⟨_, _, rfl, found, declares.name⟩

theorem symbol_of_mem_zip {fields : List Field} {xs : List SymbolId}
    (h : fields.map (·.symbol) = xs.map some) : ∀ f ∈ fields.zip xs, f.1.symbol = some f.2 := by
  induction fields generalizing xs with
  | nil => simp
  | cons f fields ih =>
    cases xs with
    | nil => simp
    | cons x xs =>
      obtain ⟨hf, hrest⟩ := List.cons.inj h
      exact List.forall_mem_cons.2 ⟨hf, ih hrest⟩

/-- Fields that were built, and have these symbols, are declared in the end. -/
theorem BuildsAll.fieldDeclarations_eq {cloner : Option Cloner} {plan : FieldPlan}
    {fs fields : List Field} {xs : List SymbolId} {m : OrderedMap String SymbolId} {u : Session}
    (builds : BuildsAll ctx cloner plan fs s fields t) (hcl : ∀ cl ∈ cloner, cl.Searches)
    (hm : s.symbols.bindings? plan.holder = some m)
    (hxs : fields.map (·.symbol) = xs.map some) (hsymbols : u.symbols = t.symbols)
    (he : u.types.find ty = .ok e)
    (hfields : e.ty.fields? = some (.ofList (fields.map fun f => (f.name, f))))
    (package : PackageId) :
    fieldDeclarations ty package u = .ok ((fields.zip xs).map fun f => f.1.declared f.2) u := by
  have hlength : fields.length ≤ xs.length := by
    have h := congrArg List.length hxs
    rw [List.length_map, List.length_map] at h
    exact Nat.le_of_eq h
  have hpairs := declare_eq (t := u) package (fields.zip xs) fun f hf => by
    have hsymbol := symbol_of_mem_zip hxs f hf
    obtain ⟨x, named, hx, hnamed, hname⟩ := builds.exists_named hcl f.1 (List.of_mem_zip hf).1
    obtain rfl := Option.some.inj (hsymbol.symm.trans hx)
    exact ⟨hsymbol, named, hsymbols ▸ hnamed, hname⟩
  rw [List.map_fst_zip hlength] at hpairs
  unfold fieldDeclarations
  rw [bind_of_ok (fieldsOf_eq he hfields), (builds.values_ofList hcl fun _ => ⟨m, hm⟩).1]
  exact hpairs

/-- **When its fields are built, the record is registered.** -/
theorem rebuildRecord_eq {package : PackageId} {definition : SymbolId} {name : String}
    {fields : List Field} {xs : List SymbolId} {u : Session} {m : OrderedMap String SymbolId}
    (he : s.types.find ty = .ok e) (hr : e.ty = .record r) (hy : e.symbol = some y)
    (hm : s.symbols.bindings? y = some m)
    (builds : BuildsAll ctx none ((rebuilding ty package span).plan .record y) r.fields.values s
      fields u)
    (hxs : fields.map (·.symbol) = xs.map some) (htypes : u.types = s.types)
    (hnew : definition ∉ u.package.typeDefinitions.map (·.symbol)) :
    rebuildRecord ctx ty package span y definition name s =
      .ok u.package.typeDefinitions.length
        { u with
          types := ⟨s.types.entries.setIfInBounds ty.index
            { e with ty := .record (rebuiltRecord r fields) }⟩
          package := { u.package with typeDefinitions := u.package.typeDefinitions ++
            [anonymousDefinition ty span y definition name fields xs] } } := by
  have hcl : ∀ cl ∈ (none : Option Cloner), cl.Searches := by simp
  -- the fields take the place of the old ones
  let v : Session := { u with types :=
    ⟨s.types.entries.setIfInBounds ty.index (e.withFields fields)⟩ }
  have hpopulated : Populates ctx none (rebuilding ty package span)
      { span, ty := some ty, symbol := some y } s _ _ :=
    .intro he (by rw [hr]; rfl) he (by rw [hr]; rfl) hy builds
      (.unwanted fun h => by simp [rebuilding] at h)
  rw [htypes] at hpopulated
  have hfilled : buildFields ctx none (rebuilding ty package span)
      { span, ty := some ty, symbol := some y } s =
        .ok { span, ty := some ty, symbol := some y } v :=
    (buildFields_eq_ok_iff hcl).2 hpopulated
  have hfind : v.types.find ty = .ok (e.withFields fields) := TypeTable.find_set_self he _
  -- they are declared
  have hfields : (e.withFields fields).ty.fields? =
      some (.ofList (fields.map fun f => (f.name, f))) := by
    rw [TypeEntry.withFields, hr]
    rfl
  have hdeclared : fieldDeclarations ty package v =
      .ok ((fields.zip xs).map fun f => f.1.declared f.2) v :=
    builds.fieldDeclarations_eq hcl hm hxs (rfl : v.symbols = u.symbols) hfind hfields package
  -- there are no other fields
  let w : Session := { u with types :=
    ⟨s.types.entries.setIfInBounds ty.index { e with ty := .record (rebuiltRecord r fields) }⟩ }
  have hdecided : changeType ty (fun e => { e with ty := e.ty.withRest Builtin.absent }) v =
      .ok () w := by
    rw [changeType_eq hfind]
    simp only [v, w, TypeEntry.withFields, hr, Ty.mapFields, Ty.withRest, rebuiltRecord,
      Array.setIfInBounds_setIfInBounds]
  -- the definition is registered
  unfold rebuildRecord
  rw [bind_of_ok hfilled, bind_of_ok hdeclared, bind_of_ok hdecided]
  show registerType (anonymousDefinition ty span y definition name fields xs) w = _
  unfold registerType
  rw [Package.registerType_eq_ok_iff.2 ⟨hnew, rfl, rfl⟩]

/-- When a field is refused, the record is not registered. -/
theorem rebuildRecord_eq_error {package : PackageId} {definition : SymbolId} {name : String}
    {x : Stop} (he : s.types.find ty = .ok e) (hr : e.ty = .record r) (hy : e.symbol = some y)
    (hrefused : r.fields.values.mapM
      (buildField ctx none ((rebuilding ty package span).plan .record y)) s = .error x t) :
    rebuildRecord ctx ty package span y definition name s = .error x t := by
  -- the record is the source and the target
  have hkind : kindOf ty s = .ok .record s := kindOf_eq he (by rw [hr]; rfl)
  have hfields : fieldsOf ty s = .ok r.fields s := fieldsOf_eq he (by rw [hr]; rfl)
  refine bind_of_error ?_
  unfold buildFields rebuilding
  dsimp only
  rw [bind_of_ok hkind, bind_of_ok hkind, bind_of_ok (symbolOf_eq he hy), bind_of_ok hfields]
  exact bind_of_error hrefused

/-! ## How the registration ends -/

/-- The symbol of a record that has started over and links to the definition. -/
def linked (s : Session) (ty : TypeId) (named : Symbol) (info : TypeLinks) : Symbol :=
  { restarted s ty named with
    kind := .type { info with definition := some ⟨s.symbols.symbols.size⟩ } }

/-- The scopes before the new scope of the record. -/
def earlierScopes (s : Session) (named : Symbol) : Array Scope :=
  s.symbols.scopes.push (anonymousScope s named)

/-- The ways in which the registration of an anonymous record ends. -/
inductive Registers (ctx : Context) (ty : TypeId) (span : Span) (s : Session) :
    EStateM.Result Stop Session Nat → Prop
  /-- There is no record to be registered, or no scope to register it in. -/
  | refused {x : Stop} (reason : x = .dangling ∨ x = Fault.wrongType ty .record ∨
      x = Fault.symbolMissing ty) : Registers ctx ty span s (.error x s)
  /-- The symbol of the record is not that of a named type. -/
  | unlinked {e : TypeEntry} {r : RecordType} {y : SymbolId} {named outer : Symbol}
      (finds : FindsRecord s ctx ty e r y named outer) (unlinked : named.typeLinks? = none) :
      Registers ctx ty span s (.error (Fault.wrongSymbol y .definitionLink)
        (reopened s ctx ty span y named outer (restarted s ty named)))
  /-- Two of its fields have one name. -/
  | clashing {e : TypeEntry} {r : RecordType} {y : SymbolId} {named outer : Symbol}
      {info : TypeLinks} {name : String} {owner existing : SymbolId}
      {m : OrderedMap String SymbolId} {t : Session}
      (finds : FindsRecord s ctx ty e r y named outer) (kind : named.kind = .type info)
      (fills : (reopened s ctx ty span y named outer (linked s ty named info)).FillsNewest
        (earlierScopes s named) y m t) :
      Registers ctx ty span s (.error (Fault.nameTaken name owner existing) t)
  /-- The definition is registered. -/
  | registered {e : TypeEntry} {r : RecordType} {y : SymbolId} {named outer : Symbol}
      {info : TypeLinks} {fields : List Field} {m : OrderedMap String SymbolId} {u : Session}
      (finds : FindsRecord s ctx ty e r y named outer) (kind : named.kind = .type info)
      (fills : (reopened s ctx ty span y named outer (linked s ty named info)).FillsNewest
        (earlierScopes s named) y m u)
      (builds : BuildsAll ctx none ((rebuilding ty outer.package span).plan .record y)
        r.fields.values (reopened s ctx ty span y named outer (linked s ty named info)) fields u) :
      Registers ctx ty span s (.ok s.package.typeDefinitions.length
        { s with
          symbols := u.symbols
          types := ⟨s.types.entries.setIfInBounds ty.index
            { e with ty := .record (rebuiltRecord r fields) }⟩
          package := { s.package with typeDefinitions := s.package.typeDefinitions ++
            [anonymousDefinition ty span y ⟨s.symbols.symbols.size⟩ named.name fields
              (symbolsFrom (s.symbols.symbols.size + 1) r.fields.values.length)] } })

theorem find_reopened (h : s.symbols.find y = .ok named) (now : Symbol) :
    (reopened s ctx ty span y named outer now).symbols.find y = .ok now := by
  have hy := lt_of_find h
  rw [find_eq_ok_iff]
  refine (Grows.push _ _).getElem? ?_
  exact Array.getElem?_setIfInBounds_self_of_lt hy

/-- The symbol of the definition is there. -/
theorem find_definition (now : Symbol) :
    (reopened s ctx ty span y named outer now).symbols.find ⟨s.symbols.symbols.size⟩ =
      .ok (anonymousSymbol s ctx ty named outer.package span) := by
  have hsize : (s.symbols.symbols.setIfInBounds y.index now).size = s.symbols.symbols.size :=
    Array.size_setIfInBounds
  rw [find_eq_ok_iff, ← hsize]
  exact Array.getElem?_push_size

theorem size_reopened (now : Symbol) :
    (reopened s ctx ty span y named outer now).symbols.symbols.size =
      s.symbols.symbols.size + 1 := by
  rw [reopened, Array.size_push, Array.size_setIfInBounds]

/-- Only the symbol of the record is changed. -/
theorem find_reopened_of_ne {x : SymbolId} {a : Symbol} (h : s.symbols.find x = .ok a) (hx : x ≠ y)
    (now : Symbol) : (reopened s ctx ty span y named outer now).symbols.find x = .ok a := by
  have hi : y.index ≠ x.index := fun h => hx (congrArg SymbolId.mk h.symm)
  rw [find_eq_ok_iff] at h ⊢
  refine (Grows.push _ _).getElem? ?_
  rw [Array.getElem?_setIfInBounds_ne hi, h]

/-- To a field, all symbols tell the same after the record has started over. -/
theorem tellsSame_reopened {info : TypeLinks} (h : s.symbols.find y = .ok named)
    (hkind : named.kind = .type info) : s.symbols.TellsSame
      (reopened s ctx ty span y named outer (linked s ty named info)).symbols := by
  intro x a hx
  by_cases hxy : x = y
  · subst hxy
    obtain rfl := Except.ok.inj (h.symm.trans hx)
    refine ⟨_, find_reopened h _, rfl, rfl, rfl, rfl, ?_⟩
    rw [Symbol.functionType?, Symbol.functionType?, hkind]
    rfl
  · exact ⟨a, find_reopened_of_ne hx hxy _, .refl a⟩

theorem fillsNewest_reopened (now : Symbol) :
    (reopened s ctx ty span y named outer now).FillsNewest (earlierScopes s named) y ∅
      (reopened s ctx ty span y named outer now) := by
  refine ⟨rfl, .refl _, ?_⟩
  simp only [reopened, earlierScopes, Array.size_push]

theorem scope_linked {info : TypeLinks} :
    (linked s ty named info).scope = some ⟨(earlierScopes s named).size⟩ := by
  rw [earlierScopes, Array.size_push]
  rfl

/-- Each field of the record can be declared. -/
theorem FindsRecord.exists_declares {b : Extent} (h : FindsRecord s ctx ty e r y named outer)
    (htables : ClosedTables b s.symbols s.types) (plan : FieldPlan) :
    ∀ f ∈ r.fields.values, ∃ k d, Declares s.symbols s.types plan f f.ty k d := fun f hf =>
  htables.exists_declares (htables.within_fieldsOf h.entry (by rw [h.record]; rfl) f hf) plan

/-- Two scopes have been added then, the second one with the names of the fields. -/
theorem scopes_of_fillsNewest {now : Symbol} {m : OrderedMap String SymbolId}
    (h : (reopened s ctx ty span y named outer now).FillsNewest (earlierScopes s named) y m t) :
    t.symbols.scopes = (s.symbols.scopes.push (anonymousScope s named)).push
      { id := ⟨s.symbols.scopes.size + 1⟩, owner := y, bindings := m } := by
  rw [h.newest, earlierScopes, Array.size_push]

/-- Unless there is a record to be registered, and a scope for it, nothing is done. -/
theorem findsRecord_or_refused (s : Session) (ctx : Context) (ty : TypeId) (span : Span) :
    (∃ e r y named outer, FindsRecord s ctx ty e r y named outer) ∨
      ∃ x : Stop, (x = .dangling ∨ x = Fault.wrongType ty .record ∨ x = Fault.symbolMissing ty) ∧
        registerAnonymousRecord ctx ty span s = .error x s := by
  unfold registerAnonymousRecord
  cases he : s.types.find ty with
  | error x =>
    refine .inr ⟨x, .inl (TypeTable.find_eq_error he), bind_of_error (bind_of_error ?_)⟩
    exact reading_eq_error_iff.2 ⟨he, rfl⟩
  | ok e =>
    by_cases hr : ∃ r, e.ty = .record r
    swap
    · rw [not_exists] at hr
      exact .inr ⟨_, .inr (.inl rfl), bind_of_error (requireRecord_eq_error he hr)⟩
    obtain ⟨r, hr⟩ := hr
    rw [bind_of_ok (requireRecord_eq he hr)]
    cases hy : e.symbol with
    | none => exact .inr ⟨_, .inr (.inr rfl), bind_of_error (symbolOf_eq_error he hy)⟩
    | some y =>
      rw [bind_of_ok (symbolOf_eq he hy)]
      cases hnamed : s.symbols.find y with
      | error x =>
        refine .inr ⟨x, .inl (find_eq_error hnamed), bind_of_error ?_⟩
        exact reading_eq_error_iff.2 ⟨hnamed, rfl⟩
      | ok named =>
        rw [bind_of_ok (symbol_eq hnamed)]
        cases houter : s.symbols.find ctx.scopeOwner with
        | error x =>
          refine .inr ⟨x, .inl (find_eq_error houter), bind_of_error ?_⟩
          exact reading_eq_error_iff.2 ⟨houter, rfl⟩
        | ok outer => exact .inl ⟨e, r, y, named, outer, he, hr, hy, hnamed, houter⟩

/-- The symbol of a record that starts over is linked to the definition. -/
theorem link_reopened {info : TypeLinks} (h : s.symbols.find y = .ok named)
    (hkind : named.kind = .type info) :
    changeTypeLinks y .definitionLink
        (fun info => { info with definition := some ⟨s.symbols.symbols.size⟩ })
        (reopened s ctx ty span y named outer (restarted s ty named)) =
      .ok () (reopened s ctx ty span y named outer (linked s ty named info)) := by
  have hy : y.index < (s.symbols.symbols.setIfInBounds y.index (restarted s ty named)).size := by
    rw [Array.size_setIfInBounds]
    exact lt_of_find h
  have hkind' : (restarted s ty named).kind = .type info := hkind
  rw [changeTypeLinks_eq (find_reopened h (restarted s ty named)) hkind']
  simp only [reopened, linked, Grows.setIfInBounds_push_of_lt hy, Array.setIfInBounds_setIfInBounds]

/-- The symbol of the definition is new. -/
theorem notMem_definitions {b : Extent} {package : Package}
    (htables : ClosedTables b s.symbols s.types) (hpackage : Within b package) :
    (⟨s.symbols.symbols.size⟩ : SymbolId) ∉ package.typeDefinitions.map (·.symbol) := by
  intro hmem
  obtain ⟨d, hd, hsymbol⟩ := List.mem_map.1 hmem
  have hin := within_list.1 (within_package.1 hpackage).1 d hd
  have hlt := within_symbolId.1 (within_typeDefinition.1 hin).2.1
  rw [hsymbol, ← htables.symbol_count] at hlt
  exact Nat.lt_irrefl _ hlt

/-- When the symbol of the record is linked to the definition, its fields are built, or two of them
have one name. -/
theorem registers_of_linked {b : Extent} (htables : ClosedTables b s.symbols s.types)
    (hpackage : Within b s.package) (h : FindsRecord s ctx ty e r y named outer) {info : TypeLinks}
    (hkind : named.kind = .type info) :
    Registers ctx ty span s
      (rebuildRecord ctx ty outer.package span y ⟨s.symbols.symbols.size⟩ named.name
        (reopened s ctx ty span y named outer (linked s ty named info))) := by
  let now : Session := reopened s ctx ty span y named outer (linked s ty named info)
  let plan : FieldPlan := (rebuilding ty outer.package span).plan .record y
  have hcl : ∀ cl ∈ (none : Option Cloner), cl.Searches := by simp
  have hfind : now.symbols.find y = .ok (linked s ty named info) := find_reopened h.found _
  have fills : now.FillsNewest (earlierScopes s named) y ∅ now := fillsNewest_reopened _
  have hm : now.symbols.bindings? y = some ∅ := fills.bindings? hfind scope_linked
  have hd : ∀ f ∈ r.fields.values, ∃ k d, Declares now.symbols now.types plan f f.ty k d := by
    intro f hf
    obtain ⟨k, d, hd⟩ := h.exists_declares htables plan f hf
    exact ⟨k, d, hd.tells (tellsSame_reopened h.found hkind)⟩
  have hends : Ends (r.fields.values.mapM (buildField ctx none plan)) now
      (fun _ u => ∃ m, now.FillsNewest (earlierScopes s named) y m u)
      fun _ u => ∃ m, now.FillsNewest (earlierScopes s named) y m u :=
    ends_buildAll_newest hfind scope_linked rfl fills
  have hall : (∃ fields u, BuildsAll ctx none plan r.fields.values now fields u) ∨
      ∃ name owner existing t, r.fields.values.mapM (buildField ctx none plan) now =
        .error (Fault.nameTaken name owner existing) t :=
    buildAll_or_taken hcl rfl (.refl _) hd hm
  rcases hall with ⟨fields, u, builds⟩ | ⟨name, owner, existing, t, ht⟩
  · obtain ⟨m, hfills⟩ := hends.of_ok (mapM_buildField_eq_ok_iff.2 builds)
    obtain ⟨hsymbols, -⟩ := builds.symbols_of_plain rfl
    rw [size_reopened] at hsymbols
    have htypes : u.types = now.types := by rw [hfills.aside]
    have hnames : u.names = s.names := by rw [hfills.aside]; rfl
    have hpackage' : u.package = s.package := by rw [hfills.aside]; rfl
    have hmemo : u.memo = s.memo := by rw [hfills.aside]; rfl
    have hpending : u.pending = s.pending := by rw [hfills.aside]; rfl
    have hnew : ⟨s.symbols.symbols.size⟩ ∉ u.package.typeDefinitions.map (·.symbol) :=
      hpackage' ▸ notMem_definitions htables hpackage
    rw [rebuildRecord_eq (s := now) h.entry h.record h.symbol hm builds hsymbols htypes hnew,
      hnames, hpackage', hmemo, hpending]
    exact .registered h hkind hfills builds
  · obtain ⟨m, hfills⟩ := hends.of_error ht
    rw [rebuildRecord_eq_error (s := now) h.entry h.record h.symbol ht]
    exact .clashing h hkind hfills

/-- **There are four ways in which the registration of an anonymous record ends.** -/
theorem registers {b : Extent} (htables : ClosedTables b s.symbols s.types)
    (hpackage : Within b s.package) :
    Registers ctx ty span s (registerAnonymousRecord ctx ty span s) := by
  rcases findsRecord_or_refused s ctx ty span with ⟨e, r, y, named, outer, h⟩ | ⟨x, reason, hx⟩
  swap
  · rw [hx]
    exact .refused reason
  rw [registerAnonymousRecord_eq h]
  cases hlinks : named.typeLinks? with
  | none =>
    have hnone : (restarted s ty named).typeLinks? = none := hlinks
    rw [bind_of_error (changeTypeLinks_eq_error (find_reopened h.found _) hnone _ _)]
    exact .unlinked h hlinks
  | some info =>
    have hkind : named.kind = .type info := Symbol.typeLinks?_eq_some_iff.1 hlinks
    rw [bind_of_ok (link_reopened h.found hkind)]
    exact registers_of_linked htables hpackage h hkind

/-- **If the registration stops, then nothing was done, or the symbol of the record has started
over** and some of its fields may have been built. -/
theorem Registers.stopped {x : Stop} (h : Registers ctx ty span s (.error x t)) :
    ((x = .dangling ∨ x = Fault.wrongType ty .record ∨ x = Fault.symbolMissing ty) ∧ t = s) ∨
      ∃ e r y named outer now m, FindsRecord s ctx ty e r y named outer ∧
        now.scope = some ⟨s.symbols.scopes.size + 1⟩ ∧
        (x = Fault.wrongSymbol y .definitionLink ∨
          ∃ name owner existing, x = Fault.nameTaken name owner existing) ∧
        (reopened s ctx ty span y named outer now).FillsNewest (earlierScopes s named) y m t := by
  cases h with
  | refused reason => exact .inl ⟨reason, rfl⟩
  | unlinked finds =>
    exact .inr ⟨_, _, _, _, _, _, ∅, finds, rfl, .inl rfl, fillsNewest_reopened _⟩
  | clashing finds kind fills =>
    exact .inr ⟨_, _, _, _, _, _, _, finds, rfl, .inr ⟨_, _, _, rfl⟩, fills⟩

/-! ## The fields of a registered record -/

section Registered

variable {info : TypeLinks} {fields : List Field} {m : OrderedMap String SymbolId} {u : Session}
  (finds : FindsRecord s ctx ty e r y named outer)
  (builds : BuildsAll ctx none ((rebuilding ty outer.package span).plan .record y) r.fields.values
    (reopened s ctx ty span y named outer (linked s ty named info)) fields u)

include builds in
/-- Their symbols come after that of the definition. -/
theorem symbols_rebuilt :
    fields.map (·.symbol) =
        (symbolsFrom (s.symbols.symbols.size + 1) r.fields.values.length).map some ∧
      u.symbols.symbols.size = s.symbols.symbols.size + 1 + r.fields.values.length := by
  have h := builds.symbols_of_plain rfl
  rwa [size_reopened] at h

include finds builds in
/-- Their names are all that is in the new scope of the record. -/
theorem entries_rebuilt
    (fills : (reopened s ctx ty span y named outer (linked s ty named info)).FillsNewest
      (earlierScopes s named) y m u) :
    m.entries = (r.fields.values.map (·.name)).zip
      (symbolsFrom (s.symbols.symbols.size + 1) r.fields.values.length) := by
  have h := builds.entries_of_newest (by simp) rfl (find_reopened finds.found _) scope_linked
    (fillsNewest_reopened _) fills
  rwa [size_reopened] at h

include finds builds in
/-- The record has them under the names of the old ones, in order. -/
theorem values_rebuilt : (rebuiltRecord r fields).fields.values = fields ∧
    (rebuiltRecord r fields).fields.keys = r.fields.values.map (·.name) := by
  refine builds.values_ofList (by simp) fun _ => ⟨∅, ?_⟩
  exact (fillsNewest_reopened _).bindings? (find_reopened finds.found _) scope_linked

include finds builds in
/-- Each is what its type makes of it. -/
theorem builtFields_rebuilt {b : Extent} (hkind : named.kind = .type info)
    (htables : ClosedTables b s.symbols s.types) :
    List.Forall₂ (fun f f' => BuiltField s.symbols s.types u.symbols
        ((rebuilding ty outer.package span).plan .record y) f f.ty f')
      r.fields.values fields := by
  have hsize : s.symbols.symbols.size ≤
      (reopened s ctx ty span y named outer (linked s ty named info)).symbols.symbols.size := by
    rw [size_reopened]
    exact Nat.le_succ _
  have h := builds.builtFields_of_declares (S := s.symbols) (by simp) rfl
    (tellsSame_reopened finds.found hkind) hsize (finds.exists_declares htables _)
  exact h

end Registered

end Synth

end StructuralTypes

import StructuralTypes.Proofs.Declaration.Session
import StructuralTypes.Proofs.Readonly.Registration
import StructuralTypes.Proofs.Readonly.Step

/-!
# How the parts of a clone are put together

A clone is drafted, which settles its `Outline`, and filled with fields. Each field is built after
its template and bound in the scope of the clone's symbol: `Building` says where this has come to.
In between other clones are made and registered. In the end the clone gets its initializer and its
definition, and has become a `Wiring`.

All of this is said of operations that end well (`Yields`).

Results:
* `yields_openClone`: a clone is drafted.
* `Building.buildField`, `Building.buildFields`, `Building.fillClone`: it is filled.
* `yields_attachInitializer`: it gets its initializer.
* **`yields_makeClone`**: it is made, with all that belongs to it.
-/

namespace StructuralTypes

namespace Synth

/-- If the operation ends well, then as `Q` says. -/
abbrev Yields {α : Type} (x : Synth α) (s : Session) (Q : α → Session → Prop) : Prop :=
  Ends x s Q fun _ _ => True

end Synth

/-- For the package `q`, the cloner registers the clones that it makes. -/
structure Cloner.Registers (suffix : String) (q : PackageId) (cl : Cloner) : Prop where
  /-- It leaves everything else alone. -/
  keeps : cl.Keeps
  /-- The clones are registered. -/
  registers : ∀ {stamp : Stamp} {s t : Session} {ty v : TypeId}, stamp.package = q →
    cl stamp ty s = .ok v t → ∃ made, Registered suffix q s made t

/-! ## Steps at a clone -/

namespace Outline

open Synth

variable {o : Outline} {body : Ty} {bindings : List (String × SymbolId)} {links : TypeLinks}
  {y z : SymbolTable} {T U : TypeTable} {t : Session}

/-- A clone has a name. -/
theorem name_isEmpty (o : Outline) : o.name.isEmpty = false := by
  unfold name
  split <;> simp [NameSupply.name, NameFamily.stem]

/-- The clone is made of something else. -/
theorem Stands.setClone (h : o.Stands body bindings links t.symbols t.types) {f : Ty → Ty}
    (hkind : (f body).structureKind? = body.structureKind?) :
    changeType o.clone (fun e => { e with ty := f e.ty }) t = .ok () { t with types :=
        ⟨t.types.entries.setIfInBounds o.clone.index (o.entry (f body))⟩ } ∧
      o.Stands (f body) bindings links t.symbols
        ⟨t.types.entries.setIfInBounds o.clone.index (o.entry (f body))⟩ := by
  refine ⟨changeType_eq h.clone _, ?_⟩
  exact
    { h with
      source := h.source.imp fun x => Exists.imp fun named hx =>
        ⟨TypeTable.find_set_of_ne (h.source_ne h.clone) _ hx.1, hx.2⟩
      kind := h.kind.imp fun kind hk => ⟨hk.1, hkind.trans hk.2⟩
      clone := TypeTable.find_set_self h.clone _ }

/-- A name is bound in the scope of the clone's symbol, if it is bound at all. -/
theorem Stands.define (h : o.Stands body bindings links t.symbols t.types) (name : String)
    (x : SymbolId) :
    Yields (Synth.define o.holder name x) t fun _ u =>
      Aside o t u ∧ u.symbols.symbols = t.symbols.symbols ∧ u.types = t.types ∧
        o.Stands body (bindings ++ [(name, x)]) links u.symbols u.types := by
  obtain ⟨scope, hscope, howner, hentries⟩ := h.scope
  by_cases hnew : name ∈ scope.bindings.keys
  · obtain ⟨existing, htaken⟩ := define_taken (x := x) h.holder rfl hscope hnew
    exact (ends_of_error htaken).2 trivial
  · refine (ends_of_ok (define_eq h.holder rfl hscope hnew)).2 ⟨.setScope _, rfl, rfl, ?_⟩
    refine { h with scope := ⟨_, SymbolTable.findScope_set_self hscope _, howner, ?_⟩ }
    rw [OrderedMap.entries_insert_of_not_mem hnew, hentries]

/-- An initializer is recorded in the clone's symbol. -/
theorem Stands.record (h : o.Stands body bindings links t.symbols t.types) (role : SymbolRole)
    (link : InitializerLink) :
    Yields (changeTypeLinks o.holder role fun info => { info with initializer := some link }) t
      fun _ u => Aside o t u ∧ u.types = t.types ∧
        o.Stands body bindings { links with initializer := some link } u.symbols u.types := by
  unfold changeTypeLinks
  refine ends_bind.2 ((ends_of_ok (symbol_eq h.holder)).2 ?_)
  have hlinks : (o.symbol links).typeLinks? = some links := rfl
  rw [hlinks]
  have hsame : (o.symbol { links with initializer := some link }).toDeclaration =
      (o.symbol links).toDeclaration := rfl
  have haside := Aside.setHolder h.holder hsame
  refine (ends_of_ok (changeSymbol_eq h.holder _)).2 ⟨haside, rfl, ?_⟩
  obtain ⟨x, named, he, hx, hnamed⟩ := h.source
  obtain ⟨named', hx', hnamed'⟩ := haside.declared x named hx
  exact
    { h with
      source := ⟨x, named', he, hx', hnamed'.trans hnamed⟩
      holder := SymbolTable.find_set_self h.holder _ }

end Outline

/-! ## The draft -/

/-- In `s₁`, the filling of the clone begins. The clone, its symbol and its scope were added to `s`,
and the clone is pending. -/
structure Outline.Drafted (o : Outline) (s s₁ : Session) : Prop where
  /-- The clone is a new type. -/
  clone : o.clone.index = s.types.entries.size
  /-- Its symbol is a new symbol. -/
  holder : o.holder.index = s.symbols.symbols.size
  /-- The scope is a new scope. -/
  scope : o.scope.index = s.symbols.scopes.size
  /-- All of them are there. -/
  there : o.clone.index < s₁.types.entries.size ∧ o.holder.index < s₁.symbols.symbols.size ∧
    o.scope.index < s₁.symbols.scopes.size
  /-- No variant was remembered. -/
  memo : s₁.memo = s.memo
  /-- The clone is pending. -/
  pending : s₁.pending = s.pending.insert o.source o.clone
  /-- Nothing was registered. -/
  package : s₁.package = s.package
  /-- No number is handed out again. -/
  counts : ∀ p, s.names.count .anonymousType p ≤ s₁.names.count .anonymousType p
  /-- A made-up name shows the next number. -/
  number : ∀ n, o.number = some n → s.names.count .anonymousType o.stamp.package = n ∧
    n < s₁.names.count .anonymousType o.stamp.package

/-- Nothing is removed. -/
theorem Outline.Drafted.sizes_le {o : Outline} {s s₁ : Session} (h : o.Drafted s s₁) :
    s.types.entries.size ≤ s₁.types.entries.size ∧
      s.symbols.symbols.size ≤ s₁.symbols.symbols.size ∧
        s.symbols.scopes.size ≤ s₁.symbols.scopes.size := by
  obtain ⟨hclone, hholder, hscope⟩ := h.there
  rw [← h.clone, ← h.holder, ← h.scope]
  exact ⟨Nat.le_of_lt hclone, Nat.le_of_lt hholder, Nat.le_of_lt hscope⟩

namespace Synth

variable {s t : Session} {source : TypeId} {e : TypeEntry} {x : SymbolId} {named : Symbol}

/-- A clone is named after the structure, or gets the next made-up name. -/
theorem yields_cloneName (stamp : Stamp) (named : Symbol) :
    Yields (cloneName stamp named) s fun name t => ∃ number names, t = { s with names } ∧
      (number.isSome = named.isAnonymous ∧ name = match number with
        | some n => NameSupply.name .anonymousType n
        | none => "(" ++ named.name ++ " & readonly)") ∧
      (∀ p, s.names.count .anonymousType p ≤ names.count .anonymousType p) ∧
      ∀ n, number = some n → s.names.count .anonymousType stamp.package = n ∧
        n < names.count .anonymousType stamp.package := by
  unfold cloneName
  split
  · rename_i hanonymous
    refine ⟨some (s.names.count .anonymousType stamp.package),
      (s.names.next .anonymousType stamp.package).2, rfl, ⟨?_, rfl⟩, fun p => ?_, ?_⟩
    · exact hanonymous.symm
    · rw [NameSupply.count_next]
      split <;> rename_i hp
      · rw [hp.2]
        exact Nat.le_succ _
      · exact Nat.le_refl _
    · rintro _ ⟨⟩
      rw [NameSupply.count_next, if_pos ⟨rfl, rfl⟩]
      exact ⟨rfl, Nat.lt_succ_self _⟩
  · rename_i hnamed
    refine ends_pure.2 ⟨none, s.names, rfl, ⟨?_, rfl⟩, fun p => Nat.le_refl _, by simp⟩
    exact (Bool.eq_false_iff.2 hnamed).symm

/-- **A clone is drafted.** -/
theorem yields_openClone (stamp : Stamp) {b : Blueprint} (he : s.types.find source = .ok e)
    (hx : e.symbol = some x) (hnamed : s.symbols.find x = .ok named)
    (hwritable : e.flags.contains (.only .readonly) = false)
    (hkind : ∃ kind, e.ty.structureKind? = some kind ∧ b.shell.structureKind? = some kind) :
    Yields (openClone stamp source named b) s fun r t => ∃ o : Outline,
      r = (o.clone, o.holder) ∧ o.source = source ∧ o.ty = e.ty ∧ o.stamp = stamp ∧
        t.pending = s.pending ∧ o.Drafted s { t with pending := s.pending.insert source o.clone } ∧
          o.Stands b.shell [] {} t.symbols t.types := by
  unfold openClone
  refine ends_bind.2 ((yields_cloneName stamp named).imp ?_ fun _ _ h => h)
  rintro name _ ⟨number, names, rfl, ⟨hanonymous, hname⟩, hcounts, hnumber⟩
  have he' : ({ s with names } : Session).types.find source = .ok e := he
  unfold addReadonly
  refine ends_bind.2 (ends_bind.2 ((ends_of_ok (entry_eq he')).2 (ends_addType.2 ?_)))
  refine ends_bind.2 (ends_addSymbol.2 ?_)
  -- the new symbol gets a scope, and the new type gets the symbol
  have hsymbol := SymbolTable.find_add_self s.symbols (.type {})
    { name, package := stamp.package, flags := named.flags ∪ .only .readonly, origin := .virtual
      span := stamp.span, ty := some ⟨s.types.entries.size⟩, owner := some stamp.owner }
  refine ends_bind.2 ((ends_of_ok (openScope_eq hsymbol)).2 ?_)
  have hentry := TypeTable.find_add_self s.types
    { ty := b.shell, flags := e.flags ∪ .only .readonly }
  refine ends_bind.2 ((ends_of_ok (changeType_eq hentry _)).2 (ends_pure.2 ?_))
  let o : Outline :=
    { source, ty := e.ty, flags := e.flags, named := named.toDeclaration, stamp, number
      clone := ⟨s.types.entries.size⟩, holder := ⟨s.symbols.symbols.size⟩
      scope := ⟨s.symbols.scopes.size⟩ }
  have honame : o.name = name := hname.symm
  have hosymbol : o.symbol {} =
      { name, package := stamp.package, flags := named.flags ∪ .only .readonly, origin := .virtual
        span := stamp.span, ty := some ⟨s.types.entries.size⟩, owner := some stamp.owner
        id := ⟨s.symbols.symbols.size⟩, kind := .type {}
        scope := some ⟨s.symbols.scopes.size⟩ } := by
    rw [← honame]
    rfl
  simp only [TypeTable.add, SymbolTable.add, Grows.setIfInBounds_push]
  refine ⟨o, rfl, rfl, rfl, rfl, trivial, ?_, ?_⟩
  · refine ⟨rfl, rfl, rfl, ?_, rfl, rfl, rfl, hcounts, hnumber⟩
    simp [o]
  · refine ⟨⟨x, named, ?_, ?_, rfl⟩, hwritable, hanonymous, hkind, ?_, ?_,
      ⟨⟨s.symbols.scopes.size⟩, ⟨s.symbols.symbols.size⟩, ∅⟩, ?_, rfl, rfl⟩
    · rw [← hx]
      exact TypeTable.Grows.find (StructuralTypes.Grows.push _ _) he
    · exact SymbolTable.find_mono (.push _ _) hnamed
    · exact TypeTable.find_eq_ok_iff.2 Array.getElem?_push_size
    · rw [hosymbol]
      exact SymbolTable.find_eq_ok_iff.2 Array.getElem?_push_size
    · exact SymbolTable.findScope_eq_ok_iff.2 Array.getElem?_push_size

/-- Fields with symbols of their names are declared. -/
theorem declare_eq {t : Session} (package : PackageId) (fields : List (Field × SymbolId))
    (hfields : ∀ f ∈ fields, f.1.symbol = some f.2 ∧
      ∃ named, t.symbols.find f.2 = .ok named ∧ named.name = f.1.name) :
    (fields.map (·.1)).mapM (fieldDeclarationNode package) t =
      .ok (fields.map fun f => f.1.declared f.2) t := by
  induction fields with
  | nil => rfl
  | cons f fields ih =>
    obtain ⟨hsymbol, named, hnamed, hname⟩ := hfields f List.mem_cons_self
    have hone : fieldDeclarationNode package f.1 t = .ok (f.1.declared f.2) t := by
      rw [fieldDeclarationNode_of_symbol hsymbol hnamed, hname]
      rfl
    have hrest := ih fun g hg => hfields g (List.mem_cons_of_mem f hg)
    rw [List.map_cons, List.mapM_cons, bind_of_ok hone, bind_of_ok hrest]
    rfl

end Synth

/-! ## Fields -/

/-- The clone has got these fields and is made of what the body says; the clones `made` were made
since `s`. -/
structure Building (suffix : String) (q : PackageId) (o : Outline) (s : Session)
    (fields : List (Field × SymbolId)) (body : Ty) (made : List Wiring) (t : Session) : Prop where
  /-- The clone stands, and the fields are bound. -/
  stands : o.Stands body (fields.map fun f => (f.1.name, f.2)) {} t.symbols t.types
  /-- Other clones were registered. -/
  registered : Registered suffix q s made t
  /-- The clone was there at the beginning. -/
  there : o.clone.index < s.types.entries.size ∧ o.holder.index < s.symbols.symbols.size ∧
    o.scope.index < s.symbols.scopes.size
  /-- The fields have symbols of their names. -/
  symbols : ∀ f ∈ fields, f.1.symbol = some f.2 ∧
    ∃ named, t.symbols.find f.2 = .ok named ∧ named.name = f.1.name

namespace Building

open Synth

variable {suffix : String} {q : PackageId} {o : Outline} {s t u : Session} {body body' : Ty}
  {fields : List (Field × SymbolId)} {made made' : List Wiring} {ctx : Context} {cl : Cloner}

/-- Other clones were made. -/
theorem extend (h : Building suffix q o s fields body made t)
    (hr : Registered suffix q t made' u) (hx : t.Extends u) :
    Building suffix q o s fields body (made ++ made') u where
  stands := h.stands.extend hx
  registered := h.registered.trans hr hx
  there := h.there
  symbols f hf := (h.symbols f hf).imp_right <| Exists.imp fun _ hn =>
    ⟨hx.find_symbol hn.1, hn.2⟩

/-- Work at the clone registers nothing. -/
theorem registered_aside (h : Building suffix q o s fields body made t) (ha : Aside o t u) :
    Registered suffix q s made u := by
  obtain ⟨kind, -, hkind⟩ := h.stands.kind
  exact h.registered.aside ha h.there.1 h.there.2.1 h.there.2.2 h.stands.clone (by simp [hkind])

/-- The symbol of a field is named after it, whatever is done at the clone. -/
theorem symbols_aside (h : Building suffix q o s fields body made t) (ha : Aside o t u)
    {f : Field × SymbolId} (hf : f ∈ fields) : f.1.symbol = some f.2 ∧
      ∃ named, u.symbols.find f.2 = .ok named ∧ named.name = f.1.name := by
  obtain ⟨hsymbol, named, hnamed, hname⟩ := h.symbols f hf
  obtain ⟨named', hnamed', hsame⟩ := ha.declared _ named hnamed
  have hname' : named'.name = named.name := congrArg Declaration.name hsame
  exact ⟨hsymbol, named', hnamed', hname'.trans hname⟩

/-- Work was done at the clone. -/
theorem aside (h : Building suffix q o s fields body made t) (ha : Aside o t u)
    (hs : o.Stands body' (fields.map fun f => (f.1.name, f.2)) {} u.symbols u.types) :
    Building suffix q o s fields body' made u where
  stands := hs
  registered := h.registered_aside ha
  there := h.there
  symbols _ := h.symbols_aside ha

/-- One more field was bound. -/
theorem snoc (h : Building suffix q o s fields body made t) (ha : Aside o t u) {f : Field}
    {x : SymbolId} {named : Symbol} (hsymbol : f.symbol = some x)
    (hx : u.symbols.find x = .ok named) (hname : named.name = f.name)
    (hs : o.Stands body (fields.map (fun f => (f.1.name, f.2)) ++ [(f.name, x)]) {} u.symbols
      u.types) : Building suffix q o s (fields ++ [(f, x)]) body made u where
  stands := by simpa using hs
  registered := h.registered_aside ha
  there := h.there
  symbols g hg := by
    rcases List.mem_append.1 hg with hg | hg
    · exact h.symbols_aside ha hg
    · rw [List.mem_singleton.1 hg]
      exact ⟨hsymbol, named, hx, hname⟩

/-- A member is visited. -/
theorem visit (h : Building suffix q o s fields body made t) (hcl : cl.Registers suffix q)
    {stamp : Stamp} (hstamp : stamp.package = q) (m : TypeId) :
    Yields (cl stamp m) t fun _ u => ∃ made', Building suffix q o s fields body made' u := by
  refine ends_iff.2 ⟨fun v u hv => ?_, fun _ _ _ => trivial⟩
  obtain ⟨made', hr⟩ := hcl.registers hstamp hv
  exact ⟨_, h.extend hr (hcl.keeps.gives ⟨stamp, hv⟩).keeps⟩

/-- A field is declared under the name of its template. -/
theorem yields_fieldDeclaration (plan : FieldPlan) (f : Field) (ty : TypeId) :
    Yields (fieldDeclaration plan f ty) t fun d u => u = t ∧ d.name = f.name := by
  unfold fieldDeclaration
  split
  · exact ends_pure.2 ⟨rfl, rfl⟩
  · refine ends_bind.2 (ends_symbol.2 ⟨fun named _ => ?_, fun _ => trivial⟩)
    exact ends_pure.2 ⟨rfl, rfl⟩

/-- Whatever a field stands for, it keeps its name. -/
theorem yields_specializeField (kind : StructureKind) (d : Declaration) (e : TypeEntry) :
    Yields (specializeField kind d e) t fun r u => u = t ∧ r.2.name = d.name := by
  unfold specializeField functionTypeSymbol?
  refine ends_bind.2 (Ends.imp (Q := fun _ u => u = t) ?_ ?_ fun _ _ h => h)
  · split
    · exact ends_bind.2 (ends_symbol.2 ⟨fun named _ => ends_pure.2 rfl, fun _ => trivial⟩)
    · exact ends_pure.2 rfl
  · rintro o _ rfl
    split
    · exact ends_pure.2 ⟨rfl, rfl⟩
    · split <;> exact ends_pure.2 ⟨rfl, rfl⟩

/-- The type of a symbol is read. -/
theorem yields_typeOf (x : SymbolId) : Yields (typeOf x) t fun _ u => u = t := by
  unfold typeOf
  refine ends_bind.2 (ends_symbol.2 ⟨fun named _ => ?_, fun _ => trivial⟩)
  split
  · exact ends_pure.2 rfl
  · trivial

/-- **A field is built**, and bound under its name. -/
theorem buildField (h : Building suffix q o s fields body made t) (hcl : cl.Registers suffix q)
    {plan : FieldPlan} (himmutable : plan.immutable = true) (hholder : plan.holder = o.holder)
    (hpackage : plan.package = q) (template : Field) :
    Yields (buildField ctx (some cl) plan template) t fun f u => ∃ x made',
      Building suffix q o s (fields ++ [(f, x)]) body made' u := by
  unfold Synth.buildField fieldType
  rw [himmutable, if_pos rfl]
  refine ends_bind.2 ((h.visit hcl hpackage template.ty).imp ?_ fun _ _ h => h)
  rintro ty t₁ ⟨made₁, h₁⟩
  refine ends_bind.2 ((yields_fieldDeclaration plan template ty).imp ?_ fun _ _ h => h)
  rintro inherited t₂ ⟨rfl, hinherited⟩
  refine ends_bind.2 (ends_reading.2 ⟨fun base _ => ?_, fun _ _ => trivial⟩)
  refine ends_bind.2 (ends_reading.2 ⟨fun e _ => ?_, fun _ _ => trivial⟩)
  refine ends_bind.2 ((yields_specializeField plan.kind inherited e).imp ?_ fun _ _ h => h)
  rintro ⟨kind, d⟩ t₃ ⟨rfl, hd⟩
  -- the field gets a symbol, which is bound in the scope of the clone's symbol
  refine ends_bind.2 (ends_addSymbol.2 ?_)
  have hadd : Aside o t₃ { t₃ with symbols := (t₃.symbols.add kind d).2 } := .addSymbol kind d
  have hstands := h₁.stands.grow (SymbolTable.grows_add t₃.symbols kind d) (.refl _)
    (StructuralTypes.Grows.refl _)
  have hfound := SymbolTable.find_add_self t₃.symbols kind d
  refine ends_bind.2 ((yields_typeOf _).imp ?_ fun _ _ h => h)
  rintro ty' t₄ rfl
  rw [hholder]
  refine ends_bind.2 (Ends.imp (Outline.Stands.define hstands template.name _) ?_ fun _ _ h => h)
  rintro _ u ⟨hdefine, hsymbols, -, hdefined⟩
  rw [SymbolTable.find_eq_ok_iff, ← hsymbols, ← SymbolTable.find_eq_ok_iff] at hfound
  exact ends_pure.2 ⟨_, made₁, h₁.snoc (hadd.trans hdefine) rfl hfound (hd.trans hinherited)
    hdefined⟩

/-- The fields have different names. -/
theorem names_nodup (h : Building suffix q o s fields body made t) :
    (fields.map (·.1.name)).Nodup := by
  obtain ⟨scope, -, -, hentries⟩ := h.stands.scope
  have hkeys := scope.bindings.nodup
  rw [hentries, List.map_map] at hkeys
  exact hkeys

/-- The reference to the source is made. -/
theorem yields_sourceReference (h : Building suffix q o s fields body made t) :
    Yields (sourceReference o.stamp.span o.source) t fun r u => u = t ∧
      r = o.reference (s.package.qualifierFor none o.named.package) := by
  obtain ⟨x, named, he, hx, hnamed⟩ := h.stands.source
  have hname : named.name = o.named.name := congrArg Declaration.name hnamed
  have hpackage : named.package = o.named.package := congrArg Declaration.package hnamed
  unfold sourceReference
  refine ends_bind.2 ((ends_of_ok (symbolOf_eq he rfl)).2 ?_)
  refine ends_bind.2 ((ends_of_ok (symbol_eq hx)).2 ?_)
  refine ends_bind.2 (ends_reading.2 ⟨fun qualifier hq => ?_, fun _ _ => trivial⟩)
  refine ends_pure.2 ⟨rfl, ?_⟩
  obtain rfl : _ = qualifier := Except.ok.inj hq
  rw [h.registered.package, hname, hpackage]
  rfl

/-- **All fields are built.** -/
theorem buildFields (h : Building suffix q o s [] body made t) (hcl : cl.Registers suffix q)
    {p : Population} (htarget : p.target = o.clone) (hsource : p.source = o.source)
    (himmutable : p.immutable = true) (hpackage : p.package = q) (hspan : p.span = o.stamp.span)
    (node : StructureNode) :
    Yields (buildFields ctx (some cl) p node) t fun node' u => ∃ fields made',
      Building suffix q o s fields
          (body.mapFields fun _ => .ofList (fields.map fun f => (f.1.name, f.1))) made' u ∧
        node' =
          { node with references := node.references ++ if o.ty.structureKind? = some .record then
              [o.reference (s.package.qualifierFor none o.named.package)] else [] } := by
  obtain ⟨kind, hkind, hbody⟩ := h.stands.kind
  obtain ⟨x, named, he, -⟩ := h.stands.source
  unfold Synth.buildFields
  rw [htarget, hsource]
  refine ends_bind.2 ((ends_of_ok (kindOf_eq he hkind)).2 ?_)
  refine ends_bind.2 ((ends_of_ok (kindOf_eq h.stands.clone hbody)).2 ?_)
  refine ends_bind.2 ((ends_of_ok (symbolOf_eq h.stands.clone rfl)).2 ?_)
  obtain ⟨templates, htemplates⟩ : ∃ templates, o.ty.fields? = some templates := by
    rw [← Option.isSome_iff_exists, ← Ty.structureKind?_isSome_iff, hkind]
    rfl
  refine ends_bind.2 ((ends_of_ok (fieldsOf_eq he htemplates)).2 ?_)
  -- after each field, those built so far are bound
  refine ends_bind.2 ((ends_mapM (I := fun _ built u => ∃ fields made',
    built = fields.map (·.1) ∧ Building suffix q o s fields body made' u) ?_ ?_).imp ?_
      fun _ _ h => h)
  · exact ⟨[], made, rfl, h⟩
  · rintro pre _ f post u - ⟨fields, made', rfl, hbuilding⟩
    refine (hbuilding.buildField hcl himmutable rfl hpackage f).imp ?_ fun _ _ h => h
    rintro f' v ⟨y, made'', hnext⟩
    exact ⟨_, made'', by simp, hnext⟩
  rintro _ u ⟨fields, made', rfl, hbuilding⟩
  have hset := hbuilding.stands.setClone (Ty.structureKind?_mapFields
    (fun _ => .ofList (fields.map fun f => (f.1.name, f.1))) body)
  have hmap : (fields.map (·.1)).map (fun f => (f.name, f)) = fields.map fun f => (f.1.name, f.1) :=
    List.map_map
  unfold setFields
  rw [hmap]
  refine ends_bind.2 ((ends_of_ok hset.1).2 ?_)
  have hdone := hbuilding.aside (.setClone _) hset.2
  by_cases hrecord : kind = .record
  · rw [if_pos ⟨hrecord, himmutable⟩, hspan]
    refine ends_bind.2 ((yields_sourceReference hdone).imp ?_ fun _ _ h => h)
    rintro reference v ⟨rfl, hreference⟩
    refine ends_pure.2 ⟨fields, made', hdone, ?_⟩
    simp [hkind, hrecord, hreference]
  · rw [if_neg fun hand => hrecord hand.1]
    refine ends_pure.2 ⟨fields, made', hdone, ?_⟩
    simp [hkind, hrecord]

/-- The fields of the clone are declared. -/
theorem yields_fieldDeclarations (h : Building suffix q o s fields body made t)
    (hfields : body.HasFields fields) (package : PackageId) :
    Yields (fieldDeclarations o.clone package) t fun nodes u =>
      u = t ∧ nodes = fields.map fun f => f.1.declared f.2 := by
  obtain ⟨m, hm, hentries⟩ := hfields
  have hvalues : m.values = fields.map (·.1) := by
    unfold OrderedMap.values
    rw [hentries, List.map_map]
    rfl
  unfold fieldDeclarations
  refine ends_bind.2 ((ends_of_ok (fieldsOf_eq h.stands.clone hm)).2 ?_)
  rw [hvalues]
  exact (ends_of_ok (declare_eq package fields h.symbols)).2 ⟨rfl, rfl⟩

end Building

/-- The clone is filled: it has fields, and the node declares them. -/
def Furnished (suffix : String) (q : PackageId) (o : Outline) (s : Session) (node : StructureNode)
    (t : Session) : Prop :=
  ∃ fields body made, Building suffix q o s fields body made t ∧ body.HasFields fields ∧
    node =
      { span := o.stamp.span, ty := some o.clone, symbol := some o.holder
        fields := fields.map fun f => f.1.declared f.2
        references := if o.ty.structureKind? = some .record then
          [o.reference (s.package.qualifierFor none o.named.package)] else [] }

namespace Building

open Synth

variable {suffix : String} {q : PackageId} {o : Outline} {s t : Session} {made : List Wiring}
  {ctx : Context} {cl : Cloner}

/-- **The clone is filled.** -/
theorem fillClone {b : Blueprint} (h : Building suffix q o s [] b.shell made t)
    (hcl : cl.Registers suffix q) (hq : o.stamp.package = q) :
    Yields (fillClone ctx cl o.stamp o.source b o.clone o.holder) t (Furnished suffix q o s) := by
  unfold Synth.fillClone
  refine ends_bind.2 ((h.buildFields hcl rfl rfl rfl hq rfl _).imp ?_ fun _ _ h => h)
  rintro node t₁ ⟨fields, made₁, h₁, hnode⟩
  have hshell : (b.shell.mapFields fun _ => .ofList
      (fields.map fun f => (f.1.name, f.1))).HasFields fields := by
    obtain ⟨kind, -, hkind⟩ := h.stands.kind
    obtain ⟨old, hold⟩ : ∃ old, b.shell.fields? = some old := by
      rw [← Option.isSome_iff_exists, ← Ty.structureKind?_isSome_iff, hkind]
      rfl
    refine ⟨_, by rw [Ty.fields?_mapFields, hold]; rfl, OrderedMap.entries_ofList ?_⟩
    rw [List.map_map]
    exact h₁.names_nodup
  -- what is left to do once the type of the undeclared fields is decided
  have finish : ∀ (body : Ty) made' u, Building suffix q o s fields body made' u →
      body.HasFields fields →
      Yields (do return { node with fields := ← fieldDeclarations o.clone o.stamp.package }) u
        (Furnished suffix q o s) := by
    intro body made' u hb hfields
    refine ends_bind.2 ((hb.yields_fieldDeclarations hfields _).imp ?_ fun _ _ h => h)
    rintro nodes v ⟨rfl, rfl⟩
    refine ends_pure.2 ⟨fields, body, made', hb, hfields, ?_⟩
    rw [hnode]
    simp
  dsimp only
  cases hrest : b.rest with
  | none => exact finish _ made₁ t₁ h₁ hshell
  | some rest =>
    refine ends_bind.2 ((h₁.visit hcl hq rest).imp ?_ fun _ _ h => h)
    rintro v t₂ ⟨made₂, h₂⟩
    have hkind : ∀ ty : Ty, (ty.withRest v).structureKind? = ty.structureKind? := by
      intro ty
      cases ty <;> rfl
    have hset := h₂.stands.setClone (hkind _)
    refine ends_bind.2 ((ends_of_ok hset.1).2 ?_)
    refine finish _ made₂ _ (h₂.aside (.setClone _) hset.2) ?_
    unfold Ty.HasFields
    rw [Ty.fields?_withRest]
    exact hshell

end Building

namespace Synth

variable {suffix : String} {q : PackageId} {s t : Session} {source : TypeId} {e : TypeEntry}
  {b : Blueprint} {cl : Cloner} {o : Outline} {body : Ty}

/-- **The clone gets its initializer**, which is bound and recorded. -/
theorem yields_attachInitializer {fields : List (Field × SymbolId)}
    (h : o.Stands body (fields.map fun f => (f.1.name, f.2)) {} t.symbols t.types)
    (hfields : body.HasFields fields)
    (hsymbols : ∀ f ∈ fields, f.1.symbol = some f.2) {ctx : Context} (qualifier : String)
    {node : StructureNode} (hty : node.ty = some o.clone) (hsymbol : node.symbol = some o.holder) :
    Yields (attachInitializer ctx node) t fun r u => Aside o t u ∧ ∃ f : FunctionNode,
      r.2 = { node with initializer := some f } ∧
        Wiring.Stands ⟨o, fields, qualifier, f⟩ ctx.settings.initializerSuffix u.symbols
          u.types := by
  have hname : nameOf o.clone t = .ok o.name t := by
    unfold nameOf
    refine bind_eq_ok_iff.2 ⟨_, t, symbolOf_eq h.clone rfl, ?_⟩
    refine bind_eq_ok_iff.2 ⟨_, t, symbol_eq h.holder, ?_⟩
    have hempty : (o.symbol {}).name.isEmpty = false := o.name_isEmpty
    simp only [hempty]
    rfl
  unfold Synth.attachInitializer
  rw [hty, hsymbol]
  refine ends_bind.2 (ends_pure.2 (ends_bind.2 ?_))
  refine (ends_of_ok (createInitializer_eq ctx hname)).2 ?_
  obtain ⟨hsymbols', hscopes, htypes⟩ := grows_initializerSession t ctx
    { ty := o.clone, owner := o.holder, suffix := ctx.settings.initializerSuffix
      returns := ctx.settings.initializerReturns.getD Builtin.nil, span := node.span } o.name
  have hstands := h.grow hsymbols' hscopes htypes
  refine ends_bind.2 (Ends.imp (Outline.Stands.define hstands _ _) ?_ fun _ _ h => h)
  rintro _ u ⟨hdefine, -, -, hdefined⟩
  refine ends_bind.2 ((hdefined.record _ _).imp ?_ fun _ _ h => h)
  rintro _ v ⟨hrecord, -, hrecorded⟩
  exact ends_pure.2 ⟨(Aside.grow hsymbols' hscopes htypes).trans (hdefine.trans hrecord), _, rfl,
    ⟨body, hfields, hrecorded⟩, hsymbols, rfl⟩

/-- **A structure is cloned, with all that belongs to the clone.** -/
theorem yields_makeClone (hcl : cl.Registers suffix q) {ctx : Context}
    (hsuffix : ctx.settings.initializerSuffix = suffix) {stamp : Stamp} (hq : stamp.package = q)
    (he : s.types.find source = .ok e) (hwritable : e.flags.contains (.only .readonly) = false)
    (hb : b.Describes e.ty) :
    Yields (makeClone ctx cl stamp source b) s fun v t => ∃ (w : Wiring) (made : List Wiring)
      (s₁ u : Session), v = w.clone ∧ w.source = source ∧ w.ty = e.ty ∧ w.stamp.package = q ∧
        w.toOutline.Drafted s s₁ ∧ Registered suffix q s₁ made u ∧
          w.Stands suffix u.symbols u.types ∧
            w.qualifier = s.package.qualifierFor none w.named.package ∧
              t = { u with
                pending := u.pending.erase source
                package :=
                  { u.package with
                    typeDefinitions := u.package.typeDefinitions ++ [w.definition] } } := by
  obtain ⟨fields, -, hty, hshell, -⟩ := hb.members
  unfold makeClone
  cases hx : e.symbol with
  | none => exact ends_bind.2 ((ends_of_error (symbolOf_eq_error he hx)).2 trivial)
  | some x =>
  refine ends_bind.2 ((ends_of_ok (symbolOf_eq he hx)).2 ?_)
  refine ends_bind.2 (ends_symbol.2 ⟨fun named hnamed => ?_, fun _ => trivial⟩)
  refine ends_bind.2 ((yields_openClone stamp he hx hnamed hwritable ⟨_, hty, hshell⟩).imp ?_
    fun _ _ h => h)
  rintro _ t ⟨o, rfl, rfl, hoty, rfl, hpending, hdrafted, hstands⟩
  have hbuilding : Building suffix q o { t with pending := s.pending.insert o.source o.clone } []
      b.shell [] { t with pending := s.pending.insert o.source o.clone } :=
    ⟨hstands, .refl _ _ _, hdrafted.there, by simp⟩
  rw [← hpending] at hbuilding hdrafted
  refine ends_bind.2 (ends_whilePending.2 ((hbuilding.fillClone hcl hq).imp ?_ fun _ _ h => h))
  rintro node u ⟨fields, body, made, hbuilt, hfields, hnode⟩
  obtain ⟨qualifier, hqualifier⟩ :
      ∃ qualifier, qualifier = t.package.qualifierFor none o.named.package := ⟨_, rfl⟩
  have hsymbols : ∀ f ∈ fields, f.1.symbol = some f.2 := fun f hf => (hbuilt.symbols f hf).1
  have hstands' : o.Stands body (fields.map fun f => (f.1.name, f.2)) {}
      ({ u with pending := u.pending.erase o.source } : Session).symbols
      ({ u with pending := u.pending.erase o.source } : Session).types := hbuilt.stands
  refine ends_bind.2 ((yields_attachInitializer hstands' hfields hsymbols qualifier ?_ ?_).imp ?_
    fun _ _ h => h)
  · rw [hnode]
  · rw [hnode]
  rintro ⟨y, node'⟩ v ⟨haside, f, hnode', hw⟩
  obtain ⟨_, -, hw'⟩ := hw.outline
  refine ends_bind.2 ((ends_registerDefinition hw'.holder _ _).imp ?_ fun _ _ _ => trivial)
  rintro _ _ ⟨definition, hdefinition, rfl⟩
  have hregistered := hbuilt.registered_aside haside.of_pending
  refine ends_pure.2 ⟨⟨o, fields, qualifier, f⟩, made, _, { v with pending := u.pending }, rfl, rfl,
    hoty, hq, hdrafted, hregistered, hsuffix ▸ hw, ?_, ?_⟩
  · rw [hqualifier, ← hdrafted.package]
  -- the node is as it should be for the kind of the structure
  have hwnode : b.node node' = Wiring.node ⟨o, fields, qualifier, f⟩ := by
    obtain rfl : node' = _ := hnode'
    rw [hnode, hqualifier]
    have hboty : b.Describes o.ty := hoty ▸ hb
    unfold Blueprint.node Wiring.node
    generalize o.ty = ty at hboty
    cases hboty <;> rfl
  have hpending' : v.pending = u.pending.erase o.source := haside.pending
  rw [hdefinition, hwnode, ← hpending']
  rfl

end Synth

end StructuralTypes

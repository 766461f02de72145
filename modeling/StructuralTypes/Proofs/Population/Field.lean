import StructuralTypes.Proofs.Outcome
import StructuralTypes.Proofs.Readonly.Visit

/-!
# One field

A field that is built after a template has a symbol of its own. What the user wrote is taken over
from the template (`FieldPlan.inherit`), and then the type decides: `Shapes` lists the three things
that can become of a field. The symbol is bound under the name of the field in the scope of the
structure that gets it, and this is where two fields of one name, or a missing scope, show.

Results:
* `bindings?_defineIn`, **`exists_defineIn_iff`**: when a name can be bound, and what is bound then.
* `Declares.unique`: what is there decides what becomes of a field.
* `buildField_eq_ok_iff`, **`mapM_buildField_eq_ok_iff`**: fields are built exactly as `Builds` and
  `BuildsAll` say.
-/

namespace StructuralTypes

/-! ## Names in the scope of a symbol -/

namespace SymbolTable

variable {S S' : SymbolTable} {owner x : SymbolId} {name : String}
  {m : OrderedMap String SymbolId}

/-- The names in the current scope of a symbol, if it has one. -/
def bindings? (S : SymbolTable) (x : SymbolId) : Option (OrderedMap String SymbolId) := do
  let named ← S.symbols[x.index]?
  let id ← named.scope
  let scope ← S.scopes[id.index]?
  return scope.bindings

theorem bindings?_eq_some_iff : S.bindings? x = some m ↔ ∃ named id scope,
    S.find x = .ok named ∧ named.scope = some id ∧ S.findScope id = .ok scope ∧
      scope.bindings = m := by
  simp only [bindings?, find_eq_ok_iff, findScope_eq_ok_iff, Option.bind_eq_bind,
    Option.bind_eq_some_iff, Option.pure_def, Option.some.injEq]
  constructor
  · rintro ⟨named, hnamed, id, hid, scope, hscope, hm⟩
    exact ⟨named, id, scope, hnamed, hid, hscope, hm⟩
  · rintro ⟨named, id, scope, hnamed, hid, hscope, hm⟩
    exact ⟨named, hnamed, id, hid, scope, hscope, hm⟩

/-- More symbols and more scopes change nothing about the names in a scope. -/
theorem bindings?_grows (hs : Grows S.symbols S'.symbols) (hc : Grows S.scopes S'.scopes)
    (h : S.bindings? x = some m) : S'.bindings? x = some m := by
  simp only [bindings?_eq_some_iff, find_eq_ok_iff, findScope_eq_ok_iff] at h ⊢
  obtain ⟨named, id, scope, hnamed, hid, hscope, hm⟩ := h
  exact ⟨named, id, scope, hs.getElem? hnamed, hid, hc.getElem? hscope, hm⟩

/-- A new symbol has no names. -/
theorem bindings?_add (k : SymbolKind) (d : Declaration) :
    (S.add k d).2.bindings? x = S.bindings? x := by
  unfold bindings? add
  dsimp only
  rw [Array.getElem?_push]
  split
  · rename_i hx
    rw [hx, Array.getElem?_eq_none (Nat.le_refl _)]
    rfl
  · rfl

/-- What is bound in a scope: the names that were, and the new one. -/
theorem bindings?_defineIn (h : S.defineIn owner name x = .ok S') : ∃ m,
    S.bindings? owner = some m ∧ name ∉ m.keys ∧ S'.bindings? owner = some (m.insert name x) ∧
      S'.symbols = S.symbols := by
  obtain ⟨id, hid, hdefine⟩ := defineIn_eq_ok h
  obtain ⟨scope, extended, hscope, hextended, rfl⟩ := define_eq_ok hdefine
  obtain ⟨hnew, rfl⟩ := Scope.define_eq_ok_iff.1 hextended
  obtain ⟨named, hfind, hcurrent⟩ := scopeOf_eq_ok_iff.1 hid
  have hset := findScope_set_self hscope { scope with bindings := scope.bindings.insert name x }
  exact ⟨scope.bindings,
    bindings?_eq_some_iff.2 ⟨named, id, scope, hfind, hcurrent, hscope, rfl⟩, hnew,
    bindings?_eq_some_iff.2 ⟨named, id, _, hfind, hcurrent, hset, rfl⟩, rfl⟩

/-- **A name can be bound exactly by a symbol with a scope in which it is new.** -/
theorem exists_defineIn_iff : (∃ S', S.defineIn owner name x = .ok S') ↔
    ∃ m, S.bindings? owner = some m ∧ name ∉ m.keys := by
  constructor
  · rintro ⟨S', h⟩
    obtain ⟨m, hm, hnew, -⟩ := bindings?_defineIn h
    exact ⟨m, hm, hnew⟩
  · rintro ⟨m, hm, hnew⟩
    obtain ⟨named, id, scope, hnamed, hid, hscope, rfl⟩ := bindings?_eq_some_iff.1 hm
    have hextended : scope.define name x = .ok _ := Scope.define_eq_ok_iff.2 ⟨hnew, rfl⟩
    let extended : Scope := { scope with bindings := scope.bindings.insert name x }
    refine ⟨{ S with scopes := S.scopes.setIfInBounds id.index extended }, ?_⟩
    simp only [defineIn, scopeOf, hnamed, hid, define, hscope, hextended, bind, Except.bind, pure,
      Except.pure]
    rfl

end SymbolTable

/-! ## What becomes of a field -/

/-- What a field of type `ty` is declared as, built after the template `f`, whose symbol is `o`.
What the user wrote is taken over from the symbol, or from the template itself without one. -/
def FieldPlan.inherit (plan : FieldPlan) (f : Field) (ty : TypeId) (o : Option Symbol) :
    Declaration :=
  let d : Declaration :=
    { name := f.name, writtenName := f.writtenName, package := plan.package
      flags := plan.flags, span := f.span, ty := some ty, owner := some plan.holder }
  match o with
  | none => d
  | some named =>
    { d with
      writtenName := named.writtenName, flags := named.flags ∪ plan.flags, origin := named.origin
      span := named.span }

section Inherit

variable (plan : FieldPlan) (f : Field) (ty : TypeId) (o : Option Symbol)

@[simp] theorem FieldPlan.inherit_ty : (plan.inherit f ty o).ty = some ty := by
  cases o <;> rfl

@[simp] theorem FieldPlan.inherit_owner : (plan.inherit f ty o).owner = some plan.holder := by
  cases o <;> rfl

@[simp] theorem FieldPlan.inherit_name : (plan.inherit f ty o).name = f.name := by
  cases o <;> rfl

@[simp] theorem FieldPlan.inherit_package : (plan.inherit f ty o).package = plan.package := by
  cases o <;> rfl

end Inherit

/-- The symbol of a field that was declared as `d`, in a structure of this kind, whose type stands
for `e`: its kind, and what it is declared as in the end. -/
inductive SymbolTable.Shapes (S : SymbolTable) (kind : StructureKind) (d : Declaration)
    (e : TypeEntry) : SymbolKind → Declaration → Prop
  /-- A field of a function type is a function without a body, with the signature and the modifiers
  of the symbol of its type. -/
  | function {x : SymbolId} {named : Symbol} {signature : Signature}
      (invokable : e.ty.isInvokable) (symbol : e.symbol = some x) (found : S.find x = .ok named)
      (repeats : named.functionType? = some signature) :
      Shapes S kind d e (.function { toSignature := signature }) { d with flags := named.flags }
  /-- A record field whose type failed to resolve is optional and without values. -/
  | degraded (failed : e.ty = .semanticError) (record : kind = .record) :
      Shapes S kind d e .variable
        { d with flags := d.flags ∪ .only .optional, ty := some Builtin.never }
  /-- Any other field is a variable. -/
  | plain (resolved : ¬(e.ty = .semanticError ∧ kind = .record))
      (unrepeated : e.ty.isInvokable → ∀ x, e.symbol = some x → ∃ named,
        S.find x = .ok named ∧ named.functionType? = none) :
      Shapes S kind d e .variable d

/-- The symbol of the template `f` is `o`: the one that it names, or none if it names none. -/
def SymbolTable.Describes (S : SymbolTable) (f : Field) (o : Option Symbol) : Prop :=
  Option.Rel (fun x named => S.find x = .ok named) f.symbol o

/-- A field of type `ty` that is built after the template `f` has a symbol of kind `k` that is
declared as `d`. -/
inductive Declares (S : SymbolTable) (T : TypeTable) (plan : FieldPlan) (f : Field) (ty : TypeId)
    (k : SymbolKind) (d : Declaration) : Prop
  | intro {o : Option Symbol} {base : TypeId} {e : TypeEntry}
      (template : S.Describes f o)
      (implied : T.implied ty = .ok base) (found : T.find base = .ok e)
      (shapes : S.Shapes plan.kind (plan.inherit f ty o) e k d)

/-- A field that is built takes the same from the symbol `b` as from the symbol `a`. -/
structure Symbol.TellsSame (a b : Symbol) : Prop where
  /-- What the user wrote. -/
  writtenName : b.writtenName = a.writtenName
  /-- The modifiers. -/
  flags : b.flags = a.flags
  /-- Who made it up. -/
  origin : b.origin = a.origin
  /-- Its place. -/
  span : b.span = a.span
  /-- The signature, if it is the symbol of a function type. -/
  functionType : b.functionType? = a.functionType?

theorem Symbol.TellsSame.refl (a : Symbol) : a.TellsSame a := ⟨rfl, rfl, rfl, rfl, rfl⟩

/-- Each symbol of `S` is in `S'`, and tells a field the same there. -/
def SymbolTable.TellsSame (S S' : SymbolTable) : Prop :=
  ∀ x a, S.find x = .ok a → ∃ b, S'.find x = .ok b ∧ a.TellsSame b

section Shapes

variable {S S' : SymbolTable} {T : TypeTable} {kind : StructureKind} {d d' : Declaration}
  {e : TypeEntry} {k : SymbolKind} {plan : FieldPlan} {f : Field} {ty : TypeId}

theorem SymbolTable.Describes.unique {o o' : Option Symbol} (h : S.Describes f o)
    (h' : S.Describes f o') : o = o' := by
  unfold Describes at h h'
  revert h h'
  cases f.symbol with
  | none =>
    rintro ⟨⟩ ⟨⟩
    rfl
  | some x =>
    rintro ⟨h⟩ ⟨h'⟩
    rw [Except.ok.inj (h.symm.trans h')]

theorem SymbolTable.TellsSame.of_find
    (hS : ∀ x named, S.find x = .ok named → S'.find x = .ok named) :
    S.TellsSame S' :=
  fun x a hx => ⟨a, hS x a hx, .refl a⟩

/-- A template that tells the same hands the same down. -/
theorem SymbolTable.Describes.tells {o : Option Symbol} (h : S.Describes f o)
    (hS : S.TellsSame S') (plan : FieldPlan) (ty : TypeId) :
    ∃ o', S'.Describes f o' ∧ plan.inherit f ty o' = plan.inherit f ty o := by
  unfold Describes at h ⊢
  revert h
  cases f.symbol with
  | none =>
    rintro ⟨⟩
    exact ⟨none, .none, rfl⟩
  | some x =>
    rintro ⟨h⟩
    obtain ⟨b, hb, htells⟩ := hS _ _ h
    refine ⟨some b, .some hb, ?_⟩
    simp only [FieldPlan.inherit, htells.writtenName, htells.flags, htells.origin, htells.span]

theorem SymbolTable.Describes.grows {o : Option Symbol} (h : S.Describes f o)
    (hS : ∀ x named, S.find x = .ok named → S'.find x = .ok named) : S'.Describes f o := by
  unfold Describes at h ⊢
  revert h
  cases f.symbol with
  | none =>
    rintro ⟨⟩
    exact .none
  | some x =>
    rintro ⟨h⟩
    exact .some (hS _ _ h)

/-- The type decides about the modifiers, and it may be replaced; nothing else is. -/
theorem SymbolTable.Shapes.declaration_eq (h : S.Shapes kind d e k d') :
    d' = { d with flags := d'.flags, ty := d'.ty } := by
  cases h <;> rfl

theorem SymbolTable.Shapes.ty_eq (h : S.Shapes kind d e k d') :
    d'.ty = d.ty ∨ d'.ty = some Builtin.never := by
  cases h with
  | function => exact .inl rfl
  | degraded => exact .inr rfl
  | plain => exact .inl rfl

/-- A type whose symbol tells the same decides the same. -/
theorem SymbolTable.Shapes.tells (h : S.Shapes kind d e k d') (hS : S.TellsSame S') :
    S'.Shapes kind d e k d' := by
  cases h with
  | function invokable symbol found repeats =>
    obtain ⟨b, hb, htells⟩ := hS _ _ found
    rw [← htells.flags]
    exact .function invokable symbol hb (htells.functionType.trans repeats)
  | degraded failed record => exact .degraded failed record
  | plain resolved unrepeated =>
    refine .plain resolved fun hi x hx => ?_
    obtain ⟨named, hnamed, hnone⟩ := unrepeated hi x hx
    obtain ⟨b, hb, htells⟩ := hS _ _ hnamed
    exact ⟨b, hb, htells.functionType.trans hnone⟩

/-- More symbols change nothing about a field. -/
theorem SymbolTable.Shapes.grows (h : S.Shapes kind d e k d')
    (hS : ∀ x named, S.find x = .ok named → S'.find x = .ok named) : S'.Shapes kind d e k d' :=
  h.tells (.of_find hS)

/-- The type decides what becomes of a field. -/
theorem SymbolTable.Shapes.unique {k' : SymbolKind} {d'' : Declaration} (h : S.Shapes kind d e k d')
    (h' : S.Shapes kind d e k' d'') : k = k' ∧ d' = d'' := by
  cases h with
  | function invokable symbol found repeats =>
    cases h' with
    | function _ symbol' found' repeats' =>
      obtain rfl := Option.some.inj (symbol.symm.trans symbol')
      obtain rfl := Except.ok.inj (found.symm.trans found')
      obtain rfl := Option.some.inj (repeats.symm.trans repeats')
      exact ⟨rfl, rfl⟩
    | degraded failed => simp [failed, Ty.isInvokable] at invokable
    | plain _ unrepeated =>
      obtain ⟨named, found', hnone⟩ := unrepeated invokable _ symbol
      obtain rfl := Except.ok.inj (found.symm.trans found')
      simp [hnone] at repeats
  | degraded failed record =>
    cases h' with
    | function invokable => simp [failed, Ty.isInvokable] at invokable
    | degraded => exact ⟨rfl, rfl⟩
    | plain resolved => exact absurd ⟨failed, record⟩ resolved
  | plain resolved unrepeated =>
    cases h' with
    | function invokable symbol found repeats =>
      obtain ⟨named, found', hnone⟩ := unrepeated invokable _ symbol
      obtain rfl := Except.ok.inj (found.symm.trans found')
      simp [hnone] at repeats
    | degraded failed record => exact absurd ⟨failed, record⟩ resolved
    | plain => exact ⟨rfl, rfl⟩

theorem Declares.owner (h : Declares S T plan f ty k d) : d.owner = some plan.holder := by
  obtain ⟨-, -, -, shapes⟩ := h
  rw [shapes.declaration_eq]
  exact plan.inherit_owner f ty _

theorem Declares.name (h : Declares S T plan f ty k d) : d.name = f.name := by
  obtain ⟨-, -, -, shapes⟩ := h
  rw [shapes.declaration_eq]
  exact plan.inherit_name f ty _

theorem Declares.package (h : Declares S T plan f ty k d) : d.package = plan.package := by
  obtain ⟨-, -, -, shapes⟩ := h
  rw [shapes.declaration_eq]
  exact plan.inherit_package f ty _

/-- The symbol of a field has a type. -/
theorem Declares.exists_ty (h : Declares S T plan f ty k d) : ∃ ty', d.ty = some ty' := by
  obtain ⟨-, -, -, shapes⟩ := h
  rcases shapes.ty_eq with hty | hty
  · exact ⟨ty, hty.trans (plan.inherit_ty f ty _)⟩
  · exact ⟨Builtin.never, hty⟩

/-- Symbols that tell the same decide the same. -/
theorem Declares.tells (h : Declares S T plan f ty k d) (hS : S.TellsSame S') :
    Declares S' T plan f ty k d := by
  obtain ⟨template, implied, found, shapes⟩ := h
  obtain ⟨o', template', hsame⟩ := template.tells hS plan ty
  exact ⟨template', implied, found, hsame ▸ shapes.tells hS⟩

/-- More symbols change nothing about a field. -/
theorem Declares.grows {k : SymbolKind} {d : Declaration} (h : Declares S T plan f ty k d)
    (hS : ∀ x named, S.find x = .ok named → S'.find x = .ok named) :
    Declares S' T plan f ty k d :=
  h.tells (.of_find hS)

/-- **What is there decides what becomes of a field.** -/
theorem Declares.unique {k' : SymbolKind} (h : Declares S T plan f ty k d)
    (h' : Declares S T plan f ty k' d') : k = k' ∧ d = d' := by
  obtain ⟨template, implied, found, shapes⟩ := h
  obtain ⟨template', implied', found', shapes'⟩ := h'
  obtain rfl := Except.ok.inj (implied.symm.trans implied')
  obtain rfl := Except.ok.inj (found.symm.trans found')
  obtain rfl := template.unique template'
  exact shapes.unique shapes'

end Shapes

namespace Synth

variable {ctx : Context} {cloner : Option Cloner} {plan : FieldPlan} {f f' : Field}
  {fs built : List Field} {s t : Session} {ty : TypeId}

/-! ## The steps -/

theorem fieldDeclaration_eq_ok_iff {d : Declaration} :
    fieldDeclaration plan f ty s = .ok d t ↔
      t = s ∧ ∃ o, s.symbols.Describes f o ∧ d = plan.inherit f ty o := by
  unfold fieldDeclaration SymbolTable.Describes
  cases f.symbol with
  | none =>
    constructor
    · rintro h
      cases h
      exact ⟨rfl, none, .none, rfl⟩
    · rintro ⟨rfl, _, hrel, rfl⟩
      cases hrel
      rfl
  | some x =>
    simp only [bind_eq_ok_iff]
    constructor
    · rintro ⟨named, u, hnamed, hd⟩
      obtain ⟨hfind, rfl⟩ := reading_eq_ok_iff.1 hnamed
      cases hd
      exact ⟨rfl, some named, .some hfind, rfl⟩
    · rintro ⟨rfl, _, hrel, rfl⟩
      cases hrel with
      | some hfind => exact ⟨_, _, reading_eq_ok_iff.2 ⟨hfind, rfl⟩, rfl⟩

/-- Only the symbol of a function type is looked at. -/
theorem functionTypeSymbol?_eq_pure {e : TypeEntry} (h : ¬e.ty.isInvokable ∨ e.symbol = none) :
    functionTypeSymbol? e = pure none := by
  obtain ⟨ty, x, flags⟩ := e
  cases ty with
  | invokable params rest returns =>
    obtain rfl : x = none := h.resolve_left fun hn => hn rfl
    rfl
  | _ => rfl

/-- The symbol of a function type is found, or there is none. -/
theorem functionTypeSymbol?_eq_ok_iff {e : TypeEntry} {o : Option (Symbol × Signature)} :
    functionTypeSymbol? e s = .ok o t ↔ t = s ∧
      ((e.ty.isInvokable ∧ ∃ x named, e.symbol = some x ∧ s.symbols.find x = .ok named ∧
          o = named.functionType?.map (named, ·)) ∨
        (¬e.ty.isInvokable ∨ e.symbol = none) ∧ o = none) := by
  by_cases hnone : ¬e.ty.isInvokable ∨ e.symbol = none
  · rw [functionTypeSymbol?_eq_pure hnone]
    constructor
    · intro h
      cases h
      exact ⟨rfl, .inr ⟨hnone, rfl⟩⟩
    · rintro ⟨rfl, ⟨hi, x, named, hx, -⟩ | ⟨-, rfl⟩⟩
      · simp [hi, hx] at hnone
      · rfl
  · obtain ⟨ty, x, flags⟩ := e
    cases ty with
    | invokable params rest returns =>
      cases x with
      | none => exact absurd (.inr rfl) hnone
      | some x =>
        unfold functionTypeSymbol?
        simp only [bind_eq_ok_iff]
        constructor
        · rintro ⟨named, u, hnamed, ho⟩
          obtain ⟨hfind, rfl⟩ := reading_eq_ok_iff.1 hnamed
          cases ho
          exact ⟨rfl, .inl ⟨rfl, x, named, rfl, hfind, rfl⟩⟩
        · rintro ⟨rfl, ⟨-, y, named, hy, hfind, rfl⟩ | ⟨h, -⟩⟩
          · cases hy
            exact ⟨named, t, reading_eq_ok_iff.2 ⟨hfind, rfl⟩, rfl⟩
          · exact absurd h hnone
    | _ => exact absurd (.inl (by simp [Ty.isInvokable])) hnone

/-- What becomes of a field was decided by its type. -/
theorem shapes_of_specializeField {kind : StructureKind} {d : Declaration} {e : TypeEntry}
    {r : SymbolKind × Declaration} (h : specializeField kind d e s = .ok r t) :
    t = s ∧ s.symbols.Shapes kind d e r.1 r.2 := by
  unfold specializeField at h
  simp only [bind_eq_ok_iff, functionTypeSymbol?_eq_ok_iff] at h
  obtain ⟨o, _, ⟨rfl, ⟨hi, x, named, hx, hfind, rfl⟩ | ⟨hnone, rfl⟩⟩, hr⟩ := h
  · cases hrepeats : named.functionType? with
    | some signature =>
      rw [hrepeats] at hr
      cases hr
      exact ⟨rfl, .function hi hx hfind hrepeats⟩
    | none =>
      rw [hrepeats] at hr
      have hne : ¬(e.ty = .semanticError ∧ kind = .record) := fun h => by
        simp [h.1, Ty.isInvokable] at hi
      simp only [Option.map_none, if_neg hne] at hr
      cases hr
      refine ⟨rfl, .plain hne fun _ y hy => ?_⟩
      obtain rfl := Option.some.inj (hx.symm.trans hy)
      exact ⟨named, hfind, hrepeats⟩
  · dsimp only at hr
    split at hr
    · rename_i h
      cases hr
      exact ⟨rfl, .degraded h.1 h.2⟩
    · rename_i h
      cases hr
      refine ⟨rfl, .plain h fun hi x hx => ?_⟩
      simp [hi, hx] at hnone

/-- What the type decides becomes of a field. -/
theorem specializeField_of_shapes {kind : StructureKind} {d d' : Declaration} {e : TypeEntry}
    {k : SymbolKind} (h : s.symbols.Shapes kind d e k d') :
    specializeField kind d e s = .ok (k, d') s := by
  unfold specializeField
  simp only [bind_eq_ok_iff, functionTypeSymbol?_eq_ok_iff]
  cases h with
  | @function x named signature hi hx hfind hrepeats =>
    refine ⟨some (named, signature), s, ⟨rfl, .inl ⟨hi, x, named, hx, hfind, ?_⟩⟩, rfl⟩
    rw [hrepeats]
    rfl
  | degraded failed record =>
    refine ⟨none, s, ⟨rfl, .inr ⟨.inl (by simp [failed, Ty.isInvokable]), rfl⟩⟩, ?_⟩
    simp only [if_pos (And.intro failed record)]
    rfl
  | plain resolved unrepeated =>
    refine ⟨none, s, ⟨rfl, ?_⟩, ?_⟩
    · by_cases hi : e.ty.isInvokable
      · cases hx : e.symbol with
        | none => exact .inr ⟨.inr rfl, rfl⟩
        | some x =>
          obtain ⟨named, hfind, hother⟩ := unrepeated hi x hx
          exact .inl ⟨hi, x, named, rfl, hfind, by rw [hother]; rfl⟩
      · exact .inr ⟨.inl hi, rfl⟩
    · simp only [if_neg resolved]
      rfl

theorem specializeField_eq_ok_iff {kind : StructureKind} {d : Declaration} {e : TypeEntry}
    {r : SymbolKind × Declaration} :
    specializeField kind d e s = .ok r t ↔ t = s ∧ s.symbols.Shapes kind d e r.1 r.2 := by
  refine ⟨shapes_of_specializeField, ?_⟩
  rintro ⟨rfl, h⟩
  exact specializeField_of_shapes h

/-! ## Building a field -/

/-- A field was built after the template `f`: the cloner, if one is wanted, gave its type and left
`u`, and then its symbol was added and bound. -/
inductive Builds (ctx : Context) (cloner : Option Cloner) (plan : FieldPlan) (f : Field)
    (s : Session) : Field → Session → Prop
  | intro {v ty : TypeId} {u : Session} {k : SymbolKind} {d : Declaration} {symbols : SymbolTable}
      (type : fieldType ctx cloner plan f.ty s = .ok v u)
      (declares : Declares u.symbols u.types plan f v k d) (typed : d.ty = some ty)
      (binds : (u.symbols.add k d).2.defineIn plan.holder f.name ⟨u.symbols.symbols.size⟩ =
        .ok symbols) :
      Builds ctx cloner plan f s
        { name := f.name, writtenName := d.writtenName, ty
          symbol := some ⟨u.symbols.symbols.size⟩, span := f.span }
        { u with symbols }

/-- Fields were built after the templates, one after the other. -/
inductive BuildsAll (ctx : Context) (cloner : Option Cloner) (plan : FieldPlan) :
    List Field → Session → List Field → Session → Prop
  | nil {s : Session} : BuildsAll ctx cloner plan [] s [] s
  | cons {f f' : Field} {fs built : List Field} {s t u : Session}
      (first : Builds ctx cloner plan f s f' t) (rest : BuildsAll ctx cloner plan fs t built u) :
      BuildsAll ctx cloner plan (f :: fs) s (f' :: built) u

theorem define_eq_ok_iff {owner x : SymbolId} {name : String} :
    define owner name x s = .ok () t ↔ ∃ symbols,
      s.symbols.defineIn owner name x = .ok symbols ∧ t = { s with symbols } := by
  unfold define onSymbols
  cases h : s.symbols.defineIn owner name x <;> simp [h, eq_comm]

/-- A field is built exactly as `Builds` says. -/
theorem buildField_eq_ok_iff :
    buildField ctx cloner plan f s = .ok f' t ↔ Builds ctx cloner plan f s f' t := by
  unfold buildField
  simp only [bind_eq_ok_iff, fieldDeclaration_eq_ok_iff, implied, entry, reading_eq_ok_iff,
    specializeField_eq_ok_iff]
  constructor
  · rintro ⟨v, _, htype, _, _, ⟨rfl, o, htemplate, rfl⟩, base, _, ⟨himplied, rfl⟩, e, _,
      ⟨hfound, rfl⟩, ⟨k, d⟩, u, ⟨rfl, hshapes⟩, x, w, hx, ty, _, hty, _, w', hbinds, hf'⟩
    have hdeclares : Declares u.symbols u.types plan f v k d :=
      ⟨htemplate, himplied, hfound, hshapes⟩
    obtain ⟨ty', hty'⟩ := hdeclares.exists_ty
    cases hx
    rw [typeOf_eq (SymbolTable.find_add_self u.symbols k d) hty'] at hty
    cases hty
    obtain ⟨symbols, hdefine, rfl⟩ := define_eq_ok_iff.1 hbinds
    cases hf'
    exact .intro htype hdeclares hty' hdefine
  · rintro @⟨v, ty, u, k, d, symbols, htype, ⟨htemplate, himplied, hfound, hshapes⟩, htyped, hbinds⟩
    refine ⟨v, u, htype, _, u, ⟨rfl, _, htemplate, rfl⟩, _, u, ⟨himplied, rfl⟩, _, u, ⟨hfound, rfl⟩,
      (k, d), u, ⟨rfl, hshapes⟩, _, { u with symbols := (u.symbols.add k d).2 }, rfl, ty, _,
      typeOf_eq (SymbolTable.find_add_self u.symbols k d) htyped, (), _,
      define_eq_ok_iff (s := { u with symbols := (u.symbols.add k d).2 }).2 ⟨_, hbinds, rfl⟩, rfl⟩

/-- **Fields are built exactly as `BuildsAll` says.** -/
theorem mapM_buildField_eq_ok_iff :
    fs.mapM (buildField ctx cloner plan) s = .ok built t ↔
      BuildsAll ctx cloner plan fs s built t := by
  induction fs generalizing s built with
  | nil =>
    constructor
    · intro h
      cases h
      exact .nil
    · intro h
      cases h
      rfl
  | cons f fs ih =>
    simp only [List.mapM_cons, bind_eq_ok_iff, buildField_eq_ok_iff]
    constructor
    · rintro ⟨f', u, hfirst, built', v, hrest, h⟩
      cases h
      exact .cons hfirst (ih.1 hrest)
    · rintro h
      cases h with
      | cons hfirst hrest => exact ⟨_, _, hfirst, _, _, ih.2 hrest, rfl⟩

end Synth

end StructuralTypes

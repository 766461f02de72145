import StructuralTypes.Synthesis.Session

/-!
# Fields

`buildField` builds a field for one structure after the template of a field of another: the new
field has a symbol of its own, bound in the scope of the structure that gets it. `buildFields` does
so for all fields of a structure, in order.

A field may be asked to be readonly. Its type is then the readonly variant of the template's type,
which a `Cloner` provides; the cloner in turn builds the fields of the clones of structures.

Two kinds of type show in the symbol: a field of a function type is a function without a body, and a
record field whose type failed to resolve degrades to an optional field without values.

* `buildField` is `synthesize_field`, in the parts `fieldType`, `fieldDeclaration` and
  `specializeField`; its `FieldPlan` is `FieldRequest`.
* `buildFields` is `populate_fields`, with `setFields` and `sourceReference` for what it does when
  all fields are built; its `Population` is `PopulateRequest`.
* A `Cloner` is an `ImmutableTypeCloner`, any of them, and a `Stamp` is what a `CloneRequest` has
  besides the type, the environment and the clones in progress.

Left out is what is logged.
-/

namespace StructuralTypes

/-- What the symbols of all clones made on one occasion have in common. -/
structure Stamp where
  /-- Their place. -/
  span : Span
  /-- The package that they belong to. -/
  package : PackageId
  /-- The owner of the clones' symbols. -/
  owner : SymbolId
deriving DecidableEq, Repr

/-- Something that finds or makes the readonly variant of a type. -/
abbrev Cloner := Stamp → TypeId → Synth TypeId

/-- What the fields built for one structure have in common. -/
structure FieldPlan where
  /-- The type symbol of the structure that gets the fields. -/
  holder : SymbolId
  /-- The kind of that structure. -/
  kind : StructureKind
  /-- The package that the field symbols belong to. -/
  package : PackageId
  /-- The place of what is cloned for the fields. -/
  span : Span := {}
  /-- Modifiers for every field on top of its own. -/
  flags : Flags := ∅
  /-- Whether the fields become readonly. -/
  immutable : Bool := false
deriving DecidableEq, Repr

namespace Synth

/-- The type of a field built after a template of type `ty`. -/
def fieldType (ctx : Context) (cloner : Option Cloner) (plan : FieldPlan) (ty : TypeId) :
    Synth TypeId :=
  if plan.immutable then
    match cloner with
    | some clone => clone { span := plan.span, package := plan.package, owner := ctx.scopeOwner } ty
    | none => fail .clonerMissing
  else return ty

/-- The declaration of a field of type `ty`. What the user wrote is taken over from the symbol of
the template, or from the template itself if it has no symbol. -/
def fieldDeclaration (plan : FieldPlan) (template : Field) (ty : TypeId) : Synth Declaration := do
  let d : Declaration :=
    { name := template.name, writtenName := template.writtenName, package := plan.package
      flags := plan.flags, span := template.span, ty := some ty, owner := some plan.holder }
  match template.symbol with
  | none => return d
  | some s =>
    let s ← symbol s
    return { d with
      writtenName := s.writtenName, flags := s.flags ∪ plan.flags, origin := s.origin
      span := s.span }

/-- The symbol of a function type, if the type is one and a symbol repeats its signature. -/
def functionTypeSymbol? (e : TypeEntry) : Synth (Option (Symbol × Signature)) := do
  match e.ty, e.symbol with
  | .invokable .., some s =>
    let s ← symbol s
    return s.functionType?.map (s, ·)
  | _, _ => return none

/-- The kind and the declaration of a field symbol, given what its type stands for. The modifiers of
a function type's symbol replace those of the field. -/
def specializeField (kind : StructureKind) (d : Declaration) (e : TypeEntry) :
    Synth (SymbolKind × Declaration) := do
  match ← functionTypeSymbol? e with
  | some (s, signature) =>
    return (.function { toSignature := signature }, { d with flags := s.flags })
  | none =>
    if e.ty = .semanticError ∧ kind = .record then
      let flags := d.flags ∪ .only .optional
      return (.variable, { d with flags, ty := some Builtin.never })
    else return (.variable, d)

/-- Build a field, and its symbol, after a template. -/
def buildField (ctx : Context) (cloner : Option Cloner) (plan : FieldPlan) (template : Field) :
    Synth Field := do
  let ty ← fieldType ctx cloner plan template.ty
  let inherited ← fieldDeclaration plan template ty
  let (kind, d) ← specializeField plan.kind inherited (← entry (← implied ty))
  let s ← addSymbol kind d
  let ty ← typeOf s
  define plan.holder template.name s
  return {
    name := template.name, writtenName := d.writtenName, ty, symbol := some s
    span := template.span }

end Synth

/-- How the fields of one structure are to be taken over into another. -/
structure Population where
  /-- The structure that gets the fields. -/
  target : TypeId
  /-- The structure that has them. -/
  source : TypeId
  /-- The package that the field symbols belong to. -/
  package : PackageId
  /-- The place of what is made on the way. -/
  span : Span := {}
  /-- Modifiers for every field on top of its own. -/
  flags : Flags := ∅
  /-- Whether the fields become readonly. -/
  immutable : Bool := false
deriving DecidableEq, Repr

namespace Synth

/-- Replace the fields of a structure. -/
def setFields (ty : TypeId) (fields : List Field) : Synth Unit :=
  changeType ty fun e =>
    { e with ty := e.ty.mapFields fun _ => .ofList (fields.map fun f => (f.name, f)) }

/-- The reference by which a readonly record includes the record that it was made from. -/
def sourceReference (span : Span) (source : TypeId) : Synth TypeReference := do
  let named ← symbol (← symbolOf source)
  let qualifier ← qualifierFor named.package
  return { qualifier := ⟨qualifier, span⟩, name := ⟨named.name, span⟩, ty := some source, span }

/-- Build every field of the source anew in the target, in order, and give back the node of the
target. The node of a readonly record gets a reference to the source; objects cannot include the
fields of another type. -/
def buildFields (ctx : Context) (cloner : Option Cloner) (p : Population)
    (node : StructureNode) : Synth StructureNode := do
  let sourceKind ← kindOf p.source
  let kind ← kindOf p.target
  let holder ← symbolOf p.target
  let templates ← fieldsOf p.source
  let plan : FieldPlan :=
    { holder, kind, package := p.package, span := p.span, flags := p.flags
      immutable := p.immutable }
  let built ← templates.values.mapM (buildField ctx cloner plan)
  setFields p.target built
  if sourceKind = .record ∧ p.immutable then
    let reference ← sourceReference p.span p.source
    return { node with references := node.references ++ [reference] }
  else return node

end Synth

end StructuralTypes

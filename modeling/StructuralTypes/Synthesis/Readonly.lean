import StructuralTypes.Synthesis.Definition
import StructuralTypes.Synthesis.Initializer

/-!
# Readonly variants

The readonly variant of a type has the same shape, but none of its values can be written to. A type
that is readonly already is its own variant. Of a record or object a clone is made, with readonly
fields, an initializer and a definition of its own; maps and unions are rebuilt from the variants of
their parts; references are followed. Placeholders and circular references have no variant.

Structures may contain themselves. While the clone of a structure is being filled it is *pending*,
and the structure, met again inside itself, leads to the unfinished clone. Finished variants are
remembered, so each is made once.

`cloneStep` makes one variant, given how to make those of the parts, and `readonlyWithin` nests it
up to a depth. Only structures are ever pending: a map or union that contains itself with no
structure in between makes the search endless. A search that ends meets no map or union twice
between two pending structures on its way down, so `cloneDepth` is deep enough for it.

Modelled is `ReadonlyCloner`:
* `readonlyVariant` is `immutable_type`, as deep as it goes; `cloneStep` is one call of it, in which
  `clone_member` is the cloner itself, called with the same stamp;
* `knownVariant?` looks in `InProgress` and then in what is `cached`, and `variantAtHand?` is how a
  call begins, for the type and for the type that it implies;
* `makeVariant?` is the rest of a call, by the kind of the type;
* `makeClone` is `clone_structure`, in which `openClone` is what comes before `fill_structure` and
  `fillClone` is `fill_structure`; the `Blueprint` is what is read off the structure;
* `addReadonly` is `alloc_readonly`, and `cloneName` the name that a clone gets.

Left out is what is logged.
-/

namespace StructuralTypes

namespace Synth

/-! ## Clones of structures -/

/-- Add a readonly type without a symbol, with the other flags of `source`. -/
def addReadonly (source : TypeId) (ty : Ty) : Synth TypeId := do
  let e ← entry source
  addType { ty, flags := e.flags ∪ .only .readonly }

/-- The name of the clone of the structure that a symbol names. -/
def cloneName (stamp : Stamp) (named : Symbol) : Synth String :=
  if named.name.isEmpty || named.flags.contains (.only .anonymous) then
    nextName .anonymousType stamp.package
  else return "(" ++ named.name ++ " & readonly)"

/-- What is cloned of a structure. -/
structure Blueprint where
  /-- The kind of the structure. -/
  kind : StructureKind
  /-- Whether it has its declared fields only. -/
  sealed : Bool
  /-- The type of its undeclared fields. -/
  rest : Option TypeId
deriving DecidableEq, Repr

/-- The structure without fields that a clone starts as. -/
def Blueprint.shell (b : Blueprint) : Ty :=
  match b.kind with
  | .record => .record { sealed := b.sealed }
  | .object => .object ∅

/-- The node of a clone as a type node of the right kind. -/
def Blueprint.node (b : Blueprint) (node : StructureNode) : TypeNode :=
  match b.kind with
  | .record => .record node
  | .object => .object node

/-- Make the clone of a structure, still without fields, together with its symbol and scope. -/
def openClone (stamp : Stamp) (source : TypeId) (named : Symbol) (b : Blueprint) :
    Synth (TypeId × SymbolId) := do
  let name ← cloneName stamp named
  let clone ← addReadonly source b.shell
  let s ← addSymbol (.type {})
    { name, package := stamp.package, flags := named.flags ∪ .only .readonly, origin := .virtual
      span := stamp.span, ty := some clone, owner := some stamp.owner }
  let _ ← openScope s
  changeType clone fun e => { e with symbol := some s }
  return (clone, s)

/-- Fill the clone of a structure with readonly fields, decide the type of its undeclared fields,
and give back its node. -/
def fillClone (ctx : Context) (cloner : Cloner) (stamp : Stamp) (source : TypeId) (b : Blueprint)
    (clone : TypeId) (s : SymbolId) : Synth StructureNode := do
  let node ← buildFields ctx (some cloner)
    { target := clone, source, package := stamp.package, span := stamp.span
      flags := .only .readonly, immutable := true }
    { span := stamp.span, ty := some clone, symbol := some s }
  match b.rest with
  | some rest =>
    let rest ← cloner stamp rest
    changeType clone fun e => { e with ty := e.ty.withRest rest }
  | none => pure ()
  let fields ← fieldDeclarations clone stamp.package
  return { node with fields }

/-- Clone a structure: fill the clone while it is pending, then give it an initializer and register
its definition. -/
def makeClone (ctx : Context) (cloner : Cloner) (stamp : Stamp) (source : TypeId) (b : Blueprint) :
    Synth TypeId := do
  let named ← symbol (← symbolOf source)
  let (clone, s) ← openClone stamp source named b
  let node ← whilePending source clone (fillClone ctx cloner stamp source b clone s)
  let (_, node) ← attachInitializer ctx { node with sealed := b.sealed }
  let _ ← registerDefinition clone s (b.node node)
  return clone

/-! ## The variant of any type -/

/-- The variant that is known for a type: its unfinished clone, or the remembered one. -/
def knownVariant? (ty : TypeId) : Synth (Option TypeId) :=
  reading fun s => .ok (s.pending.get? ty <|> s.memo.get? ty)

/-- The variant of `ty` that need not be made, as far as `base` tells, which `ty` stands for: the
one known for `base`, or `ty` itself if `base` is readonly. -/
def variantAtHand? (ty base : TypeId) : Synth (Option TypeId) := do
  match ← knownVariant? base with
  | some variant => return some variant
  | none => return if ← isReadonly base then some ty else none

/-- Make the variant of `ty`, which stands for `base`. Gives nothing back if `ty` needs none. -/
def makeVariant? (ctx : Context) (cloner : Cloner) (stamp : Stamp) (ty base : TypeId) :
    Synth (Option TypeId) := do
  match (← entry base).ty with
  | .placeholder => fail (.notClonable ty .errorDetailPlaceholder)
  | .ref _ => fail (.notClonable ty .unresolvedReference)
  | .record r => some <$> makeClone ctx cloner stamp base ⟨.record, r.sealed, r.rest⟩
  | .object _ => some <$> makeClone ctx cloner stamp base ⟨.object, false, none⟩
  | .map constraint =>
    let constraint ← cloner stamp constraint
    some <$> addReadonly base (.map constraint)
  | .union members =>
    let members ← members.mapM (cloner stamp)
    some <$> addReadonly base (.union members)
  | .any => some <$> addReadonly base .any
  | .anydata => some <$> addReadonly base .anydata
  | _ => return none

/-- Find or make the readonly variant of a type, given how to do so for the types below it. A
variant is remembered both for the type and for what the type stands for. -/
def cloneStep (ctx : Context) (cloner : Cloner) (stamp : Stamp) (ty : TypeId) : Synth TypeId := do
  match ← variantAtHand? ty ty with
  | some variant => return variant
  | none =>
    let base ← implied ty
    match ← variantAtHand? ty base with
    | some variant => return variant
    | none =>
      match ← makeVariant? ctx cloner stamp ty base with
      | none => return ty
      | some variant =>
        remember base variant
        remember ty variant
        return variant

/-- The readonly variant of a type, going at most `fuel` types down. -/
def readonlyWithin (ctx : Context) : (fuel : Nat) → Cloner
  | 0, _, _ => stop .unending
  | fuel + 1, stamp, ty => cloneStep ctx (readonlyWithin ctx fuel) stamp ty

/-- A depth that no search which ends can exceed, for a table of `types` types. -/
def cloneDepth (types : Nat) : Nat := (types + 1) * (types + 1) + 1

/-- The readonly variant of a type. -/
def readonlyVariant (ctx : Context) : Cloner := fun stamp ty s =>
  readonlyWithin ctx (cloneDepth s.types.entries.size) stamp ty s

end Synth

end StructuralTypes

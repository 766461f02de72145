import StructuralTypes.Synthesis.Field

/-!
# Definitions

Puts together the nodes of finished types and registers the definitions that hold them. A definition
takes its name, modifiers and place from the symbol that it is registered under.

The node of an error type refers to its detail by name. A map detail has no name of its own; its
place is taken by a placeholder, which `TypeNode.bindDetail?` replaces later.

* `draftDefinition` is `definition_for`, and `registerDefinition` is `add_type_definition` in an
  environment; without one, the draft is all there is.
* `registerSynthesizedDefinition` is `add_synthesized_type_definition`.
* `fieldDeclarations` is `build_field_declarations`, one `fieldDeclarationNode` for each field.
* `recordNode` and `objectNode` are `create_record_type_node` and `create_object_type_node`.
* `registerClassOf` is `create_class_definition`.
* `errorNode` is `build_error_type_node`, with `errorDetail` for the type of the detail,
  `errorDetailReferenceName` for the name it goes by and `placeholderDetail` for that of a map.
* `registerAnonymousRecord` is `create_anonymous_record_definition`, which first makes the
  `anonymousDefinitionSymbol`.

Left out is what is logged.
-/

namespace StructuralTypes

/-- The name that stands in for the detail record of an intersected error. -/
def errorDetailName : String := "$IntersectedErrorDetail$"

namespace Synth

/-! ## Type definitions -/

/-- The definition of a type under a symbol, not registered anywhere. -/
def draftDefinition (ty : TypeId) (s : SymbolId) (node : TypeNode) : Synth TypeDefinition := do
  let named ← symbol s
  return {
    name := ⟨named.name, named.span⟩, ty := some ty, symbol := s, node, flags := named.flags
    span := named.span }

/-- Register the definition of a type under a symbol. -/
def registerDefinition (ty : TypeId) (s : SymbolId) (node : TypeNode) : Synth Nat := do
  registerType (← draftDefinition ty s node)

/-- Register the definition of a type under a new symbol that is declared as `template` is. The
symbol of the type, if it has one, links to the new symbol. -/
def registerSynthesizedDefinition (ty : TypeId) (template : SymbolId) (node : TypeNode) :
    Synth Nat := do
  let d := (← symbol template).toDeclaration
  let s ← addSymbol .typeDefinition { d with ty := some ty }
  let _ ← openScope s
  match (← entry ty).symbol with
  | some named => changeSymbol named (.mapTypeLinks fun info => { info with definition := some s })
  | none => pure ()
  registerDefinition ty s node

/-! ## Structure nodes -/

/-- The declaration of a field. A field without a symbol gets one. -/
def fieldDeclarationNode (package : PackageId) (f : Field) : Synth VariableNode := do
  let made : Declaration :=
    { name := f.name, package, flags := .only .exported, origin := .virtual, span := f.span
      ty := some Builtin.pure }
  let s ← f.symbol.elim (addSymbol .variable made) pure
  return { name := ⟨(← symbol s).name, f.span⟩, ty := f.ty, symbol := s, span := f.span }

/-- The declarations of the fields of a structure, in order. -/
def fieldDeclarations (ty : TypeId) (package : PackageId) : Synth (List VariableNode) := do
  (← fieldsOf ty).values.mapM (fieldDeclarationNode package)

/-- A new node for a record type. -/
def recordNode (ty : TypeId) (package : PackageId) (span : Span) : Synth StructureNode := do
  requireRecord ty
  let fields ← fieldDeclarations ty package
  return { span, ty := some ty, symbol := (← entry ty).symbol, fields }

/-- A new node for an object type, which has to have a symbol. -/
def objectNode (ty : TypeId) (span : Span) : Synth StructureNode := do
  requireObject ty
  let s ← symbolOf ty
  let fields ← fieldDeclarations ty (← symbol s).package
  return { span, ty := some ty, symbol := some s, fields }

/-- Register the class of a symbol whose type is an object type. -/
def registerClassOf (span : Span) (classSymbol : SymbolId) : Synth Nat := do
  let ty ← typeOf classSymbol
  requireObject ty
  let fields ← fieldDeclarations ty (← symbol classSymbol).package
  registerClass { span, ty, symbol := classSymbol, fields }

/-! ## Error nodes -/

/-- The type of the detail of an error type. -/
def errorDetail (ty : TypeId) : Synth TypeId := do
  match (← entry (← implied ty)).ty with
  | .error detail => implied detail
  | _ => fail (.wrongType ty .error)

/-- The name of the symbol of a type, or the empty name if no symbol names it. -/
def nameOrEmpty (e : TypeEntry) : Synth String := do
  match e.symbol with
  | some s => return (← symbol s).name
  | none => return ""

/-- The name by which an error's detail is referred to; a detail without a name is given one. -/
def errorDetailReferenceName (e : TypeEntry) : Synth String := do
  let name ← nameOrEmpty e
  if name.isEmpty then nextName .errorDetail (← packageId) else return name

/-- The node of a map detail: a map of a placeholder. -/
def placeholderDetail (span : Span) : TypeNode :=
  .constrained span (.mapConstructor span) <| .reference
    { qualifier := .unnamed span, name := ⟨errorDetailName, span⟩, ty := some Builtin.errorDetail
      span }

/-- The node of an error type. -/
def errorNode (ty : TypeId) (span : Span) : Synth TypeNode := do
  let detail ← errorDetail ty
  let e ← entry detail
  match e.ty with
  | .map _ => return .error span (some ty) (placeholderDetail span)
  | _ =>
    let name ← errorDetailReferenceName e
    return .error span (some ty) <| .reference
      { qualifier := .unnamed span, name := ⟨name, span⟩, ty := some detail, span }

/-! ## Anonymous records -/

/-- Make the definition symbol of an anonymous record, which is declared in the scope owner's
package and binds its own name. -/
def anonymousDefinitionSymbol (ctx : Context) (ty : TypeId) (record : Symbol) (package : PackageId)
    (span : Span) : Synth SymbolId := do
  let s ← addSymbol .typeDefinition
    { name := record.name, package, flags := record.flags, origin := .virtual, span, ty := some ty
      owner := some ctx.scopeOwner }
  let _ ← openScope s
  define s record.name s
  return s

/-- Register an anonymous record as a sealed definition of its own. The record's symbol starts over
with an empty scope, in which the fields are built anew as required ones. -/
def registerAnonymousRecord (ctx : Context) (ty : TypeId) (span : Span) : Synth Nat := do
  requireRecord ty
  let recordSymbol ← symbolOf ty
  let record ← symbol recordSymbol
  let package := (← symbol ctx.scopeOwner).package
  let definitionSymbol ← anonymousDefinitionSymbol ctx ty record package span
  let _ ← openScope recordSymbol
  changeSymbol recordSymbol fun s => { s with ty := some ty }
  changeTypeLinks recordSymbol .definitionLink fun info =>
    { info with definition := some definitionSymbol }
  let node ← buildFields ctx none
    { target := ty, source := ty, package, span, flags := .only .required }
    { span, ty := some ty, symbol := some recordSymbol }
  let fields ← fieldDeclarations ty package
  changeType ty fun e => { e with ty := e.ty.withRest Builtin.absent }
  registerType {
    name := ⟨record.name, span⟩, ty := some ty, symbol := definitionSymbol
    node := .record { node with fields, sealed := true, analyzed := true }
    flags := .only .exported ∪ .only .anonymous, span }

end Synth

end StructuralTypes

import StructuralTypes.Synthesis.Session

/-!
# Initializers

Every structure has a function that initializes its values. It is called on a receiver of the
structure's type, takes no parameters, and is named after the structure. The structure's scope binds
it and the structure's type symbol records it.

`createInitializer` is `create_init_function`, with the `InitializerPlan` for its arguments, and
`attachInitializer` is `create_structure_init_function`. Left out is what is logged.
-/

namespace StructuralTypes

/-- An initializer to be made. -/
structure InitializerPlan where
  /-- The structure type. -/
  ty : TypeId
  /-- The symbol that owns the initializer. -/
  owner : SymbolId
  /-- What its name ends in. -/
  suffix : String
  /-- The type of its result. -/
  returns : TypeId
  /-- Its place. -/
  span : Span := {}
deriving DecidableEq, Repr

namespace Synth

/-- Make the receiver variable, the function type, the function and the symbol of the function type,
in this order, and tie them together. The function's scope binds the receiver. -/
def createInitializer (ctx : Context) (plan : InitializerPlan) : Synth FunctionNode := do
  let package ← packageId
  let name := attachedName (← nameOf plan.ty) plan.suffix
  let receiverName := ctx.settings.receiverName
  let receiver ← addSymbol .variable
    { name := receiverName, package, origin := .virtual, span := plan.span, ty := some plan.ty }
  let ty ← addType { ty := .invokable [] none plan.returns }
  let d : Declaration :=
    { name, package, flags := .only .attached, origin := .virtual, span := plan.span, ty := some ty
      owner := some plan.owner }
  let function ← addSymbol (.function { hasBody := true }) d
  let _ ← openScope function
  define function receiverName receiver
  changeSymbol function <| .mapFunction fun info =>
    { info with receiver := some receiver, returns := some plan.returns }
  changeSymbol receiver fun s => { s with owner := some function }
  let tySymbol ← addSymbol (.functionType { returns := some plan.returns })
    { d with owner := some function }
  changeType ty fun e => { e with symbol := some tySymbol }
  let receiverNode : VariableNode :=
    { name := ⟨receiverName, plan.span⟩, ty := plan.ty, symbol := receiver, span := plan.span }
  return {
    name := ⟨name, plan.span⟩, symbol := function, ty, receiver := some receiverNode
    returns := plan.returns, flags := .only .attached, attached := true, span := plan.span }

/-- Give the structure of a node its initializer, under the settings' suffix and result. Gives back
the function's symbol and the node with the function in it. -/
def attachInitializer (ctx : Context) (node : StructureNode) :
    Synth (SymbolId × StructureNode) := do
  match node.ty with
  | none => fail .untypedNode
  | some ty =>
    let owner ← node.symbol.elim (symbolOf ty) pure
    let returns := ctx.settings.initializerReturns.getD Builtin.nil
    let f ← createInitializer ctx
      { ty, owner, suffix := ctx.settings.initializerSuffix, returns, span := node.span }
    define owner f.name.name f.symbol
    let attached : InitializerLink :=
      { name := f.name.name, symbol := f.symbol, ty := f.ty, span := f.span }
    changeTypeLinks owner .initializerHolder fun info => { info with initializer := some attached }
    return (f.symbol, { node with initializer := some f })

end Synth

end StructuralTypes

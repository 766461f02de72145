import StructuralTypes.Proofs.Outcome
import StructuralTypes.Synthesis.Initializer

/-!
# What an initializer consists of

Making an initializer adds three symbols, a scope and a function type, and ties them together. The
steps write to what was added just before, so all of it can be said at once: `initializerSession`
is the session with the initializer in it, and nothing that was there is changed.

Results:
* **`createInitializer_eq`**: a type with a name gets an initializer.
-/

namespace StructuralTypes

namespace Synth

variable {s : Session} {plan : InitializerPlan} {name : String}

/-- What the function symbol and the symbol of the function type have in common. -/
def initializerDeclaration (s : Session) (plan : InitializerPlan) (name : String) : Declaration :=
  { name := attachedName name plan.suffix, package := s.package.id, flags := .only .attached
    origin := .virtual, span := plan.span, ty := some ⟨s.types.entries.size⟩ }

/-- The variable that the initializer of a type with a name is called on. -/
def receiverSymbol (s : Session) (ctx : Context) (plan : InitializerPlan) : Symbol :=
  { name := ctx.settings.receiverName, package := s.package.id, origin := .virtual
    span := plan.span, ty := some plan.ty, owner := some ⟨s.symbols.symbols.size + 1⟩
    id := ⟨s.symbols.symbols.size⟩, kind := .variable }

/-- The function. -/
def initializerSymbol (s : Session) (plan : InitializerPlan) (name : String) : Symbol :=
  { initializerDeclaration s plan name with
    owner := some plan.owner, id := ⟨s.symbols.symbols.size + 1⟩
    kind := .function
      { hasBody := true, receiver := some ⟨s.symbols.symbols.size⟩, returns := some plan.returns }
    scope := some ⟨s.symbols.scopes.size⟩ }

/-- The symbol of the function type. -/
def initializerTypeSymbol (s : Session) (plan : InitializerPlan) (name : String) : Symbol :=
  { initializerDeclaration s plan name with
    owner := some ⟨s.symbols.symbols.size + 1⟩, id := ⟨s.symbols.symbols.size + 2⟩
    kind := .functionType { returns := some plan.returns } }

/-- The scope of the function, which binds the receiver. -/
def initializerScope (s : Session) (ctx : Context) : Scope :=
  { id := ⟨s.symbols.scopes.size⟩, owner := ⟨s.symbols.symbols.size + 1⟩
    bindings := (∅ : OrderedMap String SymbolId).insert ctx.settings.receiverName
      ⟨s.symbols.symbols.size⟩ }

/-- The session with the initializer of a type with a name. -/
def initializerSession (s : Session) (ctx : Context) (plan : InitializerPlan) (name : String) :
    Session :=
  { s with
    symbols :=
      { symbols := ((s.symbols.symbols.push (receiverSymbol s ctx plan)).push
          (initializerSymbol s plan name)).push (initializerTypeSymbol s plan name)
        scopes := s.symbols.scopes.push (initializerScope s ctx) }
    types := ⟨s.types.entries.push
      { ty := .invokable [] none plan.returns, symbol := some ⟨s.symbols.symbols.size + 2⟩ }⟩ }

/-- Nothing that was there is changed. -/
theorem grows_initializerSession (s : Session) (ctx : Context) (plan : InitializerPlan)
    (name : String) : Grows s.symbols.symbols (initializerSession s ctx plan name).symbols.symbols ∧
      Grows s.symbols.scopes (initializerSession s ctx plan name).symbols.scopes ∧
      s.types.Grows (initializerSession s ctx plan name).types :=
  ⟨((Grows.push _ _).trans (.push _ _)).trans (.push _ _), .push _ _, Grows.push _ _⟩

/-- The receiver is the first of the new symbols. -/
theorem find_receiverSymbol (s : Session) (ctx : Context) (plan : InitializerPlan) (name : String) :
    (initializerSession s ctx plan name).symbols.find ⟨s.symbols.symbols.size⟩ =
      .ok (receiverSymbol s ctx plan) := by
  simp only [SymbolTable.find_eq_ok_iff, initializerSession, Array.getElem?_push, Array.size_push]
  simp [Nat.ne_of_lt (Nat.lt_succ_of_lt (Nat.lt_succ_self _))]

/-- The function is the second one. -/
theorem find_initializerSymbol (s : Session) (ctx : Context) (plan : InitializerPlan)
    (name : String) :
    (initializerSession s ctx plan name).symbols.find ⟨s.symbols.symbols.size + 1⟩ =
      .ok (initializerSymbol s plan name) := by
  simp only [SymbolTable.find_eq_ok_iff, initializerSession, Array.getElem?_push, Array.size_push]
  simp

/-- The symbol of the function type is the last one. -/
theorem find_initializerTypeSymbol (s : Session) (ctx : Context) (plan : InitializerPlan)
    (name : String) :
    (initializerSession s ctx plan name).symbols.find ⟨s.symbols.symbols.size + 2⟩ =
      .ok (initializerTypeSymbol s plan name) := by
  simp only [SymbolTable.find_eq_ok_iff, initializerSession, Array.getElem?_push, Array.size_push]
  simp

/-- The node of the initializer. -/
def initializerNode (s : Session) (ctx : Context) (plan : InitializerPlan) (name : String) :
    FunctionNode :=
  { name := ⟨attachedName name plan.suffix, plan.span⟩, symbol := ⟨s.symbols.symbols.size + 1⟩
    ty := ⟨s.types.entries.size⟩
    receiver := some
      { name := ⟨ctx.settings.receiverName, plan.span⟩, ty := plan.ty
        symbol := ⟨s.symbols.symbols.size⟩, span := plan.span }
    returns := plan.returns, flags := .only .attached, attached := true, span := plan.span }

/-- **A type with a name gets an initializer.** -/
theorem createInitializer_eq (ctx : Context) (hname : nameOf plan.ty s = .ok name s) :
    createInitializer ctx plan s =
      .ok (initializerNode s ctx plan name) (initializerSession s ctx plan name) := by
  have hlast : ∀ {α : Type} (a : Array α) (x y : α), ((a.push x).push y)[a.size]? = some x := by
    intro α a x y
    rw [Array.getElem?_push, if_neg (by simp), Array.getElem?_push_size]
  unfold createInitializer
  refine bind_eq_ok_iff.2 ⟨_, s, rfl, bind_eq_ok_iff.2 ⟨name, s, hname, ?_⟩⟩
  -- the receiver, the function type and the function are added
  refine bind_eq_ok_iff.2 ⟨_, _, rfl, bind_eq_ok_iff.2 ⟨_, _, rfl, ?_⟩⟩
  refine bind_eq_ok_iff.2 ⟨_, _, rfl, ?_⟩
  -- the function gets a scope for the receiver
  refine bind_eq_ok_iff.2 ⟨_, _, openScope_eq (SymbolTable.find_add_self _ _ _), ?_⟩
  simp only [Grows.setIfInBounds_push]
  refine bind_eq_ok_iff.2 ⟨_, _, define_eq (SymbolTable.find_eq_ok_iff.2 Array.getElem?_push_size)
    rfl (SymbolTable.findScope_eq_ok_iff.2 Array.getElem?_push_size) (by simp), ?_⟩
  simp only [Grows.setIfInBounds_push]
  -- both are linked to each other
  refine bind_eq_ok_iff.2 ⟨_, _,
    changeSymbol_eq (SymbolTable.find_eq_ok_iff.2 Array.getElem?_push_size) _, ?_⟩
  simp only [Grows.setIfInBounds_push]
  refine bind_eq_ok_iff.2 ⟨_, _,
    changeSymbol_eq (SymbolTable.find_eq_ok_iff.2 (hlast s.symbols.symbols _ _)) _, ?_⟩
  rw [Grows.setIfInBounds_push_of_lt (by simp), Grows.setIfInBounds_push]
  -- the function type gets a symbol
  refine bind_eq_ok_iff.2 ⟨_, _, rfl, bind_eq_ok_iff.2 ⟨_, _,
    changeType_eq (TypeTable.find_eq_ok_iff.2 Array.getElem?_push_size) _, ?_⟩⟩
  simp only [Grows.setIfInBounds_push, Array.size_push]
  rfl

end Synth

end StructuralTypes

/-!
# Handles

Symbols, scopes and types live in tables and are named by their position there; a package is named
by a number of its own. Each kind of handle is a type by itself, so a scope cannot be looked up as
a symbol. The written form of a handle is its kind, a hash sign and its number.

Modelled are `SymbolId`, `ScopeId`, `TypeId` and `PackageId`, with the texts that they are shown as.
Left out is the width of 32 bits: no table gets that long.
-/

namespace StructuralTypes

/-- Names a symbol of a symbol table. -/
structure SymbolId where
  /-- The position in the table. -/
  index : Nat
deriving DecidableEq, Repr, Inhabited

/-- Names a scope of a symbol table. -/
structure ScopeId where
  /-- The position in the table. -/
  index : Nat
deriving DecidableEq, Repr, Inhabited

/-- Names a type of a type table. -/
structure TypeId where
  /-- The position in the table. -/
  index : Nat
deriving DecidableEq, Repr, Inhabited

/-- Names a package. -/
structure PackageId where
  /-- The number of the package. -/
  number : Nat
deriving DecidableEq, Repr, Inhabited

/-- The written form of a symbol handle. -/
def SymbolId.render (s : SymbolId) : String := "sym#" ++ s.index.repr

/-- The written form of a scope handle. -/
def ScopeId.render (s : ScopeId) : String := "scope#" ++ s.index.repr

/-- The written form of a type handle. -/
def TypeId.render (t : TypeId) : String := "type#" ++ t.index.repr

/-- The written form of a package handle. -/
def PackageId.render (p : PackageId) : String := "pkg#" ++ p.number.repr

instance : ToString SymbolId := ⟨SymbolId.render⟩

instance : ToString ScopeId := ⟨ScopeId.render⟩

instance : ToString TypeId := ⟨TypeId.render⟩

instance : ToString PackageId := ⟨PackageId.render⟩

end StructuralTypes

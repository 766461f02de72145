import StructuralTypes.Flags
import StructuralTypes.Handle
import StructuralTypes.Source

/-!
# Symbols

A symbol is a named entity of a program: a variable, a function, a named type or a type
definition. What every symbol has is its `Declaration`; what only one kind has is in `SymbolKind`.

`Declaration` and `Symbol` are `SymbolDecl` and `Symbol`. Of the data of the kinds, `FunctionSpec`
is `FunctionInfo`, `Signature` is `InvokableInfo`, `TypeLinks` is `TypeSymbolInfo` and
`InitializerLink` is `AttachedFunction`; `function?`, `functionType?` and `typeLinks?` are
`function`, `invokable` and `type_info`, and what is written through `function_mut` and
`type_info_mut` is written by `mapFunction` and `mapTypeLinks`. `attachedName` is
`attached_func_symbol_name`.
-/

namespace StructuralTypes

/-- Who made a symbol up. -/
inductive Origin
  /-- The user wrote it. -/
  | source
  /-- The compiler added it. -/
  | virtual
deriving DecidableEq, Repr, Inhabited

/-- The parameters and result of something that can be called. -/
structure Signature where
  /-- The parameters, in order. -/
  params : List SymbolId := []
  /-- The parameter that takes all further arguments. -/
  rest : Option SymbolId := none
  /-- The type of the result, once known. -/
  returns : Option TypeId := none
deriving DecidableEq, Repr, Inhabited

/-- What only a function has. -/
structure FunctionSpec extends Signature where
  /-- The variable that an attached function is called on. -/
  receiver : Option SymbolId := none
  /-- Whether the function is defined where it is declared. -/
  hasBody : Bool := false
deriving DecidableEq, Repr, Inhabited

/-- The initializer that belongs to a structure type. -/
structure InitializerLink where
  /-- The name under which the structure's scope binds it. -/
  name : String
  /-- Its function symbol. -/
  symbol : SymbolId
  /-- Its type. -/
  ty : TypeId
  /-- Its place. -/
  span : Span
deriving DecidableEq, Repr

/-- What only the symbol of a named type has. -/
structure TypeLinks where
  /-- The initializer of the structure, once it has one. -/
  initializer : Option InitializerLink := none
  /-- The symbol of the definition of the type. -/
  definition : Option SymbolId := none
deriving DecidableEq, Repr, Inhabited

/-- The kinds of symbol, with what each has of its own. -/
inductive SymbolKind
  /-- A variable, a field or a parameter. -/
  | variable
  /-- A function. -/
  | function (info : FunctionSpec)
  /-- The symbol of a function type, which repeats its signature. -/
  | functionType (signature : Signature)
  /-- The symbol of a named type. -/
  | type (info : TypeLinks)
  /-- A definition that gives a type its name. -/
  | typeDefinition
deriving DecidableEq, Repr

/-- The name of a kind. -/
def SymbolKind.describe : SymbolKind → String
  | .variable => "variable"
  | .function _ => "function"
  | .functionType _ => "function type"
  | .type _ => "type"
  | .typeDefinition => "type definition"

/-- What every symbol has from the start. -/
structure Declaration where
  /-- The name. -/
  name : String
  /-- The name as first written, kept for messages to the user. -/
  writtenName : String := name
  /-- The package that declares the symbol. -/
  package : PackageId
  /-- Its modifiers. -/
  flags : Flags := ∅
  /-- Who made it up. -/
  origin : Origin := .source
  /-- Its place. -/
  span : Span
  /-- Its type, once known. -/
  ty : Option TypeId := none
  /-- The symbol that it is declared in. -/
  owner : Option SymbolId := none
deriving DecidableEq, Repr

/-- A named entity of a program. -/
structure Symbol extends Declaration where
  /-- Its own handle. -/
  id : SymbolId
  /-- Its kind. -/
  kind : SymbolKind
  /-- The scope of the names that it introduces, if it introduces any. -/
  scope : Option ScopeId := none
deriving DecidableEq, Repr

namespace Symbol

/-- What a function has of its own. -/
def function? (s : Symbol) : Option FunctionSpec :=
  match s.kind with
  | .function info => some info
  | _ => none

/-- The signature that the symbol of a function type repeats. -/
def functionType? (s : Symbol) : Option Signature :=
  match s.kind with
  | .functionType signature => some signature
  | _ => none

/-- What the symbol of a named type has of its own. -/
def typeLinks? (s : Symbol) : Option TypeLinks :=
  match s.kind with
  | .type info => some info
  | _ => none

theorem typeLinks?_eq_some_iff {s : Symbol} {info : TypeLinks} :
    s.typeLinks? = some info ↔ s.kind = .type info := by
  unfold typeLinks?
  cases s.kind <;> simp

/-- Change what a function has of its own; other symbols stay as they are. -/
def mapFunction (f : FunctionSpec → FunctionSpec) (s : Symbol) : Symbol :=
  match s.kind with
  | .function info => { s with kind := .function (f info) }
  | _ => s

/-- Change what the symbol of a named type has of its own; other symbols stay as they are. -/
def mapTypeLinks (f : TypeLinks → TypeLinks) (s : Symbol) : Symbol :=
  match s.kind with
  | .type info => { s with kind := .type (f info) }
  | _ => s

end Symbol

/-- The name of a function that belongs to a type: the type's name, a dot, its own name. -/
def attachedName (type function : String) : String := type ++ "." ++ function

end StructuralTypes

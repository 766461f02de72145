import StructuralTypes.Symbol.Table
import StructuralTypes.Ty.Table

/-!
# The text of a type

A type with a name is written by its name, every other type by its structure. Types can contain
themselves, so a type that is met again inside its own structure is written as three dots. Function
types are always written by their structure, even when they have a name.

`Ty.render` writes one level of structure, given how to write the types below; `TypeTable.display`
ties the levels together. The types whose structure is being written are kept in one list, which all
levels work on: a type is put on it before its structure is written, and taken off afterwards.

`display` and `displayWithin` are `display` and `display_inner`.
-/

namespace StructuralTypes

section Render

variable {m : Type → Type} [Monad m]

/-- The text of a field, given the text of its type. -/
def Field.render (f : Field) (ty : String) : String := f.name ++ ": " ++ ty ++ ";"

/-- The text of fields, with blanks between them. -/
def Ty.renderFields (text : TypeId → m String) (fields : FieldMap) : m String :=
  return " ".intercalate (← fields.values.mapM fun f => return f.render (← text f.ty))

/-- The text of one level of a type's structure, where `text` writes the types below. -/
def Ty.render (text : TypeId → m String) : Ty → m String
  | .nil => return "()"
  | .int => return "int"
  | .float => return "float"
  | .boolean => return "boolean"
  | .string => return "string"
  | .any => return "any"
  | .anydata => return "anydata"
  | .never => return "never"
  | .absent => return "<none>"
  | .semanticError => return "<semantic error>"
  | .union members => return "|".intercalate (← members.mapM text)
  | .record r => do
    let fields ← Ty.renderFields text r.fields
    if r.sealed then return "record \x7b| " ++ fields ++ " |\x7d"
    else return "record \x7b " ++ fields ++ " \x7d"
  | .object fields => return "object \x7b " ++ (← Ty.renderFields text fields) ++ " \x7d"
  | .error detail => return "error<" ++ (← text detail) ++ ">"
  | .map constraint => return "map<" ++ (← text constraint) ++ ">"
  | .invokable params rest returns => do
    let params ← params.mapM text
    let rest ← rest.toList.mapM fun ty => return (← text ty) ++ "..."
    return "function(" ++ ", ".intercalate (params ++ rest) ++ ") returns " ++ (← text returns)
  | .ref target => text target
  | .placeholder => return "<error detail>"

end Render

namespace TypeTable

/-- The name that a type is written by, if it is not written by its structure. -/
def shownName? (symbols : SymbolTable) (entry : TypeEntry) : Except Stop (Option String) := do
  match entry.symbol with
  | none => return none
  | some s =>
    let name := (← symbols.find s).name
    return if name.isEmpty || entry.ty.isInvokable then none else some name

/-- Write a type down, going at most `fuel` levels down, with the types whose structure is being
written at hand. -/
def displayWithin (t : TypeTable) (symbols : SymbolTable) :
    (fuel : Nat) → TypeId → StateT (List TypeId) (Except Stop) String
  | 0, _ => throw .unending
  | fuel + 1, ty => do
    let entry ← t.find ty
    match ← shownName? symbols entry with
    | some name => return name
    | none =>
      if ty ∈ (← get) then return "..."
      else
        modify (ty :: ·)
        let text ← entry.ty.render (t.displayWithin symbols fuel)
        modify List.tail
        return text

/-- The text of a type. The structures around a type are all different, so going down one level
more than there are types is never needed. -/
def display (t : TypeTable) (symbols : SymbolTable) (ty : TypeId) : Except Stop String :=
  (t.displayWithin symbols (t.entries.size + 1) ty).run' []

end TypeTable

end StructuralTypes

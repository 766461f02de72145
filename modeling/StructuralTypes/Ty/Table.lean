import StructuralTypes.Fault
import StructuralTypes.Flags
import StructuralTypes.Ty.Basic

/-!
# The type table

Owns every type, together with the symbol that names it and its flags; a handle is a position. A
table starts with the builtin types at fixed handles and only grows.

A reference stands for the type that its chain of references ends at, `implied`. A chain that goes
round in a circle has no end; the search then stops on the circle after as many steps as the table
has types.

The operations are those of `TypeTable`: `find` is `get`, `add` is `alloc_entry` and `alloc`,
`change` is what is written through `get_mut`, `fields_mut` and `set_tsymbol`, and `implied` and
`isReadonly` are `implied` and `is_readonly`. `Builtin` is `Builtins`, and `TypeEntry.symbol` is
`tsymbol`.

Results:
* `find_eq_ok_iff`, `find_add_self`, `find_add_of_find`: reading back, before and after an addition.
* `implied_eq_self`: a type that is no reference stands for itself.
-/

namespace StructuralTypes

/-- A type with what every type carries. -/
structure TypeEntry where
  /-- The type. -/
  ty : Ty
  /-- The symbol that names it, if any does. -/
  symbol : Option SymbolId := none
  /-- Its flags. -/
  flags : Flags := ∅
deriving DecidableEq, Repr

/-! ## Builtin types -/

namespace Builtin

/-- The type of the nil value. -/
def nil : TypeId := ⟨0⟩

/-- Integers. -/
def int : TypeId := ⟨1⟩

/-- Floating-point numbers. -/
def float : TypeId := ⟨2⟩

/-- Truth values. -/
def boolean : TypeId := ⟨3⟩

/-- Text. -/
def string : TypeId := ⟨4⟩

/-- Every value but errors. -/
def any : TypeId := ⟨5⟩

/-- Plain data. -/
def anydata : TypeId := ⟨6⟩

/-- The type without values. -/
def never : TypeId := ⟨7⟩

/-- No type at all. -/
def absent : TypeId := ⟨8⟩

/-- A type that failed to resolve. -/
def semanticError : TypeId := ⟨9⟩

/-- Maps to plain data, the detail of the plain error type. -/
def mapAnydata : TypeId := ⟨10⟩

/-- The plain error type. -/
def error : TypeId := ⟨11⟩

/-- Plain data or an error. -/
def pure : TypeId := ⟨12⟩

/-- The detail of an intersected error, to be bound by a later pass. -/
def errorDetail : TypeId := ⟨13⟩

/-- The builtin types, by handle. -/
def types : List Ty :=
  [.nil, .int, .float, .boolean, .string, .any, .anydata, .never, .absent, .semanticError,
    .map anydata, .error mapAnydata, .union [anydata, error], .placeholder]

end Builtin

/-- All types of one compilation. -/
structure TypeTable where
  /-- The types, by handle. -/
  entries : Array TypeEntry
deriving DecidableEq, Repr

namespace TypeTable

/-- The table with the builtin types only. -/
def initial : TypeTable := ⟨(Builtin.types.map fun ty => { ty }).toArray⟩

instance : Inhabited TypeTable := ⟨initial⟩

/-! ## Reading and writing -/

/-- The type with a handle. -/
def find (t : TypeTable) (ty : TypeId) : Except Stop TypeEntry :=
  match t.entries[ty.index]? with
  | some entry => .ok entry
  | none => .error .dangling

/-- Add a type at the end. -/
def add (t : TypeTable) (entry : TypeEntry) : TypeId × TypeTable :=
  (⟨t.entries.size⟩, ⟨t.entries.push entry⟩)

/-- Change a type in place. -/
def change (t : TypeTable) (ty : TypeId) (f : TypeEntry → TypeEntry) : Except Stop TypeTable := do
  let entry ← t.find ty
  return ⟨t.entries.setIfInBounds ty.index (f entry)⟩

theorem find_eq_ok_iff {t : TypeTable} {ty : TypeId} {entry : TypeEntry} :
    t.find ty = .ok entry ↔ t.entries[ty.index]? = some entry := by
  unfold find
  cases t.entries[ty.index]? <;> simp

/-- A new type reads back as it was added. -/
theorem find_add_self (t : TypeTable) (entry : TypeEntry) :
    (t.add entry).2.find (t.add entry).1 = .ok entry := by
  simp [find_eq_ok_iff, add]

/-- An addition changes no type that was there. -/
theorem find_add_of_find {t : TypeTable} {ty : TypeId} {entry : TypeEntry}
    (h : t.find ty = .ok entry) (added : TypeEntry) :
    (t.add added).2.find ty = .ok entry := by
  rw [find_eq_ok_iff] at h ⊢
  have hs := (Array.getElem?_eq_some_iff.1 h).1
  simp only [add, Array.getElem?_push, Nat.ne_of_lt hs, if_false, h]

/-! ## References and readonly types -/

/-- Follow at most `fuel` references. -/
def impliedWithin (t : TypeTable) : (fuel : Nat) → TypeId → Except Stop TypeId
  | 0, ty => .ok ty
  | fuel + 1, ty => do
    match (← t.find ty).ty with
    | .ref target => t.impliedWithin fuel target
    | _ => return ty

/-- The type that decides how a type behaves: the end of its chain of references, or a type on the
circle that the chain runs into. -/
def implied (t : TypeTable) (ty : TypeId) : Except Stop TypeId :=
  t.impliedWithin t.entries.size ty

/-- Whether no value of a type can be written to. -/
def isReadonly (t : TypeTable) (ty : TypeId) : Except Stop Bool := do
  let entry ← t.find ty
  return entry.flags.contains (.only .readonly) || entry.ty.isUnwritable

/-- A type that is no reference stands for itself. -/
theorem implied_eq_self {t : TypeTable} {ty : TypeId} {entry : TypeEntry}
    (h : t.find ty = .ok entry) (hr : ∀ target, entry.ty ≠ .ref target) :
    t.implied ty = .ok ty := by
  have hs := (Array.getElem?_eq_some_iff.1 (find_eq_ok_iff.1 h)).1
  obtain ⟨n, hn⟩ : ∃ n, t.entries.size = n + 1 := ⟨_, (Nat.succ_pred (by omega)).symm⟩
  rw [implied, hn, impliedWithin, h]
  show (match entry.ty with
    | .ref target => t.impliedWithin n target
    | _ => Except.ok ty) = Except.ok ty
  split
  · exact absurd ‹_› (hr _)
  · rfl

end TypeTable

end StructuralTypes

/-!
# Modifier flags

A set of flags is a 32-bit word. Nine of its bits have a name, the modifiers; the other bits mean
nothing here but are kept as they came.

Modelled are `Flags`, with the constants from `PUBLIC` to `CLASS` as `Modifier`, its `contains` and
`is_empty`, the union of two sets, and the text that listings show. Left out are the other
operations on sets, which nothing here uses.

Results:
* `contains_union_left`, `contains_union_right`: a union contains both of its sides.
* `contains_union_of_contains`: a union loses nothing that either side contained.
-/

namespace StructuralTypes

/-- The modifiers that have a bit of their own, in the order of their bits. -/
inductive Modifier
  /-- Visible outside its package. -/
  | exported
  /-- Visible inside its structure only. -/
  | hidden
  /-- A field that every value has. -/
  | required
  /-- A field that a value may lack. -/
  | optional
  /-- Never written after creation. -/
  | readonly
  /-- A function that belongs to a type. -/
  | attached
  /-- Never named by the user. -/
  | anonymous
  /-- Free of shared mutable state. -/
  | isolated
  /-- An object type declared as a class. -/
  | classLike
deriving DecidableEq, Repr

namespace Modifier

/-- All modifiers, in the order of their bits. -/
def all : List Modifier :=
  [exported, hidden, required, optional, readonly, attached, anonymous, isolated, classLike]

/-- The word in which only this modifier's bit is set. -/
def bit : Modifier → UInt32
  | exported => 1
  | hidden => 2
  | required => 4
  | optional => 8
  | readonly => 16
  | attached => 32
  | anonymous => 64
  | isolated => 128
  | classLike => 256

/-- The name under which a modifier is written. -/
def label : Modifier → String
  | exported => "PUBLIC"
  | hidden => "PRIVATE"
  | required => "REQUIRED"
  | optional => "OPTIONAL"
  | readonly => "READONLY"
  | attached => "ATTACHED"
  | anonymous => "ANONYMOUS"
  | isolated => "ISOLATED"
  | classLike => "CLASS"

end Modifier

/-- A set of flags: a word, of which some bits are modifiers. -/
structure Flags where
  /-- The word. -/
  bits : UInt32 := 0
deriving DecidableEq, Repr, Inhabited

namespace Flags

instance : EmptyCollection Flags := ⟨⟨0⟩⟩

/-- The set with a single modifier. -/
def only (m : Modifier) : Flags := ⟨m.bit⟩

instance : Coe Modifier Flags := ⟨only⟩

/-- All flags of either set. -/
def union (f g : Flags) : Flags := ⟨f.bits ||| g.bits⟩

instance : Union Flags := ⟨union⟩

/-- Whether every flag of `g` is in `f`. -/
def contains (f g : Flags) : Bool := f.bits &&& g.bits == g.bits

/-- Whether no bit is set. -/
def isEmpty (f : Flags) : Bool := f.bits == 0

/-- The modifiers in the set, in the order of their bits. -/
def modifiers (f : Flags) : List Modifier := Modifier.all.filter fun m => f.contains (only m)

/-- The bits that are no modifier's. -/
def unnamed (f : Flags) : UInt32 :=
  f.bits &&& ~~~(Modifier.all.foldl (fun w m => w ||| m.bit) 0)

/-- A word in lower-case hexadecimal digits after `0x`. -/
def hexadecimal (w : UInt32) : String := "0x" ++ String.ofList (Nat.toDigits 16 w.toNat)

/-- The written form: the names of the modifiers, then the other bits as one number; a lone zero
stands for the empty set. -/
def render (f : Flags) : String :=
  let others := if f.unnamed = 0 then [] else [hexadecimal f.unnamed]
  let terms := if f.isEmpty then [hexadecimal 0] else f.modifiers.map Modifier.label ++ others
  "Flags(" ++ " | ".intercalate terms ++ ")"

/-! ## Union and containment -/

theorem contains_iff {f g : Flags} : f.contains g = true ↔ f.bits &&& g.bits = g.bits := by
  simp [contains]

@[simp] theorem bits_union (f g : Flags) : (f ∪ g).bits = f.bits ||| g.bits := rfl

/-- Words with the same bits are the same. -/
theorem word_ext {a b : UInt32} (h : ∀ i, a.toNat.testBit i = b.toNat.testBit i) : a = b :=
  UInt32.toNat_inj.1 (Nat.eq_of_testBit_eq h)

theorem contains_union_of_contains {f h : Flags} (g : Flags) (hf : f.contains h = true) :
    (f ∪ g).contains h = true := by
  rw [contains_iff] at hf ⊢
  refine word_ext fun i => ?_
  have hi := congrArg (fun w : UInt32 => w.toNat.testBit i) hf
  simp only [UInt32.toNat_and, Nat.testBit_and, bits_union, UInt32.toNat_or, Nat.testBit_or]
    at hi ⊢
  cases hb : f.bits.toNat.testBit i <;> cases g.bits.toNat.testBit i <;> simp_all

theorem union_comm (f g : Flags) : f ∪ g = g ∪ f := by
  show Flags.mk (f.bits ||| g.bits) = Flags.mk (g.bits ||| f.bits)
  rw [UInt32.or_comm]

@[simp] theorem empty_union (f : Flags) : ∅ ∪ f = f := by
  show Flags.mk (0 ||| f.bits) = f
  rw [UInt32.zero_or]

@[simp] theorem contains_self (f : Flags) : f.contains f = true := by
  simp [contains_iff]

@[simp] theorem contains_union_left (f g : Flags) : (f ∪ g).contains f = true :=
  contains_union_of_contains g f.contains_self

@[simp] theorem contains_union_right (f g : Flags) : (f ∪ g).contains g = true :=
  union_comm g f ▸ contains_union_left g f

end Flags

end StructuralTypes

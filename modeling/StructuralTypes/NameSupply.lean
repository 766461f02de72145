import StructuralTypes.Handle
import StructuralTypes.OrderedMap

/-!
# Names for types without a name

A type that the user never named gets a name from a counter. There is one counter for each package
and each family of names, and all of them start at zero.

Modelled is `AnonymousNames`: `next` is `next_anonymous_type_name` for the family of types and
`next_intersection_error_detail_name` for the other one. Left out are other providers of names, and
the width of the counters.

Results:
* `next_fst`, `count_next`: a name shows the count of its own counter, and only that counter moves.
-/

namespace StructuralTypes

/-- The families of made-up names. -/
inductive NameFamily
  /-- Names of types. -/
  | anonymousType
  /-- Names of the detail records of intersected errors. -/
  | errorDetail
deriving DecidableEq, Repr

/-- What the names of a family begin with. -/
def NameFamily.stem : NameFamily → String
  | anonymousType => "$anonType$"
  | errorDetail => "$anonIntersectionErrorDetail$"

/-- How many names were handed out, by family and package. -/
structure NameSupply where
  /-- The counters that have moved. -/
  counters : OrderedMap (NameFamily × PackageId) Nat := ∅
deriving DecidableEq, Repr, Inhabited

namespace NameSupply

/-- How many names of a family a package has had. -/
def count (names : NameSupply) (family : NameFamily) (package : PackageId) : Nat :=
  (names.counters.get? (family, package)).getD 0

/-- The name of a family with a number. -/
def name (family : NameFamily) (n : Nat) : String := family.stem ++ "_" ++ n.repr

/-- Hand out the next name of a family to a package. -/
def next (names : NameSupply) (family : NameFamily) (package : PackageId) :
    String × NameSupply :=
  let n := names.count family package
  (name family n, ⟨names.counters.insert (family, package) (n + 1)⟩)

theorem next_fst (names : NameSupply) (family : NameFamily) (package : PackageId) :
    (names.next family package).1 = name family (names.count family package) := rfl

theorem count_next (names : NameSupply) (family family' : NameFamily)
    (package package' : PackageId) :
    (names.next family package).2.count family' package' =
      if family' = family ∧ package' = package then names.count family package + 1
      else names.count family' package' := by
  simp only [next, count, OrderedMap.get?_insert, Prod.mk.injEq]
  split <;> rfl

end NameSupply

end StructuralTypes

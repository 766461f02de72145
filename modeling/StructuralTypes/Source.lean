/-!
# Places in source text

A span is a pair of byte offsets, and an identifier is a name with the span where it stands. The
end of a span may lie before its start: spans are carried along, never measured.

Modelled are `Span`, with the text that it is shown as, and `Ident`, whose `empty` is
`Ident.unnamed`. Offsets are not bounded.
-/

namespace StructuralTypes

/-- A stretch of source text, as byte offsets. -/
structure Span where
  /-- Where the stretch begins. -/
  start : Nat := 0
  /-- Where the stretch ends. -/
  stop : Nat := 0
deriving DecidableEq, Repr, Inhabited

/-- The written form of a span: its two offsets with two dots between them. -/
def Span.render (s : Span) : String := s.start.repr ++ ".." ++ s.stop.repr

instance : ToString Span := ⟨Span.render⟩

/-- A name together with the place where it stands. -/
structure Ident where
  /-- The name. -/
  name : String
  /-- Its place. -/
  span : Span
deriving DecidableEq, Repr, Inhabited

/-- The identifier without a name, such as the qualifier of a type of the package itself. -/
def Ident.unnamed (span : Span) : Ident := ⟨"", span⟩

end StructuralTypes

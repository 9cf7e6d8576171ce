/-!
# Spans

Half-open ranges of UTF-8 byte offsets into a module.
-/

set_option autoImplicit false

namespace Relink

/-- The bytes from `start` up to but not including `stop`. A span whose `stop` lies before its
`start` is allowed and empty. -/
structure Span where
  start : Nat
  stop : Nat
deriving DecidableEq, Repr, Inhabited

namespace Span

def isEmpty (span : Span) : Bool := span.stop ≤ span.start

/-- Number of bytes; an inverted span has none. -/
def length (span : Span) : Nat := span.stop - span.start

/-- Both ends of `inner` lie within `outer`, its bounds included. -/
def contains (outer inner : Span) : Bool := outer.start ≤ inner.start && inner.stop ≤ outer.stop

/-- The same range, `distance` bytes later. -/
def shift (span : Span) (distance : Nat) : Span := ⟨span.start + distance, span.stop + distance⟩

def render (span : Span) : String :=
  "Span(" ++ toString span.start ++ ", " ++ toString span.stop ++ ")"

end Span

end Relink

import TemplateScanner.Fault

namespace TemplateScanner

/-- The bytes of a source from `start` up to `stop`. -/
structure Span where
  start : Nat
  stop : Nat
deriving DecidableEq, Repr

namespace Span

/-- The empty range at the start of a source. -/
def zero : Span :=
  ⟨0, 0⟩

/-- The number of bytes; a range that ends before it starts has none. -/
def length (span : Span) : Except Fault Nat :=
  checkedSub span.stop span.start

def isEmpty (span : Span) : Bool :=
  span.start == span.stop

def describe (span : Span) : String :=
  toString span.start ++ ".." ++ toString span.stop

end Span

end TemplateScanner

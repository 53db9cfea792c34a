/-!
# Spans

A span is a stretch of text between two byte offsets. A span whose end lies before its start is
allowed and has no length.
-/

namespace Abacus

/-- A stretch of text between two byte offsets. -/
structure Span where
  start : Nat
  stop : Nat
  deriving DecidableEq, Inhabited

namespace Span

/-- The empty span at the start of a text. -/
def origin : Span := ⟨0, 0⟩

/-- The number of bytes in a span. -/
def length (s : Span) : Nat := s.stop - s.start

/-- Whether a span has no bytes. -/
def isEmpty (s : Span) : Bool := s.length == 0

/-- The smallest span around two spans. -/
def merge (s t : Span) : Span := ⟨min s.start t.start, max s.stop t.stop⟩

end Span
end Abacus

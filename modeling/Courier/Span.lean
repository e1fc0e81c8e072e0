/-!
# Spans of time

A span is a whole number of nanoseconds. Timers count whole milliseconds, so a wait is rounded up to
the next one.

No span is the largest one here, and the end of a wait is the sum of two numbers. A duration of a
program is below 2 ^ 64 seconds, and a timer whose end its clock cannot name is set some thirty
years ahead in its place. So what is said of waits is meant of those whose end the clock can name.
-/

namespace Courier

/-- A span of time. -/
structure Span where
  /-- Its length in nanoseconds. -/
  nanos : Nat
deriving DecidableEq, Repr

namespace Span

instance : Inhabited Span := ⟨⟨0⟩⟩

/-- The empty span. -/
def zero : Span := ⟨0⟩

/-- The span of `secs` seconds and `nanos` nanoseconds. -/
def ofParts (secs nanos : Nat) : Span := ⟨secs * 1000000000 + nanos⟩

/-- The span of `n` milliseconds. -/
def ofMillis (n : Nat) : Span := ⟨n * 1000000⟩

/-- The whole seconds of the span. -/
def secs (s : Span) : Nat := s.nanos / 1000000000

/-- The nanoseconds beyond the whole seconds. -/
def subsecNanos (s : Span) : Nat := s.nanos % 1000000000

/-- The least number of whole milliseconds that covers the span. -/
def ceilMillis (s : Span) : Nat := (s.nanos + 999999) / 1000000

/-- The digits of `n / 10 ^ places` after the point, without zeros at the end. -/
def fraction (n places : Nat) : String :=
  let digits := (toString n).toList
  let padded := List.replicate (places - digits.length) '0' ++ digits
  String.ofList (padded.reverse.dropWhile (· = '0')).reverse

/-- A number of units with its decimal fraction and the name of the unit. -/
def inUnit (whole rest places : Nat) (unit : String) : String :=
  let tail := fraction rest places
  toString whole ++ (if tail.isEmpty then "" else "." ++ tail) ++ unit

/-- The span in the largest unit that it fills at least once. -/
def describe (s : Span) : String :=
  if 1000000000 ≤ s.nanos then inUnit s.secs s.subsecNanos 9 "s"
  else if 1000000 ≤ s.nanos then inUnit (s.nanos / 1000000) (s.nanos % 1000000) 6 "ms"
  else if 1000 ≤ s.nanos then inUnit (s.nanos / 1000) (s.nanos % 1000) 3 "µs"
  else inUnit s.nanos 0 0 "ns"

/-- The span in seconds as a double: the whole seconds and the rest are rounded apart and added. -/
def toSeconds (s : Span) : Float :=
  s.secs.toUInt64.toFloat + s.subsecNanos.toUInt64.toFloat / 1000000000.0

end Span

end Courier

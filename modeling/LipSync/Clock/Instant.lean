/-
# LipSync.Clock.Instant — instants of the local clock, and the spans between them.

Both count whole nanoseconds; an instant counts them from a fixed but arbitrary origin. The local
clock shows seconds in 63 bits, so an instant from 2⁶³ seconds on does not exist, and stepping
forward can fail. Stepping back to before the origin cannot.
-/

namespace LipSync

/-- A span of time in whole nanoseconds. -/
structure Duration where
  nanoseconds : Nat
  deriving DecidableEq, Inhabited

namespace Duration

/-- The span of so many seconds and nanoseconds. -/
def ofParts (seconds subsecond : Nat) : Duration := ⟨seconds * 1000000000 + subsecond⟩

/-- The whole seconds of a span. -/
def seconds (d : Duration) : Nat := d.nanoseconds / 1000000000

/-- The nanoseconds of a span past its whole seconds. -/
def subsecond (d : Duration) : Nat := d.nanoseconds % 1000000000

/-- The whole milliseconds of a span. -/
def milliseconds (d : Duration) : Nat := d.nanoseconds / 1000000

/-- What is left of a span after another, nothing when the other is longer. -/
instance : Sub Duration := ⟨fun d e => ⟨d.nanoseconds - e.nanoseconds⟩⟩

end Duration

/-- An instant of the local clock, in nanoseconds from its origin. -/
structure Instant where
  nanoseconds : Int
  deriving DecidableEq, Inhabited

namespace Instant

/-- The first instant past the range of the clock. -/
def limit : Instant := ⟨9223372036854775808 * 1000000000⟩

/-- The span from `earlier` to `t`, nothing when `earlier` is the later one. -/
def since (t earlier : Instant) : Duration := ⟨(t.nanoseconds - earlier.nanoseconds).toNat⟩

/-- The instant that lies `d` after `t`, unless it is out of the clock's range. -/
def after? (t : Instant) (d : Duration) : Option Instant :=
  let sum := t.nanoseconds + d.nanoseconds
  if sum < limit.nanoseconds then some ⟨sum⟩ else none

end Instant

end LipSync

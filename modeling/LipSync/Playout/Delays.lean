/-
# LipSync.Playout.Delays — the two playout delays, and the limits on moving them.

A playout delay is how long a stream is held back before it is seen or heard. It is moved in small
steps, so that nobody notices, and raised only up to a cap; a pipeline may have more delay than the
cap by itself, and then keeps it.
-/

namespace LipSync

/-- The playout delays of the two streams in milliseconds. -/
structure Delays where
  audio : Nat
  video : Nat
  deriving DecidableEq, Inhabited

/-- The limits on moving the delays, in milliseconds. -/
structure Tuning where
  /-- The most that one delay moves at a time. -/
  maxStep : Nat := 80
  /-- A skew smaller than this is left alone. -/
  hysteresis : Nat := 30
  /-- No delay is raised past this. -/
  maxDelay : Nat := 10000
  deriving DecidableEq, Inhabited

/-- A delay raised by `step`, but not past the cap. One that is past it already stays. -/
def Tuning.raise (t : Tuning) (delay step : Nat) : Nat :=
  if t.maxDelay ≤ delay then delay else min (delay + step) t.maxDelay

/-- Raising never lowers. -/
theorem Tuning.le_raise (t : Tuning) (delay step : Nat) : delay ≤ t.raise delay step := by
  unfold raise; split <;> omega

end LipSync

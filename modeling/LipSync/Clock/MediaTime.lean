/-
# LipSync.Clock.MediaTime — readings of a stream's media clock.

A media clock is a 32-bit counter that starts anywhere and wraps. Two readings are compared by the
shorter way around the circle, so neither the start nor a wrap in between can be told from the
result. Readings half a circle apart count as behind each other. `isAhead_iff` says that being ahead
is being at a positive distance.
-/

namespace LipSync

/-- A reading of a media clock, in ticks. -/
structure MediaTime where
  ticks : UInt32
  deriving DecidableEq, Inhabited

namespace MediaTime

/-- The way from `b` to `a` in ticks, forwards positive, from −2³¹ to 2³¹ − 1. -/
def distance (a b : MediaTime) : Int := (a.ticks - b.ticks).toInt32.toInt

/-- `a` is ahead of `b`: less than half a circle forwards from it, and not the same reading. -/
def isAhead (a b : MediaTime) : Bool :=
  let way := a.ticks - b.ticks
  way != 0 && decide (way < 0x80000000)

theorem isAhead_iff {a b : MediaTime} : a.isAhead b = true ↔ 0 < a.distance b := by
  show ((a.ticks - b.ticks) != 0 && decide ((a.ticks - b.ticks) < 0x80000000)) = true ↔
    0 < (a.ticks - b.ticks).toBitVec.toInt
  generalize a.ticks - b.ticks = way
  rw [BitVec.toInt_eq_toNat_cond]
  simp only [Bool.and_eq_true, bne_iff_ne, ne_eq, decide_eq_true_eq, UInt32.lt_iff_toNat_lt,
    ← UInt32.toNat_inj, UInt32.toNat_toBitVec]
  have h := way.toNat_lt
  simp only [UInt32.reduceToNat, UInt32.toNat_zero]
  split <;> omega

end MediaTime

end LipSync

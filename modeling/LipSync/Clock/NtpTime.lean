/-
# LipSync.Clock.NtpTime — wall-clock times as a sender report carries them.

Seconds since 1900 in 32 bits, then a 32-bit binary fraction of a second. As one 64-bit word the
seconds are the upper half, so the order of the words is the order of the times. In milliseconds a
time is a binary64 number, which keeps about a microsecond of it.
-/
import LipSync.Binary64.Arithmetic
import LipSync.Clock.Instant

namespace LipSync

/-- A wall-clock time: seconds since 1900 and a fraction of a second in units of 2⁻³² s. Times are
ordered by the seconds first. -/
structure NtpTime where
  seconds : UInt32
  fraction : UInt32
  deriving DecidableEq, Ord, Inhabited

namespace NtpTime

/-- All zero, which is what a sender without a wall clock reports. -/
def zero : NtpTime := ⟨0, 0⟩

/-- Whether a time is the one of a sender without a wall clock. -/
def isZero (t : NtpTime) : Bool := t.seconds == 0 && t.fraction == 0

/-- The later of two times. -/
instance : Max NtpTime where
  max a b := if (compare a b).isLE then b else a

/-! ## As one word -/

/-- The time whose seconds are the upper half of `word`. -/
def ofUInt64 (word : UInt64) : NtpTime := ⟨(word >>> 32).toUInt32, word.toUInt32⟩

/-- The time as one word, the seconds in the upper half. -/
def toUInt64 (t : NtpTime) : UInt64 := t.seconds.toUInt64 <<< 32 ||| t.fraction.toUInt64

/-! ## From the time since 1970 -/

/-- Seconds from 1900 to 1970. -/
def unixEpoch : UInt64 := 0x83AA7E80

/-- The time that lies `sinceEpoch` after the start of 1970. Nanoseconds are counted in 64 bits and
seconds in 32, so both wrap; the fraction is rounded down. -/
def ofUnix (sinceEpoch : Duration) : NtpTime :=
  let total : UInt64 := .ofNat sinceEpoch.nanoseconds
  let seconds := total / 1000000000 + unixEpoch
  let fraction := ((total % 1000000000) <<< 32) / 1000000000
  ofUInt64 (seconds <<< 32 ||| fraction)

/-! ## In milliseconds -/

/-- Milliseconds since 1900: the seconds, which are exact, and the fraction, rounded when the two
are added. -/
def toMillis (t : NtpTime) : Binary64 :=
  .ofInt t.seconds.toNat * .ofInt 1000 + .ofInt t.fraction.toNat * .ofInt 1000 / .ofInt 4294967296

end NtpTime

end LipSync

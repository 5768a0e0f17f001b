/-
# LipSync.Clock.Report — sender reports, and the pairs of clock readings taken from them.

A sender report names one moment on two clocks: the sender's wall clock and the stream's media
clock. A `Sample` is that pair with the wall clock in milliseconds, the form in which all measuring
is done.
-/
import LipSync.Binary64.Order
import LipSync.Clock.MediaTime
import LipSync.Clock.NtpTime

namespace LipSync

/-- The newest report of a sender about one of its streams. -/
structure SenderReport where
  ntp : NtpTime
  mediaTime : MediaTime
  deriving DecidableEq, Inhabited

/-- One moment on both clocks, the wall clock in milliseconds. -/
structure Sample where
  wallClock : Binary64
  mediaTime : MediaTime
  deriving DecidableEq, Inhabited

namespace Sample

/-- Samples compare as their readings do, so a wall clock that is NaN makes a sample unequal to
itself. -/
instance : BEq Sample where
  beq s t := s.wallClock == t.wallClock && s.mediaTime == t.mediaTime

/-- The sample that a report gives, none when the sender has no wall clock. -/
def ofReport? (report : SenderReport) : Option Sample :=
  if report.ntp.isZero then none else some ⟨report.ntp.toMillis, report.mediaTime⟩

/-- Both clocks stand later in `s` than in `earlier`. -/
def advances (s earlier : Sample) : Bool :=
  decide (earlier.wallClock < s.wallClock) && s.mediaTime.isAhead earlier.mediaTime

end Sample

end LipSync

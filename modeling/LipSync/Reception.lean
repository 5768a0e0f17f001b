/-
# LipSync.Reception — what has been received of one stream, and how long it took.

A stream is read through three readings that may each be missing: the media time and the arrival
time of its newest packet, and its newest sender report. Only all three together, the report with a
wall clock, make an `Arrival`; anything less changes nothing.

The receive delay of a stream is its newest arrival time less the wall clock at the media time that
arrived. The two clocks belong to different hosts, so the delay of one stream means nothing by
itself; between the streams of one sender the offset cancels.
-/
import LipSync.Binary64.Decimal
import LipSync.Clock.History

namespace LipSync

/-- The readings of a stream, each none until there is something to read. Arrival times are in
milliseconds of the local clock. -/
structure Readings where
  mediaTime : Option MediaTime
  arrivalTime : Option Int64
  report : Option SenderReport
  deriving DecidableEq, Inhabited

/-- A complete set of readings, the report as the sample taken from it. -/
structure Arrival where
  mediaTime : MediaTime
  arrivalTime : Int64
  sample : Sample
  deriving DecidableEq, Inhabited

/-- The arrival that the readings amount to, if none is missing and the report has a wall clock. -/
def Readings.arrival? (r : Readings) : Option Arrival := do
  let mediaTime ← r.mediaTime
  let arrivalTime ← r.arrivalTime
  let report ← r.report
  let sample ← Sample.ofReport? report
  return ⟨mediaTime, arrivalTime, sample⟩

/-- The newest arrival of a stream and the history of its samples. -/
structure Reception where
  mediaTime : MediaTime
  arrivalTime : Int64
  history : History
  deriving DecidableEq, BEq, Inhabited

/-- A reception after an arrival, and what became of the arrival's sample. -/
structure Refresh where
  sample : Sample
  uptake : Uptake
  reception : Reception
  deriving DecidableEq, Inhabited

namespace Reception

/-- Nothing received yet: the readings are zero, and the history keeps `historyCapacity` samples. -/
def empty (historyCapacity : Nat) : Reception := ⟨⟨0⟩, 0, .empty historyCapacity⟩

/-! ## Refreshing -/

/-- The reception after an arrival. The newest packet counts also when the stream has no new
report. -/
def receive (r : Reception) (a : Arrival) : Refresh :=
  let (uptake, history) := r.history.update a.sample
  ⟨a.sample, uptake, ⟨a.mediaTime, a.arrivalTime, history⟩⟩

/-- Updates a reception in place by a set of readings, which are refused unless they are complete. -/
def updateInPlace (readings : Readings) : ExceptT SyncError (StateM Reception) Refresh := do
  let some a := readings.arrival? | throw .noMeasurement
  let refresh := (← get).receive a
  set refresh.reception
  return refresh

/-- What comes of an update, the reception itself being left alone. -/
def update (r : Reception) (readings : Readings) : Except SyncError Refresh :=
  ((updateInPlace readings).run.run r).1

/-! ## Measuring -/

/-- The receive delay in milliseconds. -/
def delay (r : Reception) : Except SyncError Binary64 := do
  let sent ← r.history.wallClockAt r.mediaTime
  return .ofInt r.arrivalTime.toInt - sent

end Reception

/-- What there is to tell about a refresh. -/
def Refresh.notes (r : Refresh) : List Note :=
  let ticks := r.sample.mediaTime.ticks
  let millis := r.sample.wallClock.toFixed 3
  History.notes r.sample r.uptake ++
    [if r.uptake.isNew then ⟨.debug, s!"sender report accepted: ntp {millis} ms rtp {ticks}"⟩
    else ⟨.trace, s!"sender report rtp {ticks} already known"⟩]

end LipSync

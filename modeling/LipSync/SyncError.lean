/-
# LipSync.SyncError — why a cycle, or a request to the pipelines, did not go through.

None of these ends a synchronizer: a cycle that fails is skipped, and the next one tries again. The
transient ones are what the first seconds of a session look like, before both streams have sent and
been heard enough.
-/

namespace LipSync

/-- The causes of failure. -/
inductive SyncError where
  /-- A stream has fewer than two samples, so its clock rate is unknown. -/
  | insufficientData
  /-- A stream lacks a packet, or a report that carries a wall clock. -/
  | noMeasurement
  /-- A pipeline refused a delay, for the reason it gives. -/
  | applyFailed (reason : String)
  /-- The streams are further apart than a network can bring them. -/
  | skewOutOfRange (milliseconds : Int)
  | noDelayEstimate
  | noRtpHandles
  /-- An earlier call broke off half-way, as the cause tells. -/
  | poisoned (cause : String)
  deriving DecidableEq, Inhabited

namespace SyncError

/-- The text of an error. -/
def message : SyncError → String
  | insufficientData => "correlation history: insufficient data"
  | noMeasurement => "stream has no measurement yet"
  | applyFailed reason => s!"failed to apply playout delay: {reason}"
  | skewOutOfRange milliseconds => s!"relative delay {milliseconds} ms out of range"
  | noDelayEstimate => "audio endpoint has no delay estimate"
  | noRtpHandles => "audio endpoint has no rtp handles"
  | poisoned cause => s!"mutex poison: {cause}"

/-- Expected while a session starts up. -/
def isTransient : SyncError → Bool
  | insufficientData | noMeasurement | noDelayEstimate | noRtpHandles => true
  | applyFailed _ | skewOutOfRange _ | poisoned _ => false

end SyncError

end LipSync

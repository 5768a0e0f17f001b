/-
# LipSync.Synchronizer.Session — one binding to an audio channel and a video stream, and its cycle.

A session remembers what it has received of both streams and what delay it has added to them. A
cycle of it has two halves. The first reads everything there is to read, and refreshes both streams
or, when anything is missing, neither. The second measures the skew, turns it into delays, and asks
both pipelines for them. If audio refuses, the compensator takes its audio step back, so that the
next cycle asks again; video is asked in any case.
-/
import LipSync.Pipeline.Dialogue
import LipSync.Playout.Compensator
import LipSync.Skew

namespace LipSync

/-- What a session binds together: an audio channel and the two sides of a video stream. -/
structure Endpoints where
  channel : Channel
  audio : AudioEngine
  videoTransport : Transport
  videoReceiver : Receiver
  deriving DecidableEq, Inhabited

/-- What is remembered of a binding. -/
structure Session where
  endpoints : Endpoints
  audio : Reception
  video : Reception
  compensator : Compensator
  deriving DecidableEq, Inhabited

/-- Reads a stream, and asks for nothing more once a reading is missing. -/
def Medium.read (m : Medium) (transport : Transport) (receiver : Receiver) : Dialogue Readings := do
  let some mediaTime ← Dialogue.request (.mediaTime m receiver) | return ⟨none, none, none⟩
  let some arrivalTime ← Dialogue.request (.arrivalTime m receiver) | return ⟨mediaTime, none, none⟩
  let report ← Dialogue.request (.report m transport)
  return ⟨mediaTime, arrivalTime, report⟩

/-- Reads a stream and refreshes its reception. -/
def Reception.refresh (r : Reception) (m : Medium) (transport : Transport) (receiver : Receiver) :
    ExceptT SyncError Dialogue Reception := do
  let readings ← m.read transport receiver
  let refresh ← (r.update readings : Except SyncError Refresh)
  Dialogue.notes refresh.notes
  return refresh.reception

namespace Session

/-- A session at its start: nothing received, nothing added. -/
def start (endpoints : Endpoints) (historyCapacity : Nat) (tuning : Tuning) : Session :=
  ⟨endpoints, .empty historyCapacity, .empty historyCapacity, .initial tuning⟩

/-! ## The first half of a cycle -/

/-- Reads the delays of both pipelines and both streams, video first. The session after it has both
receptions refreshed. -/
def gather (s : Session) : ExceptT SyncError Dialogue (Delays × Session) := do
  let engine := s.endpoints.audio
  let channel := s.endpoints.channel
  let videoDelay ← Dialogue.request .videoDelay
  let some estimate ← Dialogue.request (.delayEstimate engine channel) | throw .noDelayEstimate
  let some handles ← Dialogue.request (.rtpHandles engine channel) | throw .noRtpHandles
  -- both are refreshed here, and neither is kept unless the other gets through too
  let video ← s.video.refresh .video s.endpoints.videoTransport s.endpoints.videoReceiver
  let audio ← s.audio.refresh .audio handles.transport handles.receiver
  return (⟨estimate.total, videoDelay⟩, { s with audio, video })

/-! ## The second half -/

/-- Asks both pipelines for the delays that an adjustment aims at. -/
def apply (s : Session) (a : Adjustment) : Dialogue Session := do
  let channel := s.endpoints.channel
  let answer ← Dialogue.request (.holdAudio s.endpoints.audio channel a.targets.audio)
  let compensator ← match answer with
    | .ok () => pure a.next
    | .error e =>
      let text := s!"error setting voice delay on channel {channel.number}: {e.message}"
      Dialogue.notes [⟨.error, text⟩]
      pure a.next.revert
  -- a refusal by audio is no reason to leave video where it is
  Dialogue.request (.holdVideo a.targets.video)
  return { s with compensator }

/-- Adjusts the delays to the skew, starting from the current ones. -/
def steer (s : Session) (skew : Int) (current : Delays) : Dialogue (Delays × Session) := do
  Dialogue.notes
    [⟨.trace, s!"sync current video delay: {current.video} ms"⟩,
     ⟨.trace, s!"sync current audio delay: {current.audio} ms"⟩,
     ⟨.trace, s!"sync relative delay: {skew} ms"⟩]
  let adjustment := s.compensator.adjust skew current
  Dialogue.notes (adjustment.notes skew current)
  let session ← s.apply adjustment
  return (adjustment.targets, session)

/-- The skew to act on, by what has been received. -/
def skew (s : Session) : ExceptT SyncError Dialogue Int := do
  let skew ← (Skew.measure s.audio s.video : Except SyncError Skew)
  Dialogue.notes skew.notes
  (skew.accept : Except SyncError Int)

/-! ## The whole cycle -/

/-- One cycle: the delays asked for, or why there are none, and the session after it. An error in
the first half leaves the session as it was; one in the measuring leaves the compensator. -/
def cycle (s : Session) : Dialogue (Except SyncError Delays × Session) := do
  match ← s.gather.run with
  | .error e => return (.error e, s)
  | .ok (current, refreshed) =>
    match ← refreshed.skew.run with
    | .error e => return (.error e, refreshed)
    | .ok skew =>
      let (targets, session) ← refreshed.steer skew current
      return (.ok targets, session)

end Session

end LipSync

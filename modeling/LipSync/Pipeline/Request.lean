/-
# LipSync.Pipeline.Request — what a synchronizer can ask of the media pipelines.

The pipelines are not part of the library. It knows them by handles, which are equal only for one
and the same object, and talks to them through eight requests: six that read something, and two
that ask for a minimum playout delay. The video pipeline is fixed for the life of a synchronizer and
needs no handle. Requests that read a stream say which medium they are for.
-/
import LipSync.Clock.Report
import LipSync.SyncError

namespace LipSync

/-! ## Handles -/

/-- A channel of an audio engine. -/
structure Channel where
  number : Nat
  deriving DecidableEq, Inhabited

/-- An audio engine, addressed per channel. -/
structure AudioEngine where
  id : Nat
  deriving DecidableEq, Inhabited

/-- The control side of a stream, which knows its sender reports. -/
structure Transport where
  id : Nat
  deriving DecidableEq, Inhabited

/-- The receiving side of a stream, which knows its packets. -/
structure Receiver where
  id : Nat
  deriving DecidableEq, Inhabited

/-- The two sides of the stream behind an audio channel. -/
structure RtpHandles where
  transport : Transport
  receiver : Receiver
  deriving DecidableEq, Inhabited

/-! ## Answers -/

/-- Which of the two streams. -/
inductive Medium where
  | audio
  | video
  deriving DecidableEq, Inhabited

/-- How much audio is buffered before it is heard, in milliseconds. -/
structure DelayEstimate where
  jitterBuffer : Nat
  playoutBuffer : Nat
  deriving DecidableEq, Inhabited

/-- The largest delay that can be told or asked for, in milliseconds. -/
def maxTellableDelay : Nat := 4294967295

/-- The whole delay, as far as it can be told. -/
def DelayEstimate.total (e : DelayEstimate) : Nat :=
  min (e.jitterBuffer + e.playoutBuffer) maxTellableDelay

/-! ## Requests -/

/-- The requests. -/
inductive Request where
  /-- The delay that the video pipeline has now. -/
  | videoDelay
  /-- Hold video back by at least `delay` milliseconds. -/
  | holdVideo (delay : Nat)
  | delayEstimate (engine : AudioEngine) (channel : Channel)
  | rtpHandles (engine : AudioEngine) (channel : Channel)
  /-- Hold audio back by at least `delay` milliseconds, which the engine may refuse. -/
  | holdAudio (engine : AudioEngine) (channel : Channel) (delay : Nat)
  /-- The media time of the newest packet. -/
  | mediaTime (medium : Medium) (receiver : Receiver)
  /-- The arrival time of the newest packet. -/
  | arrivalTime (medium : Medium) (receiver : Receiver)
  /-- The newest sender report. -/
  | report (medium : Medium) (transport : Transport)
  deriving DecidableEq, Inhabited

/-- What each request is answered with. -/
abbrev Request.Answer : Request → Type
  | videoDelay => Nat
  | holdVideo _ => Unit
  | delayEstimate _ _ => Option DelayEstimate
  | rtpHandles _ _ => Option RtpHandles
  | holdAudio _ _ _ => Except SyncError Unit
  | mediaTime _ _ => Option MediaTime
  | arrivalTime _ _ => Option Int64
  | report _ _ => Option SenderReport

end LipSync

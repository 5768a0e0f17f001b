/-
# LipSync.Skew — how far video lags behind audio.

The skew is the receive delay of video less that of audio, in whole milliseconds: positive when
video took longer, so that audio has to wait for it. A network does not keep two streams of one
sender further apart than `Skew.limit`; more than that means that a clock has jumped or a sender has
restarted, and is an error instead of something to compensate.
-/
import LipSync.Reception

namespace LipSync

/-- A measured skew in milliseconds, by whether a network can have caused it. -/
inductive Skew where
  | tolerable (milliseconds : Int)
  | excessive (milliseconds : Binary64)
  deriving DecidableEq, Inhabited

namespace Skew

/-- The largest skew, either way, that a network can cause. -/
def limit : Int := 10000

/-- A number of milliseconds as an integer in 32 bits, held at the ends of their range. -/
def toMilliseconds (x : Binary64) : Int := x.truncateWithin (-2147483648) 2147483647

/-- The skew that a whole number of milliseconds amounts to. -/
def ofRounded (x : Binary64) : Skew :=
  if .ofInt limit < x.abs then excessive x else tolerable (toMilliseconds x)

/-- The skew of two receptions, or why there is none yet. -/
def measure (audio video : Reception) : Except SyncError Skew := do
  let audioDelay ← audio.delay
  let videoDelay ← video.delay
  return ofRounded (videoDelay - audioDelay).round

/-- The skew to act on. An excessive one is an error instead. -/
def accept : Skew → Except SyncError Int
  | tolerable milliseconds => .ok milliseconds
  | excessive x => .error (.skewOutOfRange (toMilliseconds x))

/-- What there is to tell about a skew: only an excessive one is worth a note. -/
def notes : Skew → List Note
  | tolerable _ => []
  | excessive x =>
    let millis := x.toFixed 0
    [⟨.warn, s!"ignoring implausible audio/video skew of {millis} ms"⟩]

end Skew

/-- How many milliseconds video lags behind audio. -/
def relativeDelay (audio video : Reception) : Except SyncError Int := do
  (← Skew.measure audio video).accept

end LipSync

/-
# LipSync.Playout.Compensator — turning a skew into playout delays.

The skew is measured before the packets are buffered, so it stays the same however long they are
held back. The compensator therefore remembers how much delay it has added to each stream, and acts
on the residual: the skew less what is compensated already. A positive residual holds audio back; a
negative one first gives back audio delay that was added before, and only then holds video back.

Each step moves one stream, by at most the greatest step, and raises no delay past the cap. A skew
or a residual inside the hysteresis moves nothing.
-/
import LipSync.Note
import LipSync.Playout.Delays

namespace LipSync

/-- How much delay has been added to each stream, and how the last step changed that of audio. -/
structure Compensator where
  tuning : Tuning
  extraAudio : Nat
  extraVideo : Nat
  lastAudioStep : Int
  deriving DecidableEq, Inhabited

/-- What a step made of the skew. -/
inductive Verdict where
  /-- The skew itself is inside the hysteresis. -/
  | negligible
  /-- The residual is inside the hysteresis. -/
  | settled (residual : Int)
  /-- The residual called for a move. -/
  | moved (residual : Int)
  deriving DecidableEq, Inhabited

/-- One step of a compensator: what it made of the skew, the delays to ask for, and the compensator
once they have been asked for. -/
structure Adjustment where
  verdict : Verdict
  targets : Delays
  next : Compensator
  deriving DecidableEq, Inhabited

namespace Compensator

/-- A compensator that has added no delay. -/
def initial (tuning : Tuning) : Compensator := ⟨tuning, 0, 0, 0⟩

/-- Forgets all delay added so far. -/
def reset (c : Compensator) : Compensator := initial c.tuning

/-! ## Steps -/

/-- How much skew has been compensated. -/
def compensated (c : Compensator) : Int := (c.extraAudio : Int) - c.extraVideo

/-- How much of a skew is left to compensate. -/
def residual (c : Compensator) (skew : Int) : Int := skew - c.compensated

/-- A step that changes nothing but forgets the one before. -/
def hold (c : Compensator) (verdict : Verdict) (current : Delays) : Adjustment :=
  ⟨verdict, current, { c with lastAudioStep := 0 }⟩

/-- A step towards a residual that calls for one. Delay that the cap kept out is not remembered as
added; a release is remembered in full, also where audio had less delay to give back. -/
def move (c : Compensator) (residual : Int) (current : Delays) : Adjustment :=
  let step := min residual.natAbs c.tuning.maxStep
  if 0 < residual then
    -- video is behind: hold audio back
    let target := c.tuning.raise current.audio step
    let added := target - current.audio
    ⟨.moved residual, { current with audio := target },
      { c with extraAudio := c.extraAudio + added, lastAudioStep := added }⟩
  else if 0 < c.extraAudio then
    -- audio is behind by delay of our own: give some of it back
    let release := min step c.extraAudio
    ⟨.moved residual, { current with audio := current.audio - release },
      { c with extraAudio := c.extraAudio - release, lastAudioStep := -(release : Int) }⟩
  else
    -- audio is behind by itself: hold video back
    let target := c.tuning.raise current.video step
    ⟨.moved residual, { current with video := target },
      { c with extraVideo := c.extraVideo + (target - current.video), lastAudioStep := 0 }⟩

/-- The step for a skew, given the delays that the streams have now. -/
def adjust (c : Compensator) (skew : Int) (current : Delays) : Adjustment :=
  if skew.natAbs < c.tuning.hysteresis then c.hold .negligible current
  else
    let residual := c.residual skew
    if residual.natAbs < c.tuning.hysteresis then c.hold (.settled residual) current
    else c.move residual current

/-- Takes back what the last step did to audio, for when the audio pipeline refused it. The next
step then asks again. -/
def revert (c : Compensator) : Compensator :=
  { c with extraAudio := ((c.extraAudio : Int) - c.lastAudioStep).toNat, lastAudioStep := 0 }

end Compensator

/-- What there is to tell about a step from the given delays. -/
def Adjustment.notes (a : Adjustment) (skew : Int) (current : Delays) : List Note :=
  match a.verdict with
  | .negligible => [⟨.trace, s!"skew {skew} ms within hysteresis"⟩]
  | .settled residual => [⟨.trace, s!"skew {skew} ms, residual {residual} ms within hysteresis"⟩]
  | .moved residual =>
    let audio := s!"audio {current.audio} -> {a.targets.audio} ms"
    let video := s!"video {current.video} -> {a.targets.video} ms"
    [⟨.trace, s!"skew {skew} ms, residual {residual} ms: {audio}, {video}"⟩]

end LipSync

/-
# LipSync.Proofs.Playout.Limits — what every single step keeps to.

Whatever a compensator has been through, and whatever delays the streams have now, a step moves at
most one stream, not far, and not past the cap (`Tuning.Allows`). The sign of the residual tells
which stream it may move and which way (`Compensator.Justifies`), and a skew or a residual inside
the hysteresis moves none.

What is remembered as added follows the targets (`Compensator.Remembers`). There is one exception:
audio can have less delay than was added to it, because the delays told are those of the pipelines.
A release of more than audio has leaves it with none, and is remembered in full all the same.
-/
import LipSync.Proofs.Playout.Step

namespace LipSync

/-- From the delays `current` the targets keep to the limits: video is never lowered, no delay moves
by more than the greatest step or is raised past the cap, and one of the two stays as it is. -/
structure Tuning.Allows (t : Tuning) (current targets : Delays) : Prop where
  video_le : current.video ≤ targets.video
  audio_near : ((targets.audio : Int) - current.audio).natAbs ≤ t.maxStep
  video_near : targets.video - current.video ≤ t.maxStep
  audio_capped : targets.audio ≤ max current.audio t.maxDelay
  video_capped : targets.video ≤ max current.video t.maxDelay
  one_stays : targets.audio = current.audio ∨ targets.video = current.video

namespace Compensator

/-- Each move has its reason: audio is held back for a positive residual, and for a negative one it
gets back what was added to it, or else video is held back. -/
structure Justifies (c : Compensator) (skew : Int) (current targets : Delays) : Prop where
  audio_raised : current.audio < targets.audio → 0 < c.residual skew
  audio_lowered : targets.audio < current.audio → c.residual skew < 0 ∧ 0 < c.extraAudio
  video_raised : current.video < targets.video → c.residual skew < 0 ∧ c.extraAudio = 0

/-- What is remembered as added changes by what the targets move, unless audio is to give back more
delay than it has: then it is left with none. -/
structure Remembers (c : Compensator) (current : Delays) (a : Adjustment) : Prop where
  video_eq : (a.next.extraVideo : Int) - c.extraVideo = a.targets.video - current.video
  audio_eq : c.extraAudio - a.next.extraAudio ≤ current.audio →
    (a.next.extraAudio : Int) - c.extraAudio = a.targets.audio - current.audio
  audio_spent : current.audio < c.extraAudio - a.next.extraAudio → a.targets.audio = 0

variable {c : Compensator} {skew : Int} {current : Delays} {a : Adjustment}

/-- The greatest step bounds how far a step wants to go. -/
theorem stride_le_maxStep (c : Compensator) (skew : Int) : c.stride skew ≤ c.tuning.maxStep :=
  Nat.min_le_right _ _

theorem allows_of_step (step : c.Step skew current a) : c.tuning.Allows current a.targets := by
  have hstride := c.stride_le_maxStep skew
  cases step with
  | rest verdict settled =>
    show c.tuning.Allows current current
    refine ⟨Nat.le_refl _, ?_, ?_, Nat.le_max_left _ _, Nat.le_max_left _ _, Or.inl rfl⟩
    · omega
    · omega
  | raiseAudio added unsettled ahead added_eq =>
    refine ⟨Nat.le_refl _, ?_, ?_, ?_, Nat.le_max_left _ _, Or.inr rfl⟩
    all_goals simp only
    all_goals omega
  | releaseAudio released unsettled behind held released_eq =>
    refine ⟨Nat.le_refl _, ?_, ?_, ?_, Nat.le_max_left _ _, Or.inr rfl⟩
    all_goals simp only
    all_goals omega
  | raiseVideo added unsettled behind spent added_eq =>
    refine ⟨Nat.le_add_right _ _, ?_, ?_, Nat.le_max_left _ _, ?_, Or.inl rfl⟩
    all_goals simp only
    all_goals omega

theorem justifies_of_step (step : c.Step skew current a) : c.Justifies skew current a.targets := by
  have hstride := c.stride_le_residual skew
  cases step with
  | rest verdict settled =>
    constructor <;> simp only [hold] <;> omega
  | raiseAudio added unsettled ahead added_eq =>
    constructor <;> simp only <;> omega
  | releaseAudio released unsettled behind held released_eq =>
    -- without a hysteresis the residual may be zero, but then nothing is released
    constructor <;> simp only <;> omega
  | raiseVideo added unsettled behind spent added_eq =>
    constructor <;> simp only <;> omega

theorem remembers_of_step (step : c.Step skew current a) : c.Remembers current a := by
  cases step with
  | rest verdict settled =>
    constructor <;> simp only [hold] <;> omega
  | raiseAudio added unsettled ahead added_eq =>
    constructor <;> simp only <;> omega
  | releaseAudio released unsettled behind held released_eq =>
    constructor <;> simp only <;> omega
  | raiseVideo added unsettled behind spent added_eq =>
    constructor <;> simp only <;> omega

/-- Whatever was called before, a step keeps to the limits of the tuning, moves nothing inside the
hysteresis, moves a stream only for a reason, remembers what it moves, and leaves the residual
between what it was and zero. -/
theorem every_step_keeps_to_limits (c : Compensator) (skew : Int) (current : Delays) :
    let a := c.adjust skew current
    c.tuning.Allows current a.targets ∧
      (skew.natAbs < c.tuning.hysteresis ∨ (c.residual skew).natAbs < c.tuning.hysteresis →
        a.targets = current ∧ a.next.extraAudio = c.extraAudio ∧
          a.next.extraVideo = c.extraVideo) ∧
      c.Justifies skew current a.targets ∧ c.Remembers current a ∧
      ((0 ≤ a.next.residual skew ∧ a.next.residual skew ≤ c.residual skew) ∨
        (c.residual skew ≤ a.next.residual skew ∧ a.next.residual skew ≤ 0)) := by
  intro a
  have step : c.Step skew current a := c.adjust_step skew current
  refine ⟨allows_of_step step, ?_, justifies_of_step step, remembers_of_step step,
    residual_between step⟩
  intro hquiet
  have hsettled : ¬c.Unsettled skew := by
    intro hunsettled
    rcases hquiet with hskew | hresidual
    · exact absurd hskew (Nat.not_lt.mpr hunsettled.1)
    · exact absurd hresidual (Nat.not_lt.mpr hunsettled.2)
  obtain ⟨verdict, hhold⟩ := eq_hold_of_settled step hsettled
  rw [hhold]
  exact ⟨rfl, rfl, rfl⟩

/-- Of forty milliseconds added, thirty are released from an audio delay of ten. -/
example :
    let a := adjust ⟨⟨30, 5, 400⟩, 40, 0, 0⟩ (-50) ⟨10, 40⟩
    a.targets = ⟨0, 40⟩ ∧ a.next.extraAudio = 10 := by
  decide

end Compensator

end LipSync

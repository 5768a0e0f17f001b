/-
# LipSync.Proofs.Playout.Step — what one step of a compensator can do.

A step does one of four things: it rests, it raises audio, it gives audio delay back, or it raises
video. `Compensator.Step` says of each when it is taken and by how much it moves, and
`Compensator.adjust_step` says that every adjustment is one of them. All that is proved of
compensators goes by these four cases and looks no further into the steps.
-/
import LipSync.Playout.Compensator

namespace LipSync

/-- Raising adds the step, or as much of it as there is room for below the cap. -/
theorem Tuning.raise_eq (t : Tuning) (delay step : Nat) :
    t.raise delay step = delay + min step (t.maxDelay - delay) := by
  unfold Tuning.raise
  split <;> omega

namespace Compensator

/-- How far a step wants to go. The cap, or a lack of audio delay to give back, can still stop it
short. -/
def stride (c : Compensator) (skew : Int) : Nat := min (c.residual skew).natAbs c.tuning.maxStep

/-- Neither the skew nor the residual is inside the hysteresis. -/
def Unsettled (c : Compensator) (skew : Int) : Prop :=
  c.tuning.hysteresis ≤ skew.natAbs ∧ c.tuning.hysteresis ≤ (c.residual skew).natAbs

/-- The adjustments that a step for `skew` from the delays `current` can come to. -/
inductive Step (c : Compensator) (skew : Int) (current : Delays) : Adjustment → Prop
  /-- The skew or the residual is inside the hysteresis, and nothing moves. -/
  | rest (verdict : Verdict) (settled : ¬c.Unsettled skew) :
      Step c skew current (c.hold verdict current)
  /-- Audio is held back, as far as the cap allows. -/
  | raiseAudio (added : Nat) (unsettled : c.Unsettled skew) (ahead : 0 < c.residual skew)
      (added_eq : added = min (c.stride skew) (c.tuning.maxDelay - current.audio)) :
      Step c skew current
        ⟨.moved (c.residual skew), { current with audio := current.audio + added },
          { c with extraAudio := c.extraAudio + added, lastAudioStep := added }⟩
  /-- Audio gets back some of the delay that was added to it. -/
  | releaseAudio (released : Nat) (unsettled : c.Unsettled skew) (behind : c.residual skew ≤ 0)
      (held : 0 < c.extraAudio) (released_eq : released = min (c.stride skew) c.extraAudio) :
      Step c skew current
        ⟨.moved (c.residual skew), { current with audio := current.audio - released },
          { c with extraAudio := c.extraAudio - released, lastAudioStep := -(released : Int) }⟩
  /-- No delay is left to give back, and video is held back, as far as the cap allows. -/
  | raiseVideo (added : Nat) (unsettled : c.Unsettled skew) (behind : c.residual skew ≤ 0)
      (spent : c.extraAudio = 0)
      (added_eq : added = min (c.stride skew) (c.tuning.maxDelay - current.video)) :
      Step c skew current
        ⟨.moved (c.residual skew), { current with video := current.video + added },
          { c with extraVideo := c.extraVideo + added, lastAudioStep := 0 }⟩

theorem move_step {c : Compensator} {skew : Int} (current : Delays) (h : c.Unsettled skew) :
    c.Step skew current (c.move (c.residual skew) current) := by
  unfold move
  simp only [Tuning.raise_eq, Nat.add_sub_cancel_left]
  split
  · next ahead => exact .raiseAudio _ h ahead rfl
  · next notAhead =>
    have behind : c.residual skew ≤ 0 := Int.not_lt.mp notAhead
    split
    · next held => exact .releaseAudio _ h behind held rfl
    · next notHeld => exact .raiseVideo _ h behind (Nat.eq_zero_of_not_pos notHeld) rfl

/-- Every adjustment is one of the four. -/
theorem adjust_step (c : Compensator) (skew : Int) (current : Delays) :
    c.Step skew current (c.adjust skew current) := by
  unfold adjust
  split
  · next small => exact .rest _ fun h => absurd h.1 (Nat.not_le.mpr small)
  · next large =>
    simp only
    split
    · next small => exact .rest _ fun h => absurd h.2 (Nat.not_le.mpr small)
    · next larger => exact move_step current ⟨Nat.not_lt.mp large, Nat.not_lt.mp larger⟩

/-- With the skew or the residual inside the hysteresis, a step only forgets the one before. -/
theorem eq_hold_of_settled {c : Compensator} {skew : Int} {current : Delays} {a : Adjustment}
    (step : c.Step skew current a) (h : ¬c.Unsettled skew) :
    ∃ verdict, a = c.hold verdict current := by
  cases step with
  | rest verdict settled => exact ⟨verdict, rfl⟩
  | raiseAudio added unsettled ahead added_eq => exact absurd unsettled h
  | releaseAudio released unsettled behind held released_eq => exact absurd unsettled h
  | raiseVideo added unsettled behind spent added_eq => exact absurd unsettled h

/-- No step goes past the residual, which is what keeps it from overshooting. -/
theorem stride_le_residual (c : Compensator) (skew : Int) :
    c.stride skew ≤ (c.residual skew).natAbs := Nat.min_le_left _ _

/-- A step leaves the tuning alone. -/
@[simp] theorem adjust_tuning (c : Compensator) (skew : Int) (current : Delays) :
    (c.adjust skew current).next.tuning = c.tuning := by
  have step := c.adjust_step skew current
  generalize c.adjust skew current = a at step
  cases step <;> rfl

/-! ## What the moves do to the residual -/

/-- The residual does not depend on how the last step went. -/
@[simp] theorem residual_forget (c : Compensator) (last skew : Int) :
    { c with lastAudioStep := last }.residual skew = c.residual skew := rfl

theorem residual_raiseAudio (c : Compensator) (added : Nat) (last skew : Int) :
    { c with extraAudio := c.extraAudio + added, lastAudioStep := last }.residual skew =
      c.residual skew - added := by
  simp only [residual, compensated]
  omega

theorem residual_releaseAudio {c : Compensator} {released : Nat} (h : released ≤ c.extraAudio)
    (last skew : Int) :
    { c with extraAudio := c.extraAudio - released, lastAudioStep := last }.residual skew =
      c.residual skew + released := by
  simp only [residual, compensated]
  omega

theorem residual_raiseVideo (c : Compensator) (added : Nat) (last skew : Int) :
    { c with extraVideo := c.extraVideo + added, lastAudioStep := last }.residual skew =
      c.residual skew + added := by
  simp only [residual, compensated]
  omega

/-- A step leaves the residual between what it was and zero. -/
theorem residual_between {c : Compensator} {skew : Int} {current : Delays} {a : Adjustment}
    (step : c.Step skew current a) :
    (0 ≤ a.next.residual skew ∧ a.next.residual skew ≤ c.residual skew) ∨
      (c.residual skew ≤ a.next.residual skew ∧ a.next.residual skew ≤ 0) := by
  have hstride := c.stride_le_residual skew
  cases step with
  | rest verdict settled =>
    simp only [hold, residual_forget]
    omega
  | raiseAudio added unsettled ahead added_eq =>
    simp only [residual_raiseAudio]
    omega
  | releaseAudio released unsettled behind held released_eq =>
    have hle : released ≤ c.extraAudio := by omega
    simp only [residual_releaseAudio hle]
    omega
  | raiseVideo added unsettled behind spent added_eq =>
    simp only [residual_raiseVideo]
    omega

/-! ## Taking the audio step back -/

/-- The step before makes no difference to the next one. -/
@[simp] theorem adjust_forget (c : Compensator) (last skew : Int) (current : Delays) :
    { c with lastAudioStep := last }.adjust skew current = c.adjust skew current := rfl

/-- The step remembered leads from what was added to audio before to what is added now, so taking it
back never has to stop at zero. -/
theorem extraAudio_sub_lastAudioStep (c : Compensator) (skew : Int) (current : Delays) :
    ((c.adjust skew current).next.extraAudio : Int) - (c.adjust skew current).next.lastAudioStep =
      c.extraAudio := by
  have step := c.adjust_step skew current
  generalize c.adjust skew current = a at step
  cases step with
  | rest verdict settled => simp only [hold, Int.sub_zero]
  | raiseAudio added unsettled ahead added_eq =>
    simp only
    omega
  | releaseAudio released unsettled behind held released_eq =>
    simp only
    omega
  | raiseVideo added unsettled behind spent added_eq => simp only [Int.sub_zero]

/-- Taking a step back leads to what was added to audio before it. -/
theorem revert_adjust (c : Compensator) (skew : Int) (current : Delays) :
    (c.adjust skew current).next.revert =
      { (c.adjust skew current).next with extraAudio := c.extraAudio, lastAudioStep := 0 } := by
  unfold revert
  rw [extraAudio_sub_lastAudioStep, Int.toNat_natCast]

theorem extraAudio_revert_adjust (c : Compensator) (skew : Int) (current : Delays) :
    (c.adjust skew current).next.revert.extraAudio = c.extraAudio := by
  rw [revert_adjust]

end Compensator

end LipSync

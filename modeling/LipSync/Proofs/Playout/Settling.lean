/-
# LipSync.Proofs.Playout.Settling — a constant skew is compensated and then left alone.

Two pipelines that follow every target close a loop: the targets of a step are the delays that the
next one starts from. While the skew stays the same, the residual only shrinks, and never through
zero; a step is as long as the greatest one unless it is the last before the loop comes to rest, or
the one that gives back the last of the audio delay. So there are at most two short steps, which
bounds the number of steps that move anything.

At rest the residual is inside the hysteresis, or the cap stops whatever could still be raised.
-/
import LipSync.Proofs.Playout.Step
import Mathlib.Algebra.Order.Floor.Div
import Mathlib.Logic.Function.Iterate

namespace LipSync

/-- A compensator, and the delays of two pipelines that follow its targets. -/
structure Playback extends Compensator where
  delays : Delays
  deriving DecidableEq

namespace Playback

/-- One step, which the pipelines follow. -/
def step (skew : Int) (p : Playback) : Playback :=
  ⟨(p.adjust skew p.delays).next, (p.adjust skew p.delays).targets⟩

/-- The playback after `n` steps for the same skew. -/
def after (p : Playback) (skew : Int) (n : Nat) : Playback := (step skew)^[n] p

/-- Nothing is left for a step to do: the residual is inside the hysteresis, or audio has to wait
but is at the cap, or video has to wait, with no audio delay left to give back, but is at the
cap. -/
def Resting (p : Playback) (skew : Int) : Prop :=
  (p.residual skew).natAbs < max p.tuning.hysteresis 1 ∨
  (0 < p.residual skew ∧ p.tuning.maxDelay ≤ p.delays.audio) ∨
  (p.residual skew < 0 ∧ p.extraAudio = 0 ∧ p.tuning.maxDelay ≤ p.delays.video)

variable {p q : Playback} {skew : Int}

@[simp] theorem step_tuning (skew : Int) (p : Playback) : (p.step skew).tuning = p.tuning :=
  p.adjust_tuning skew p.delays

theorem after_succ (p : Playback) (skew : Int) (n : Nat) :
    p.after skew (n + 1) = (p.after skew n).step skew :=
  Function.iterate_succ_apply' (step skew) n p

/-! ## The residual shrinks towards zero -/

/-- A step leaves the residual between what it was and zero. -/
theorem residual_step (p : Playback) (skew : Int) :
    (0 ≤ (p.step skew).residual skew ∧ (p.step skew).residual skew ≤ p.residual skew) ∨
    (p.residual skew ≤ (p.step skew).residual skew ∧ (p.step skew).residual skew ≤ 0) :=
  Compensator.residual_between (p.adjust_step skew p.delays)

/-! ## At rest nothing moves -/

/-- A step at rest only forgets the step before. -/
theorem Resting.step_eq (h : p.Resting skew) : p.step skew = { p with lastAudioStep := 0 } := by
  have hadjust := p.adjust_step skew p.delays
  have hstride := p.stride_le_residual skew
  unfold step
  generalize p.adjust skew p.delays = a at hadjust
  unfold Resting at h
  cases hadjust with
  | rest verdict settled => rfl
  | raiseAudio added unsettled ahead added_eq =>
    have hloud := unsettled.2
    have hnone : added = 0 := by omega
    subst hnone
    rfl
  | releaseAudio released unsettled behind held released_eq =>
    have hloud := unsettled.2
    have hnone : released = 0 := by omega
    subst hnone
    rfl
  | raiseVideo added unsettled behind spent added_eq =>
    have hloud := unsettled.2
    have hnone : added = 0 := by omega
    subst hnone
    rfl

/-- The same delays, and the same remembered as added. -/
def SameDelays (p q : Playback) : Prop :=
  p.delays = q.delays ∧ p.extraAudio = q.extraAudio ∧ p.extraVideo = q.extraVideo

/-- Once at rest, always at rest and with the same delays. -/
theorem Resting.after (h : p.Resting skew) (n : Nat) :
    (p.after skew n).Resting skew ∧ (p.after skew n).SameDelays p := by
  induction n with
  | zero => exact ⟨h, rfl, rfl, rfl⟩
  | succ n ih =>
    obtain ⟨hrest, hsame⟩ := ih
    rw [after_succ, hrest.step_eq]
    exact ⟨hrest, hsame⟩

/-! ## Until it rests, every step brings it closer -/

/-- The next move gives audio delay back. -/
def GivesBack (p : Playback) (skew : Int) : Prop := p.residual skew < 0 ∧ 0 < p.extraAudio

instance (p : Playback) (skew : Int) : Decidable (p.GivesBack skew) :=
  inferInstanceAs (Decidable (_ ∧ _))

/-- A bound for the steps that still move something: the greatest steps that cover the residual, and
one more while there is audio delay to give back, because the last of it makes a short step. -/
def stepsLeft (p : Playback) (skew : Int) : Nat :=
  (p.residual skew).natAbs ⌈/⌉ p.tuning.maxStep + if p.GivesBack skew then 1 else 0

theorem stepsLeft_le (p : Playback) (skew : Int) :
    p.stepsLeft skew ≤ (p.residual skew).natAbs ⌈/⌉ p.tuning.maxStep + 1 := by
  unfold stepsLeft
  split <;> omega

theorem ceilDiv_sub_min_lt {x m : Nat} (hx : 0 < x) (hm : 0 < m) :
    (x - min x m) ⌈/⌉ m < x ⌈/⌉ m := by
  have hle : x ≤ m * (x ⌈/⌉ m) := (ceilDiv_le_iff_le_mul hm).mp le_rfl
  have hpos : 0 < x ⌈/⌉ m := by
    rw [Nat.pos_iff_ne_zero]
    intro hzero
    rw [hzero] at hle
    omega
  have hpred : (x - min x m) ⌈/⌉ m ≤ x ⌈/⌉ m - 1 := by
    rw [ceilDiv_le_iff_le_mul hm, Nat.mul_sub_one]
    omega
  omega

/-- A move of full length leaves fewer steps. -/
theorem stepsLeft_lt_of_full (hmax : 0 < p.tuning.maxStep) (htuning : q.tuning = p.tuning)
    (hres : p.residual skew ≠ 0)
    (hfull : (q.residual skew).natAbs = (p.residual skew).natAbs - p.stride skew)
    (hgives : q.GivesBack skew → p.GivesBack skew) : q.stepsLeft skew < p.stepsLeft skew := by
  have hlt := ceilDiv_sub_min_lt (Int.natAbs_pos.mpr hres) hmax
  unfold stepsLeft
  rw [htuning, hfull, Compensator.stride]
  split <;> split <;> first | omega | tauto

/-- So does the short one that gives back the last of the audio delay. -/
theorem stepsLeft_lt_of_spent (hmax : 0 < p.tuning.maxStep) (htuning : q.tuning = p.tuning)
    (hres : (q.residual skew).natAbs ≤ (p.residual skew).natAbs)
    (hq : ¬q.GivesBack skew) (hp : p.GivesBack skew) : q.stepsLeft skew < p.stepsLeft skew := by
  have hle : (q.residual skew).natAbs ⌈/⌉ p.tuning.maxStep ≤
      (p.residual skew).natAbs ⌈/⌉ p.tuning.maxStep :=
    (ceilDiv_le_iff_le_mul hmax).mpr
      (Nat.le_trans hres ((ceilDiv_le_iff_le_mul hmax).mp le_rfl))
  unfold stepsLeft
  rw [htuning, if_neg hq, if_pos hp]
  omega

/-- A step that does not bring the playback to rest leaves fewer of them. -/
theorem resting_step_or_stepsLeft_lt (hmax : 0 < p.tuning.maxStep)
    (hskew : p.tuning.hysteresis ≤ skew.natAbs) (h : ¬p.Resting skew) :
    (p.step skew).Resting skew ∨ (p.step skew).stepsLeft skew < p.stepsLeft skew := by
  have hres : p.residual skew ≠ 0 := by
    unfold Resting at h
    omega
  have hstride := p.stride_le_residual skew
  have htuning := step_tuning skew p
  have hadjust := p.adjust_step skew p.delays
  unfold step at htuning ⊢
  generalize p.adjust skew p.delays = a at hadjust htuning ⊢
  cases hadjust with
  | rest verdict settled =>
    have hquiet : (p.residual skew).natAbs < p.tuning.hysteresis :=
      Nat.not_le.mp fun hle => settled ⟨hskew, hle⟩
    exact absurd (Or.inl (by omega)) h
  | raiseAudio added unsettled ahead added_eq =>
    have hnext := p.residual_raiseAudio added added skew
    by_cases hroom : p.stride skew ≤ p.tuning.maxDelay - p.delays.audio
    · refine Or.inr (stepsLeft_lt_of_full hmax htuning hres ?_ ?_)
      · rw [hnext]
        omega
      · rintro ⟨hbelow, -⟩
        rw [hnext] at hbelow
        omega
    · -- the cap cuts the move short, and audio is at the cap after it
      refine Or.inl ?_
      unfold Resting
      rw [hnext]
      simp only
      omega
  | releaseAudio released unsettled behind held released_eq =>
    have hle : released ≤ p.extraAudio := by omega
    have hnext := Compensator.residual_releaseAudio hle (-(released : Int)) skew
    have hgives : p.GivesBack skew := ⟨by omega, held⟩
    by_cases hroom : p.stride skew ≤ p.extraAudio
    · refine Or.inr (stepsLeft_lt_of_full hmax htuning hres ?_ fun _ => hgives)
      rw [hnext]
      omega
    · refine Or.inr (stepsLeft_lt_of_spent hmax htuning ?_ ?_ hgives)
      · rw [hnext]
        omega
      · rintro ⟨-, hleft⟩
        simp only at hleft
        omega
  | raiseVideo added unsettled behind spent added_eq =>
    have hnext := p.residual_raiseVideo added 0 skew
    by_cases hroom : p.stride skew ≤ p.tuning.maxDelay - p.delays.video
    · refine Or.inr (stepsLeft_lt_of_full hmax htuning hres ?_ ?_)
      · rw [hnext]
        omega
      · rintro ⟨-, hleft⟩
        simp only at hleft
        omega
    · refine Or.inl ?_
      unfold Resting
      rw [hnext]
      simp only
      omega

/-- With no steps left the playback is at rest. -/
theorem resting_of_stepsLeft_eq_zero (hmax : 0 < p.tuning.maxStep) (h : p.stepsLeft skew = 0) :
    p.Resting skew := by
  have hzero : (p.residual skew).natAbs ⌈/⌉ p.tuning.maxStep = 0 := by
    unfold stepsLeft at h
    omega
  have hle := (ceilDiv_le_iff_le_mul hmax).mp (Nat.le_of_eq hzero)
  refine Or.inl ?_
  omega

theorem resting_after (hmax : 0 < p.tuning.maxStep) (hskew : p.tuning.hysteresis ≤ skew.natAbs)
    {n : Nat} (hn : p.stepsLeft skew ≤ n) : (p.after skew n).Resting skew := by
  induction n generalizing p with
  | zero => exact resting_of_stepsLeft_eq_zero hmax (Nat.le_zero.mp hn)
  | succ n ih =>
    by_cases hrest : p.Resting skew
    · exact (hrest.after (n + 1)).1
    · change ((p.step skew).after skew n).Resting skew
      rcases resting_step_or_stepsLeft_lt hmax hskew hrest with hnow | hfewer
      · exact (hnow.after n).1
      · rw [← step_tuning skew p] at hmax hskew
        exact ih hmax hskew (by omega)

/-- A constant skew outside the hysteresis is compensated without overshoot, and after as many steps
as the greatest ones that cover the residual, and one more, nothing moves any longer. -/
theorem settles_without_overshoot (p : Playback) (skew : Int) (hmax : 1 ≤ p.tuning.maxStep)
    (hskew : p.tuning.hysteresis ≤ skew.natAbs) :
    let enough := (p.residual skew).natAbs ⌈/⌉ p.tuning.maxStep + 1
    (∀ n, (0 ≤ (p.after skew (n + 1)).residual skew ∧
          (p.after skew (n + 1)).residual skew ≤ (p.after skew n).residual skew) ∨
        ((p.after skew n).residual skew ≤ (p.after skew (n + 1)).residual skew ∧
          (p.after skew (n + 1)).residual skew ≤ 0)) ∧
    (∀ n, enough ≤ n → (p.after skew n).SameDelays (p.after skew enough)) ∧
    (∀ n, enough ≤ n → (p.after skew n).Resting skew) := by
  intro enough
  have hrest : (p.after skew enough).Resting skew :=
    resting_after hmax hskew (p.stepsLeft_le skew)
  have hlater : ∀ n, enough ≤ n →
      (p.after skew n).Resting skew ∧ (p.after skew n).SameDelays (p.after skew enough) := by
    intro n hn
    have hsplit : p.after skew n = (p.after skew enough).after skew (n - enough) := by
      unfold after
      rw [← Function.iterate_add_apply, Nat.sub_add_cancel hn]
    rw [hsplit]
    exact hrest.after (n - enough)
  refine ⟨fun n => ?_, fun n hn => (hlater n hn).2, fun n hn => (hlater n hn).1⟩
  rw [after_succ]
  exact residual_step (p.after skew n) skew

/-- Forty milliseconds of audio delay are given back in a full step and a short one before video is
raised by fifty, so that all four steps are needed. -/
theorem settles_without_overshoot_past_release :
    let p : Playback := ⟨⟨⟨30, 5, 400⟩, 40, 0, 0⟩, ⟨60, 40⟩⟩
    1 ≤ p.tuning.maxStep ∧ p.tuning.hysteresis ≤ (-50 : Int).natAbs ∧
      (p.after (-50) 3).delays = ⟨20, 70⟩ ∧ (p.after (-50) 4).delays = ⟨20, 90⟩ ∧
      ∀ n, 4 ≤ n → (p.after (-50) n).SameDelays (p.after (-50) 4) ∧
        (p.after (-50) n).Resting (-50) := by
  intro p
  have hmax : 1 ≤ p.tuning.maxStep := by decide
  have hskew : p.tuning.hysteresis ≤ (-50 : Int).natAbs := by decide
  obtain ⟨-, hsame, hrest⟩ := settles_without_overshoot p (-50) hmax hskew
  have henough : (p.residual (-50)).natAbs ⌈/⌉ p.tuning.maxStep + 1 = 4 := by decide
  rw [henough] at hsame hrest
  exact ⟨hmax, hskew, by decide, by decide, fun n hn => ⟨hsame n hn, hrest n hn⟩⟩

end Playback

end LipSync

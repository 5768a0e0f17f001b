/-
# LipSync.Proofs.Playout.Noise — noise inside the hysteresis does not make the delays swing.

A measured skew is never quite the same twice. As long as the skews stay in a band that is narrower
than the hysteresis, a compensator goes to the band once and stays there. From below it only ever
holds audio back, from above it only ever gives audio delay back and holds video back, and once the
compensation is in the band no step moves anything: the residual is at most as wide as the band.
Each step that does move something brings the compensation a millisecond nearer at least, which
bounds their number.

Nothing is assumed of the delays that the steps start from. They need not follow the targets.
-/
import LipSync.Proofs.Playout.Step

namespace LipSync

/-! ## Steps in a row -/

/-- What a compensator is given for one step: the skew, and the delays that the streams have now. -/
structure Measured where
  skew : Int
  current : Delays
  deriving DecidableEq

/-- The skew lies between `low` and `high`. -/
def Measured.Between (low high : Int) (m : Measured) : Prop := low ≤ m.skew ∧ m.skew ≤ high

instance (low high : Int) (m : Measured) : Decidable (m.Between low high) :=
  inferInstanceAs (Decidable (_ ∧ _))

/-- A step that has been taken: the compensator before it, what it was given, and what it came
to. -/
structure Taken where
  before : Compensator
  measured : Measured
  adjustment : Adjustment
  deriving DecidableEq

namespace Taken

/-- The compensator after the step. -/
def next (t : Taken) : Compensator := t.adjustment.next

/-- The step moves the compensation. -/
def Moves (t : Taken) : Prop := t.next.compensated ≠ t.before.compensated

instance (t : Taken) : Decidable t.Moves := inferInstanceAs (Decidable (_ ≠ _))

/-- The step leaves both streams as they are, and what is remembered of them. -/
structure Rests (t : Taken) : Prop where
  targets_eq : t.adjustment.targets = t.measured.current
  extraAudio_eq : t.next.extraAudio = t.before.extraAudio
  extraVideo_eq : t.next.extraVideo = t.before.extraVideo

/-- The step does not lower the compensation, nor raise it past `high`, and leaves video alone. It
moves the compensation only where that is below `low`. -/
structure Climbs (low high : Int) (t : Taken) : Prop where
  le_next : t.before.compensated ≤ t.next.compensated
  next_le : t.next.compensated ≤ high
  video_eq : t.adjustment.targets.video = t.measured.current.video
  extraVideo_eq : t.next.extraVideo = t.before.extraVideo
  lt_of_moves : t.Moves → t.before.compensated < low

/-- The step does not raise the compensation, nor lower it past `low`, and does not raise audio. It
moves the compensation only where that is above `high`. -/
structure Sinks (low high : Int) (t : Taken) : Prop where
  next_le : t.next.compensated ≤ t.before.compensated
  le_next : low ≤ t.next.compensated
  audio_le : t.adjustment.targets.audio ≤ t.measured.current.audio
  extraAudio_le : t.next.extraAudio ≤ t.before.extraAudio
  lt_of_moves : t.Moves → high < t.before.compensated

namespace Rests

variable {t : Taken} {low high : Int}

theorem compensated_eq (h : t.Rests) : t.next.compensated = t.before.compensated := by
  rw [Compensator.compensated, Compensator.compensated, h.extraAudio_eq, h.extraVideo_eq]

theorem climbs (h : t.Rests) (hhigh : t.before.compensated ≤ high) : t.Climbs low high where
  le_next := Int.le_of_eq h.compensated_eq.symm
  next_le := by rwa [h.compensated_eq]
  video_eq := congrArg Delays.video h.targets_eq
  extraVideo_eq := h.extraVideo_eq
  lt_of_moves hmoves := absurd h.compensated_eq hmoves

theorem sinks (h : t.Rests) (hlow : low ≤ t.before.compensated) : t.Sinks low high where
  next_le := Int.le_of_eq h.compensated_eq
  le_next := by rwa [h.compensated_eq]
  audio_le := Nat.le_of_eq (congrArg Delays.audio h.targets_eq)
  extraAudio_le := Nat.le_of_eq h.extraAudio_eq
  lt_of_moves hmoves := absurd h.compensated_eq hmoves

end Rests

end Taken

/-- How many of the steps move the compensation. -/
def moveCount (taken : List Taken) : Nat := taken.countP fun t => decide t.Moves

namespace Compensator

/-- The steps that are taken when these are measured in order. -/
def steps (c : Compensator) : List Measured → List Taken
  | [] => []
  | m :: ms =>
    let adjustment := c.adjust m.skew m.current
    ⟨c, m, adjustment⟩ :: adjustment.next.steps ms

variable {c : Compensator} {low high : Int} {m : Measured} {ms : List Measured} {a : Adjustment}

/-! ## One step inside the noise -/

theorem rests_of_settled (h : ¬c.Unsettled m.skew) (step : c.Step m.skew m.current a) :
    Taken.Rests ⟨c, m, a⟩ := by
  obtain ⟨verdict, rfl⟩ := eq_hold_of_settled step h
  exact ⟨rfl, rfl, rfl⟩

/-- With the compensation in the band, the residual is inside the hysteresis. -/
theorem rests_of_mem (hnarrow : high - low < c.tuning.hysteresis) (hm : m.Between low high)
    (hlow : low ≤ c.compensated) (hhigh : c.compensated ≤ high)
    (step : c.Step m.skew m.current a) : Taken.Rests ⟨c, m, a⟩ := by
  apply rests_of_settled _ step
  rintro ⟨-, hloud⟩
  obtain ⟨hskewLow, hskewHigh⟩ := hm
  unfold residual at hloud
  omega

/-- From below the band a step raises audio, and not past the skew. -/
theorem climbs_of_lt (hbelow : c.compensated < low) (hm : m.Between low high)
    (step : c.Step m.skew m.current a) : Taken.Climbs low high ⟨c, m, a⟩ := by
  obtain ⟨hskewLow, hskewHigh⟩ := hm
  have hstride := c.stride_le_residual m.skew
  -- both ways of moving the compensation down take a residual that is not positive
  have hahead : 0 < c.residual m.skew := by
    unfold residual
    omega
  cases step with
  | rest verdict settled =>
    have hrests : Taken.Rests ⟨c, m, c.hold verdict m.current⟩ :=
      rests_of_settled settled (.rest verdict settled)
    exact hrests.climbs (by simp only; omega)
  | raiseAudio added unsettled ahead added_eq =>
    have hnext := c.residual_raiseAudio added added m.skew
    unfold residual at hnext hstride
    refine ⟨?_, ?_, rfl, rfl, fun _ => hbelow⟩
    · simp only [Taken.next]
      omega
    · simp only [Taken.next]
      omega
  | releaseAudio released unsettled behind held released_eq =>
    exact absurd hahead (Int.not_lt.mpr behind)
  | raiseVideo added unsettled behind spent added_eq =>
    exact absurd hahead (Int.not_lt.mpr behind)

/-- From above the band a step gives audio delay back or raises video, and not past the skew. -/
theorem sinks_of_gt (habove : high < c.compensated) (hm : m.Between low high)
    (step : c.Step m.skew m.current a) : Taken.Sinks low high ⟨c, m, a⟩ := by
  obtain ⟨hskewLow, hskewHigh⟩ := hm
  have hstride := c.stride_le_residual m.skew
  have hbehind : c.residual m.skew ≤ 0 := by
    unfold residual
    omega
  cases step with
  | rest verdict settled =>
    have hrests : Taken.Rests ⟨c, m, c.hold verdict m.current⟩ :=
      rests_of_settled settled (.rest verdict settled)
    exact hrests.sinks (by simp only; omega)
  | raiseAudio added unsettled ahead added_eq => exact absurd ahead (Int.not_lt.mpr hbehind)
  | releaseAudio released unsettled behind held released_eq =>
    have hheld : released ≤ c.extraAudio := released_eq ▸ Nat.min_le_right _ _
    have hnext := residual_releaseAudio hheld (-(released : Int)) m.skew
    unfold residual at hnext hstride
    refine ⟨?_, ?_, Nat.sub_le _ _, Nat.sub_le _ _, fun _ => habove⟩
    · simp only [Taken.next]
      omega
    · simp only [Taken.next]
      omega
  | raiseVideo added unsettled behind spent added_eq =>
    have hnext := c.residual_raiseVideo added 0 m.skew
    unfold residual at hnext hstride
    refine ⟨?_, ?_, Nat.le_refl _, Nat.le_refl _, fun _ => habove⟩
    · simp only [Taken.next]
      omega
    · simp only [Taken.next]
      omega

theorem climbs_of_le (hnarrow : high - low < c.tuning.hysteresis) (hm : m.Between low high)
    (hhigh : c.compensated ≤ high) (step : c.Step m.skew m.current a) :
    Taken.Climbs low high ⟨c, m, a⟩ := by
  by_cases hlow : low ≤ c.compensated
  · exact (rests_of_mem hnarrow hm hlow hhigh step).climbs hhigh
  · exact climbs_of_lt (Int.not_le.mp hlow) hm step

theorem sinks_of_ge (hnarrow : high - low < c.tuning.hysteresis) (hm : m.Between low high)
    (hlow : low ≤ c.compensated) (step : c.Step m.skew m.current a) :
    Taken.Sinks low high ⟨c, m, a⟩ := by
  by_cases hhigh : c.compensated ≤ high
  · exact (rests_of_mem hnarrow hm hlow hhigh step).sinks hlow
  · exact sinks_of_gt (Int.not_le.mp hhigh) hm step

/-! ## Steps in a row inside the noise -/

/-- What every step shows that keeps an invariant, all of them show; and when each move leaves fewer
of them to be made, no more are made than were left. -/
theorem steps_induction (Inv : Compensator → Prop) (left : Compensator → Nat) {Shows : Taken → Prop}
    (hstep : ∀ (d : Compensator) (m : Measured), d.tuning = c.tuning → Inv d → m.Between low high →
      let t : Taken := ⟨d, m, d.adjust m.skew m.current⟩
      Shows t ∧ Inv t.next ∧ left t.next ≤ left d ∧ (t.Moves → left t.next < left d))
    (hinv : Inv c) (hms : ∀ m ∈ ms, m.Between low high) :
    (∀ t ∈ c.steps ms, Shows t) ∧ moveCount (c.steps ms) ≤ left c := by
  induction ms generalizing c with
  | nil => exact ⟨fun t ht => absurd ht List.not_mem_nil, Nat.zero_le _⟩
  | cons m ms ih =>
    obtain ⟨hfirst, hnext, hleft, hmoves⟩ := hstep c m rfl hinv (hms m List.mem_cons_self)
    have htuning := c.adjust_tuning m.skew m.current
    obtain ⟨hrest, hcount⟩ := ih (fun d m' hd => hstep d m' (hd.trans htuning)) hnext
      fun m' hm' => hms m' (List.mem_cons_of_mem m hm')
    constructor
    · intro t ht
      rcases List.mem_cons.mp ht with rfl | ht
      · exact hfirst
      · exact hrest t ht
    · -- a first step that moves is counted, and `left` has gone down by it
      simp only [steps, moveCount, List.countP_cons, decide_eq_true_eq] at hcount ⊢
      split
      · next hmove => exact Nat.lt_of_le_of_lt hcount (hmoves hmove)
      · exact Nat.le_trans hcount hleft

/-- In the band nothing moves. -/
theorem steps_rest (hnarrow : high - low < c.tuning.hysteresis) (hlow : low ≤ c.compensated)
    (hhigh : c.compensated ≤ high) (hms : ∀ m ∈ ms, m.Between low high) :
    ∀ t ∈ c.steps ms, t.adjustment.targets = t.measured.current ∧
      t.next.extraAudio = c.extraAudio ∧ t.next.extraVideo = c.extraVideo := by
  refine (steps_induction (fun d => d.extraAudio = c.extraAudio ∧ d.extraVideo = c.extraVideo)
    (fun _ => 0) ?_ ⟨rfl, rfl⟩ hms).1
  rintro d m htuning ⟨haudio, hvideo⟩ hm t
  have hsame : d.compensated = c.compensated := by rw [compensated, compensated, haudio, hvideo]
  have hrests : t.Rests := rests_of_mem (by rwa [htuning]) hm (by rwa [hsame]) (by rwa [hsame])
    (d.adjust_step m.skew m.current)
  have hextras := And.intro (hrests.extraAudio_eq.trans haudio) (hrests.extraVideo_eq.trans hvideo)
  refine ⟨⟨hrests.targets_eq, hextras⟩, hextras, Nat.le_refl 0, ?_⟩
  intro hmoves
  exact absurd hrests.compensated_eq hmoves

/-- From below the band every step climbs, and there are no more moves than the way to the band has
room for. -/
theorem steps_climb (hnarrow : high - low < c.tuning.hysteresis) (hhigh : c.compensated ≤ high)
    (hms : ∀ m ∈ ms, m.Between low high) :
    (∀ t ∈ c.steps ms, t.Climbs low high) ∧
      moveCount (c.steps ms) ≤ (low - c.compensated).toNat := by
  -- what is left to move is the way up to the band
  refine steps_induction (fun d => d.compensated ≤ high) (fun d => (low - d.compensated).toNat) ?_
    hhigh hms
  intro d m htuning hhigh hm t
  have hclimbs : t.Climbs low high :=
    climbs_of_le (by rwa [htuning]) hm hhigh (d.adjust_step m.skew m.current)
  have hup : d.compensated ≤ t.next.compensated := hclimbs.le_next
  refine ⟨hclimbs, hclimbs.next_le, by omega, ?_⟩
  intro hmoves
  have hbelow : d.compensated < low := hclimbs.lt_of_moves hmoves
  have hne : t.next.compensated ≠ d.compensated := hmoves
  omega

/-- From above the band every step sinks, and there are no more moves than the way to the band has
room for. -/
theorem steps_sink (hnarrow : high - low < c.tuning.hysteresis) (hlow : low ≤ c.compensated)
    (hms : ∀ m ∈ ms, m.Between low high) :
    (∀ t ∈ c.steps ms, t.Sinks low high) ∧
      moveCount (c.steps ms) ≤ (c.compensated - high).toNat := by
  refine steps_induction (fun d => low ≤ d.compensated) (fun d => (d.compensated - high).toNat) ?_
    hlow hms
  intro d m htuning hlow hm t
  have hsinks : t.Sinks low high :=
    sinks_of_ge (by rwa [htuning]) hm hlow (d.adjust_step m.skew m.current)
  have hdown : t.next.compensated ≤ d.compensated := hsinks.next_le
  refine ⟨hsinks, hsinks.le_next, by omega, ?_⟩
  intro hmoves
  have habove : high < d.compensated := hsinks.lt_of_moves hmoves
  have hne : t.next.compensated ≠ d.compensated := hmoves
  omega

/-- Noise that is narrower than the hysteresis never makes the delays swing. Compensation inside the
noise stays as it is, with nothing moved. Compensation below it only rises, by audio alone, and not
past the noise; above it, it only falls, without audio being raised, and not past the noise either.
And it moves no more often than it is milliseconds away. -/
theorem noise_never_swings (c : Compensator) {low high : Int} (hle : low ≤ high)
    (hnarrow : high - low < c.tuning.hysteresis) {ms : List Measured}
    (hms : ∀ m ∈ ms, m.Between low high) :
    (low ≤ c.compensated → c.compensated ≤ high →
      ∀ t ∈ c.steps ms, t.adjustment.targets = t.measured.current ∧
        t.next.extraAudio = c.extraAudio ∧ t.next.extraVideo = c.extraVideo) ∧
    (c.compensated < low →
      (∀ t ∈ c.steps ms, t.Climbs low high) ∧
        (moveCount (c.steps ms) : Int) ≤ low - c.compensated) ∧
    (high < c.compensated →
      (∀ t ∈ c.steps ms, t.Sinks low high) ∧
        (moveCount (c.steps ms) : Int) ≤ c.compensated - high) := by
  refine ⟨fun hlow hhigh => steps_rest hnarrow hlow hhigh hms, ?_, ?_⟩
  · intro hbelow
    obtain ⟨hclimb, hcount⟩ := steps_climb hnarrow (by omega) hms
    exact ⟨hclimb, by omega⟩
  · intro habove
    obtain ⟨hsink, hcount⟩ := steps_sink hnarrow (by omega) hms
    exact ⟨hsink, by omega⟩

/-- Audio delay is given back in a full step and a short one, with a skew inside the hysteresis in
between; then video is raised up to the cap, and the residual is inside the hysteresis. The current
delays are not the ones asked for before. -/
theorem noise_never_swings_past_release :
    let c : Compensator := ⟨⟨30, 20, 100⟩, 40, 0, 0⟩
    let ms : List Measured := [⟨-30, ⟨5, 40⟩⟩, ⟨-16, ⟨80, 40⟩⟩, ⟨-25, ⟨60, 40⟩⟩, ⟨-30, ⟨60, 90⟩⟩,
      ⟨-28, ⟨60, 0⟩⟩]
    (-30 : Int) ≤ -15 ∧ -15 - -30 < (c.tuning.hysteresis : Int) ∧
      (∀ m ∈ ms, m.Between (-30) (-15)) ∧ -15 < c.compensated ∧
      (∀ t ∈ c.steps ms, t.Sinks (-30) (-15)) ∧ moveCount (c.steps ms) = 3 ∧
      (moveCount (c.steps ms) : Int) ≤ c.compensated - -15 := by
  intro c ms
  have hle : (-30 : Int) ≤ -15 := by decide
  have hnarrow : -15 - -30 < (c.tuning.hysteresis : Int) := by decide
  have hms : ∀ m ∈ ms, m.Between (-30) (-15) := by decide
  have habove : -15 < c.compensated := by decide
  obtain ⟨hsink, hcount⟩ := (noise_never_swings c hle hnarrow hms).2.2 habove
  exact ⟨hle, hnarrow, hms, habove, hsink, by decide, hcount⟩

end Compensator

end LipSync

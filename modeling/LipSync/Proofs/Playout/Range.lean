/-
# LipSync.Proofs.Playout.Range — the delays that a compensator can have added.

A compensator is used through three calls in any order: a step, taking back the audio part of the
last step, and a reset. Whatever the order, the compensation stays between the skews that were asked
for, so the delay added to video has the size of the least of them, and the delay added to audio can
exceed that by the greatest. `Compensator.Kept` is what every call keeps; it speaks of audio also as
it was before the last step, because that is where `revert` goes back to.

With skews of 32 bits the delay added to audio just fits an unsigned word of 32 bits. So a step
computed in such words, `Compensator.adjustInWords?`, never overflows and is the step itself.
-/
import LipSync.Pipeline.Request
import LipSync.Proofs.Playout.Step

namespace LipSync

/-! ## Calls on a compensator -/

/-- A call on a compensator. -/
inductive Operation where
  | adjust (skew : Int) (current : Delays)
  | revert
  | reset
  deriving DecidableEq

/-- The skew of the call, if there is one, lies between `low` and `high`. -/
def Operation.Within (low high : Int) : Operation → Prop
  | adjust skew _ => low ≤ skew ∧ skew ≤ high
  | revert | reset => True

instance (low high : Int) : (op : Operation) → Decidable (op.Within low high)
  | .adjust skew _ => inferInstanceAs (Decidable (low ≤ skew ∧ skew ≤ high))
  | .revert | .reset => inferInstanceAs (Decidable True)

namespace Compensator

/-- A compensator after a call. -/
def call (c : Compensator) : Operation → Compensator
  | .adjust skew current => (c.adjust skew current).next
  | .revert => c.revert
  | .reset => c.reset

/-- A compensator after some calls in order. -/
def calls (c : Compensator) (ops : List Operation) : Compensator := ops.foldl call c

@[simp] theorem calls_nil (c : Compensator) : c.calls [] = c := rfl

@[simp] theorem calls_cons (c : Compensator) (op : Operation) (ops : List Operation) :
    c.calls (op :: ops) = (c.call op).calls ops := rfl

@[simp] theorem calls_tuning (c : Compensator) (ops : List Operation) :
    (c.calls ops).tuning = c.tuning := by
  induction ops generalizing c with
  | nil => rfl
  | cons op ops ih =>
    rw [calls_cons, ih]
    cases op with
    | adjust skew current => exact c.adjust_tuning skew current
    | revert => rfl
    | reset => rfl

/-! ## What every call keeps -/

/-- What stays true of a compensator while all skews lie between `low` and `high`. -/
structure Kept (low high : Int) (c : Compensator) : Prop where
  low_le : low ≤ c.compensated
  le_high : c.compensated ≤ high
  video_le : c.extraVideo ≤ -low
  before_nonneg : 0 ≤ c.extraAudio - c.lastAudioStep
  low_le_before : low ≤ c.compensated - c.lastAudioStep
  before_le_high : c.compensated - c.lastAudioStep ≤ high

variable {low high : Int} {c : Compensator}

theorem kept_initial (hlow : low ≤ 0) (hhigh : 0 ≤ high) (t : Tuning) :
    Kept low high (initial t) := by
  constructor <;> simp only [initial, compensated] <;> omega

/-- Audio can have more added to it than the greatest skew, by what is added to video. -/
theorem Kept.audio_le (h : Kept low high c) : c.extraAudio ≤ high - low := by
  have := h.le_high
  have := h.video_le
  simp only [compensated] at *
  omega

theorem Kept.step (h : Kept low high c) {skew : Int} (hlow : low ≤ skew) (hhigh : skew ≤ high)
    {current : Delays} {a : Adjustment} (step : c.Step skew current a) : Kept low high a.next := by
  obtain ⟨hcLow, hcHigh, hvideo, -, -, -⟩ := h
  have hstride := c.stride_le_residual skew
  simp only [compensated] at hcLow hcHigh
  simp only [residual, compensated] at hstride
  cases step with
  | rest verdict settled =>
    constructor <;> simp only [hold, compensated] <;> omega
  | raiseAudio added unsettled ahead added_eq =>
    have hadded : added ≤ c.stride skew := by omega
    simp only [residual, compensated] at ahead
    constructor <;> simp only [compensated] <;> omega
  | releaseAudio released unsettled behind held released_eq =>
    have hreleased : released ≤ c.stride skew ∧ released ≤ c.extraAudio := by omega
    simp only [residual, compensated] at behind
    constructor <;> simp only [compensated] <;> omega
  | raiseVideo added unsettled behind spent added_eq =>
    have hadded : added ≤ c.stride skew := by omega
    simp only [residual, compensated] at behind
    constructor <;> simp only [compensated] <;> omega

/-- Taking back the audio step leads to where audio was before it. -/
theorem Kept.revert (h : Kept low high c) : Kept low high c.revert := by
  obtain ⟨-, -, hvideo, hbefore, hlow, hhigh⟩ := h
  simp only [compensated] at hlow hhigh
  constructor <;> simp only [Compensator.revert, compensated] <;> omega

theorem Kept.call (hlow : low ≤ 0) (hhigh : 0 ≤ high) (h : Kept low high c) {op : Operation}
    (hop : op.Within low high) : Kept low high (c.call op) := by
  cases op with
  | adjust skew current => exact h.step hop.1 hop.2 (c.adjust_step skew current)
  | revert => exact h.revert
  | reset => exact kept_initial hlow hhigh c.tuning

theorem Kept.calls (hlow : low ≤ 0) (hhigh : 0 ≤ high) (h : Kept low high c) {ops : List Operation}
    (hops : ∀ op ∈ ops, op.Within low high) : Kept low high (c.calls ops) := by
  induction ops generalizing c with
  | nil => exact h
  | cons op ops ih =>
    have hop := hops op List.mem_cons_self
    exact ih (h.call hlow hhigh hop) fun o ho => hops o (List.mem_cons_of_mem op ho)

end Compensator

/-! ## Steps in 32-bit words -/

/-- A result as an unsigned word of 32 bits, none when it does not fit. -/
def word? (n : Int) : Option Nat := if 0 ≤ n ∧ n ≤ maxTellableDelay then some n.toNat else none

theorem word?_eq_some {n : Int} {k : Nat} (h : n = k) (hk : k ≤ maxTellableDelay) :
    word? n = some k := by
  subst h
  unfold word?
  rw [if_pos ⟨Int.natCast_nonneg k, Int.ofNat_le.mpr hk⟩, Int.toNat_natCast]

theorem word?_add {a b : Nat} (h : a + b ≤ maxTellableDelay) :
    word? ((a : Int) + b) = some (a + b) :=
  word?_eq_some (Int.natCast_add a b).symm h

theorem word?_sub {a b : Nat} (h : b ≤ a) (ha : a ≤ maxTellableDelay) :
    word? ((a : Int) - b) = some (a - b) :=
  word?_eq_some (Int.ofNat_sub h).symm (Nat.le_trans (Nat.sub_le a b) ha)

/-- `Tuning.raise` in words, with an addition that stops at the largest one. -/
def Tuning.raiseInWords (t : Tuning) (delay step : Nat) : Nat :=
  if t.maxDelay ≤ delay then delay else min (min (delay + step) maxTellableDelay) t.maxDelay

/-- All limits fit a word. -/
def Tuning.FitsWords (t : Tuning) : Prop :=
  t.maxStep ≤ maxTellableDelay ∧ t.hysteresis ≤ maxTellableDelay ∧ t.maxDelay ≤ maxTellableDelay

instance (t : Tuning) : Decidable t.FitsWords := inferInstanceAs (Decidable (_ ∧ _ ∧ _))

/-- Both delays fit a word. -/
def Delays.FitsWords (d : Delays) : Prop := d.audio ≤ maxTellableDelay ∧ d.video ≤ maxTellableDelay

instance (d : Delays) : Decidable d.FitsWords := inferInstanceAs (Decidable (_ ∧ _))

/-- The least skew that fits a signed word of 32 bits. -/
def minSkew : Int := -2147483648

/-- The greatest skew that fits a signed word of 32 bits. -/
def maxSkew : Int := 2147483647

theorem Tuning.raiseInWords_eq {t : Tuning} (ht : t.FitsWords) (delay step : Nat) :
    t.raiseInWords delay step = t.raise delay step := by
  have := ht.2.2
  unfold Tuning.raiseInWords Tuning.raise
  split <;> omega

/-- A raised delay fits a word, as the cap does. -/
theorem Tuning.raise_fits {t : Tuning} (ht : t.FitsWords) {delay : Nat}
    (hdelay : delay ≤ maxTellableDelay) (step : Nat) : t.raise delay step ≤ maxTellableDelay := by
  have := ht.2.2
  unfold Tuning.raise
  split <;> omega

namespace Compensator

/-- `Compensator.move` with each sum and each difference kept in an unsigned word, none as soon as
one does not fit. Where audio has less delay than is released, it is left with none. -/
def moveInWords? (c : Compensator) (residual : Int) (current : Delays) : Option Adjustment := do
  let step ← word? (min residual.natAbs c.tuning.maxStep)
  if 0 < residual then
    let target := c.tuning.raiseInWords current.audio step
    let added ← word? (target - current.audio)
    let extraAudio ← word? (c.extraAudio + added)
    return ⟨.moved residual, { current with audio := target },
      { c with extraAudio, lastAudioStep := added }⟩
  else if 0 < c.extraAudio then
    let release := min step c.extraAudio
    let extraAudio ← word? (c.extraAudio - release)
    return ⟨.moved residual, { current with audio := current.audio - release },
      { c with extraAudio, lastAudioStep := -(release : Int) }⟩
  else
    let target := c.tuning.raiseInWords current.video step
    let added ← word? (target - current.video)
    let extraVideo ← word? (c.extraVideo + added)
    return ⟨.moved residual, { current with video := target },
      { c with extraVideo, lastAudioStep := 0 }⟩

/-- `Compensator.adjust` in words. -/
def adjustInWords? (c : Compensator) (skew : Int) (current : Delays) : Option Adjustment :=
  if skew.natAbs < c.tuning.hysteresis then some (c.hold .negligible current)
  else
    let residual := c.residual skew
    if residual.natAbs < c.tuning.hysteresis then some (c.hold (.settled residual) current)
    else c.moveInWords? residual current

/-- `Compensator.revert` in words. The difference is taken as it is, so it must not be negative. -/
def revertInWords? (c : Compensator) : Option Compensator := do
  let extraAudio ← word? (c.extraAudio - c.lastAudioStep)
  return { c with extraAudio, lastAudioStep := 0 }

variable {c : Compensator}

/-- A move that the hysteresis lets through stays inside the words. -/
theorem moveInWords?_eq_some (ht : c.tuning.FitsWords) (hc : Kept minSkew maxSkew c) {skew : Int}
    (hlow : minSkew ≤ skew) (hhigh : skew ≤ maxSkew) {current : Delays} (hd : current.FitsWords)
    (unsettled : c.Unsettled skew) :
    c.moveInWords? (c.residual skew) current = some (c.move (c.residual skew) current) := by
  have hstep : word? (min (c.residual skew).natAbs c.tuning.maxStep) =
      some (min (c.residual skew).natAbs c.tuning.maxStep) :=
    word?_eq_some (by omega) (Nat.le_trans (Nat.min_le_right _ _) ht.1)
  -- what the move leads to is kept as well, so all that it adds up fits
  have hnext := hc.step hlow hhigh (move_step current unsettled)
  have haudio : (c.move (c.residual skew) current).next.extraAudio ≤ maxTellableDelay :=
    Int.ofNat_le.mp hnext.audio_le
  have hvideo : (c.move (c.residual skew) current).next.extraVideo ≤ maxTellableDelay :=
    Int.ofNat_le.mp (Int.le_trans hnext.video_le (by decide))
  unfold move at haudio hvideo
  unfold moveInWords? move
  simp only [hstep, Option.bind_eq_bind, Option.bind_some, Tuning.raiseInWords_eq ht]
  by_cases ahead : 0 < c.residual skew
  · simp only [if_pos ahead] at haudio ⊢
    rw [word?_sub (Tuning.le_raise _ _ _) (Tuning.raise_fits ht hd.1 _), Option.bind_some,
      word?_add haudio]
    rfl
  · simp only [if_neg ahead] at haudio hvideo ⊢
    by_cases held : 0 < c.extraAudio
    · simp only [if_pos held] at haudio ⊢
      rw [word?_sub (Nat.min_le_right _ _) (Int.ofNat_le.mp hc.audio_le)]
      rfl
    · simp only [if_neg held] at hvideo ⊢
      rw [word?_sub (Tuning.le_raise _ _ _) (Tuning.raise_fits ht hd.2 _), Option.bind_some,
        word?_add hvideo]
      rfl

theorem adjustInWords?_eq_some (ht : c.tuning.FitsWords) (hc : Kept minSkew maxSkew c) {skew : Int}
    (hlow : minSkew ≤ skew) (hhigh : skew ≤ maxSkew) {current : Delays} (hd : current.FitsWords) :
    c.adjustInWords? skew current = some (c.adjust skew current) := by
  unfold adjustInWords? adjust
  split
  · rfl
  · next large =>
    simp only
    split
    · rfl
    · next larger =>
      exact moveInWords?_eq_some ht hc hlow hhigh hd ⟨Nat.not_lt.mp large, Nat.not_lt.mp larger⟩

theorem revertInWords?_eq_some (hc : Kept minSkew maxSkew c) :
    c.revertInWords? = some c.revert := by
  have hbefore := hc.before_nonneg
  have haudio := hc.revert.audio_le
  unfold revertInWords?
  rw [word?_eq_some (Int.toNat_of_nonneg hbefore).symm (by
    simp only [revert, minSkew, maxSkew, maxTellableDelay] at *
    omega)]
  rfl

/-! ## The range -/

/-- Whatever is called in whatever order, the compensation stays between the skews, and so do the
delays that make it up. With skews of 32 bits all arithmetic of the next call fits unsigned words,
and taking back an audio step comes out as a number that is not negative. -/
theorem added_delay_in_range (t : Tuning) :
    (∀ low high : Int, low ≤ 0 → 0 ≤ high →
      ∀ ops : List Operation, (∀ op ∈ ops, op.Within low high) →
        let c := (initial t).calls ops
        low ≤ (c.extraAudio : Int) - c.extraVideo ∧ (c.extraAudio : Int) - c.extraVideo ≤ high ∧
          (c.extraVideo : Int) ≤ -low ∧ (c.extraAudio : Int) ≤ high - low) ∧
    (t.FitsWords →
      ∀ ops : List Operation, (∀ op ∈ ops, op.Within minSkew maxSkew) →
        let c := (initial t).calls ops
        (∀ skew : Int, minSkew ≤ skew → skew ≤ maxSkew → ∀ current : Delays, current.FitsWords →
          c.adjustInWords? skew current = some (c.adjust skew current)) ∧
        c.revertInWords? = some c.revert) := by
  constructor
  · intro low high hlow hhigh ops hops
    have hkept := (kept_initial hlow hhigh t).calls hlow hhigh hops
    exact ⟨hkept.low_le, hkept.le_high, hkept.video_le, hkept.audio_le⟩
  · intro ht ops hops
    have hlow : minSkew ≤ 0 := by decide
    have hhigh : 0 ≤ maxSkew := by decide
    have hkept := (kept_initial hlow hhigh t).calls hlow hhigh hops
    have htuning : ((initial t).calls ops).tuning.FitsWords := by
      rw [calls_tuning]
      exact ht
    refine ⟨?_, revertInWords?_eq_some hkept⟩
    intro skew hskewLow hskewHigh current hcurrent
    exact adjustInWords?_eq_some htuning hkept hskewLow hskewHigh hcurrent

/-- The least skew and then the greatest one fill the word to its last unit. -/
theorem added_delay_in_range_fills_word :
    let ops : List Operation := [.adjust minSkew ⟨0, 0⟩, .adjust maxSkew ⟨0, 0⟩]
    let c := (initial ⟨maxTellableDelay, 0, maxTellableDelay⟩).calls ops
    c.extraAudio = maxTellableDelay ∧ (c.extraAudio : Int) ≤ maxSkew - minSkew ∧
      c.adjustInWords? maxSkew ⟨0, 0⟩ = some (c.adjust maxSkew ⟨0, 0⟩) ∧
      c.revertInWords? = some c.revert := by
  intro ops c
  have hops : ∀ op ∈ ops, op.Within minSkew maxSkew := by decide
  have hrange := added_delay_in_range ⟨maxTellableDelay, 0, maxTellableDelay⟩
  have hwords := hrange.2 (by decide) ops hops
  refine ⟨by decide, ?_, hwords.1 maxSkew (by decide) (by decide) ⟨0, 0⟩ (by decide), hwords.2⟩
  exact (hrange.1 minSkew maxSkew (by decide) (by decide) ops hops).2.2.2

end Compensator

end LipSync

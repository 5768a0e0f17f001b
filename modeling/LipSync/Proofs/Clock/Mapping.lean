/-
# LipSync.Proofs.Clock.Mapping — of two media times, the later one is at the later wall clock.

The wall clock at a media time is worked out from its distance to the newest sample: the distance
becomes a number, is multiplied by the milliseconds of a tick, and is added to the newest wall clock.
Each of these keeps order, and may at most make equal what was not (`History.wallClockOn_mono`). That
the milliseconds of a tick are a finite number and not negative is because the two newest samples
follow each other. Where the product or the sum is past the finite numbers the mapping ends at an
infinity, and is still in order.
-/
import LipSync.Proofs.Binary64.Magnitude
import LipSync.Proofs.Clock.Growth

namespace LipSync

theorem MediaTime.natAbs_distance_le (a b : MediaTime) : (a.distance b).natAbs ≤ 1 <<< 31 := by
  show (a.ticks - b.ticks).toBitVec.toInt.natAbs ≤ 1 <<< 31
  have h := (a.ticks - b.ticks).toBitVec.isLt
  rw [BitVec.toInt_eq_toNat_cond]
  split <;> omega

/-- The ticks from a sample to the next are exact as a number. -/
theorem Sample.Follows.distance_lt {newer older : Sample} (h : newer.Follows older) :
    newer.mediaTime.distance older.mediaTime < 1 <<< 53 :=
  Int.lt_of_le_of_lt h.distance_le (by decide)

namespace History

variable {older newest : Sample}

/-- The milliseconds from one tick to the next, by two samples. -/
def millisPerTick (older newest : Sample) : Binary64 :=
  (newest.wallClock - older.wallClock) / ticksBetween older newest

/-- The milliseconds of a tick are finite and not negative, however close the two samples are. -/
theorem millisPerTick_nonneg (hfollows : newest.Follows older)
    (hfinite : (newest.wallClock - older.wallClock).isFinite = true) :
    (millisPerTick older newest).isFinite = true ∧ .zero false ≤ millisPerTick older newest := by
  have hpos : 0 < newest.mediaTime.distance older.mediaTime := hfollows.distance_pos
  obtain ⟨hnewest, holder⟩ := Binary64.isFinite_of_sub hfinite
  have hadvance : .zero false ≤ newest.wallClock - older.wallClock :=
    Binary64.zero_le_sub hnewest holder (Binary64.le_of_lt hfollows.wallClock_lt)
  exact ⟨Binary64.isFinite_div hfinite hpos hfollows.distance_lt,
    Binary64.zero_le_div hfinite hadvance hpos hfollows.distance_lt⟩

/-- Media times in order are at wall clocks in order. -/
theorem wallClockOn_mono (hfollows : newest.Follows older)
    (hfinite : (newest.wallClock - older.wallClock).isFinite = true) {q r : MediaTime}
    (hle : q.distance newest.mediaTime ≤ r.distance newest.mediaTime) :
    wallClockOn older newest q ≤ wallClockOn older newest r := by
  obtain ⟨hrate, hpos⟩ := millisPerTick_nonneg hfollows hfinite
  obtain ⟨hnewest, -⟩ := Binary64.isFinite_of_sub hfinite
  have hdistance (m : MediaTime) :
      (Binary64.ofInt (m.distance newest.mediaTime)).isFinite = true :=
    (Binary64.within_ofInt (by decide) (m.natAbs_distance_le _)).isFinite
  apply Binary64.add_le_add_left hnewest
  exact Binary64.mul_le_mul_right (hdistance q) (hdistance r) hrate hpos (Binary64.ofInt_mono hle)

/-- Whatever was done to a history before: when it has two samples, and the two newest are a finite
number of milliseconds apart, which takes that both of their wall clocks are finite, every media time
is at some wall clock; and media times in order of their distance to the newest sample are at wall
clocks in order. -/
theorem wallClockAt_keeps_order (requested : Nat) (changes : List Change) {rest : List Sample}
    (hsamples : ((empty requested).after changes).samples = newest :: older :: rest)
    (hfinite : (newest.wallClock - older.wallClock).isFinite = true) {q r : MediaTime}
    (hle : q.distance newest.mediaTime ≤ r.distance newest.mediaTime) :
    let h := (empty requested).after changes
    ∃ x y, h.wallClockAt q = .ok x ∧ h.wallClockAt r = .ok y ∧ x ≤ y := by
  intro h
  have hs : Sound requested h := (sound_empty requested).after changes
  have hlast : h.lastTwo = .ok (older, newest) := by
    unfold lastTwo
    rw [hsamples]
  have hmap (m : MediaTime) : h.wallClockAt m = .ok (wallClockOn older newest m) := by
    rw [wallClockAt_eq, hlast]
    rfl
  exact ⟨_, _, hmap q, hmap r, wallClockOn_mono (hs.follows_of_lastTwo hlast) hfinite hle⟩

/-- Two samples one tick apart, on a media clock that wraps between them, and as far apart as finite
numbers can be on the wall clock. One tick on from the newest, and three ticks back, the wall clock
is out of the finite numbers. -/
theorem wallClockAt_keeps_order_past_finite :
    let older : Sample := ⟨.zero false, ⟨4294967295⟩⟩
    let newest : Sample := ⟨.ofBits 0x7FEFFFFFFFFFFFFF, ⟨0⟩⟩
    let changes : List Change := [.offer newest, .clear, .offer older, .offer newest]
    let h := (empty 2).after changes
    (h.samples = [newest, older] ∧ (newest.wallClock - older.wallClock).isFinite = true) ∧
      h.wallClockAt ⟨4294967293⟩ = .ok (.infinity true) ∧
      h.wallClockAt ⟨1⟩ = .ok (.infinity false) ∧
      ∃ x y, h.wallClockAt ⟨4294967293⟩ = .ok x ∧ h.wallClockAt ⟨1⟩ = .ok y ∧ x ≤ y := by
  intro older newest changes h
  have hsamples : h.samples = [newest, older] := by decide +kernel
  have hfinite : (newest.wallClock - older.wallClock).isFinite = true := by decide +kernel
  refine ⟨⟨hsamples, hfinite⟩, by decide +kernel, by decide +kernel, ?_⟩
  exact wallClockAt_keeps_order 2 changes hsamples hfinite (by decide +kernel)

end History

end LipSync

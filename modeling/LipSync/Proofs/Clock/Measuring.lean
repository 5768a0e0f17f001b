/-
# LipSync.Proofs.Clock.Measuring — what is measured by the two newest samples.

A history measures by its two newest samples and nothing else: the wall clock at a media time lies
on the line through them (`History.wallClockAt_eq`), and the rate is that of the line
(`History.clockRate_eq`). Of two equal samples either gives the same line to a later one, although
the sign of a zero may tell them apart (`History.wallClockOn_congr`).
-/
import LipSync.Clock.History
import LipSync.Proofs.Binary64.Comparison

namespace LipSync

theorem Sample.beq_iff {s t : Sample} : (s == t) = true ↔
    (s.wallClock == t.wallClock) = true ∧ s.mediaTime = t.mediaTime := by
  show (s.wallClock == t.wallClock && s.mediaTime == t.mediaTime) = true ↔ _
  simp

namespace History

/-- The wall clock at a media time, on the line through two samples. -/
def wallClockOn (older newest : Sample) (m : MediaTime) : Binary64 :=
  newest.wallClock + .ofInt (m.distance newest.mediaTime) *
    ((newest.wallClock - older.wallClock) / ticksBetween older newest)

/-- The rate of the media clock in ticks per second, by two samples. -/
def rateOf (older newest : Sample) : Binary64 :=
  ticksBetween older newest * .ofInt 1000 / (newest.wallClock - older.wallClock)

theorem wallClockAt_eq (h : History) (m : MediaTime) :
    h.wallClockAt m = h.lastTwo.map fun last => wallClockOn last.1 last.2 m := by
  unfold wallClockAt
  cases h.lastTwo <;> rfl

theorem clockRate_eq (h : History) :
    h.clockRate = h.lastTwo.map fun last => rateOf last.1 last.2 := by
  unfold clockRate
  cases h.lastTwo <;> rfl

variable {s t newest : Sample}

/-- Of two equal samples, either gives the same line to a later one. -/
theorem wallClockOn_congr (heq : (s == t) = true) (hlt : s.wallClock < newest.wallClock)
    (m : MediaTime) : wallClockOn s newest m = wallClockOn t newest m := by
  obtain ⟨hwall, hmedia⟩ := Sample.beq_iff.mp heq
  rw [wallClockOn, wallClockOn, ticksBetween, ticksBetween, hmedia,
    Binary64.sub_eq_sub_of_beq hwall hlt]

theorem rateOf_congr (heq : (s == t) = true) (hlt : s.wallClock < newest.wallClock) :
    rateOf s newest = rateOf t newest := by
  obtain ⟨hwall, hmedia⟩ := Sample.beq_iff.mp heq
  rw [rateOf, rateOf, ticksBetween, ticksBetween, hmedia, Binary64.sub_eq_sub_of_beq hwall hlt]

end History

end LipSync

/-
# LipSync.Proofs.Clock.Resumption — a sender whose clocks jumped is picked up again.

Reports that follow each other on both clocks are taken up soon, whatever the history holds. After
each of them the history has either caught up with the sender, or has counted it as stale, one more
than after the report before (`History.Nearing`). Three in a row restart the history, so with the
third it has caught up, and the fourth is a second sample to measure a rate by. How often each
report is sent makes no difference: a history that has just been offered a sample is not changed by
it again (`History.after_copies`).

Caught up means that the newest sample *equals* the report. It need not be the same: a report that
equals the newest sample is left out, and of the two only the sign of a zero can differ. Nothing
that is measured shows it.
-/
import LipSync.Proofs.Clock.Repetition

namespace LipSync

namespace History

variable {requested n : Nat} {h : History} {s t : Sample}

/-! ## Nearing the sender -/

/-- The newest sample equals `s`. -/
def Caught (h : History) (s : Sample) : Prop :=
  ∃ latest, h.latest? = some latest ∧ (latest == s) = true

/-- The history has caught up with `s`, or `s` is the last of at least `n` stale samples. -/
def Nearing (n : Nat) (h : History) (s : Sample) : Prop :=
  h.Caught s ∨ ((∃ stale, h.lastStale = some stale ∧ (stale == s) = true) ∧ n ≤ h.staleCount)

theorem caught_append (hs : Sound requested h) (hnum : s.wallClock ≠ .nan) :
    (h.append s).Caught s :=
  ⟨s, latest?_append hs s, Sample.beq_self_iff.mpr hnum⟩

/-- What advances a sample that the history has caught up with advances the newest one. -/
theorem Caught.advances (hc : h.Caught s) (ht : t.advances s = true) {latest : Sample}
    (held : h.latest? = some latest) : t.advances latest = true := by
  obtain ⟨latest', held', heq⟩ := hc
  rw [held] at held'
  cases held'
  exact Sample.advances_of_beq ht heq

/-- A sample is caught up with or stale once it has been offered. -/
theorem nearing_offer (hs : Sound requested h) (hnum : s.wallClock ≠ .nan) :
    Nearing 1 (h.offer s) s := by
  have htakes := h.takes_update s
  unfold offer
  generalize (h.update s).1 = uptake, (h.update s).2 = next at htakes
  cases htakes with
  | appended ahead => exact Or.inl (caught_append hs hnum)
  | known held behind repeats =>
    rcases repeats with ⟨latest, held', heq⟩ | ⟨stale, hstale, heq⟩
    · exact Or.inl ⟨latest, held', Sample.beq_comm heq⟩
    · have hsome : h.lastStale.isSome = true := by rw [hstale]; rfl
      exact Or.inr ⟨⟨stale, hstale, heq⟩, hs.lastStale_iff.mp hsome⟩
  | stale held behind distinct few =>
    exact Or.inr ⟨⟨s, rfl, Sample.beq_self_iff.mpr hnum⟩, Nat.le_add_left 1 _⟩
  | restarted held behind distinct many => exact Or.inl (caught_append hs.clear hnum)

/-- The next report of the sender brings the history one step nearer. -/
theorem Nearing.offer (hn : Nearing n h s) (hs : Sound requested h) (ht : t.advances s = true) :
    Nearing (n + 1) (h.offer t) t := by
  have hnum : t.wallClock ≠ .nan := Sample.ne_nan_of_advances ht
  have htakes := h.takes_update t
  unfold History.offer
  generalize (h.update t).1 = uptake, (h.update t).2 = next at htakes
  -- a history that has caught up can only append
  have pending {latest : Sample} (held : h.latest? = some latest)
      (behind : t.advances latest = false) :
      (∃ stale, h.lastStale = some stale ∧ (stale == s) = true) ∧ n ≤ h.staleCount := by
    rcases hn with hc | hpending
    · rw [hc.advances ht held] at behind
      cases behind
    · exact hpending
  cases htakes with
  | appended ahead => exact Or.inl (caught_append hs hnum)
  | known held behind repeats =>
    rcases repeats with ⟨latest, held', heq⟩ | ⟨stale, hstale, heq⟩
    · exact Or.inl ⟨latest, held', Sample.beq_comm heq⟩
    · obtain ⟨⟨stale', hstale', heq'⟩, -⟩ := pending held behind
      rw [hstale] at hstale'
      cases hstale'
      -- the last stale sample would equal both reports
      have hsame := Sample.beq_trans (Sample.beq_comm heq') heq
      rw [Sample.not_beq_of_advances ht] at hsame
      cases hsame
  | stale held behind distinct few =>
    obtain ⟨-, hcount⟩ := pending held behind
    exact Or.inr ⟨⟨t, rfl, Sample.beq_self_iff.mpr hnum⟩, Nat.succ_le_succ hcount⟩
  | restarted held behind distinct many => exact Or.inl (caught_append hs.clear hnum)

/-- No run of stale samples is long enough to put off catching up any further. -/
theorem Nearing.caught (hn : Nearing maxStale h s) (hs : Sound requested h) : h.Caught s := by
  rcases hn with hc | ⟨-, hcount⟩
  · exact hc
  · exact absurd hs.staleCount_lt (Nat.not_lt_of_le hcount)

/-- The report after one that was caught up with becomes the newest of two samples. -/
theorem Caught.lastTwo_offer (hc : h.Caught s) (hs : Sound requested h)
    (ht : t.advances s = true) :
    ∃ older, (h.offer t).lastTwo = .ok (older, t) ∧ (older == s) = true := by
  obtain ⟨latest, held, heq⟩ := hc
  refine ⟨latest, ?_, heq⟩
  have hoffer : h.offer t = h.append t := by
    unfold History.offer update
    rw [held]
    simp only [Sample.advances_of_beq ht heq, if_true]
  obtain ⟨rest, hsamples⟩ := List.head?_eq_some_iff.mp held
  obtain ⟨room, hroom⟩ := Nat.exists_eq_add_of_le' hs.two_le_capacity
  rw [hoffer, append, hsamples, hroom]
  rfl

/-! ## Four reports -/

/-- Whatever was done to a history before, four reports that follow each other on both clocks, each
sent any number of times, leave the last two of them as its newest samples; and all that is measured
is measured by these two. -/
theorem caught_up_within_four (requested : Nat) (changes : List Change) {s₁ s₂ s₃ s₄ : Sample}
    (h₂ : s₂.advances s₁ = true) (h₃ : s₃.advances s₂ = true) (h₄ : s₄.advances s₃ = true)
    (k₁ k₂ k₃ k₄ : Nat) :
    let h := ((empty requested).after changes).after
      (copies k₁ s₁ ++ copies k₂ s₂ ++ copies k₃ s₃ ++ copies k₄ s₄)
    ∃ older, h.lastTwo = .ok (older, s₄) ∧ (older == s₃) = true ∧
      (∀ m, h.wallClockAt m = .ok (wallClockOn s₃ s₄ m)) ∧
      h.clockRate = .ok (rateOf s₃ s₄) := by
  intro h
  have hnum₁ : s₁.wallClock ≠ .nan := Binary64.ne_nan_of_lt_left (Sample.advances_iff.mp h₂).1
  let before := (empty requested).after changes
  have hs₀ : Sound requested before := (sound_empty requested).after changes
  have hs₁ := hs₀.offer s₁
  have hs₂ := hs₁.offer s₂
  have hs₃ := hs₂.offer s₃
  have hh : h = (((before.offer s₁).offer s₂).offer s₃).offer s₄ := by
    show before.after _ = _
    rw [after_append, after_append, after_append, after_copies hs₀ hnum₁,
      after_copies hs₁ (Sample.ne_nan_of_advances h₂),
      after_copies hs₂ (Sample.ne_nan_of_advances h₃),
      after_copies hs₃ (Sample.ne_nan_of_advances h₄)]
  have hnear₁ : Nearing 1 (before.offer s₁) s₁ := nearing_offer hs₀ hnum₁
  have hnear₂ := hnear₁.offer hs₁ h₂
  have hnear₃ := hnear₂.offer hs₂ h₃
  obtain ⟨older, hlast, heq⟩ := (hnear₃.caught hs₃).lastTwo_offer hs₃ h₄
  rw [← hh] at hlast
  have hlt : older.wallClock < s₄.wallClock :=
    Binary64.lt_of_beq_of_lt (Sample.beq_iff.mp heq).1 (Sample.advances_iff.mp h₄).1
  refine ⟨older, hlast, heq, ?_, ?_⟩
  · intro m
    rw [wallClockAt_eq, hlast, ← wallClockOn_congr heq hlt]
    rfl
  · rw [clockRate_eq, hlast, ← rateOf_congr heq hlt]
    rfl

/-- A newest sample whose wall clock is no number, with a stale one after it. The reports start just
before the media clock wraps, and the second one restarts the history. -/
theorem caught_up_within_four_after_nan :
    let report (second : Nat) : Sample := ⟨.ofInt (1000 * second), ⟨.ofNat (90000 * second)⟩⟩
    let changes : List Change := [.offer ⟨.nan, ⟨5⟩⟩, .offer (report 3)]
    let h := ((empty 2).after changes).after
      (copies 0 (report 47720) ++ copies 2 (report 47721) ++ copies 1 (report 47722) ++
        copies 0 (report 47723))
    ((empty 2).after changes).latest?.map (·.wallClock) = some .nan ∧
      ((empty 2).after changes).staleCount = 1 ∧
      ∃ older, h.lastTwo = .ok (older, report 47723) ∧ (older == report 47722) = true ∧
        (∀ m, h.wallClockAt m = .ok (wallClockOn (report 47722) (report 47723) m)) ∧
        h.clockRate = .ok (rateOf (report 47722) (report 47723)) := by
  intro report changes h
  refine ⟨by decide +kernel, by decide +kernel, ?_⟩
  exact caught_up_within_four 2 changes (by decide +kernel) (by decide +kernel)
    (by decide +kernel) 0 2 1 0

end History

end LipSync

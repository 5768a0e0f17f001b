/-
# LipSync.Proofs.Clock.Growth — what offering a sample does to a history, and what all of it keeps.

A history takes an offered sample in one of four ways (`History.Takes`), and `History.takes_update`
says that there are no others. From them comes what every history keeps, however its samples and
clearings were mixed (`History.Sound`): each sample follows the one before it on both clocks, no
more are held than there is room for, and a run of stale samples is short, remembers its last one,
and leans on a newest sample that this one does not get past. So the tick distance that a rate
divides by is a positive number.
-/
import LipSync.Proofs.Clock.Measuring
import Mathlib.Data.List.Chain

namespace LipSync

/-! ## Samples on the two clocks -/

namespace MediaTime

/-- The way from one reading to another is less than half a circle forwards. -/
theorem distance_lt (a b : MediaTime) : a.distance b < 2147483648 := by
  show (a.ticks - b.ticks).toBitVec.toInt < 2147483648
  have h := (a.ticks - b.ticks).toBitVec.isLt
  rw [BitVec.toInt_eq_toNat_cond]
  split <;> omega

end MediaTime

namespace Sample

variable {s t u : Sample}

theorem advances_iff : s.advances t = true ↔
    t.wallClock < s.wallClock ∧ s.mediaTime.isAhead t.mediaTime = true := by
  simp [advances]

theorem beq_self_iff : (s == s) = true ↔ s.wallClock ≠ .nan := by
  simp [beq_iff, Binary64.beq_self_iff]

theorem beq_comm (h : (s == t) = true) : (t == s) = true := by
  obtain ⟨hwall, hmedia⟩ := beq_iff.mp h
  exact beq_iff.mpr ⟨Binary64.beq_comm hwall, hmedia.symm⟩

theorem beq_trans (h : (s == t) = true) (h' : (t == u) = true) : (s == u) = true := by
  obtain ⟨hwall, hmedia⟩ := beq_iff.mp h
  obtain ⟨hwall', hmedia'⟩ := beq_iff.mp h'
  exact beq_iff.mpr ⟨Binary64.beq_trans hwall hwall', hmedia.trans hmedia'⟩

theorem not_advances_self (s : Sample) : s.advances s = false := by
  apply Bool.eq_false_iff.mpr
  intro h
  exact Binary64.not_lt_self _ (advances_iff.mp h).1

/-- A sample that advances another is not equal to it. -/
theorem not_beq_of_advances (h : s.advances t = true) : (t == s) = false := by
  apply Bool.eq_false_iff.mpr
  intro heq
  have hlt := Binary64.lt_of_lt_of_beq (advances_iff.mp h).1
    (Binary64.beq_comm (beq_iff.mp heq).1)
  exact Binary64.not_lt_self _ hlt

/-- What advances a sample advances its equals. -/
theorem advances_of_beq (h : s.advances t = true) (heq : (u == t) = true) :
    s.advances u = true := by
  obtain ⟨hlt, hahead⟩ := advances_iff.mp h
  obtain ⟨hwall, hmedia⟩ := beq_iff.mp heq
  exact advances_iff.mpr ⟨Binary64.lt_of_beq_of_lt hwall hlt, hmedia ▸ hahead⟩

theorem ne_nan_of_advances (h : s.advances t = true) : s.wallClock ≠ .nan :=
  Binary64.ne_nan_of_lt_right (advances_iff.mp h).1

/-- The sample is later on the wall clock, and ahead on the media clock by less than half a
circle. -/
structure Follows (newer older : Sample) : Prop where
  wallClock_lt : older.wallClock < newer.wallClock
  isAhead : newer.mediaTime.isAhead older.mediaTime = true
  distance_pos : 1 ≤ newer.mediaTime.distance older.mediaTime
  distance_le : newer.mediaTime.distance older.mediaTime ≤ 2147483647

theorem follows_of_advances (h : s.advances t = true) : s.Follows t := by
  obtain ⟨hlt, hahead⟩ := advances_iff.mp h
  have hpos := MediaTime.isAhead_iff.mp hahead
  have hlt' := MediaTime.distance_lt s.mediaTime t.mediaTime
  exact ⟨hlt, hahead, by omega, by omega⟩

/-- In two or more samples that follow each other, every wall clock shows a time. -/
theorem ne_nan_of_isChain {newest older : Sample} {rest : List Sample}
    (h : (newest :: older :: rest).IsChain Follows) :
    ∀ s ∈ newest :: older :: rest, s.wallClock ≠ .nan := by
  induction rest generalizing newest older with
  | nil =>
    obtain ⟨hfollows, -⟩ := List.isChain_cons_cons.mp h
    intro s hs
    rcases List.mem_cons.mp hs with rfl | hs
    · exact Binary64.ne_nan_of_lt_right hfollows.wallClock_lt
    · rw [List.mem_singleton.mp hs]
      exact Binary64.ne_nan_of_lt_left hfollows.wallClock_lt
  | cons oldest rest ih =>
    obtain ⟨hfollows, hrest⟩ := List.isChain_cons_cons.mp h
    intro s hs
    rcases List.mem_cons.mp hs with rfl | hs
    · exact Binary64.ne_nan_of_lt_right hfollows.wallClock_lt
    · exact ih hrest s hs

end Sample

namespace History

/-! ## Offering one sample -/

/-- The sample is the newest one, or the last stale one, once more. -/
def Repeats (h : History) (s : Sample) : Prop :=
  (∃ latest, h.latest? = some latest ∧ (s == latest) = true) ∨
    ∃ stale, h.lastStale = some stale ∧ (stale == s) = true

/-- How a history can take an offered sample: what becomes of it, and the history afterwards. -/
inductive Takes (h : History) (s : Sample) : Uptake → History → Prop
  /-- There is no newest sample, or the offered one advances it. -/
  | appended (ahead : ∀ latest, h.latest? = some latest → s.advances latest = true) :
      Takes h s .appended (h.append s)
  | known {latest : Sample} (held : h.latest? = some latest) (behind : s.advances latest = false)
      (repeats : h.Repeats s) : Takes h s .known h
  | stale {latest : Sample} (held : h.latest? = some latest) (behind : s.advances latest = false)
      (distinct : ¬h.Repeats s) (few : h.staleCount + 1 < maxStale) :
      Takes h s .stale { h with lastStale := some s, staleCount := h.staleCount + 1 }
  | restarted {latest : Sample} (held : h.latest? = some latest)
      (behind : s.advances latest = false) (distinct : ¬h.Repeats s)
      (many : maxStale ≤ h.staleCount + 1) : Takes h s .restarted (h.clear.append s)

theorem repeats_iff {h : History} {s latest : Sample} (held : h.latest? = some latest) :
    h.Repeats s ↔ (s == latest || h.lastStale == some s) = true := by
  rw [Repeats, held, Bool.or_eq_true]
  cases h.lastStale <;> simp

/-- A sample is taken in one of the four ways. -/
theorem takes_update (h : History) (s : Sample) : h.Takes s (h.update s).1 (h.update s).2 := by
  unfold update
  split
  · next hnone =>
    refine .appended ?_
    intro latest hsome
    rw [hnone] at hsome
    cases hsome
  · next latest held =>
    split
    · next hadvances =>
      refine .appended ?_
      intro latest' held'
      rw [held] at held'
      cases held'
      exact hadvances
    · next hbehind =>
      have behind : s.advances latest = false := Bool.eq_false_iff.mpr hbehind
      split
      · next hrepeats => exact .known held behind ((repeats_iff held).mpr hrepeats)
      · next hdistinct =>
        have distinct : ¬h.Repeats s := mt (repeats_iff held).mp hdistinct
        split
        · next few => exact .stale held behind distinct few
        · next many => exact .restarted held behind distinct (Nat.le_of_not_lt many)

/-! ## Histories that come of offering and clearing -/

/-- The history after a sample is offered. -/
def offer (h : History) (s : Sample) : History := (h.update s).2

/-- Something that is done to a history. -/
inductive Change where
  | offer (s : Sample)
  | clear
  deriving DecidableEq

/-- The history after a change. -/
def change (h : History) : Change → History
  | .offer s => h.offer s
  | .clear => h.clear

/-- The history after some changes in order. -/
def after (h : History) (changes : List Change) : History := changes.foldl change h

theorem after_append (h : History) (cs ds : List Change) :
    h.after (cs ++ ds) = (h.after cs).after ds := List.foldl_append ..

/-! ## What all of it keeps -/

/-- What holds of every history that was made to keep `requested` samples. -/
structure Sound (requested : Nat) (h : History) : Prop where
  capacity_eq : h.capacity = max requested minCapacity
  size_le : h.size ≤ h.capacity
  follows : h.samples.IsChain Sample.Follows
  staleCount_lt : h.staleCount < maxStale
  lastStale_iff : h.lastStale.isSome = true ↔ 0 < h.staleCount
  /-- The last stale sample is behind a newest one. -/
  behind : ∀ stale, h.lastStale = some stale →
    ∃ latest, h.latest? = some latest ∧ stale.advances latest = false

variable {requested : Nat} {h : History}

theorem sound_empty (requested : Nat) : Sound requested (empty requested) where
  capacity_eq := rfl
  size_le := Nat.zero_le _
  follows := List.isChain_nil
  staleCount_lt := Nat.zero_lt_succ _
  lastStale_iff := by simp [empty]
  behind := by
    rintro stale ⟨⟩

namespace Sound

theorem two_le_capacity (hs : Sound requested h) : 2 ≤ h.capacity :=
  hs.capacity_eq ▸ Nat.le_max_right _ _

theorem clear (hs : Sound requested h) : Sound requested h.clear where
  capacity_eq := hs.capacity_eq
  size_le := Nat.zero_le _
  follows := List.isChain_nil
  staleCount_lt := Nat.zero_lt_succ _
  lastStale_iff := by simp [History.clear]
  behind := by
    rintro stale ⟨⟩

/-- A sample that advances the newest one may be added to the samples. -/
theorem append (hs : Sound requested h) {s : Sample}
    (ahead : ∀ latest, h.latest? = some latest → s.advances latest = true) :
    Sound requested (h.append s) where
  capacity_eq := hs.capacity_eq
  size_le := by
    show ((s :: h.samples).take h.capacity).length ≤ h.capacity
    rw [List.length_take]
    exact Nat.min_le_left _ _
  follows := by
    -- the oldest ones that go leave the order of the others alone
    apply List.IsChain.take
    refine List.isChain_cons.mpr ⟨?_, hs.follows⟩
    intro latest hlatest
    exact Sample.follows_of_advances (ahead latest hlatest)
  staleCount_lt := Nat.zero_lt_succ _
  lastStale_iff := by simp [History.append]
  behind := by
    rintro stale ⟨⟩

theorem takes (hs : Sound requested h) {s : Sample} {uptake : Uptake} {next : History}
    (htakes : h.Takes s uptake next) : Sound requested next := by
  cases htakes with
  | appended ahead => exact hs.append ahead
  | known held behind repeats => exact hs
  | @stale latest held behind distinct few =>
    refine ⟨hs.capacity_eq, hs.size_le, hs.follows, few, ?_, ?_⟩
    · simp
    · rintro stale ⟨⟩
      exact ⟨latest, held, behind⟩
  | restarted held behind distinct many =>
    refine hs.clear.append ?_
    rintro latest ⟨⟩

theorem offer (hs : Sound requested h) (s : Sample) : Sound requested (h.offer s) :=
  hs.takes (h.takes_update s)

theorem change (hs : Sound requested h) (c : Change) : Sound requested (h.change c) := by
  cases c with
  | offer s => exact hs.offer s
  | clear => exact hs.clear

theorem after (hs : Sound requested h) (changes : List Change) :
    Sound requested (h.after changes) := by
  induction changes generalizing h with
  | nil => exact hs
  | cons c cs ih => exact ih (hs.change c)

/-- A wall clock that is not a number can only be the one of a single sample. -/
theorem size_eq_one_of_nan (hs : Sound requested h) {s : Sample} (hmem : s ∈ h.samples)
    (hnan : s.wallClock = .nan) : h.size = 1 := by
  have hfollows := hs.follows
  unfold size
  match hsamples : h.samples with
  | [] =>
    rw [hsamples] at hmem
    cases hmem
  | [_] => rfl
  | newest :: older :: rest =>
    rw [hsamples] at hmem hfollows
    exact absurd hnan (Sample.ne_nan_of_isChain hfollows s hmem)

/-- The two newest samples follow each other. -/
theorem follows_of_lastTwo (hs : Sound requested h) {older newest : Sample}
    (hlast : h.lastTwo = .ok (older, newest)) : newest.Follows older := by
  have hfollows := hs.follows
  unfold lastTwo at hlast
  split at hlast
  · next hsamples =>
    cases hlast
    rw [hsamples] at hfollows
    exact (List.isChain_cons_cons.mp hfollows).1
  · cases hlast

end Sound

/-- A positive number of ticks is a positive number. -/
theorem ticksBetween_pos {older newest : Sample} (h : newest.Follows older) :
    .zero false < ticksBetween older newest := by
  have hpos := h.distance_pos
  have hle := h.distance_le
  have hsmall : (newest.mediaTime.distance older.mediaTime).natAbs ≤ 2147483647 := by omega
  rw [ticksBetween]
  exact Binary64.zero_lt_ofInt (by omega) (Nat.le_trans hsmall (by decide))

/-- However samples are offered and the history is cleared in between: the samples follow each
other within the capacity, only a single one can have a wall clock that is not a number, a run of
stale ones is short and comes after a newest sample that it does not get past, and a rate divides by
a positive number. -/
theorem sound_after_changes (requested : Nat) (changes : List Change) :
    let h := (empty requested).after changes
    Sound requested h ∧
      (∀ s ∈ h.samples, s.wallClock = .nan → h.size = 1) ∧
      (0 < h.staleCount → h.samples ≠ []) ∧
      ∀ older newest, h.lastTwo = .ok (older, newest) →
        .zero false < ticksBetween older newest := by
  intro h
  have hs : Sound requested h := (sound_empty requested).after changes
  refine ⟨hs, fun s hmem hnan => hs.size_eq_one_of_nan hmem hnan, ?_, ?_⟩
  · intro hcount hnil
    obtain ⟨stale, hstale⟩ := Option.isSome_iff_exists.mp (hs.lastStale_iff.mpr hcount)
    obtain ⟨latest, hlatest, -⟩ := hs.behind stale hstale
    rw [latest?, hnil] at hlatest
    cases hlatest
  · intro older newest hlast
    exact ticksBetween_pos (hs.follows_of_lastTwo hlast)

end History

end LipSync

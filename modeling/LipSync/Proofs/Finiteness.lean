/-
# LipSync.Proofs.Finiteness — delays and skews are finite numbers.

A NaN is not past any limit, and as an integer it is zero: a skew that is none would pass for streams
in perfect sync. What keeps it out is what can be received. The wall clocks of reports are less than
2⁴² ms, two samples that a rate is taken from are at least one tick apart, and what is computed from
there stays far below the largest number. The bounds are all powers of two, each from the one before:
the milliseconds of a tick are within 2⁴³, those of any distance within 2⁷⁴, a delay is within 2⁷⁶ and
a skew within 2⁷⁷, at whatever media and arrival times.
-/
import LipSync.Proofs.Clock.Mapping
import LipSync.Proofs.Clock.ReportOrder
import LipSync.Proofs.Skew

namespace LipSync

/-- A wall clock in milliseconds takes 42 bits before the point. -/
theorem NtpTime.toMillis_within (t : NtpTime) : t.toMillis.Within 42 := by
  rw [toMillis_eq]
  apply Binary64.within_ofQuotient Nat.one_pos (by decide)
  have hword : t.toUInt64.toNat < 1 <<< 64 := t.toUInt64.toNat_lt
  calc
    t.toUInt64.toNat * 1000 <<< 1042 ≤ 1 <<< 64 * 1000 <<< 1042 :=
      Nat.mul_le_mul_right _ (Nat.le_of_lt hword)
    _ ≤ Binary64.oneUnits <<< 42 * 1 := by decide

/-! ## The wall clock at a media time -/

namespace History

variable {h : History} {s t older newest : Sample}

theorem millisPerTick_within (hfollows : newest.Follows older) (hnewest : newest.wallClock.Within 42)
    (holder : older.wallClock.Within 42) : (millisPerTick older newest).Within 43 := by
  have hapart : (newest.wallClock - older.wallClock).Within 43 := hnewest.sub holder (by decide)
  exact hapart.div hfollows.distance_pos hfollows.distance_lt

theorem wallClockOn_within (hfollows : newest.Follows older) (hnewest : newest.wallClock.Within 42)
    (holder : older.wallClock.Within 42) (m : MediaTime) :
    (wallClockOn older newest m).Within 75 := by
  have hrate := millisPerTick_within hfollows hnewest holder
  have hticks : (Binary64.ofInt (m.distance newest.mediaTime)).Within 31 :=
    Binary64.within_ofInt (by decide) (m.natAbs_distance_le _)
  exact (hnewest.mono (by decide)).add (hticks.mul hrate (by decide)) (by decide)

theorem mem_of_lastTwo (hlast : h.lastTwo = .ok (older, newest)) :
    newest ∈ h.samples ∧ older ∈ h.samples := by
  unfold lastTwo at hlast
  split at hlast
  · next hsamples =>
    cases hlast
    rw [hsamples]
    exact ⟨List.mem_cons_self, List.mem_cons_of_mem _ List.mem_cons_self⟩
  · cases hlast

/-- What is in a history after an offer was there before, or is what was offered. -/
theorem mem_samples_offer (hmem : t ∈ (h.offer s).samples) : t = s ∨ t ∈ h.samples := by
  have htakes : h.Takes s (h.update s).1 (h.offer s) := h.takes_update s
  generalize (h.update s).1 = uptake, h.offer s = next at hmem htakes
  cases htakes with
  | appended ahead => exact List.mem_cons.mp (List.mem_of_mem_take hmem)
  | known held behind repeats => exact Or.inr hmem
  | stale held behind distinct few => exact Or.inr hmem
  | restarted held behind distinct many =>
    exact Or.inl (List.mem_singleton.mp (List.mem_of_mem_take hmem))

end History

/-! ## Delays -/

namespace Reception

variable {room : Nat} {r : Reception} {x : Readings} {d : Binary64}

/-- What holds of a reception however it is updated: the wall clocks of its samples are those of
reports, so they are bounded. -/
structure Reported (room : Nat) (r : Reception) : Prop where
  sound : History.Sound room r.history
  within : ∀ s ∈ r.history.samples, s.wallClock.Within 42

theorem reported_empty (room : Nat) : Reported room (empty room) where
  sound := History.sound_empty room
  within := by
    rintro s ⟨⟩

namespace Reported

theorem next (hr : Reported room r) (x : Readings) : Reported room (r.next x) := by
  by_cases h : x.Incomplete
  · rw [next_of_incomplete h]
    exact hr
  · obtain ⟨a, ha⟩ := Readings.exists_arrival h
    rw [next_of_arrival ha]
    refine ⟨hr.sound.offer a.sample, ?_⟩
    intro s hmem
    rcases History.mem_samples_offer hmem with rfl | hheld
    · obtain ⟨-, -, hsample⟩ := Readings.arrival?_eq_some_iff.mp ha
      obtain ⟨report, -, hreport⟩ := Option.bind_eq_some_iff.mp hsample
      rw [Sample.wallClock_of_ofReport? hreport]
      exact report.ntp.toMillis_within
    · exact hr.within s hheld

theorem after (hr : Reported room r) (run : List Readings) : Reported room (r.after run) := by
  induction run generalizing r with
  | nil => exact hr
  | cons x run ih => exact ih (hr.next x)

theorem delay_within (hr : Reported room r) (hdelay : r.delay = .ok d) : d.Within 76 := by
  rw [delay, History.wallClockAt_eq] at hdelay
  cases hlast : r.history.lastTwo with
  | error e =>
    rw [hlast] at hdelay
    cases hdelay
  | ok last =>
    obtain ⟨older, newest⟩ := last
    rw [hlast] at hdelay
    cases hdelay
    obtain ⟨hnewest, holder⟩ := History.mem_of_lastTwo hlast
    have hsent := History.wallClockOn_within (hr.sound.follows_of_lastTwo hlast)
      (hr.within newest hnewest) (hr.within older holder) r.mediaTime
    have hbits : r.arrivalTime.toInt.natAbs ≤ 1 <<< 63 := by
      have hlo := r.arrivalTime.le_toInt
      have hhi := r.arrivalTime.toInt_lt
      omega
    have harrived : (Binary64.ofInt r.arrivalTime.toInt).Within 63 :=
      Binary64.within_ofInt (by decide) hbits
    exact (harrived.mono (by decide)).sub hsent (by decide)

end Reported

end Reception

/-! ## Skews -/

namespace Skew

variable {audioRoom videoRoom : Nat} {audio video : Reception} {a v x : Binary64}

theorem within (haudio : audio.Reported audioRoom) (hvideo : video.Reported videoRoom)
    (ha : audio.delay = .ok a) (hv : video.delay = .ok v) : (v - a).Within 77 :=
  (hvideo.delay_within hv).sub (haudio.delay_within ha) (by decide)

section Limit

-- stated for any limit in a word, because the actual one as a number is not to be worked out
variable {n : Int}

/-- A finite whole number within the limit is its integer part. -/
theorem position_eq_of_not_lt (hn : 0 ≤ n) (hword : n < 2147483647)
    (hfinite : x.round.isFinite = true) (h : ¬.ofInt n < x.round.abs) :
    x.round.position = some (toMilliseconds x.round * Binary64.oneUnits) := by
  have hbits : n.natAbs ≤ 1 <<< 53 := by omega
  obtain ⟨s, m, hm, hx⟩ := Binary64.exists_finite hfinite
  obtain ⟨k, rfl⟩ := Binary64.oneUnits_dvd_of_round hx
  rw [hx] at h ⊢
  rw [Binary64.ofInt_lt_abs_iff hbits, Nat.mul_comm, Int.natCast_mul] at h
  have hk : (k : Int) ≤ n := Int.le_of_mul_le_mul_right (Int.not_lt.mp h)
    (Int.natCast_pos.mpr Binary64.oneUnits_pos)
  have hpart : Binary64.oneUnits * k / Binary64.oneUnits = k :=
    Nat.mul_div_cancel_left k Binary64.oneUnits_pos
  have hwhole : toMilliseconds (.finite s (Binary64.oneUnits * k) hm) = Binary64.signed s k := by
    rw [toMilliseconds, Binary64.truncateWithin_finite, hpart, Binary64.signed]
    split <;> omega
  rw [hwhole]
  show some (Binary64.signed s (Binary64.oneUnits * k)) = _
  cases s <;> simp [Binary64.signed, Int.mul_comm]

end Limit

theorem position_of_accept {d : Int} (hfinite : x.round.isFinite = true)
    (haccept : (ofRounded x.round).accept = .ok d) :
    x.round.position = some (d * Binary64.oneUnits) := by
  have hlimit : 0 ≤ limit := by decide
  have hword : limit < 2147483647 := by decide
  unfold ofRounded at haccept
  generalize limit = n at hlimit hword haccept
  split at haccept
  · cases haccept
  · next h =>
    cases haccept
    exact position_eq_of_not_lt hlimit hword hfinite h

end Skew

/-- Whatever two receptions are given, with room for however many samples: when there is a delay it is
a finite number, and so is the skew of two delays, before and after it is rounded; and a skew that is
told is the rounded skew itself, so that zero never stands for what is not a number. -/
theorem delays_and_skews_are_finite (audioRoom videoRoom : Nat) (audioRun videoRun : List Readings) :
    let audio := (Reception.empty audioRoom).after audioRun
    let video := (Reception.empty videoRoom).after videoRun
    (∀ a, audio.delay = .ok a → a.isFinite = true) ∧
      (∀ v, video.delay = .ok v → v.isFinite = true) ∧
      (∀ a v, audio.delay = .ok a → video.delay = .ok v →
        (v - a).isFinite = true ∧ (v - a).round.isFinite = true) ∧
      ∀ d, relativeDelay audio video = .ok d → ∃ a v, audio.delay = .ok a ∧ video.delay = .ok v ∧
        (v - a).round.position = some (d * Binary64.oneUnits) := by
  intro audio video
  have haudio : audio.Reported audioRoom := (Reception.reported_empty audioRoom).after audioRun
  have hvideo : video.Reported videoRoom := (Reception.reported_empty videoRoom).after videoRun
  have hround (a v : Binary64) (ha : audio.delay = .ok a) (hv : video.delay = .ok v) :
      (v - a).round.isFinite = true :=
    ((Skew.within haudio hvideo ha hv).round (by decide)).isFinite
  refine ⟨fun a ha => (haudio.delay_within ha).isFinite,
    fun v hv => (hvideo.delay_within hv).isFinite, ?_, ?_⟩
  · intro a v ha hv
    exact ⟨(Skew.within haudio hvideo ha hv).isFinite, hround a v ha hv⟩
  · intro d hd
    obtain ⟨haudioSize, hvideoSize, -⟩ := relativeDelay_ok_iff.mp ⟨d, hd⟩
    obtain ⟨a, ha⟩ := Reception.exists_delay haudioSize
    obtain ⟨v, hv⟩ := Reception.exists_delay hvideoSize
    rw [relativeDelay_of_measure (Skew.measure_of_delays ha hv)] at hd
    exact ⟨a, v, ha, hv, Skew.position_of_accept (hround a v ha hv) hd⟩

/-- The first and the last wall clock of all, one tick apart, and packets half a circle away from them
on either side, the earliest and the latest that can arrive: the skew is past any limit and still a
number. Of the same packets on both sides the skew is zero. -/
theorem delays_and_skews_are_finite_at_extremes :
    let run (packet : MediaTime) (arrivalTime : Int64) : List Readings :=
      [⟨some ⟨0⟩, some 0, some ⟨⟨0, 1⟩, ⟨0⟩⟩⟩,
        ⟨some packet, some arrivalTime, some ⟨⟨0xFFFFFFFF, 0xFFFFFFFF⟩, ⟨1⟩⟩⟩]
    let audioRun := run ⟨0x80000000⟩ Int64.minValue
    let videoRun := run ⟨0x80000001⟩ Int64.maxValue
    let audio := (Reception.empty 2).after audioRun
    let video := (Reception.empty 2).after videoRun
    (∃ a v, audio.delay = .ok a ∧ video.delay = .ok v ∧ a.isFinite = true ∧ v.isFinite = true ∧
        (v - a).round.isFinite = true) ∧
      relativeDelay audio video = .error (.skewOutOfRange 2147483647) ∧
      ∃ v, video.delay = .ok v ∧ (v - v).round.position = some (0 * Binary64.oneUnits) := by
  intro run audioRun videoRun audio video
  obtain ⟨haudio, hvideo, hskew, -⟩ := delays_and_skews_are_finite 2 2 audioRun videoRun
  obtain ⟨-, -, -, hzero⟩ := delays_and_skews_are_finite 2 2 videoRun videoRun
  obtain ⟨a, ha⟩ := Reception.exists_delay (r := audio) (by decide +kernel)
  obtain ⟨v, hv⟩ := Reception.exists_delay (r := video) (by decide +kernel)
  have hsame : relativeDelay video video = .ok 0 := by decide +kernel
  obtain ⟨v', w, hv', hw, hposition⟩ := hzero 0 hsame
  cases hv'.symm.trans hw
  exact ⟨⟨a, v, ha, hv, haudio a ha, hvideo v hv, (hskew a v ha hv).2⟩, by decide +kernel,
    v', hv', hposition⟩

end LipSync

/-
# LipSync.Proofs.Clock.NtpTime — words of times, and the time since 1970 as one.

The seconds and the fraction of a time do not touch each other in its word, so the order of the words
is the order of the times (`NtpTime.compare_eq_compare_toUInt64`). A time since 1970 is brought to
this form in 64-bit arithmetic, which never leaves its words as long as the nanoseconds fit one: only
the seconds wrap, and only once they are cut to their half (`NtpTime.ofUnixInWords?_eq_some`).

A unit of the fraction is less than a quarter of a nanosecond. So rounding the fraction down loses no
nanosecond, and rounding up brings each back.
-/
import LipSync.Clock.NtpTime
import Mathlib.Algebra.Order.Floor.Div
import Mathlib.GroupTheory.GroupAction.Ring

namespace LipSync

namespace NtpTime

/-! ## Words -/

/-- Two halves that do not overlap make the word of their sum. What the upper one has past 32 bits
is lost. -/
theorem toNat_halves (high low : UInt64) (hlow : low.toNat < 4294967296) :
    (high <<< 32 ||| low).toNat = high.toNat % 4294967296 * 4294967296 + low.toNat := by
  have hhigh : (high <<< 32).toNat = (high.toNat % 4294967296) <<< 32 := by
    rw [UInt64.toNat_shiftLeft, Nat.shiftLeft_eq, Nat.shiftLeft_eq]
    show high.toNat * 4294967296 % 18446744073709551616 = high.toNat % 4294967296 * 4294967296
    omega
  rw [UInt64.toNat_or, hhigh, ← Nat.shiftLeft_add_eq_or_of_lt hlow, Nat.shiftLeft_eq]

theorem toNat_toUInt64 (t : NtpTime) :
    t.toUInt64.toNat = t.seconds.toNat * 4294967296 + t.fraction.toNat := by
  have hseconds := t.seconds.toNat_lt
  have hfraction := t.fraction.toNat_lt
  rw [toUInt64, toNat_halves _ _ (by simpa using hfraction), UInt32.toNat_toUInt64,
    UInt32.toNat_toUInt64, Nat.mod_eq_of_lt hseconds]

theorem toNat_seconds_ofUInt64 (word : UInt64) :
    (ofUInt64 word).seconds.toNat = word.toNat / 4294967296 := by
  have hword := word.toNat_lt
  show (word >>> 32).toUInt32.toNat = _
  rw [UInt64.toNat_toUInt32, UInt64.toNat_shiftRight, Nat.shiftRight_eq_div_pow]
  show word.toNat / 4294967296 % 4294967296 = _
  omega

theorem toNat_fraction_ofUInt64 (word : UInt64) :
    (ofUInt64 word).fraction.toNat = word.toNat % 4294967296 := UInt64.toNat_toUInt32 word

theorem compare_eq (a b : NtpTime) :
    compare a b = (compare a.seconds b.seconds).then (compare a.fraction b.fraction) := by
  obtain ⟨seconds, fraction⟩ := a
  obtain ⟨seconds', fraction'⟩ := b
  show (compare seconds seconds').then ((compare fraction fraction').then .eq) = _
  rw [Ordering.then_eq]

/-- Two numbers of two digits compare by the upper digit first. -/
theorem compare_digits {base high low high' low' : Nat} (hlow : low < base) (hlow' : low' < base) :
    compare (high * base + low) (high' * base + low') =
      (compare high high').then (compare low low') := by
  rcases Nat.lt_trichotomy high high' with hlt | rfl | hgt
  · have hnext : (high + 1) * base ≤ high' * base := Nat.mul_le_mul_right base hlt
    rw [Nat.add_mul, Nat.one_mul] at hnext
    rw [Nat.compare_eq_lt.mpr hlt, Nat.compare_eq_lt.mpr (by omega)]
    rfl
  · rw [Nat.compare_eq_eq.mpr rfl]
    show compareOfLessAndEq _ _ = compareOfLessAndEq low low'
    simp only [compareOfLessAndEq, Nat.add_lt_add_iff_left, Nat.add_left_cancel_iff]
  · have hnext : (high' + 1) * base ≤ high * base := Nat.mul_le_mul_right base hgt
    rw [Nat.add_mul, Nat.one_mul] at hnext
    rw [Nat.compare_eq_gt.mpr hgt, Nat.compare_eq_gt.mpr (by omega)]
    rfl

theorem compare_uint32_eq (a b : UInt32) : compare a b = compare a.toNat b.toNat := by
  show compareOfLessAndEq a b = compareOfLessAndEq a.toNat b.toNat
  simp only [compareOfLessAndEq, UInt32.lt_iff_toNat_lt, UInt32.toNat_inj]

theorem compare_uint64_eq (a b : UInt64) : compare a b = compare a.toNat b.toNat := by
  show compareOfLessAndEq a b = compareOfLessAndEq a.toNat b.toNat
  simp only [compareOfLessAndEq, UInt64.lt_iff_toNat_lt, UInt64.toNat_inj]

/-- Times compare as their words do. -/
theorem compare_eq_compare_toUInt64 (a b : NtpTime) :
    compare a b = compare a.toUInt64 b.toUInt64 := by
  rw [compare_eq, compare_uint32_eq, compare_uint32_eq, compare_uint64_eq, toNat_toUInt64,
    toNat_toUInt64, compare_digits a.fraction.toNat_lt b.fraction.toNat_lt]

/-! ## The time since 1970 -/

/-- A number as an unsigned word of 64 bits, none when it does not fit. -/
def longWord? (n : Nat) : Option Nat := if n < 18446744073709551616 then some n else none

theorem longWord?_eq_some {n : Nat} (h : n < 18446744073709551616) : longWord? n = some n :=
  if_pos h

/-- `NtpTime.ofUnix` with each number kept in an unsigned word, none as soon as one does not fit, or
the fraction would reach into the seconds. The seconds are cut to their half of the word. -/
def ofUnixInWords? (sinceEpoch : Duration) : Option NtpTime := do
  let total ← longWord? sinceEpoch.nanoseconds
  let seconds ← longWord? (total / 1000000000 + unixEpoch.toNat)
  let scaled ← longWord? (total % 1000000000 * 4294967296)
  let fraction := scaled / 1000000000
  if fraction < 4294967296 then some ⟨.ofNat seconds, .ofNat fraction⟩ else none

variable {d e : Duration}

/-- The two halves of a time since 1970. -/
theorem toNat_ofUnix (h : d.nanoseconds < 18446744073709551616) :
    (ofUnix d).seconds.toNat = (d.seconds + 2208988800) % 4294967296 ∧
      (ofUnix d).fraction.toNat = d.subsecond * 4294967296 / 1000000000 := by
  have htotal : (UInt64.ofNat d.nanoseconds).toNat = d.nanoseconds :=
    UInt64.toNat_ofNat_of_lt' h
  have hseconds : (UInt64.ofNat d.nanoseconds / 1000000000 + unixEpoch).toNat =
      d.seconds + 2208988800 := by
    rw [UInt64.toNat_add, UInt64.toNat_div, htotal]
    show (d.nanoseconds / 1000000000 + 2208988800) % 18446744073709551616 = _
    rw [Duration.seconds]
    omega
  have hfraction : (((UInt64.ofNat d.nanoseconds % 1000000000) <<< 32) / 1000000000).toNat =
      d.subsecond * 4294967296 / 1000000000 := by
    rw [UInt64.toNat_div, UInt64.toNat_shiftLeft, UInt64.toNat_mod, htotal, Nat.shiftLeft_eq]
    show d.nanoseconds % 1000000000 * 4294967296 % 18446744073709551616 / 1000000000 = _
    rw [Duration.subsecond]
    omega
  have hlow : d.subsecond * 4294967296 / 1000000000 < 4294967296 := by
    rw [Duration.subsecond]
    omega
  have hword := toNat_halves (UInt64.ofNat d.nanoseconds / 1000000000 + unixEpoch)
    (((UInt64.ofNat d.nanoseconds % 1000000000) <<< 32) / 1000000000) (by rwa [hfraction])
  rw [hseconds, hfraction] at hword
  rw [ofUnix, toNat_seconds_ofUInt64, toNat_fraction_ofUInt64, hword]
  omega

/-- No number on the way leaves its word as long as the nanoseconds fit one. -/
theorem ofUnixInWords?_eq_some (h : d.nanoseconds < 18446744073709551616) :
    ofUnixInWords? d = some (ofUnix d) := by
  obtain ⟨hseconds, hfraction⟩ := toNat_ofUnix h
  have hsum : longWord? (d.nanoseconds / 1000000000 + unixEpoch.toNat) =
      some (d.seconds + 2208988800) := by
    have hepoch : unixEpoch.toNat = 2208988800 := rfl
    rw [hepoch, Duration.seconds]
    exact longWord?_eq_some (by omega)
  have hscaled : longWord? (d.nanoseconds % 1000000000 * 4294967296) =
      some (d.subsecond * 4294967296) := by
    rw [Duration.subsecond]
    exact longWord?_eq_some (by omega)
  have hlow : d.subsecond * 4294967296 / 1000000000 < 4294967296 := by
    rw [Duration.subsecond]
    omega
  have hhigher : UInt32.ofNat (d.seconds + 2208988800) = (ofUnix d).seconds := by
    rw [← UInt32.toNat_inj, hseconds, UInt32.toNat_ofNat']
  have hlower : UInt32.ofNat (d.subsecond * 4294967296 / 1000000000) = (ofUnix d).fraction := by
    rw [← UInt32.toNat_inj, hfraction, UInt32.toNat_ofNat_of_lt' hlow]
  rw [ofUnixInWords?, longWord?_eq_some h, Option.bind_eq_bind, Option.bind_some, hsum,
    Option.bind_some, hscaled, Option.bind_some, if_pos hlow, hhigher, hlower]

/-- The nanoseconds past the second can be told from the fraction. -/
theorem subsecond_eq_ceilDiv (d : Duration) :
    d.subsecond =
      (d.subsecond * 4294967296 / 1000000000 * 1000000000) ⌈/⌉ 4294967296 := by
  have hrest : d.subsecond < 1000000000 := Nat.mod_lt _ (by decide)
  rw [Nat.ceilDiv_eq_add_pred_div]
  omega

/-- Before the seconds wrap, the word of a time since 1970 is all of it in units of the fraction,
rounded down. -/
theorem toNat_toUInt64_ofUnix (h : d.seconds < 2085978496) :
    (ofUnix d).toUInt64.toNat =
      2208988800 * 4294967296 + d.nanoseconds * 4294967296 / 1000000000 := by
  rw [Duration.seconds] at h
  obtain ⟨hseconds, hfraction⟩ := toNat_ofUnix (d := d) (by omega)
  rw [Duration.seconds] at hseconds
  rw [Duration.subsecond] at hfraction
  rw [toNat_toUInt64, hseconds, hfraction]
  omega

theorem toUInt64_ofUnix_lt_iff (hd : d.seconds < 2085978496) (he : e.seconds < 2085978496) :
    (ofUnix d).toUInt64 < (ofUnix e).toUInt64 ↔ d.nanoseconds < e.nanoseconds := by
  rw [UInt64.lt_iff_toNat_lt, toNat_toUInt64_ofUnix hd, toNat_toUInt64_ofUnix he]
  omega

theorem compare_eq_lt_iff (a b : NtpTime) : compare a b = .lt ↔ a.toUInt64 < b.toUInt64 := by
  rw [compare_eq_compare_toUInt64, compare_uint64_eq, Nat.compare_eq_lt, UInt64.lt_iff_toNat_lt]

/-- A time since 1970 whose nanoseconds fit 64 bits comes through its words whole: the seconds of the
result are those since 1900, cut to 32 bits, the fraction is rounded down, and rounding up again
gives every nanosecond back. So until the seconds have to be cut, times since 1970 are in the order
of the words that they become; and this is the order of all times, whatever they come from. -/
theorem ofUnix_loses_nothing :
    (∀ d : Duration, d.nanoseconds < 18446744073709551616 →
      let t := ofUnix d
      ofUnixInWords? d = some t ∧
        t.seconds.toNat = (d.seconds + 2208988800) % 4294967296 ∧
        t.fraction.toNat = d.subsecond * 4294967296 / 1000000000 ∧
        d.subsecond = (t.fraction.toNat * 1000000000) ⌈/⌉ 4294967296) ∧
    (∀ d e : Duration, d.seconds < 4294967296 - 2208988800 → e.seconds < 4294967296 - 2208988800 →
      (d.nanoseconds < e.nanoseconds ↔ (ofUnix d).toUInt64 < (ofUnix e).toUInt64) ∧
        (d.nanoseconds < e.nanoseconds ↔ compare (ofUnix d) (ofUnix e) = .lt)) ∧
    ∀ a b : NtpTime, compare a b = compare a.toUInt64 b.toUInt64 := by
  refine ⟨?_, ?_, compare_eq_compare_toUInt64⟩
  · intro d h t
    obtain ⟨hseconds, hfraction⟩ := toNat_ofUnix h
    refine ⟨ofUnixInWords?_eq_some h, hseconds, hfraction, ?_⟩
    rw [hfraction]
    exact subsecond_eq_ceilDiv d
  · intro d e hd he
    have hlt := toUInt64_ofUnix_lt_iff hd he
    exact ⟨hlt.symm, hlt.symm.trans (compare_eq_lt_iff _ _).symm⟩

/-- The last nanosecond that 64 bits can count, when the seconds have wrapped four times; and the last
two before they wrap, which differ by one nanosecond. -/
theorem ofUnix_loses_nothing_past_wrap :
    let last : Duration := ⟨18446744073709551615⟩
    let d : Duration := .ofParts 2085978495 999999998
    let e : Duration := .ofParts 2085978495 999999999
    (last.nanoseconds < 18446744073709551616 ∧
      ofUnixInWords? last = some (ofUnix last) ∧ (ofUnix last).seconds.toNat = 3475863689 ∧
      last.subsecond = ((ofUnix last).fraction.toNat * 1000000000) ⌈/⌉ 4294967296) ∧
    (d.seconds < 4294967296 - 2208988800 ∧ e.seconds < 4294967296 - 2208988800) ∧
      (ofUnix d).toUInt64 < (ofUnix e).toUInt64 ∧ compare (ofUnix d) (ofUnix e) = .lt := by
  intro last d e
  obtain ⟨hparts, horder, -⟩ := ofUnix_loses_nothing
  have hlast : last.nanoseconds < 18446744073709551616 := by decide
  obtain ⟨hwords, hseconds, -, hrest⟩ := hparts last hlast
  have hd : d.seconds < 4294967296 - 2208988800 := by decide
  have he : e.seconds < 4294967296 - 2208988800 := by decide
  have hlt : d.nanoseconds < e.nanoseconds := by decide
  have hcut : (last.seconds + 2208988800) % 4294967296 = 3475863689 := by decide
  obtain ⟨hwordsLt, hcompare⟩ := horder d e hd he
  exact ⟨⟨hlast, hwords, hseconds.trans hcut, hrest⟩, ⟨hd, he⟩, hwordsLt.mp hlt, hcompare.mp hlt⟩

end NtpTime

end LipSync

/-
# LipSync.Proofs.Binary64.Rounding — rounding to a whole number gives a whole number.

A magnitude is whole when it is a multiple of `oneUnits`. Rounding to a number goes to a multiple of
the spacing, and of the spacing and one, one is always a multiple of the other: both are powers of
two. So where one is the smaller a whole magnitude stays as it is, and where the spacing is larger
everything is whole (`oneUnits_dvd_roundUnits`). The integer part of a whole number is then exact,
up to the ends of the range it is held in.
-/
import LipSync.Proofs.Binary64.Comparison

namespace LipSync.Binary64

theorem oneUnits_pos : 0 < oneUnits := by decide

/-- Of two powers of two, one is a multiple of the other. -/
theorem shiftLeft_dvd_or (a b : Nat) : 1 <<< a ∣ 1 <<< b ∨ 1 <<< b ∣ 1 <<< a := by
  rw [Nat.one_shiftLeft, Nat.one_shiftLeft]
  rcases Nat.le_total a b with h | h
  · exact Or.inl (Nat.pow_dvd_pow 2 h)
  · exact Or.inr (Nat.pow_dvd_pow 2 h)

/-- Of the spacing and one, one is a multiple of the other. -/
theorem oneUnits_dvd_spacing_or (n : Nat) : oneUnits ∣ spacing n ∨ spacing n ∣ oneUnits :=
  shiftLeft_dvd_or 1074 (n.log2 - 52)

/-- A whole magnitude is rounded to a whole one. -/
theorem oneUnits_dvd_roundUnits (k : Nat) : oneUnits ∣ roundUnits (k * oneUnits) 1 := by
  rcases oneUnits_dvd_spacing_or (k * oneUnits) with h | h
  · rw [roundUnits, Nat.div_one]
    exact Nat.dvd_trans h (Nat.dvd_mul_left _ _)
  · have hwhole : oneUnits ∣ k * oneUnits := Nat.dvd_mul_left _ _
    rw [roundUnits_of_dvd (Nat.dvd_trans h hwhole)]
    exact hwhole

variable {x : Binary64} {s : Bool} {m : Nat} {hm : Representable m}

/-- What is rounded to a whole number is one, unless it is none at all. -/
theorem oneUnits_dvd_of_round (h : x.round = .finite s m hm) : oneUnits ∣ m := by
  cases x with
  | nan => cases h
  | infinity t => cases h
  | finite t n hn =>
    simp only [round, ofQuotient] at h
    split at h
    · cases h
      exact oneUnits_dvd_roundUnits (nearestWhole n)
    · cases h

theorem truncateWithin_finite (lo hi : Int) (s : Bool) (m : Nat) (hm : Representable m) :
    truncateWithin lo hi (.finite s m hm) = max lo (min hi (signed s (m / oneUnits))) := rfl

theorem truncateWithin_infinity (lo hi : Int) (s : Bool) :
    truncateWithin lo hi (.infinity s) = if s then lo else hi := rfl

/-! ## Integers and magnitudes -/

theorem not_lt_abs_nan (x : Binary64) : ¬x < nan.abs := fun h => ne_nan_of_lt_right h rfl

/-- An integer of at most 53 bits is less than a magnitude when it is less in units. -/
theorem ofInt_lt_abs_iff {n : Int} (h : n.natAbs ≤ 1 <<< 53) :
    .ofInt n < (finite s m hm).abs ↔ n * oneUnits < m := by
  have habs : (finite s m hm).abs.position = some (m : Int) := rfl
  rw [lt_iff, position_ofInt h, habs]
  constructor
  · rintro ⟨_, _, hx, hy, hlt⟩
    cases hx
    cases hy
    exact hlt
  · intro hlt
    exact ⟨_, _, rfl, rfl, hlt⟩

/-- An integer of at most 53 bits is less than an infinite magnitude. -/
theorem ofInt_lt_abs_infinity {n : Int} (h : n.natAbs ≤ 1 <<< 53) (s : Bool) :
    .ofInt n < (infinity s).abs := by
  refine lt_iff.mpr ⟨_, _, position_ofInt h, rfl, ?_⟩
  have hmagnitude : n * oneUnits ≤ (n.natAbs : Int) * oneUnits :=
    Int.mul_le_mul_of_nonneg_right Int.le_natAbs (Int.natCast_nonneg _)
  exact Int.lt_of_le_of_lt hmagnitude (Int.ofNat_lt.mpr (mul_oneUnits_lt h))

end LipSync.Binary64

/-
# LipSync.Binary64.Basic — the binary64 numbers, and rounding to them.

A finite binary64 number is a whole number of *units* of 2⁻¹⁰⁷⁴, the smallest positive one. Counting
in units keeps every magnitude a natural number: around `n` units the representable magnitudes are
the multiples of `spacing n`, and the finite ones end below `limitUnits`. So an operation needs no
algorithm of its own. It forms its exact result as a quotient of naturals and calls `ofQuotient`,
which is the only place that rounds: to the nearest representable magnitude, an exact half to the
even neighbour, and to infinity from `limitUnits` on.

A rounded magnitude is representable again: by `spacing_dvd_roundUnits` it lies on its own grid. That
is why a finite number can carry the proof that it is one. The two zeros are different values, and
there is one NaN.
-/

namespace LipSync

namespace Binary64

/-! ## Magnitudes in units -/

/-- One, counted in units. -/
def oneUnits : Nat := 1 <<< 1074

/-- The first magnitude past the finite ones, 2¹⁰²⁴, counted in units. -/
def limitUnits : Nat := 1 <<< 2098

theorem limitUnits_pos : 0 < limitUnits := by
  rw [limitUnits, Nat.one_shiftLeft]
  apply Nat.two_pow_pos

/-- The distance between neighbouring magnitudes around `n` units: 53 significant bits are kept. -/
def spacing (n : Nat) : Nat := 1 <<< (n.log2 - 52)

/-- A magnitude is representable when it is finite and lies on the grid of its neighbourhood. -/
def Representable (n : Nat) : Prop := spacing n ∣ n ∧ n < limitUnits

instance (n : Nat) : Decidable (Representable n) :=
  inferInstanceAs (Decidable (spacing n ∣ n ∧ n < limitUnits))

/-- The whole number nearest to `num / den`, an exact half going to the even neighbour. -/
def halfEven (num den : Nat) : Nat :=
  if 2 * (num % den) < den ∨ (2 * (num % den) = den ∧ num / den % 2 = 0) then num / den
  else num / den + 1

/-- The magnitude nearest to `num / den` units, before the check against `limitUnits`. -/
def roundUnits (num den : Nat) : Nat :=
  halfEven num (den * spacing (num / den)) * spacing (num / den)

theorem halfEven_le (num den : Nat) : halfEven num den ≤ num / den + 1 := by
  unfold halfEven; split <;> omega

theorem le_halfEven (num den : Nat) : num / den ≤ halfEven num den := by
  unfold halfEven; split <;> omega

theorem spacing_pos (n : Nat) : 0 < spacing n := by
  rw [spacing, Nat.one_shiftLeft]
  exact Nat.two_pow_pos _

/-- At most 53 bits of a magnitude stand above its spacing. -/
theorem div_spacing_lt (n : Nat) : n / spacing n < 1 <<< 53 := by
  have hlog : n < 2 ^ (n.log2 + 1) := Nat.lt_log2_self
  refine (Nat.div_lt_iff_lt_mul (spacing_pos n)).mpr ?_
  rw [spacing, Nat.one_shiftLeft, Nat.one_shiftLeft, ← Nat.pow_add]
  exact Nat.lt_of_lt_of_le hlog (Nat.pow_le_pow_right (by decide) (by omega))

/-- Up to 2⁵³ steps of a power of two lie on their own grid. At 2⁵³ steps the product is itself a
power of two, so the wider spacing there still divides it. -/
theorem spacing_dvd_shiftLeft {k : Nat} (hk : k ≤ 1 <<< 53) (p : Nat) :
    spacing (k <<< p) ∣ k <<< p := by
  rw [spacing, Nat.one_shiftLeft, Nat.shiftLeft_eq]
  rw [Nat.one_shiftLeft] at hk
  rcases Nat.lt_or_eq_of_le hk with h | rfl
  · have hlt : k * 2 ^ p < 2 ^ (p + 53) := by
      rw [Nat.pow_add, Nat.mul_comm (2 ^ p)]
      exact Nat.mul_lt_mul_of_pos_right h (Nat.two_pow_pos p)
    rcases Nat.eq_zero_or_pos (k * 2 ^ p) with h0 | hpos
    · rw [h0]; exact Nat.dvd_zero _
    · have hl : (k * 2 ^ p).log2 < p + 53 := (Nat.log2_lt (by omega)).mpr hlt
      exact Nat.dvd_trans (Nat.pow_dvd_pow 2 (by omega)) ⟨k, Nat.mul_comm ..⟩
  · rw [← Nat.pow_add, Nat.log2_two_pow]
    exact Nat.pow_dvd_pow 2 (by omega)

/-- What `roundUnits` returns lies on its own grid. -/
theorem spacing_dvd_roundUnits (num den : Nat) :
    spacing (roundUnits num den) ∣ roundUnits num den := by
  have hk : halfEven num (den * spacing (num / den)) ≤ 1 <<< 53 := by
    have h := halfEven_le num (den * spacing (num / den))
    rw [← Nat.div_div_eq_div_mul] at h
    exact Nat.le_trans h (div_spacing_lt (num / den))
  have hs := spacing_dvd_shiftLeft hk ((num / den).log2 - 52)
  rwa [Nat.shiftLeft_eq, ← Nat.one_shiftLeft] at hs

end Binary64

/-! ## The numbers -/

/-- A binary64 number: not a number, an infinity, or a sign and a representable magnitude. -/
inductive Binary64 where
  | nan
  | infinity (negative : Bool)
  | finite (negative : Bool) (units : Nat) (representable : Binary64.Representable units)
  deriving DecidableEq

namespace Binary64

/-- Zero with the given sign. -/
def zero (negative : Bool) : Binary64 :=
  .finite negative 0 ⟨⟨0, rfl⟩, limitUnits_pos⟩

/-- The number nearest to `num / den` units, with the given sign. A magnitude that rounds to
`limitUnits` or more is infinite. -/
def ofQuotient (negative : Bool) (num den : Nat) : Binary64 :=
  if h : roundUnits num den < limitUnits then
    .finite negative (roundUnits num den) ⟨spacing_dvd_roundUnits num den, h⟩
  else .infinity negative

/-- The number nearest to the integer `n`. -/
def ofInt (n : Int) : Binary64 := ofQuotient (decide (n < 0)) (n.natAbs * oneUnits) 1

/-- Neither NaN nor infinite. -/
def isFinite : Binary64 → Bool
  | .finite .. => true
  | _ => false

instance : Inhabited Binary64 := ⟨zero false⟩

end Binary64

end LipSync

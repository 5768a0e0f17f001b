/-
# LipSync.Proofs.Binary64.Comparison — the order of the binary64 numbers.

`<` and `==` compare places on the line of units, so on everything but NaN they are a strict order
and an equivalence that fit together. Equal numbers are the same number or two zeros
(`eq_or_zeros_of_beq`), and what is greater than both zeros cannot tell them apart by subtracting
one (`sub_eq_sub_of_beq`). An integer of at most 53 bits is a number exactly (`position_ofInt`).
-/
import LipSync.Binary64.Order

namespace LipSync.Binary64

variable {a b c : Binary64}

/-! ## Places -/

theorem position_eq_none_iff : a.position = none ↔ a = nan := by
  cases a <;> simp [position]

/-- The sign and the magnitude can be read off a place that is not zero. -/
theorem signed_inj {s t : Bool} {m n : Nat} (h : signed s m = signed t n) :
    (s = t ∧ m = n) ∨ (m = 0 ∧ n = 0) := by
  unfold signed at h
  cases s <;> cases t <;> simp at h ⊢ <;> omega

/-! ## A strict order -/

theorem ne_nan_of_lt_left (h : a < b) : a ≠ nan := by
  rintro rfl
  obtain ⟨x, y, hx, -, -⟩ := lt_iff.mp h
  cases hx

theorem ne_nan_of_lt_right (h : a < b) : b ≠ nan := by
  rintro rfl
  obtain ⟨x, y, -, hy, -⟩ := lt_iff.mp h
  cases hy

theorem not_lt_self (a : Binary64) : ¬a < a := by
  intro h
  obtain ⟨x, y, hx, hy, hxy⟩ := lt_iff.mp h
  rw [hx] at hy
  cases hy
  exact absurd hxy (Int.lt_irrefl x)

theorem beq_self_iff : (a == a) = true ↔ a ≠ nan := by
  rw [beq_iff, ne_eq, ← position_eq_none_iff]
  cases a.position <;> simp

theorem beq_comm (h : (a == b) = true) : (b == a) = true := by
  obtain ⟨x, ha, hb⟩ := beq_iff.mp h
  exact beq_iff.mpr ⟨x, hb, ha⟩

theorem beq_trans (h : (a == b) = true) (h' : (b == c) = true) : (a == c) = true := by
  obtain ⟨x, ha, hb⟩ := beq_iff.mp h
  obtain ⟨y, hb', hc⟩ := beq_iff.mp h'
  rw [hb] at hb'
  cases hb'
  exact beq_iff.mpr ⟨x, ha, hc⟩

theorem lt_of_beq_of_lt (h : (a == b) = true) (h' : b < c) : a < c := by
  obtain ⟨x, ha, hb⟩ := beq_iff.mp h
  obtain ⟨y, z, hb', hc, hlt⟩ := lt_iff.mp h'
  rw [hb] at hb'
  cases hb'
  exact lt_iff.mpr ⟨x, z, ha, hc, hlt⟩

theorem lt_of_lt_of_beq (h : a < b) (h' : (b == c) = true) : a < c := by
  obtain ⟨x, y, ha, hb, hlt⟩ := lt_iff.mp h
  obtain ⟨z, hb', hc⟩ := beq_iff.mp h'
  rw [hb] at hb'
  cases hb'
  exact lt_iff.mpr ⟨x, y, ha, hc, hlt⟩

/-- Equal numbers are one and the same, unless they are zeros. -/
theorem eq_or_zeros_of_beq (h : (a == b) = true) :
    a = b ∨ ∃ s t, a = zero s ∧ b = zero t := by
  obtain ⟨x, ha, hb⟩ := beq_iff.mp h
  have hplace : a.position = b.position := by rw [ha, hb]
  have hlimit := limitUnits_pos
  cases a with
  | nan => cases ha
  | infinity s =>
    cases b with
    | nan => cases hb
    | infinity t =>
      rcases signed_inj (Option.some.inj hplace) with ⟨rfl, -⟩ | ⟨hzero, -⟩
      · exact Or.inl rfl
      · omega
    | finite t n hn =>
      rcases signed_inj (Option.some.inj hplace) with ⟨-, heq⟩ | ⟨hzero, -⟩
      · have := hn.2
        omega
      · omega
  | finite s m hm =>
    cases b with
    | nan => cases hb
    | infinity t =>
      rcases signed_inj (Option.some.inj hplace) with ⟨-, heq⟩ | ⟨-, hzero⟩
      · have := hm.2
        omega
      · omega
    | finite t n hn =>
      rcases signed_inj (Option.some.inj hplace) with ⟨rfl, rfl⟩ | ⟨rfl, rfl⟩
      · exact Or.inl rfl
      · exact Or.inr ⟨s, t, rfl, rfl⟩

/-- Which zero is subtracted makes no difference to a positive number. -/
theorem sub_zero_eq {s : Bool} (h : zero s < c) (t : Bool) : c - zero s = c - zero t := by
  obtain ⟨x, y, hx, hc, hlt⟩ := lt_iff.mp h
  have hx0 : x = 0 := by
    cases hx
    cases s <;> rfl
  subst hx0
  show add c (neg (zero s)) = add c (neg (zero t))
  cases c with
  | nan => rfl
  | infinity u => rfl
  | finite u n hn =>
    have hpos : 0 < signed u n := by
      cases hc
      exact hlt
    have hsum (v : Bool) : signed u n + signed v 0 = signed u n := by
      cases v <;> exact Int.add_zero _
    simp only [zero, neg, add, hsum, if_neg (Int.ne_of_gt hpos)]

/-- Equal numbers cannot be told apart by subtracting them from something greater. -/
theorem sub_eq_sub_of_beq (h : (a == b) = true) (hlt : a < c) : c - a = c - b := by
  rcases eq_or_zeros_of_beq h with rfl | ⟨s, t, rfl, rfl⟩
  · rfl
  · exact sub_zero_eq hlt t

/-! ## Integers -/

/-- A magnitude on the grid of its neighbourhood is rounded to itself. -/
theorem roundUnits_of_dvd {n : Nat} (h : spacing n ∣ n) : roundUnits n 1 = n := by
  have hpos := spacing_pos n
  have hwhole : halfEven n (1 * spacing (n / 1)) = n / spacing n := by
    rw [Nat.div_one, Nat.one_mul, halfEven, Nat.mod_eq_zero_of_dvd h, if_pos (Or.inl (by omega))]
  rw [roundUnits, hwhole, Nat.div_one, Nat.div_mul_cancel h]

/-- A whole magnitude of at most 53 bits is finite. -/
theorem mul_oneUnits_lt {k : Nat} (h : k ≤ 1 <<< 53) : k * oneUnits < limitUnits := by
  have hle : k * oneUnits ≤ (1 <<< 53) * oneUnits := Nat.mul_le_mul_right _ h
  exact Nat.lt_of_le_of_lt hle (by decide)

/-- An integer of at most 53 bits is a number, and stands at its own place. -/
theorem position_ofInt {n : Int} (h : n.natAbs ≤ 1 <<< 53) :
    (ofInt n).position = some (n * oneUnits) := by
  have hgrid (p : Nat) : spacing (n.natAbs * 1 <<< p) ∣ n.natAbs * 1 <<< p := by
    have hshift := spacing_dvd_shiftLeft h p
    rwa [Nat.shiftLeft_eq, ← Nat.one_shiftLeft] at hshift
  have hround : roundUnits (n.natAbs * oneUnits) 1 = n.natAbs * oneUnits :=
    roundUnits_of_dvd (hgrid 1074)
  have hfits : roundUnits (n.natAbs * oneUnits) 1 < limitUnits := by
    rw [hround]
    exact mul_oneUnits_lt h
  rw [ofInt, ofQuotient, dif_pos hfits]
  show some (signed _ (roundUnits (n.natAbs * oneUnits) 1)) = _
  rw [hround, signed]
  congr 1
  by_cases hneg : n < 0
  · rw [if_pos (decide_eq_true hneg), Int.natCast_mul, Int.ofNat_natAbs_of_nonpos (by omega),
      Int.neg_mul, Int.neg_neg]
  · rw [if_neg (by simpa using hneg), Int.natCast_mul, Int.natAbs_of_nonneg (by omega)]

/-- A positive integer of at most 53 bits is a positive number. -/
theorem zero_lt_ofInt {n : Int} (hpos : 0 < n) (h : n.natAbs ≤ 1 <<< 53) :
    zero false < ofInt n := by
  refine lt_iff.mpr ⟨0, _, rfl, position_ofInt h, ?_⟩
  apply Int.mul_pos hpos
  exact Int.natCast_pos.mpr (by decide)

end LipSync.Binary64

/-
# LipSync.Proofs.Binary64.Magnitude — how large the result of an operation can be.

A power of two lies on its own grid, so what does not exceed one is not rounded past it. Hence the
bounds of exact results are the bounds of the rounded ones, as long as they are powers of two below
2¹⁰²⁴ (`Within`): a sum is within the next power of two, a product within the product of the two, and
a quotient by one or more within the same as the dividend. What is within such a bound is finite.

Where the exact result lies on its own grid, nothing is rounded at all.
-/
import LipSync.Binary64.Bits
import LipSync.Proofs.Binary64.Monotonicity

namespace LipSync.Binary64

variable {s t : Bool} {m n j k num den : Nat}

/-! ## Exact results -/

theorem one_shiftLeft_pos (k : Nat) : 0 < 1 <<< k := by
  rw [Nat.one_shiftLeft]
  exact Nat.two_pow_pos k

theorem shiftLeft_sub_mul (k : Nat) {p q : Nat} (h : p ≤ q) :
    k <<< (q - p) * 1 <<< p = k <<< q := by
  rw [Nat.one_shiftLeft, Nat.shiftLeft_eq, Nat.mul_assoc, ← Nat.pow_add, Nat.sub_add_cancel h,
    ← Nat.shiftLeft_eq]

theorem one_shiftLeft_lt (h : j < k) : 1 <<< j < 1 <<< k := by
  rw [Nat.one_shiftLeft, Nat.one_shiftLeft]
  exact Nat.pow_lt_pow_right (by decide) h

/-- A quotient that comes out as a representable magnitude is that magnitude. -/
theorem ofQuotient_mul (hden : 0 < den) (s : Bool) (hm : Representable m) :
    ofQuotient s (m * den) den = finite s m hm := by
  have hround := roundUnits_mul hden hm.1
  have hfits : roundUnits (m * den) den < limitUnits := by
    rw [hround]
    exact hm.2
  rw [ofQuotient, dif_pos hfits]
  congr 1

/-- A count of at most 53 bits is representable at any place up to the last one. -/
theorem representable_shiftLeft {p : Nat} (hk : k < 1 <<< 53) (hp : p < 2046) :
    Representable (k <<< p) := by
  have hscaled := representable_scaled (e := p + 1) hk (Nat.succ_lt_succ hp)
  rwa [Nat.add_sub_cancel] at hscaled

theorem mul_oneUnits (k : Nat) : k * oneUnits = k <<< 1074 := by
  rw [Nat.shiftLeft_eq, oneUnits, Nat.one_shiftLeft]

/-- A count of at most 53 bits is a number exactly. -/
theorem ofInt_natCast (hk : k < 1 <<< 53) :
    ofInt k = finite false (k <<< 1074) (representable_shiftLeft hk (by decide)) := by
  have hexact := ofQuotient_mul Nat.one_pos false
    (representable_shiftLeft (p := 1074) hk (by decide))
  rw [← hexact, ofInt, decide_eq_false (by omega), Int.natAbs_natCast, Nat.mul_one, mul_oneUnits]

/-- A product of counts is exact as long as it has at most 53 bits. -/
theorem ofInt_natCast_mul (hj : j < 1 <<< 53) (hk : k < 1 <<< 53) (hjk : j * k < 1 <<< 53) :
    ofInt j * ofInt k = ofInt (j * k : Nat) := by
  have hproduct : j <<< 1074 * k <<< 1074 = (j * k) <<< 1074 * oneUnits := by
    rw [← mul_oneUnits, ← mul_oneUnits, ← mul_oneUnits]
    ac_rfl
  rw [ofInt_natCast hj, ofInt_natCast hk, ofInt_natCast hjk, finite_mul, hproduct]
  exact ofQuotient_mul (by decide) false _

/-- Dividing a count by a power of two only moves its bits. -/
theorem ofInt_natCast_div {p : Nat} (hk : k < 1 <<< 53) (hp : p < 53) :
    ofInt k / ofInt (1 <<< p : Nat) =
      finite false (k <<< (1074 - p)) (representable_shiftLeft hk (by omega)) := by
  have hpower : 1 <<< p < 1 <<< 53 := one_shiftLeft_lt hp
  have hpos : 0 < 1 <<< p <<< 1074 := by
    rw [← Nat.shiftLeft_add]
    exact one_shiftLeft_pos _
  have hquotient : k <<< 1074 * oneUnits = k <<< (1074 - p) * 1 <<< p <<< 1074 := by
    rw [← shiftLeft_sub_mul k (Nat.le_of_lt (Nat.lt_trans hp (by decide))), ← mul_oneUnits (1 <<< p)]
    ac_rfl
  rw [ofInt_natCast hk, ofInt_natCast hpower, finite_div (Nat.ne_of_gt hpos), hquotient]
  exact ofQuotient_mul hpos false _

/-- The sum of two numbers without a sign is their exact sum, rounded. -/
theorem finite_false_add {hm : Representable m} {hn : Representable n} :
    finite false m hm + finite false n hn = ofQuotient false (m + n) 1 := by
  have hsum : signed false m + signed false n = ((m + n : Nat) : Int) := by simp [signed]
  rw [finite_add, hsum, Int.natAbs_natCast, decide_eq_false (by omega)]
  split
  · next hzero =>
    have hzero : m + n = 0 * 1 := by omega
    rw [hzero, ofQuotient_mul Nat.one_pos false ⟨⟨0, rfl⟩, limitUnits_pos⟩]
    rfl
  · rfl

/-! ## Quotients -/

variable {a : Binary64} {d : Int}

/-- A quotient by one or more is finite, and not larger than the dividend. -/
theorem exists_finite_div_finite (hm : Representable m) (hn : Representable n)
    (hone : oneUnits ≤ n) (s : Bool) :
    ∃ q hq, finite s m hm / finite false n hn = finite s q hq ∧ q ≤ m := by
  have hn0 : 0 < n := Nat.lt_of_lt_of_le (by decide) hone
  have hround : roundUnits (m * oneUnits) n ≤ m :=
    roundUnits_le hn0 hm.1 (Nat.mul_le_mul_left m hone)
  have hfits := Nat.lt_of_le_of_lt hround hm.2
  refine ⟨roundUnits (m * oneUnits) n, ⟨spacing_dvd_roundUnits _ _, hfits⟩, ?_, hround⟩
  rw [finite_div (by omega), Bool.xor_false, ofQuotient, dif_pos hfits]

/-- So is a quotient by a positive integer. -/
theorem exists_finite_div (hm : Representable m) (hd : 0 < d) (hbits : d < 1 <<< 53) (s : Bool) :
    ∃ q hq, finite s m hm / ofInt d = finite s q hq ∧ q ≤ m := by
  obtain ⟨k, rfl⟩ := Int.eq_ofNat_of_zero_le (Int.le_of_lt hd)
  have hone : oneUnits ≤ k <<< 1074 := by
    rw [← mul_oneUnits]
    exact Nat.le_mul_of_pos_left _ (Int.natCast_pos.mp hd)
  rw [ofInt_natCast (Int.ofNat_lt.mp hbits)]
  exact exists_finite_div_finite hm _ hone s

theorem isFinite_div (ha : a.isFinite = true) (hd : 0 < d) (hbits : d < 1 <<< 53) :
    (a / ofInt d).isFinite = true := by
  obtain ⟨s, m, hm, rfl⟩ := exists_finite ha
  obtain ⟨q, hq, hdiv, -⟩ := exists_finite_div hm hd hbits s
  rw [hdiv]
  rfl

theorem zero_le_div (ha : a.isFinite = true) (hpos : zero false ≤ a) (hd : 0 < d)
    (hbits : d < 1 <<< 53) : zero false ≤ a / ofInt d := by
  obtain ⟨s, m, hm, rfl⟩ := exists_finite ha
  obtain ⟨q, hq, hdiv, hle⟩ := exists_finite_div hm hd hbits s
  rw [hdiv]
  have hpos : 0 ≤ signed s m := finite_le_finite_iff.mp hpos
  show 0 ≤ signed s q
  cases s
  · exact Int.natCast_nonneg q
  · simp only [signed, if_true] at hpos ⊢
    omega

/-! ## Powers of two -/

/-- A finite number whose magnitude is at most 2ᵏ. -/
def Within (k : Nat) : Binary64 → Prop
  | finite _ m _ => m ≤ oneUnits <<< k
  | _ => False

theorem oneUnits_shiftLeft (k : Nat) : oneUnits <<< k = 1 <<< (1074 + k) := by
  rw [oneUnits, Nat.shiftLeft_add]

theorem oneUnits_shiftLeft_eq (k : Nat) : oneUnits <<< k = 1 <<< k * oneUnits := by
  rw [Nat.one_shiftLeft, Nat.shiftLeft_eq, Nat.mul_comm]

theorem spacing_dvd_oneUnits_shiftLeft (k : Nat) : spacing (oneUnits <<< k) ∣ oneUnits <<< k := by
  rw [oneUnits_shiftLeft]
  exact spacing_dvd_one_shiftLeft _

theorem oneUnits_shiftLeft_lt (hk : k ≤ 1023) : oneUnits <<< k < limitUnits := by
  rw [oneUnits_shiftLeft, limitUnits]
  exact one_shiftLeft_lt (by omega)

theorem within_ofQuotient (hden : 0 < den) (hk : k ≤ 1023) (s : Bool)
    (h : num ≤ oneUnits <<< k * den) : (ofQuotient s num den).Within k := by
  have hround := roundUnits_le hden (spacing_dvd_oneUnits_shiftLeft k) h
  have hfits := Nat.lt_of_le_of_lt hround (oneUnits_shiftLeft_lt hk)
  rw [ofQuotient, dif_pos hfits]
  exact hround

theorem within_ofInt {n : Int} (hk : k ≤ 1023) (h : n.natAbs ≤ 1 <<< k) : (ofInt n).Within k := by
  apply within_ofQuotient Nat.one_pos hk
  calc
    n.natAbs * oneUnits ≤ 1 <<< k * oneUnits := Nat.mul_le_mul_right _ h
    _ = oneUnits <<< k * 1 := by rw [Nat.mul_one, oneUnits_shiftLeft_eq]

/-- What does not exceed a whole number is not rounded past it. -/
theorem nearestWhole_le (h : m ≤ n * oneUnits) : nearestWhole m ≤ n := by
  have hone : 0 < oneUnits := by decide
  apply Nat.le_of_lt_succ
  apply (Nat.div_lt_iff_lt_mul (by omega)).mpr
  rw [Nat.succ_eq_add_one, Nat.add_mul, Nat.one_mul]
  generalize oneUnits = one at h hone ⊢
  have htwice : n * (2 * one) = 2 * (n * one) := by ac_rfl
  omega

namespace Within

variable {b : Binary64}

theorem isFinite (h : a.Within k) : a.isFinite = true := by
  cases a with
  | finite s m hm => rfl
  | nan | infinity _ => cases h

theorem mono (h : a.Within j) (hjk : j ≤ k) : a.Within k := by
  cases a with
  | nan | infinity _ => cases h
  | finite s m hm =>
    refine Nat.le_trans h ?_
    rw [Nat.shiftLeft_eq, Nat.shiftLeft_eq]
    exact Nat.mul_le_mul_left _ (Nat.pow_le_pow_right (by decide) hjk)

theorem neg (h : a.Within k) : (-a).Within k := by
  cases a with
  | finite s m hm => exact h
  | nan | infinity _ => cases h

theorem add (ha : a.Within k) (hb : b.Within k) (hk : k < 1023) : (a + b).Within (k + 1) := by
  obtain ⟨s, m, hm, rfl⟩ := exists_finite ha.isFinite
  obtain ⟨t, n, hn, rfl⟩ := exists_finite hb.isFinite
  have hsum : (signed s m + signed t n).natAbs ≤ oneUnits <<< (k + 1) * 1 := by
    have htwice : oneUnits <<< (k + 1) = 2 * oneUnits <<< k := Nat.shiftLeft_succ _ _
    have hs := natAbs_signed s m
    have ht := natAbs_signed t n
    have hm' : m ≤ oneUnits <<< k := ha
    have hn' : n ≤ oneUnits <<< k := hb
    omega
  rw [finite_add]
  split
  · exact Nat.zero_le _
  · exact within_ofQuotient Nat.one_pos hk _ hsum

theorem sub (ha : a.Within k) (hb : b.Within k) (hk : k < 1023) : (a - b).Within (k + 1) :=
  ha.add hb.neg hk

theorem mul (ha : a.Within j) (hb : b.Within k) (hjk : j + k ≤ 1023) :
    (a * b).Within (j + k) := by
  obtain ⟨s, m, hm, rfl⟩ := exists_finite ha.isFinite
  obtain ⟨t, n, hn, rfl⟩ := exists_finite hb.isFinite
  rw [finite_mul]
  apply within_ofQuotient (by decide) hjk
  calc
    m * n ≤ oneUnits <<< j * oneUnits <<< k := Nat.mul_le_mul ha hb
    _ = oneUnits <<< (j + k) * oneUnits := by
      rw [Nat.shiftLeft_eq, Nat.shiftLeft_eq, Nat.shiftLeft_eq, Nat.pow_add]
      ac_rfl

theorem div (ha : a.Within k) (hd : 0 < d) (hbits : d < 1 <<< 53) : (a / ofInt d).Within k := by
  obtain ⟨s, m, hm, rfl⟩ := exists_finite ha.isFinite
  obtain ⟨q, hq, hdiv, hle⟩ := exists_finite_div hm hd hbits s
  rw [hdiv]
  exact Nat.le_trans hle ha

theorem round (ha : a.Within k) (hk : k ≤ 1023) : a.round.Within k := by
  obtain ⟨s, m, hm, rfl⟩ := exists_finite ha.isFinite
  apply within_ofQuotient Nat.one_pos hk
  rw [Nat.mul_one, oneUnits_shiftLeft_eq]
  have hm' : m ≤ 1 <<< k * oneUnits := by
    rw [← oneUnits_shiftLeft_eq]
    exact ha
  exact Nat.mul_le_mul_right _ (nearestWhole_le hm')

end Within

end LipSync.Binary64

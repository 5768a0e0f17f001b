/-
# LipSync.Proofs.Binary64.Monotonicity — rounding keeps order.

Every operation rounds its exact result once, so an operation keeps order when its exact result does
and rounding does. Rounding compares with a magnitude on its own grid as the exact number does
(`le_roundUnits`, `roundUnits_le`); so two numbers with such a magnitude between them stay in order,
and two numbers without one are rounded to the same grid.

The rule is carried over to signed numbers by `nearest`, the place of what an exact number is rounded
to. Each operation on finite numbers is `nearest` of the exact result, with the infinities at the
ends of the line.
-/
import LipSync.Proofs.Binary64.Comparison

namespace LipSync.Binary64

/-! ## Rounding to a whole number -/

variable {num num' den k g : Nat}

theorem halfEven_mono (h : num ≤ num') (den : Nat) : halfEven num den ≤ halfEven num' den := by
  have hwhole : num / den ≤ num' / den := Nat.div_le_div_right h
  rcases Nat.eq_or_lt_of_le hwhole with heq | hlt
  · -- of two numbers with the same whole part, what is left over decides
    have hnum := Nat.div_add_mod num den
    have hnum' := Nat.div_add_mod num' den
    rw [heq] at hnum
    unfold halfEven
    rw [heq]
    split <;> split <;> omega
  · calc
      halfEven num den ≤ num / den + 1 := halfEven_le num den
      _ ≤ num' / den := hlt
      _ ≤ halfEven num' den := le_halfEven num' den

theorem halfEven_mul (hden : 0 < den) (k : Nat) : halfEven (k * den) den = k := by
  rw [halfEven, Nat.mul_mod_left, if_pos (Or.inl (by omega)), Nat.mul_div_cancel k hden]

theorem halfEven_le_of_le_mul (hden : 0 < den) (h : num ≤ k * den) : halfEven num den ≤ k := by
  have hmono := halfEven_mono h den
  rwa [halfEven_mul hden] at hmono

theorem le_halfEven_of_mul_le (hden : 0 < den) (h : k * den ≤ num) : k ≤ halfEven num den := by
  have hmono := halfEven_mono h den
  rwa [halfEven_mul hden] at hmono

/-! ## Rounding to a magnitude -/

theorem log2_mono {m n : Nat} (h : m ≤ n) : m.log2 ≤ n.log2 := by
  rcases Nat.eq_zero_or_pos m with rfl | hm
  · exact Nat.zero_le _
  · apply (Nat.le_log2 (by omega)).mpr
    exact Nat.le_trans (Nat.log2_self_le (by omega)) h

theorem spacing_dvd_of_log2_le {m n : Nat} (h : m.log2 ≤ n.log2) : spacing m ∣ spacing n := by
  rw [spacing, spacing, Nat.one_shiftLeft, Nat.one_shiftLeft]
  exact Nat.pow_dvd_pow 2 (by omega)

/-- Rounding down passes no multiple of the spacing. -/
theorem roundUnits_le_of_dvd (hden : 0 < den) (hdvd : spacing (num / den) ∣ g)
    (h : num ≤ g * den) : roundUnits num den ≤ g := by
  obtain ⟨k, rfl⟩ := hdvd
  rw [roundUnits, Nat.mul_comm (spacing _) k]
  apply Nat.mul_le_mul_right
  apply halfEven_le_of_le_mul (Nat.mul_pos hden (spacing_pos _))
  calc
    num ≤ spacing (num / den) * k * den := h
    _ = k * (den * spacing (num / den)) := by ac_rfl

theorem le_roundUnits_of_dvd (hden : 0 < den) (hdvd : spacing (num / den) ∣ g)
    (h : g * den ≤ num) : g ≤ roundUnits num den := by
  obtain ⟨k, rfl⟩ := hdvd
  rw [roundUnits, Nat.mul_comm (spacing _) k]
  apply Nat.mul_le_mul_right
  apply le_halfEven_of_mul_le (Nat.mul_pos hden (spacing_pos _))
  calc
    k * (den * spacing (num / den)) = spacing (num / den) * k * den := by ac_rfl
    _ ≤ num := h

/-- What does not exceed a magnitude on its own grid is not rounded past it. -/
theorem roundUnits_le (hden : 0 < den) (hgrid : spacing g ∣ g) (h : num ≤ g * den) :
    roundUnits num den ≤ g := by
  have hfloor : num / den ≤ g := Nat.div_le_of_le_mul (by rwa [Nat.mul_comm])
  have hdvd := spacing_dvd_of_log2_le (log2_mono hfloor)
  exact roundUnits_le_of_dvd hden (Nat.dvd_trans hdvd hgrid) h

/-- The power of two at the start of a number's binade is not rounded past. -/
theorem shiftLeft_log2_le_roundUnits (hden : 0 < den) (hpos : num / den ≠ 0) :
    1 <<< (num / den).log2 ≤ roundUnits num den := by
  apply le_roundUnits_of_dvd hden
  · rw [spacing, Nat.one_shiftLeft, Nat.one_shiftLeft]
    exact Nat.pow_dvd_pow 2 (Nat.sub_le _ _)
  · rw [Nat.one_shiftLeft]
    exact (Nat.le_div_iff_mul_le hden).mp (Nat.log2_self_le hpos)

/-- What reaches a magnitude on its own grid is not rounded below it. -/
theorem le_roundUnits (hden : 0 < den) (hgrid : spacing g ∣ g) (h : g * den ≤ num) :
    g ≤ roundUnits num den := by
  have hfloor : g ≤ num / den := (Nat.le_div_iff_mul_le hden).mpr h
  rcases Nat.eq_zero_or_pos g with rfl | hg
  · exact Nat.zero_le _
  by_cases hlog : (num / den).log2 ≤ g.log2
  · exact le_roundUnits_of_dvd hden (Nat.dvd_trans (spacing_dvd_of_log2_le hlog) hgrid) h
  · -- the power of two at the start of the number's binade stands between
    calc
      g ≤ 2 ^ (g.log2 + 1) := Nat.le_of_lt Nat.lt_log2_self
      _ ≤ 2 ^ (num / den).log2 := Nat.pow_le_pow_right (by decide) (by omega)
      _ = 1 <<< (num / den).log2 := (Nat.one_shiftLeft _).symm
      _ ≤ roundUnits num den := shiftLeft_log2_le_roundUnits hden (by omega)

/-- A magnitude on its own grid is rounded to itself. -/
theorem roundUnits_mul (hden : 0 < den) (hgrid : spacing g ∣ g) : roundUnits (g * den) den = g :=
  Nat.le_antisymm (roundUnits_le hden hgrid (Nat.le_refl _))
    (le_roundUnits hden hgrid (Nat.le_refl _))

theorem spacing_dvd_one_shiftLeft (k : Nat) : spacing (1 <<< k) ∣ 1 <<< k :=
  spacing_dvd_shiftLeft (by decide) k

/-- Rounding keeps order. -/
theorem roundUnits_mono (hden : 0 < den) (h : num ≤ num') :
    roundUnits num den ≤ roundUnits num' den := by
  have hfloor : num / den ≤ num' / den := Nat.div_le_div_right h
  rcases Nat.eq_or_lt_of_le (log2_mono hfloor) with heq | hlt
  · -- in one binade the numbers are rounded to the same grid
    rw [roundUnits, roundUnits, spacing, spacing, heq]
    exact Nat.mul_le_mul_right _ (halfEven_mono h _)
  · -- otherwise a power of two stands between them
    have hpos : num' / den ≠ 0 := by
      intro hzero
      rw [hzero] at hlt
      exact Nat.not_lt_zero _ hlt
    refine Nat.le_trans ?_ (shiftLeft_log2_le_roundUnits hden hpos)
    apply roundUnits_le hden (spacing_dvd_one_shiftLeft _)
    have hbelow : num / den < 2 ^ (num' / den).log2 :=
      Nat.lt_of_lt_of_le Nat.lt_log2_self (Nat.pow_le_pow_right (by decide) hlt)
    rw [Nat.one_shiftLeft]
    exact Nat.le_of_lt ((Nat.div_lt_iff_lt_mul hden).mp hbelow)

/-! ## Places of results -/

theorem roundUnits_zero (hden : 0 < den) : roundUnits 0 den = 0 := by
  have hgrid : spacing 0 ∣ 0 := Nat.dvd_zero _
  have hzero := roundUnits_mul hden hgrid
  rwa [Nat.zero_mul] at hzero

/-- The place of the number that `num / den` units are rounded to. -/
def nearest (num : Int) (den : Nat) : Int :=
  signed (decide (num < 0)) (min (roundUnits num.natAbs den) limitUnits)

theorem nearest_zero (hden : 0 < den) : nearest 0 den = 0 := by
  rw [nearest, Int.natAbs_zero, roundUnits_zero hden, Nat.zero_min]
  rfl

theorem nearest_mono {x y : Int} (hden : 0 < den) (h : x ≤ y) : nearest x den ≤ nearest y den := by
  unfold nearest signed
  by_cases hx : x < 0 <;> by_cases hy : y < 0 <;> simp only [hx, hy, decide_true, decide_false,
    if_true, Bool.false_eq_true, if_false]
  · have hmono : roundUnits y.natAbs den ≤ roundUnits x.natAbs den :=
      roundUnits_mono hden (by omega)
    omega
  · omega
  · omega
  · have hmono : roundUnits x.natAbs den ≤ roundUnits y.natAbs den :=
      roundUnits_mono hden (by omega)
    omega

theorem nearest_nonneg {x : Int} (hden : 0 < den) (h : 0 ≤ x) : 0 ≤ nearest x den := by
  have hmono := nearest_mono hden h
  rwa [nearest_zero hden] at hmono

/-! ### Signs -/

theorem signed_zero (s : Bool) : signed s 0 = 0 := by cases s <;> rfl

theorem natAbs_signed (s : Bool) (m : Nat) : (signed s m).natAbs = m := by
  cases s
  · exact Int.natAbs_natCast m
  · exact (Int.natAbs_neg _).trans (Int.natAbs_natCast m)

theorem signed_lt_zero_iff (s : Bool) {m : Nat} (hm : 0 < m) : signed s m < 0 ↔ s = true := by
  cases s with
  | false => simp [signed]
  | true =>
    simp only [signed, if_true, iff_true]
    omega

theorem signed_natAbs (x : Int) : signed (decide (x < 0)) x.natAbs = x := by
  simp only [signed, decide_eq_true_eq]
  split <;> omega

theorem signed_mul (s t : Bool) (m n : Nat) :
    signed (s ^^ t) (m * n) = signed s m * signed t n := by
  cases s with
  | false =>
    cases t with
    | false => exact Int.natCast_mul m n
    | true =>
      show -((m * n : Nat) : Int) = m * -(n : Int)
      rw [Int.natCast_mul, Int.mul_neg]
  | true =>
    cases t with
    | false =>
      show -((m * n : Nat) : Int) = -(m : Int) * n
      rw [Int.natCast_mul, Int.neg_mul]
    | true =>
      show ((m * n : Nat) : Int) = -(m : Int) * -(n : Int)
      rw [Int.natCast_mul, Int.neg_mul_neg]

/-! ### Operations -/

theorem nearest_signed (hden : 0 < den) (s : Bool) (num : Nat) :
    nearest (signed s num) den = signed s (min (roundUnits num den) limitUnits) := by
  rcases Nat.eq_zero_or_pos num with rfl | hpos
  · -- a zero has the same place with either sign
    rw [roundUnits_zero hden, Nat.zero_min, signed_zero, nearest_zero hden]
  · have hsign : decide (signed s num < 0) = s := by
      rw [Bool.eq_iff_iff, decide_eq_true_iff, signed_lt_zero_iff s hpos]
    rw [nearest, natAbs_signed, hsign]

theorem position_ofQuotient (hden : 0 < den) (s : Bool) (num : Nat) :
    (ofQuotient s num den).position = some (nearest (signed s num) den) := by
  rw [nearest_signed hden, ofQuotient]
  split
  · next hfits =>
    rw [Nat.min_eq_left (Nat.le_of_lt hfits)]
    rfl
  · next hlarge =>
    rw [Nat.min_eq_right (Nat.not_lt.mp hlarge)]
    rfl

section Operations

variable {s t : Bool} {m n : Nat} {hm : Representable m} {hn : Representable n}

theorem finite_add : finite s m hm + finite t n hn =
    if signed s m + signed t n = 0 then zero (s && t)
    else ofQuotient (decide (signed s m + signed t n < 0)) (signed s m + signed t n).natAbs 1 := rfl

theorem finite_mul : finite s m hm * finite t n hn = ofQuotient (s ^^ t) (m * n) oneUnits := by
  show mul _ _ = _
  rw [mul]

theorem finite_div (hn0 : n ≠ 0) :
    finite s m hm / finite t n hn = ofQuotient (s ^^ t) (m * oneUnits) n := by
  show div _ _ = _
  rw [div, if_neg hn0]

theorem position_finite_add : (finite s m hm + finite t n hn).position =
    some (nearest (signed s m + signed t n) 1) := by
  rw [finite_add]
  split
  · next hzero =>
    rw [hzero, nearest_zero Nat.one_pos]
    exact congrArg some (signed_zero _)
  · rw [position_ofQuotient Nat.one_pos, signed_natAbs]

theorem position_finite_mul : (finite s m hm * finite t n hn).position =
    some (nearest (signed s m * signed t n) oneUnits) := by
  rw [finite_mul, position_ofQuotient (by decide), signed_mul]

theorem position_ofInt_eq_nearest (n : Int) :
    (ofInt n).position = some (nearest (n * oneUnits) 1) := by
  have hunits : signed (decide (n < 0)) (n.natAbs * oneUnits) = n * oneUnits := by
    have hproduct := signed_mul (decide (n < 0)) false n.natAbs oneUnits
    rwa [Bool.xor_false, signed_natAbs] at hproduct
  rw [ofInt, position_ofQuotient Nat.one_pos, hunits]

end Operations

/-! ## Order -/

variable {a b c : Binary64}

theorem exists_finite (h : a.isFinite = true) : ∃ s m hm, a = finite s m hm := by
  cases a with
  | finite s m hm => exact ⟨s, m, hm, rfl⟩
  | nan | infinity _ => cases h

theorem finite_le_finite_iff {s t : Bool} {m n : Nat} {hm : Representable m}
    {hn : Representable n} : finite s m hm ≤ finite t n hn ↔ signed s m ≤ signed t n :=
  Iff.rfl

theorem ofInt_mono {m n : Int} (h : m ≤ n) : ofInt m ≤ ofInt n := by
  refine le_iff.mpr ⟨_, _, position_ofInt_eq_nearest m, position_ofInt_eq_nearest n, ?_⟩
  exact nearest_mono Nat.one_pos (Int.mul_le_mul_of_nonneg_right h (Int.natCast_nonneg _))

/-- A finite number that is not negative keeps the order of its products. -/
theorem mul_le_mul_right (ha : a.isFinite = true) (hb : b.isFinite = true) (hc : c.isFinite = true)
    (hpos : zero false ≤ c) (h : a ≤ b) : a * c ≤ b * c := by
  obtain ⟨s, m, hm, rfl⟩ := exists_finite ha
  obtain ⟨t, n, hn, rfl⟩ := exists_finite hb
  obtain ⟨u, k, hk, rfl⟩ := exists_finite hc
  refine le_iff.mpr ⟨_, _, position_finite_mul, position_finite_mul, ?_⟩
  apply nearest_mono (by decide)
  exact Int.mul_le_mul_of_nonneg_right (finite_le_finite_iff.mp h) (finite_le_finite_iff.mp hpos)

/-! ### The infinities -/

theorem position_mem {x : Int} (h : a.position = some x) :
    -(limitUnits : Int) ≤ x ∧ x ≤ limitUnits := by
  cases a with
  | nan => cases h
  | infinity s =>
    cases h
    cases s <;> simp [signed]
  | finite s m hm =>
    cases h
    have hlimit := hm.2
    cases s <;> simp [signed] <;> omega

theorem negInfinity_le {x : Int} (h : a.position = some x) : infinity true ≤ a :=
  le_iff.mpr ⟨_, _, rfl, h, (position_mem h).1⟩

theorem le_posInfinity {x : Int} (h : a.position = some x) : a ≤ infinity false :=
  le_iff.mpr ⟨_, _, h, rfl, (position_mem h).2⟩

theorem not_posInfinity_le_finite {s : Bool} {m : Nat} {hm : Representable m} :
    ¬infinity false ≤ finite s m hm := by
  intro h
  have hplace : (limitUnits : Int) ≤ signed s m := h
  have hlimit := hm.2
  cases s <;> simp [signed] at hplace <;> omega

theorem not_finite_le_negInfinity {s : Bool} {m : Nat} {hm : Representable m} :
    ¬finite s m hm ≤ infinity true := by
  intro h
  have hplace : signed s m ≤ -(limitUnits : Int) := h
  have hlimit := hm.2
  cases s <;> simp [signed] at hplace <;> omega

/-- A finite number keeps the order of what is added to it, the infinities included. -/
theorem add_le_add_left (hc : c.isFinite = true) (h : a ≤ b) : c + a ≤ c + b := by
  obtain ⟨u, k, hk, rfl⟩ := exists_finite hc
  obtain ⟨x, y, hx, hy, -⟩ := le_iff.mp h
  cases a with
  | nan => cases hx
  | infinity s =>
    cases b with
    | nan => cases hy
    | infinity t => exact h
    | finite t n hn =>
      cases s with
      | false => exact absurd h not_posInfinity_le_finite
      | true => exact negInfinity_le position_finite_add
  | finite s m hm =>
    cases b with
    | nan => cases hy
    | infinity t =>
      cases t with
      | false => exact le_posInfinity position_finite_add
      | true => exact absurd h not_finite_le_negInfinity
    | finite t n hn =>
      refine le_iff.mpr ⟨_, _, position_finite_add, position_finite_add, ?_⟩
      apply nearest_mono Nat.one_pos
      exact Int.add_le_add_left (finite_le_finite_iff.mp h) _

theorem le_of_lt (h : a < b) : a ≤ b := by
  obtain ⟨x, y, hx, hy, hlt⟩ := lt_iff.mp h
  exact le_iff.mpr ⟨x, y, hx, hy, Int.le_of_lt hlt⟩

theorem not_lt_of_le (h : a ≤ b) : ¬b < a := by
  intro hlt
  obtain ⟨x, y, hx, hy, hle⟩ := le_iff.mp h
  obtain ⟨y', x', hy', hx', hlt⟩ := lt_iff.mp hlt
  obtain rfl : x = x' := Option.some.inj (hx.symm.trans hx')
  obtain rfl : y = y' := Option.some.inj (hy.symm.trans hy')
  omega

/-- A finite difference is one of finite numbers. -/
theorem isFinite_of_sub (h : (a - b).isFinite = true) :
    a.isFinite = true ∧ b.isFinite = true := by
  cases a with
  | nan => cases h
  | finite s m hm =>
    cases b with
    | finite t n hn => exact ⟨rfl, rfl⟩
    | nan | infinity t => cases h
  | infinity s =>
    cases b with
    | nan | finite t n hn => cases h
    | infinity t =>
      -- equal infinities leave nothing that is a number, and opposite ones an infinity
      cases s <;> cases t <;> cases h

/-- A difference from what is not greater is not negative. -/
theorem zero_le_sub (ha : a.isFinite = true) (hb : b.isFinite = true) (h : b ≤ a) :
    zero false ≤ a - b := by
  obtain ⟨s, m, hm, rfl⟩ := exists_finite ha
  obtain ⟨t, n, hn, rfl⟩ := exists_finite hb
  have hneg : signed (!t) n = -signed t n := by cases t <;> simp [signed]
  have hplace : (finite s m hm - finite t n hn).position =
      some (nearest (signed s m + signed (!t) n) 1) := position_finite_add
  refine le_iff.mpr ⟨0, _, rfl, hplace, ?_⟩
  apply nearest_nonneg Nat.one_pos
  have hle := finite_le_finite_iff.mp h
  omega

end LipSync.Binary64

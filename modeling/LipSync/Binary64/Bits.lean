/-
# LipSync.Binary64.Bits — the 64-bit interchange format.

From the top: one sign bit, eleven exponent bits, 52 fraction bits. An exponent field of zero leaves
the fraction as the count of units; any other field `e` puts a leading bit before the fraction and
scales by 2^(e−1); the last field, 2047, holds the infinities and NaN.
-/
import LipSync.Binary64.Basic

namespace LipSync.Binary64

/-- The exponent field of the infinities and NaN. -/
def lastField : Nat := 2047

/-- The leading bit of a significand, which the format leaves out. -/
def leadingBit : Nat := 1 <<< 52

/-- The significand of a fraction, which has the leading bit unless the exponent field is zero. -/
def significand (field fraction : Nat) : Nat :=
  if field = 0 then fraction else leadingBit + fraction

theorem significand_lt {fraction : Nat} (h : fraction < leadingBit) (field : Nat) :
    significand field fraction < 1 <<< 53 := by
  have twice : 1 <<< 53 = leadingBit + leadingBit := rfl
  unfold significand
  split <;> omega

/-- A significand under 2⁵³ scaled by less than the last field is representable. -/
theorem representable_scaled {k e : Nat} (hk : k < 1 <<< 53) (he : e < lastField) :
    Representable (k <<< (e - 1)) := by
  refine ⟨spacing_dvd_shiftLeft (Nat.le_of_lt hk) _, ?_⟩
  rw [Nat.one_shiftLeft] at hk
  rw [lastField] at he
  rw [limitUnits, Nat.one_shiftLeft, Nat.shiftLeft_eq]
  have h : k * 2 ^ (e - 1) < 2 ^ 53 * 2 ^ (e - 1) :=
    Nat.mul_lt_mul_of_pos_right hk (Nat.two_pow_pos _)
  rw [← Nat.pow_add] at h
  refine Nat.lt_of_lt_of_le h ?_
  apply Nat.pow_le_pow_right <;> omega

/-- The number of a bit pattern. All patterns of NaN are one NaN. -/
def ofBits (bits : UInt64) : Binary64 :=
  let negative := bits.toNat / leadingBit / 2048 = 1
  let field := bits.toNat / leadingBit % 2048
  let fraction := bits.toNat % leadingBit
  if h : field < lastField then
    .finite negative (significand field fraction <<< (field - 1))
      (representable_scaled (significand_lt (Nat.mod_lt _ (by decide)) field) h)
  else if fraction = 0 then .infinity negative
  else .nan

/-- The bit pattern of a number. Above 2⁵² units the leading bit of the significand adds one to the
exponent field, so the field is written one short. -/
def toBits : Binary64 → UInt64
  | nan => 0x7ff8000000000000
  | infinity s => .ofNat ((s.toNat * 2048 + lastField) * leadingBit)
  | finite s m _ => .ofNat ((s.toNat * 2048 + (m.log2 - 52)) * leadingBit + m / spacing m)

end LipSync.Binary64

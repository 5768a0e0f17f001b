/-
# LipSync.Binary64.Arithmetic — sums, products, quotients, and rounding to a whole number.

Each operation on finite numbers takes the exact result in units and rounds it once. What is left to
state per operation is the sign of a zero and the answers at the infinities: an operation without a
meaningful limit there, such as ∞ − ∞ or 0 · ∞, gives NaN, and NaN spreads through everything.
-/
import LipSync.Binary64.Basic

namespace LipSync.Binary64

/-! ## Signs -/

/-- A magnitude with its sign, as an integer count of units. -/
def signed (negative : Bool) (units : Nat) : Int :=
  if negative then -(units : Int) else units

/-- The same magnitude with the other sign. -/
def neg : Binary64 → Binary64
  | nan => nan
  | infinity s => infinity !s
  | finite s m h => finite (!s) m h

instance : Neg Binary64 := ⟨neg⟩

/-- The same magnitude without a sign. -/
def abs : Binary64 → Binary64
  | nan => nan
  | infinity _ => infinity false
  | finite _ m h => finite false m h

/-! ## Sum and difference -/

/-- The sum. A zero sum is negative only when both operands are. -/
def add : Binary64 → Binary64 → Binary64
  | finite s m _, finite t n _ =>
    let sum := signed s m + signed t n
    if sum = 0 then zero (s && t) else ofQuotient (decide (sum < 0)) sum.natAbs 1
  | nan, _ => nan
  | _, nan => nan
  | infinity s, infinity t => if s = t then infinity s else nan
  | infinity s, finite .. => infinity s
  | finite .., infinity t => infinity t

instance : Add Binary64 := ⟨add⟩

instance : Sub Binary64 := ⟨fun a b => a + -b⟩

/-! ## Product and quotient -/

/-- The product. -/
def mul : Binary64 → Binary64 → Binary64
  | finite s m _, finite t n _ => ofQuotient (s ^^ t) (m * n) oneUnits
  | nan, _ => nan
  | _, nan => nan
  | infinity s, infinity t => infinity (s ^^ t)
  | infinity s, finite t n _ => if n = 0 then nan else infinity (s ^^ t)
  | finite s m _, infinity t => if m = 0 then nan else infinity (s ^^ t)

instance : Mul Binary64 := ⟨mul⟩

/-- The quotient. Division by zero is infinite, except that 0 / 0 is NaN. -/
def div : Binary64 → Binary64 → Binary64
  | finite s m _, finite t n _ =>
    if n = 0 then (if m = 0 then nan else infinity (s ^^ t))
    else ofQuotient (s ^^ t) (m * oneUnits) n
  | nan, _ => nan
  | _, nan => nan
  | infinity _, infinity _ => nan
  | infinity s, finite t _ _ => infinity (s ^^ t)
  | finite s _ _, infinity t => zero (s ^^ t)

instance : Div Binary64 := ⟨div⟩

/-! ## Whole numbers -/

/-- The whole number nearest to a magnitude, an exact half going up. -/
def nearestWhole (units : Nat) : Nat := (2 * units + oneUnits) / (2 * oneUnits)

/-- The nearest whole number, an exact half going away from zero. The sign stays, also on a zero. -/
def round : Binary64 → Binary64
  | finite s m _ => ofQuotient s (nearestWhole m * oneUnits) 1
  | x => x

/-- The integer part of a number, held within `lo` and `hi`; zero for NaN. -/
def truncateWithin (lo hi : Int) : Binary64 → Int
  | nan => 0
  | infinity s => if s then lo else hi
  | finite s m _ => max lo (min hi (signed s (m / oneUnits)))

end LipSync.Binary64

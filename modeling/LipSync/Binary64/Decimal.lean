/-
# LipSync.Binary64.Decimal — decimal text with a fixed number of places.

The exact value is rounded to the places asked for, an exact half going to the even neighbour, and
every digit is written; nothing is ever put in exponent form. A negative number, a negative zero
included, starts with a minus sign.
-/
import LipSync.Binary64.Basic

namespace LipSync.Binary64

/-- The decimal digits of `n`, padded on the left with zeros to at least `width` of them. -/
def paddedDigits (width n : Nat) : String :=
  let digits := toString n
  "".pushn '0' (width - digits.length) ++ digits

/-- A magnitude in units as decimal text with `places` digits after the point, which is left out
when there are none. -/
def fixedDigits (places units : Nat) : String :=
  let grain := Nat.pow 10 places
  let scaled := halfEven (units * grain) oneUnits
  let whole := toString (scaled / grain)
  if places = 0 then whole else whole ++ "." ++ paddedDigits places (scaled % grain)

/-- The decimal text of a number with `places` digits after the point. -/
def toFixed (places : Nat) : Binary64 → String
  | nan => "NaN"
  | infinity s => if s then "-inf" else "inf"
  | finite s m _ => (if s then "-" else "") ++ fixedDigits places m

end LipSync.Binary64

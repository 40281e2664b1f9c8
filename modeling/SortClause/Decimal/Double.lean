/-!
Double-precision magnitudes in exact arithmetic: a whole mantissa below 2^53 times a power of two.
`round` takes a fraction to the nearest double, a tie to the even mantissa; products and quotients
are the rounded exact ones.  Nothing here uses machine floats, so every result can be computed and
reasoned about as a number.
-/
namespace SortClause.Decimal

def twoTo (n : Nat) : Nat := Nat.pow 2 n

def tenTo (n : Nat) : Nat := Nat.pow 10 n

/-- The magnitude `mantissa * 2 ^ exponent`.  A mantissa below 2^52 has the least exponent -1074. -/
structure Double where
  mantissa : Nat
  exponent : Int
  deriving DecidableEq, Repr

namespace Double

def zero : Double := ⟨0, -1074⟩

/-- The numerator of the magnitude over `den`. -/
def num (d : Double) : Nat := d.mantissa * twoTo d.exponent.toNat

/-- The denominator of the magnitude, a power of two. -/
def den (d : Double) : Nat := twoTo (-d.exponent).toNat

/-- The exponent of the double nearest to `num / den`, before rounding up to a power of two. -/
def exponentOf (num den : Nat) : Int :=
  let e : Int := (num.log2 : Int) - den.log2 - 52
  let small := num * twoTo (-e).toNat < den * twoTo (e.toNat + 52)
  max (-1074) (if small then e - 1 else e)

/-- The quotient, rounded to the nearest whole number and to the even one of two. -/
def roundQuotient (num den : Nat) : Nat :=
  let q := num / den
  let r := num % den
  if 2 * r < den || (2 * r == den && q % 2 == 0) then q else q + 1

/-- The double nearest to `num / den`; none if that is beyond the largest one. -/
def round (num den : Nat) : Option Double :=
  if num = 0 then some zero
  else
    let e := exponentOf num den
    let m := roundQuotient (num * twoTo (-e).toNat) (den * twoTo e.toNat)
    let d : Double := if m = twoTo 53 then ⟨twoTo 52, e + 1⟩ else ⟨m, e⟩
    if d.exponent ≤ 971 then some d else none

def mul (a b : Double) : Option Double := round (a.num * b.num) (a.den * b.den)

def div (a b : Double) : Option Double := round (a.num * b.den) (a.den * b.num)

/-- The double nearest to `10 ^ e`, for `e` up to 308. -/
def tenPower (e : Nat) : Double := (round (tenTo e) 1).getD zero

/-- The magnitude over `10 ^ e`, by steps of 308 places.  Three steps leave nothing of a number
below 2^64. -/
def shrink : Nat → Double → Nat → Double
  | 0, _, _ => zero
  | n + 1, d, e =>
    if e ≤ 308 then (d.div (tenPower e)).getD zero
    else shrink n ((d.div (tenPower 308)).getD zero) (e - 308)

/-- The number `significand * 10 ^ exponent`, for a significand below 2^64: the significand is
rounded first, then its product with, or its quotient by, the power of ten.  None if it is beyond
the largest double. -/
def ofScaled (significand : Nat) (exponent : Int) : Option Double :=
  match round significand 1 with
  | none => none
  | some d =>
    if d.mantissa = 0 then some d
    else if exponent < 0 then some (shrink 3 d exponent.natAbs)
    else if exponent ≤ 308 then d.mul (tenPower exponent.toNat)
    else none

end Double
end SortClause.Decimal

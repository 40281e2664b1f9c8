import SortClause.Decimal.Double
import SortClause.Text.Blank
/-!
The decimal text of a double: the fewest digits that lie in the interval of numbers rounding to it,
and of those the nearest.  For 1, 2, ... 17 digits the two neighbours of the number on that decimal
grid are tried; the first grid with a neighbour in the interval gives the digits.  Numbers from
10^-5 up to 10^16 are written in full, others with an exponent.
-/
namespace SortClause.Decimal

/-- The number `digits * 10 ^ scale`. -/
structure Digits where
  digits : Nat
  scale : Int
  deriving DecidableEq, Repr

namespace Double

/-- The interval of numbers that round to `d`, in quarters of its last binary place: from the first
to the second, with its ends if the mantissa is even. -/
def interval (d : Double) : Nat × Nat :=
  if d.mantissa = twoTo 52 ∧ d.exponent ≠ -1074 then (4 * d.mantissa - 1, 4 * d.mantissa + 2)
  else (4 * d.mantissa - 2, 4 * d.mantissa + 2)

/-- The number rounds to `d`, given in units of `1 / (4 * den)`. -/
def covers (d : Double) (num den : Nat) : Bool :=
  let low := d.interval.1 * twoTo d.exponent.toNat * den
  let high := d.interval.2 * twoTo d.exponent.toNat * den
  let x := 4 * num * d.den
  if d.mantissa % 2 = 0 then low ≤ x && x ≤ high else low < x && x < high

/-- The place of the first decimal digit: the greatest `k` with `10 ^ k` not above the number. -/
def leadingPlace (d : Double) : Int :=
  if d.den ≤ d.num then ((Nat.toDigits 10 (d.num / d.den)).length : Int) - 1
  else -((Nat.toDigits 10 ((d.den - 1) / d.num)).length : Int)

/-- The nearer of the two neighbours of `d` among the multiples of `10 ^ scale`, if one of them
rounds to `d`. -/
def neighbour? (d : Double) (scale : Int) : Option Digits :=
  let up := tenTo scale.toNat
  let down := tenTo (-scale).toNat
  let q := d.num * down / (d.den * up)
  let r := d.num * down % (d.den * up)
  let below := d.covers (q * up) down
  let above := d.covers ((q + 1) * up) down
  let lower := 2 * r < d.den * up || (2 * r == d.den * up && q % 2 == 0)
  if below && (lower || !above) then some ⟨q, scale⟩
  else if above then some ⟨q + 1, scale⟩
  else none

/-- The digits of the coarsest grid, from `places` further places on, that has a hit. -/
def shortestFrom (d : Double) : Nat → Int → Digits
  | 0, scale => ⟨d.num * tenTo (-scale).toNat / (d.den * tenTo scale.toNat), scale⟩
  | places + 1, scale => (d.neighbour? scale).getD (d.shortestFrom places (scale - 1))

/-- The fewest digits that read back as `d`. -/
def shortest (d : Double) : Digits := d.shortestFrom 17 d.leadingPlace

/-- Digits in full, with at least one after the point. -/
def positional (ds : Text) (exponent : Int) : Text :=
  if exponent < 0 then "0.".toList ++ List.replicate (exponent.natAbs - 1) '0' ++ ds
  else
    let whole := exponent.toNat + 1
    let fraction := ds.drop whole
    ds.take whole ++ List.replicate (whole - ds.length) '0' ++
      '.' :: (if fraction = [] then ['0'] else fraction)

/-- One digit before the point and the exponent with its sign. -/
def scientific (ds : Text) (exponent : Int) : Text :=
  let fraction := ds.drop 1
  ds.take 1 ++ (if fraction = [] then [] else '.' :: fraction) ++
    'e' :: (if exponent < 0 then '-' else '+') :: Nat.toDigits 10 exponent.natAbs

/-- The shortest text of a magnitude. -/
def toText (d : Double) : Text :=
  if d.mantissa = 0 then "0.0".toList
  else
    let s := d.shortest
    let ds := Nat.toDigits 10 s.digits
    let exponent := s.scale + ds.length - 1
    let kept := (ds.reverse.dropWhile (· == '0')).reverse
    if -5 ≤ exponent ∧ exponent ≤ 15 then positional kept exponent else scientific kept exponent

end Double
end SortClause.Decimal

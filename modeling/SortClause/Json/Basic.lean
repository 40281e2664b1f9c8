import SortClause.Decimal.Shortest
/-!
JSON documents as trees.  An object keeps its members in order, repeated names included, because a
reader may care about both.  Numbers keep their digits; `Numeral.number?` gives their value, a whole
number if it is written as one and fits in 64 bits, otherwise a double.
-/
namespace SortClause.Json

/-- The exponent of a number: its sign and digits. -/
structure Exponent where
  negative : Bool
  digits : List Nat
  deriving DecidableEq, Repr

/-- A number as written: decimal digits before and after the point, and an exponent. -/
structure Numeral where
  negative : Bool
  whole : List Nat
  fraction : List Nat
  exponent : Option Exponent
  deriving DecidableEq, Repr

/-- The value of a number. -/
inductive Number where
  | integer (i : Int)
  | real (negative : Bool) (magnitude : Decimal.Double)
  deriving DecidableEq, Repr

namespace Numeral

/-- The greatest number of 64 bits. -/
def maxSignificand : Nat := 18446744073709551615

/-- The greatest exponent that is looked at. -/
def maxExponent : Nat := 2147483647

/-- Takes digits into a number as long as it stays within `limit`; the number and the digits that
are left. -/
def accumulate (limit : Nat) : Nat → List Nat → Nat × List Nat
  | n, [] => (n, [])
  | n, d :: ds => if n * 10 + d ≤ limit then accumulate limit (n * 10 + d) ds else (n, d :: ds)

/-- Written without point and exponent. -/
def isWhole (n : Numeral) : Bool := n.fraction.isEmpty && n.exponent.isNone

/-- The digits that fit in 64 bits and the power of ten they are to be multiplied by, before the
exponent is added. -/
def significand (n : Numeral) : Nat × Int :=
  let (w, beyond) := accumulate maxSignificand 0 n.whole
  let (s, left) := accumulate maxSignificand w n.fraction
  (s, (beyond.length : Int) - ((n.fraction.length : Int) - left.length))

/-- The value as a double; none if it is beyond the largest one. -/
def real? (n : Numeral) : Option Number :=
  let (s, scale) := n.significand
  match n.exponent with
  | none => (Decimal.Double.ofScaled s scale).map (.real n.negative)
  | some e =>
    match accumulate maxExponent 0 e.digits with
    | (x, []) =>
      (Decimal.Double.ofScaled s (if e.negative then scale - x else scale + x)).map
        (.real n.negative)
    | (_, _ :: _) => if s ≠ 0 ∧ !e.negative then none else some (.real n.negative .zero)

/-- How many digits of the exponent come after the one that is too many for it. -/
def unread (n : Numeral) : Nat :=
  match n.exponent with
  | none => 0
  | some e => (accumulate maxExponent 0 e.digits).2.length - 1

/-- The value: an integer if it is written as one, fits in 64 bits and is not minus zero. -/
def number? (n : Numeral) : Option Number :=
  match accumulate maxSignificand 0 n.whole with
  | (w, []) =>
    if !n.isWhole then n.real?
    else if !n.negative then some (.integer w)
    else if 0 < w ∧ w ≤ 9223372036854775808 then some (.integer (-w))
    else n.real?
  | _ => n.real?

end Numeral

/-- The shortest text of a number. -/
def Number.toText : Number → Text
  | integer i => (if i < 0 then ['-'] else []) ++ Nat.toDigits 10 i.natAbs
  | real negative magnitude => (if negative then ['-'] else []) ++ magnitude.toText

end SortClause.Json

namespace SortClause

/-- A JSON value. -/
inductive Json where
  | null
  | bool (b : Bool)
  | number (n : Json.Numeral)
  | string (s : Text)
  | array (items : List Json)
  | object (members : List (Text × Json))

instance : Inhabited Json := ⟨.null⟩

end SortClause

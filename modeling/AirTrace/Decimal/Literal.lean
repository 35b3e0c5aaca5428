/-!
# Reading decimal literals as binary64 numbers

A literal is a sign, digits, perhaps a point and more digits, and perhaps a power of ten.  It is
read in two steps: as many leading digits as fit into 64 bits make a whole number, and that number,
rounded to binary64, is multiplied or divided once by a power of ten.  Digits that do not fit are
dropped and only count towards the power.  So short literals are read exactly and long ones to
within the rounding of these two operations.  A literal beyond the largest finite number is refused.
-/

namespace AirTrace.Decimal

/-- A decimal literal, its digits as numbers below ten. -/
structure Literal where
  negative : Bool
  whole : List Nat
  fraction : List Nat
  /-- The power of ten, and whether it is negative. -/
  power : Nat
  powerNegative : Bool

namespace Literal

/-- Appends digits to a whole number while it stays below `2 ^ 64`, and gives the digits left. -/
def accumulate (n : Nat) : List Nat → Nat × List Nat
  | [] => (n, [])
  | d :: rest =>
      if 0xFFFFFFFFFFFFFFFF < 10 * n + d then (n, d :: rest) else accumulate (10 * n + d) rest

/-- The whole number and the power of ten that the digits of a literal amount to. -/
def significand (l : Literal) : Nat × Int :=
  let (n, dropped) := accumulate 0 l.whole
  let (n, dropped') := accumulate n l.fraction
  (n, (dropped.length : Int) + dropped'.length - l.fraction.length)

/-- A number times a power of ten; `none` if the result is too large.  The largest power used at
once is the 308th. -/
def scale (x : Float) (e : Int) : Option Float :=
  if e.natAbs ≤ 308 then
    if 0 ≤ e then
      let y := x * Float.ofScientific 1 false e.natAbs
      if y.isInf then none else some y
    else some (x / Float.ofScientific 1 false e.natAbs)
  else if x == 0 then some x
  else if 0 ≤ e then none
  else scale (x / Float.ofScientific 1 false 308) (e + 308)
termination_by e.natAbs
decreasing_by omega

/-- The largest power of ten that a literal may be given. -/
def powerLimit : Nat := 0x7FFFFFFF

/-- The binary64 number that a literal stands for; `none` if it is too large. -/
def toFloat? (l : Literal) : Option Float :=
  let (n, e) := l.significand
  let magnitude :=
    if powerLimit < l.power then
      if n ≠ 0 ∧ !l.powerNegative then none else some 0
    else scale (Float.ofNat n) (if l.powerNegative then e - l.power else e + l.power)
  magnitude.map fun x => if l.negative then -x else x

end Literal

end AirTrace.Decimal

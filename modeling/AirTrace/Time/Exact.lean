import AirTrace.Time

/-!
# Time in exact seconds

Rational seconds, under which the formulas of the clock, the windows and the capture files have
their intended values.
-/

namespace AirTrace

/-- Holds a whole number between zero and a limit. -/
def clampWord (limit : Nat) (n : Int) : Nat := min n.toNat limit

/-- The nearest whole number, a half counting away from zero. -/
def roundAway (q : Rat) : Int :=
  if q < 0 then -(-q + 1 / 2).floor else (q + 1 / 2).floor

instance : TimeScale Rat where
  ofInt n := n
  micro := 1 / 1000000
  after a b := b < a
  toWord q := UInt32.ofNat (clampWord 0xFFFFFFFF q.floor)
  toMicros q := UInt64.ofNat (clampWord 0xFFFFFFFFFFFFFFFF (roundAway (q * 1000000)))

end AirTrace

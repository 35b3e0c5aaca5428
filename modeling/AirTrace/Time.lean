/-!
# The arithmetic of time stamps

Time stamps are seconds.  The decoder computes them in binary64, where the order of operations
shows in the last bits; the same formulas also make sense over exact numbers.  `TimeScale` holds
the operations that the formulas use, so that both readings share one text.
-/

namespace AirTrace

/-- Numbers that can measure time in seconds. -/
class TimeScale (τ : Type) extends Add τ, Mul τ, Div τ, Neg τ where
  /-- A whole number. -/
  ofInt : Int → τ
  /-- One millionth. -/
  micro : τ
  /-- Whether the first time lies after the second. -/
  after : τ → τ → Bool
  /-- The whole part of a number, held between zero and the largest 32-bit word. -/
  toWord : τ → UInt32
  /-- The nearest whole number of microseconds in some seconds, a half counting away from zero,
  held between zero and the largest 64-bit word. -/
  toMicros : τ → UInt64

namespace TimeScale

variable {τ : Type} [TimeScale τ]

/-- A natural number. -/
def ofNat (n : Nat) : τ := ofInt n

/-- The number zero. -/
def zero : τ := ofInt 0

end TimeScale

/-- Time in binary64 seconds.  Neither a negative number nor a number that is none has a whole
part above zero. -/
instance : TimeScale Float where
  ofInt := Float.ofInt
  micro := 1e-6
  after a b := a > b
  toWord x := x.toUInt32
  toMicros x := (x * 1e6).round.toUInt64

end AirTrace

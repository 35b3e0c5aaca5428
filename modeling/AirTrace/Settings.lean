import AirTrace.Time

/-!
# Settings of the decoder

The numbers that time reconstruction and the matching of auxiliary packets depend on.
-/

namespace AirTrace

/-- The decoder's settings. -/
structure Settings (τ : Type) where
  /-- Ticks of the hardware clock in a second. -/
  tickRate : τ
  /-- Microseconds between two packets of one exchange. -/
  interFrameSpace : τ
  /-- Microseconds by which a scan response may be late. -/
  scanTolerance : τ
  /-- Microseconds after an announced packet's time at which it is no longer expected. -/
  chainMargin : τ
  /-- Microseconds by which a frame may lie behind the newest one and still be a late frame. -/
  lateTolerance : τ

namespace Settings

variable {τ : Type} [TimeScale τ]

/-- The settings used where none are given. -/
def standard : Settings τ where
  tickRate := TimeScale.ofInt 1000000
  interFrameSpace := TimeScale.ofInt 150
  scanTolerance := TimeScale.ofInt 50
  chainMargin := TimeScale.ofInt 500
  lateTolerance := TimeScale.ofInt 1000000

/-- Seconds in one period of the 32-bit tick counter. -/
def wrapPeriod (s : Settings τ) : τ := TimeScale.ofInt 4294967296 / s.tickRate

/-- The late tolerance in whole ticks. -/
def lateTicks (s : Settings τ) : UInt32 :=
  TimeScale.toWord (s.lateTolerance * s.tickRate / TimeScale.ofInt 1000000)

end Settings

end AirTrace

import AirTrace.Settings

/-!
# The capture clock

The hardware stamps frames with a 32-bit tick counter that wraps.  The clock fixes one tick to a
time of day and counts wraps from there, so that every later tick gets a place on one line:
`wraps * 2 ^ 32 + tick`.

Frames may arrive out of order.  A tick a little behind the newest one is late: it is placed on
the wrap it belongs to and leaves the clock alone.  A tick further behind means that the counter has
wrapped.
-/

namespace AirTrace

/-- A clock that has been fixed to a time of day. -/
structure Clock (τ : Type) where
  /-- The time of day, in seconds since 1970, at which the clock was fixed. -/
  epoch : τ
  /-- What is added to a tick's own time so that the clock was fixed at time zero. -/
  offset : τ
  /-- How often the counter has wrapped since. -/
  wraps : UInt32
  /-- The newest tick. -/
  newest : UInt32

namespace Clock

variable {τ : Type} [TimeScale τ]

/-- The clock fixed to a time of day at a tick. -/
def fixAt (s : Settings τ) (tick : UInt32) (epoch : τ) : Clock τ where
  epoch := epoch
  offset := -TimeScale.ofNat tick.toNat / s.tickRate
  wraps := 0
  newest := tick

omit [TimeScale τ] in
/-- Places a tick: the wrap it belongs to, and the clock after it. -/
def place (tolerance : UInt32) (c : Clock τ) (tick : UInt32) : Int × Clock τ :=
  let behind := c.newest - tick
  if behind ≠ 0 ∧ behind ≤ tolerance then
    (if tick > c.newest then (c.wraps.toNat : Int) - 1 else c.wraps.toNat, c)
  else
    let wraps := if tick < c.newest then c.wraps + 1 else c.wraps
    (wraps.toNat, { c with wraps := wraps, newest := tick })

/-- The time of a tick on a wrap. -/
def time (s : Settings τ) (c : Clock τ) (wrap : Int) (tick : UInt32) : τ :=
  c.offset + TimeScale.ofNat tick.toNat / s.tickRate + TimeScale.ofInt wrap * s.wrapPeriod

/-- Seconds from the fixing of the clock to a tick, and the clock after it. -/
def stamp (s : Settings τ) (c : Clock τ) (tick : UInt32) : τ × Clock τ :=
  let (wrap, c') := c.place s.lateTicks tick
  (c.time s wrap tick, c')

end Clock

end AirTrace

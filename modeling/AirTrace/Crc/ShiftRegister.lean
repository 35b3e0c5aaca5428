import AirTrace.Octets.Bits

/-!
# The check as a shift register

The check register as the radio specification draws it: the highest power on the left, the bits of
the body fed in one at a time in transmission order, and the polynomial 0x00065B added whenever the
bit leaving on the left differs from the bit fed in.
-/

namespace AirTrace.Crc.ShiftRegister

/-- The polynomial without its leading term, highest power first. -/
def polynomial : BitVec 24 := 0x00065B#24

/-- Feeds one bit into the register. -/
def feed (r : BitVec 24) (b : Bool) : BitVec 24 :=
  if r.msb != b then (r <<< 1) ^^^ polynomial else r <<< 1

/-- Feeds a bit string into the register. -/
def run (r : BitVec 24) (bs : List Bool) : BitVec 24 := bs.foldl feed r

/-- The remainder that the register holds after a body. -/
def remainder (initial : BitVec 24) (body : Octets) : BitVec 24 := run initial body.bits

end AirTrace.Crc.ShiftRegister

/-!
# The whitening sequence as a shift register

The sequence as the radio specification draws it: seven positions shifted to the right, the bit
that leaves position 6 returned to position 0 and added to position 4, which is the polynomial
x⁷ + x⁴ + 1.  Position 0 starts at one and positions 1 to 6 at the channel number, highest bit
first.
-/

namespace AirTrace.Whitening

/-- The seven positions of the register. -/
structure ShiftRegister where
  p0 : Bool
  p1 : Bool
  p2 : Bool
  p3 : Bool
  p4 : Bool
  p5 : Bool
  p6 : Bool
  deriving DecidableEq

namespace ShiftRegister

/-- The register at the start of a packet on a channel. -/
def start (channel : UInt8) : ShiftRegister :=
  ⟨true, channel.toNat.testBit 5, channel.toNat.testBit 4, channel.toNat.testBit 3,
    channel.toNat.testBit 2, channel.toNat.testBit 1, channel.toNat.testBit 0⟩

/-- One shift: position 6 returns to position 0 and is added to position 4. -/
def shift (r : ShiftRegister) : ShiftRegister :=
  ⟨r.p6, r.p0, r.p1, r.p2, r.p3 ^^ r.p6, r.p4, r.p5⟩

/-- The register after `n` shifts. -/
def shifted (r : ShiftRegister) : Nat → ShiftRegister
  | 0 => r
  | n + 1 => (r.shifted n).shift

/-- The bit the register gives out after `n` shifts. -/
def output (r : ShiftRegister) (n : Nat) : Bool := (r.shifted n).p6

end ShiftRegister

end AirTrace.Whitening

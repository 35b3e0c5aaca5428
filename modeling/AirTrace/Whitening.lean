import AirTrace.Octets.Bits

/-!
# Data whitening

Before a packet is sent its bits are added to a pseudo-random sequence that repeats after 127 bits.
All channels use the same sequence; each enters it at an offset of its own.  Adding the sequence
again takes it off, so whitening and dewhitening are one operation.

A packet may be whitened in parts, each part at the bit position where the one before it ended.
-/

namespace AirTrace.Whitening

/-- The sequence: the bit for position `i` is bit `i` of this number. -/
def sequence : BitVec 127 := 0x528dc7f0ef2c902262eb60cd4e7b42af#127

/-- Where each channel enters the sequence. -/
def offsets : List Nat :=
  [70, 62, 120, 111, 77, 46, 15, 101, 66, 39, 31, 26, 80, 83, 125, 89, 10, 35, 8, 54,
    122, 17, 33, 0, 58, 115, 6, 94, 86, 49, 52, 20, 40, 27, 84, 90, 63, 112, 47, 102]

/-- The whitening bit of a channel at a position; channel numbers count modulo forty. -/
def bit (channel : UInt8) (position : Nat) : Bool :=
  sequence.getLsbD ((offsets.getD (channel.toNat % 40) 0 + position) % 127)

/-- Adds the whitening bits of a channel from a position on to a bit string. -/
def applyBits (channel : UInt8) : (position : Nat) → List Bool → List Bool
  | _, [] => []
  | p, b :: rest => (b ^^ bit channel p) :: applyBits channel (p + 1) rest

/-- Whitens or dewhitens octets from a bit position on. -/
def apply (channel : UInt8) (position : Nat) (data : Octets) : Octets :=
  Octets.ofBits (applyBits channel position data.bits)

/-- The bit position after some octets. -/
def next (position : Nat) (data : Octets) : Nat := position + 8 * data.length

/-- Whitens or dewhitens a packet that arrives in parts, each where the one before it ended. -/
def applyParts (channel : UInt8) : (position : Nat) → List Octets → List Octets
  | _, [] => []
  | p, part :: rest => apply channel p part :: applyParts channel (next p part) rest

end AirTrace.Whitening

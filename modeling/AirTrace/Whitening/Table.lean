import AirTrace.Octets

/-!
# Whitening by tables

The whitening sequence as a table of bits and the places where the channels enter it as another,
read with machine words.  Positions are words of 32 bits, and a sum of positions that passes 2 ^ 32
wraps.  The bits for an octet are collected in a mask, lowest first, and the mask is added to the
octet.
-/

namespace AirTrace.Whitening.Table

/-- The sequence, one bit after the other. -/
def sequence : Vector UInt8 127 := #v[
  1, 1, 1, 1, 0, 1, 0, 1, 0, 1, 0, 0, 0, 0, 1, 0, 1, 1, 0, 1, 1, 1, 1, 0, 0,
  1, 1, 1, 0, 0, 1, 0, 1, 0, 1, 1, 0, 0, 1, 1, 0, 0, 0, 0, 0, 1, 1, 0, 1, 1,
  0, 1, 0, 1, 1, 1, 0, 1, 0, 0, 0, 1, 1, 0, 0, 1, 0, 0, 0, 1, 0, 0, 0, 0, 0,
  0, 1, 0, 0, 1, 0, 0, 1, 1, 0, 1, 0, 0, 1, 1, 1, 1, 0, 1, 1, 1, 0, 0, 0, 0,
  1, 1, 1, 1, 1, 1, 1, 0, 0, 0, 1, 1, 1, 0, 1, 1, 0, 0, 0, 1, 0, 1, 0, 0, 1,
  0, 1]

/-- Where each channel enters the sequence. -/
def offsets : Vector UInt8 40 := #v[
  70, 62, 120, 111, 77, 46, 15, 101, 66, 39, 31, 26, 80, 83, 125, 89, 10, 35,
  8, 54, 122, 17, 33, 0, 58, 115, 6, 94, 86, 49, 52, 20, 40, 27, 84, 90, 63,
  112, 47, 102]

/-- Where a channel enters the sequence; channel numbers count modulo forty. -/
def offset (channel : UInt8) : UInt32 :=
  (offsets.get ⟨channel.toNat % 40, Nat.mod_lt _ (by decide)⟩).toUInt32

theorem toNat_mod_lt (w : UInt32) : (w % 127).toNat < 127 :=
  Nat.mod_lt w.toNat (by decide)

/-- The whitening bit of a channel at a position, zero or one. -/
def bit (channel : UInt8) (position : UInt32) : UInt8 :=
  sequence.get ⟨((offset channel + position) % 127).toNat, toNat_mod_lt _⟩

/-- Whitening bits collected for an octet. -/
structure Mask where
  octet : UInt8
  /-- The position of the bit that comes next. -/
  position : UInt32

/-- Puts the next whitening bit in as bit `j`. -/
def Mask.extend (channel : UInt8) (m : Mask) (j : Nat) : Mask where
  octet := m.octet ||| (bit channel m.position <<< UInt8.ofNat j)
  position := m.position + 1

/-- The mask that `n` whitening bits from a position on give. -/
def Mask.build (channel : UInt8) (position : UInt32) (n : Nat) : Mask :=
  (List.range n).foldl (Mask.extend channel) ⟨0, position⟩

/-- Whitens or dewhitens octets from a position on.  The position after them comes with them. -/
def apply (channel : UInt8) : (position : UInt32) → Octets → Octets × UInt32
  | p, [] => ([], p)
  | p, o :: rest =>
      let m := Mask.build channel p 8
      let whitened := apply channel m.position rest
      ((o ^^^ m.octet) :: whitened.1, whitened.2)

/-- Whitens or dewhitens a packet that arrives in parts, each at the position that the one before it
gave. -/
def applyParts (channel : UInt8) : (position : UInt32) → List Octets → List Octets × UInt32
  | p, [] => ([], p)
  | p, part :: rest =>
      let first := apply channel p part
      let others := applyParts channel first.2 rest
      (first.1 :: others.1, others.2)

end AirTrace.Whitening.Table

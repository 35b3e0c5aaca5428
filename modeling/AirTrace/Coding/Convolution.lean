import AirTrace.Octets.Bits

/-!
# The convolutional code of the coded PHYs

On the coded PHYs every data bit is sent as a pair of coded bits, each the sum of the bit and some
of the three before it: all three for the first, the second and third for the second.  The decoder
does not search: it reconstructs each bit from its own first coded bit, from its second, and from
the next pair, whose sum is the bit again, and takes the majority.  The last bit has no next pair,
and its second coded bit decides.

Coding starts from three zero bits and is not flushed, so a coded string has exactly two octets for
each octet of data.
-/

namespace AirTrace.Coding

/-- The last three data bits, the most recent first. -/
structure Memory where
  one : Bool
  two : Bool
  three : Bool
  deriving DecidableEq

namespace Memory

/-- Before the first bit the memory holds zeros. -/
def empty : Memory := ⟨false, false, false⟩

/-- Shifts a bit into the memory. -/
def push (m : Memory) (b : Bool) : Memory := ⟨b, m.one, m.two⟩

/-- What the memory adds to the first coded bit. -/
def first (m : Memory) : Bool := m.one ^^ m.two ^^ m.three

/-- What the memory adds to the second coded bit. -/
def second (m : Memory) : Bool := m.two ^^ m.three

end Memory

/-- The coded pairs of a bit string, one after the other. -/
def encodeBits : Memory → List Bool → List Bool
  | _, [] => []
  | m, b :: rest => (b ^^ m.first) :: (b ^^ m.second) :: encodeBits (m.push b) rest

/-- The value that at least two of three bits have. -/
def majority (a b c : Bool) : Bool := a && b || a && c || b && c

/-- One data bit from its coded pair and the coded bits that follow. -/
def decodeBit (m : Memory) (c0 c1 : Bool) : (following : List Bool) → Bool
  | n0 :: n1 :: _ => majority (c1 ^^ m.second) (c0 ^^ m.first) (n0 ^^ n1)
  | _ => c1 ^^ m.second

/-- The data bits of a string of coded pairs. -/
def decodeBits (m : Memory) : List Bool → List Bool
  | c0 :: c1 :: rest =>
      let b := decodeBit m c0 c1 rest
      b :: decodeBits (m.push b) rest
  | _ => []

/-- The coded octets of some data, two for one. -/
def encode (data : Octets) : Octets := Octets.ofBits (encodeBits .empty data.bits)

/-- The data of some coded octets; an odd last octet is ignored. -/
def decode (coded : Octets) : Octets :=
  Octets.ofBits (decodeBits .empty (Octets.bits (coded.take (2 * (coded.length / 2)))))

end AirTrace.Coding

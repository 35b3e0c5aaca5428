import AirTrace.Octets.Bits

/-!
# Pattern mapping

At eight symbols a bit every coded bit is sent as four symbols: 0011 for a zero and 1100 for a one,
in transmission order.  A received group stands for the pattern it differs from in fewer symbols;
if both are two symbols away, its first symbol decides.
-/

namespace AirTrace.Coding.Pattern

/-- The four symbols of a coded bit. -/
def symbols (b : Bool) : List Bool := [b, b, !b, !b]

/-- In how many symbols a group differs from the pattern of a bit. -/
def distance (b s0 s1 s2 s3 : Bool) : Nat :=
  (s0 ^^ b).toNat + (s1 ^^ b).toNat + (s2 ^^ !b).toNat + (s3 ^^ !b).toNat

/-- The coded bit that a received group stands for. -/
def nearest (s0 s1 s2 s3 : Bool) : Bool :=
  let toZero := distance false s0 s1 s2 s3
  let toOne := distance true s0 s1 s2 s3
  if toZero < toOne then false else if toOne < toZero then true else s0

/-- The coded bits of a string of symbols; an incomplete last group is ignored. -/
def unmapBits : List Bool → List Bool
  | s0 :: s1 :: s2 :: s3 :: rest => nearest s0 s1 s2 s3 :: unmapBits rest
  | _ => []

/-- The symbol octets of some coded octets, four for one. -/
def map (coded : Octets) : Octets := Octets.ofBits (coded.bits.flatMap symbols)

/-- The coded octets of some symbol octets; symbols that fill no coded octet are ignored. -/
def unmap (received : Octets) : Octets := Octets.ofBits (unmapBits received.bits)

end AirTrace.Coding.Pattern

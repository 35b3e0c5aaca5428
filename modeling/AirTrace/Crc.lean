import AirTrace.Octets

/-!
# The 24-bit cyclic redundancy check

Every packet ends in a check of 24 bits over its body, formed with the polynomial
x²⁴ + x¹⁰ + x⁹ + x⁶ + x⁴ + x³ + x + 1.  The octets of a packet travel lowest bit first, so the
register here shifts to the right and holds everything reflected: it starts from the reflected
initial value, and what it ends with is the little-endian number of the three check octets as they
are sent.

`checksum_append` says that a body may be checked in parts.
-/

namespace AirTrace.Crc

/-- The check register, reflected: the bit sent first is the lowest. -/
abbrev Register := BitVec 24

/-- The polynomial, reflected. -/
def polynomial : Register := 0xDA6000#24

/-- Divides one bit out of the register. -/
def shift (r : Register) : Register :=
  if r.getLsbD 0 then (r >>> 1) ^^^ polynomial else r >>> 1

/-- Divides `n` bits out of the register. -/
def shifts : Nat → Register → Register
  | 0, r => r
  | n + 1, r => shifts n (shift r)

/-- Takes one octet into the register. -/
def absorb (r : Register) (o : UInt8) : Register := shifts 8 (r ^^^ o.toBitVec.setWidth 24)

/-- The check of a body, from a reflected initial value. -/
def checksum (seed : Register) (body : Octets) : Register := body.foldl absorb seed

/-- The initial value for the register from the value a connection request carries. -/
def seed (initial : BitVec 24) : Register := initial.reverse

/-- The check of a body as the division's remainder reads, highest power first. -/
def remainder (initial : BitVec 24) (body : Octets) : BitVec 24 :=
  (checksum (seed initial) body).reverse

/-- The three check octets in the order they are sent. -/
def toWire (r : Register) : Octets := Octets.ofWord24 r

/-- The check that three octets carry. -/
def ofWire (o : Octets) : Register := o.word24 0

@[simp] theorem checksum_nil (s : Register) : checksum s [] = s := rfl

@[simp] theorem checksum_cons (s : Register) (o : UInt8) (rest : Octets) :
    checksum s (o :: rest) = checksum (absorb s o) rest := rfl

/-- Checking two parts one after the other is checking the whole. -/
theorem checksum_append (s : Register) (a b : Octets) :
    checksum s (a ++ b) = checksum (checksum s a) b := List.foldl_append

end AirTrace.Crc

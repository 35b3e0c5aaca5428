import AirTrace.Crc

/-!
# The check in machine words

The check as it is formed in words of 32 bits, which hold the register in their lowest 24.  What a
word holds above them plays no part: an initial value is cut to 24 bits before it is used.
-/

namespace AirTrace.Crc.Word

/-- The word that holds a register. -/
def ofRegister (r : Register) : UInt32 := ⟨r.setWidth 32⟩

/-- The register that a word holds: its value modulo 2 ^ 24. -/
def register (w : UInt32) : Register := w.toBitVec.setWidth 24

/-- The bits that the register takes up. -/
def mask : UInt32 := 0xFFFFFF

/-- The polynomial, reflected. -/
def polynomial : UInt32 := 0xDA6000

/-- Takes the lowest `n` bits of a value, lowest first, and pushes each into a result from the
low end. -/
def pushBits : (n : Nat) → (result value : UInt32) → UInt32
  | 0, result, _ => result
  | n + 1, result, value => pushBits n ((result <<< 1) ||| (value &&& 1)) (value >>> 1)

/-- The lowest 24 bits of a word in reverse order. -/
def reverse (value : UInt32) : UInt32 := pushBits 24 0 value

/-- Divides one bit out of the register. -/
def shift (r : UInt32) : UInt32 :=
  if r &&& 1 ≠ 0 then (r >>> 1) ^^^ polynomial else r >>> 1

/-- Divides `n` bits out of the register. -/
def shifts : Nat → UInt32 → UInt32
  | 0, r => r
  | n + 1, r => shifts n (shift r)

/-- Takes one octet into the register. -/
def absorb (r : UInt32) (o : UInt8) : UInt32 := shifts 8 (r ^^^ o.toUInt32)

/-- The check of a body, from a reflected initial value. -/
def checksum (seed : UInt32) (body : Octets) : UInt32 := body.foldl absorb (seed &&& mask) &&& mask

/-- The check of a body, from the initial value that a connection request carries. -/
def check (initial : UInt32) (body : Octets) : UInt32 := checksum (reverse (initial &&& mask)) body

/-- The check of a body as the division's remainder reads, highest power first. -/
def remainder (initial : UInt32) (body : Octets) : UInt32 := reverse (check initial body)

end AirTrace.Crc.Word

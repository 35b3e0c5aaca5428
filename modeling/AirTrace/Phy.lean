import AirTrace.Time

/-!
# Physical layers

A packet is sent on one of four physical layers, which differ in speed and in what surrounds the
body on the air.
-/

namespace AirTrace

/-- The physical layer of a packet. -/
inductive Phy where
  /-- One megabit a second, uncoded. -/
  | le1M
  /-- Two megabits a second, uncoded. -/
  | le2M
  /-- Coded, eight symbols a bit. -/
  | codedS8
  /-- Coded, two symbols a bit. -/
  | codedS2
  deriving DecidableEq, Repr

namespace Phy

/-- The physical layer with a two-bit number. -/
def ofBits (b : BitVec 2) : Phy :=
  if b = 0 then le1M else if b = 1 then le2M else if b = 2 then codedS8 else codedS2

/-- The two-bit number of a physical layer. -/
def bits : Phy → BitVec 2
  | le1M => 0
  | le2M => 1
  | codedS8 => 2
  | codedS2 => 3

@[simp] theorem ofBits_bits (p : Phy) : ofBits p.bits = p := by cases p <;> rfl

@[simp] theorem bits_ofBits (b : BitVec 2) : (ofBits b).bits = b := by revert b; decide

/-- Whether the convolutional code is in use. -/
def isCoded : Phy → Bool
  | le1M | le2M => false
  | codedS8 | codedS2 => true

/-- The name of a physical layer in listings. -/
def name : Phy → String
  | le1M => "1M"
  | le2M => "2M"
  | codedS8 => "CODED_S8"
  | codedS2 => "CODED_S2"

/-- What surrounds a body on the air, in octet times: preamble, access address, check and, on the
coded layers, the first coding block. -/
def overhead : Phy → Nat
  | le1M | le2M => 8
  | codedS8 => 10
  | codedS2 => 27

/-- Microseconds an octet takes. -/
def microsPerOctet : Phy → Nat
  | le1M => 8
  | le2M => 4
  | codedS8 => 64
  | codedS2 => 16

/-- Microseconds that a packet with a body of some octets is on the air. -/
def airtime {τ : Type} [TimeScale τ] (p : Phy) (octets : Nat) : τ :=
  (TimeScale.ofNat p.overhead + TimeScale.ofNat octets) * TimeScale.ofNat p.microsPerOctet

end Phy

end AirTrace

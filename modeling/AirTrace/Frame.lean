import AirTrace.Channel
import AirTrace.Octets
import AirTrace.Phy

/-!
# Frames

A frame is one packet as a receiver delivers it: the body of the packet with what the receiver knows
about it.
-/

namespace AirTrace

/-- Which side of a connection sent a packet. -/
inductive Direction where
  | centralToPeripheral
  | peripheralToCentral
  deriving DecidableEq, Repr

/-- The name of a direction in listings. -/
def Direction.name : Direction → String
  | centralToPeripheral => "C->P"
  | peripheralToCentral => "P->C"

/-- A packet as delivered by a receiver. -/
structure Frame where
  /-- The hardware clock when the packet was received. -/
  tick : UInt32
  direction : Direction
  /-- Whether the receiver itself found the check wrong. -/
  crcError : Bool
  /-- The counter of the connection event. -/
  event : UInt16
  /-- The received signal strength in dBm. -/
  rssi : Int8
  channel : Channel
  phy : Phy
  /-- The packet between access address and check. -/
  body : Octets
  /-- The received check, where the receiver delivers it. -/
  crc : Option UInt32
  /-- The access address, where the receiver knows it. -/
  accessAddress : Option UInt32
  deriving DecidableEq

/-- Why octets are no frame. -/
inductive FrameError where
  | shortHeader (length : Nat)
  | lengthMismatch (declared actual : Nat)
  | badChannel (channel : Channel)
  deriving DecidableEq, Repr

/-- The wording of a frame error. -/
def FrameError.message : FrameError → String
  | shortHeader n => s!"frame header too short: {n} bytes (need 10)"
  | lengthMismatch declared actual =>
      s!"length field says {declared} body bytes, frame carries {actual}"
  | badChannel c => s!"channel {c.toNat} out of range"

end AirTrace

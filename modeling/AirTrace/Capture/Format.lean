import AirTrace.Octets

/-!
# The capture file format

A capture file is a header of 24 octets and records.  A record is a header of 16 octets, with its
time and length, and its content: ten octets about the reception, the access address, on a coded
physical layer an octet with the coding, the body of the packet and its check.

The flags of a record say whether the check is there and right, what class of packet it is, which
auxiliary packet, and on which physical layer.
-/

namespace AirTrace.Capture

/-- The number that a capture file starts with. -/
def magic : UInt32 := 0xa1b2c3d4

/-- The number of the link type whose records are described here. -/
def linkType : UInt32 := 256

/-- The longest content that a record can need: ten octets about the reception, the access address,
the coding octet, a body of 257 octets and the check. -/
def snapLength : UInt32 := 275

/-- The header of every file that is written. -/
def header : Octets :=
  Octets.ofWord32 magic ++ Octets.ofWord16 2 ++ Octets.ofWord16 4 ++ Octets.ofWord32 0 ++
    Octets.ofWord32 0 ++ Octets.ofWord32 snapLength ++ Octets.ofWord32 linkType

/-- The class of a packet in the flags of its record. -/
inductive PacketClass where
  | advertising
  | auxiliary
  | dataToPeripheral
  | dataToCentral
  deriving DecidableEq, Repr

/-- The number of a class. -/
def PacketClass.number : PacketClass → Nat
  | advertising => 0
  | auxiliary => 1
  | dataToPeripheral => 2
  | dataToCentral => 3

/-- The part of an auxiliary packet in the flags of its record. -/
inductive AuxiliaryType where
  | advertisement
  | chain
  | scanResponse
  deriving DecidableEq, Repr

/-- The number of an auxiliary packet's part. -/
def AuxiliaryType.number : AuxiliaryType → Nat
  | advertisement => 0
  | chain => 1
  | scanResponse => 3

end AirTrace.Capture

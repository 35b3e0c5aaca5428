import AirTrace.Frame

/-!
# The firmware's frame layout

The sniffer firmware sends a frame as a header of ten octets and the body:

* the tick, 32 bits;
* a word of 16 bits: the length of the body in the low 14, then the check flag, then the direction;
* the event counter, 16 bits;
* the signal strength, 8 bits;
* an octet with the channel in the low 6 bits and the physical layer in the high 2.

Neither the received check nor the access address is part of it.
-/

namespace AirTrace.Frame

/-- The length of the header. -/
def headerLength : Nat := 10

/-- The two flags and the length of the body in one word. -/
def lengthWord (f : Frame) : Nat :=
  f.body.length % 0x4000 + 0x4000 * f.crcError.toNat +
    0x8000 * (match f.direction with
      | .centralToPeripheral => 0
      | .peripheralToCentral => 1)

/-- The channel and the physical layer in one octet. -/
def placeOctet (f : Frame) : UInt8 := UInt8.ofNat (f.channel.toNat % 64 + 64 * f.phy.bits.toNat)

/-- Writes a frame in the firmware's layout. -/
def toFirmware (f : Frame) : Octets :=
  Octets.ofWord32 f.tick ++ Octets.ofNat 2 f.lengthWord ++ Octets.ofWord16 f.event ++
    [f.rssi.toUInt8, f.placeOctet] ++ f.body

/-- Reads a frame in the firmware's layout. -/
def ofFirmware (o : Octets) : Except FrameError Frame :=
  if o.length < headerLength then .error (.shortHeader o.length)
  else
    let lengthWord := (o.word16 4).toNat
    let place := (o.octet 9).toNat
    let body := o.drop headerLength
    let declared := lengthWord % 0x4000
    let channel := UInt8.ofNat (place % 64)
    if declared ≠ body.length then .error (.lengthMismatch declared body.length)
    else if Channel.count ≤ channel then .error (.badChannel channel)
    else .ok {
      tick := o.word32 0
      direction :=
        if lengthWord.testBit 15 then .peripheralToCentral else .centralToPeripheral
      crcError := lengthWord.testBit 14
      event := o.word16 6
      rssi := (o.octet 8).toInt8
      channel := channel
      phy := .ofBits (BitVec.ofNat 2 (place / 64))
      body := body
      crc := none
      accessAddress := none }

end AirTrace.Frame

import AirTrace.Coding.Convolution
import AirTrace.Coding.Pattern
import AirTrace.Crc
import AirTrace.Frame
import AirTrace.Whitening

/-!
# Frames on the air

After the access address a packet is sent as its body and the three octets of its check, whitened
and, on the coded layers, passed through the convolutional code and the pattern mapper.  The second
octet of a body holds the length of the rest of it, so a receiver finds the end of a packet by
itself; what it received after that end is ignored.
-/

namespace AirTrace

/-- The octets sent for some whitened octets. -/
def Phy.modulate : Phy → Octets → Octets
  | le1M, o | le2M, o => o
  | codedS2, o => Coding.encode o
  | codedS8, o => Coding.Pattern.map (Coding.encode o)

/-- The whitened octets recovered from the octets received. -/
def Phy.demodulate : Phy → Octets → Octets
  | le1M, o | le2M, o => o
  | codedS2, o => Coding.decode o
  | codedS8, o => Coding.decode (Coding.Pattern.unmap o)

namespace Frame

/-- The octets sent after the access address for a body and its check. -/
def toAir (phy : Phy) (channel : Channel) (body : Octets) (crc : Crc.Register) : Octets :=
  phy.modulate (Whitening.apply channel 0 (body ++ Crc.toWire crc))

/-- Reads a frame from the octets received after the access address. -/
def ofAir (tick : UInt32) (channel : Channel) (phy : Phy) (rssi : Int8) (accessAddress : UInt32)
    (air : Octets) : Except FrameError Frame :=
  if Channel.count ≤ channel then .error (.badChannel channel)
  else
    let clear := Whitening.apply channel 0 (phy.demodulate air)
    if clear.length < 2 then .error (.shortHeader clear.length)
    else
      let bodyLength := 2 + (clear.octet 1).toNat
      if clear.length < bodyLength + 3 then
        .error (.lengthMismatch bodyLength (clear.length - 3))
      else .ok {
        tick := tick
        direction := .centralToPeripheral
        crcError := false
        event := 0
        rssi := rssi
        channel := channel
        phy := phy
        body := clear.take bodyLength
        crc := some (UInt32.ofNat (Crc.ofWire (clear.drop bodyLength)).toNat)
        accessAddress := some accessAddress }

end Frame

end AirTrace

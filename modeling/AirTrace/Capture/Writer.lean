import AirTrace.Capture.Format
import AirTrace.Packet

/-!
# Writing capture files

A record is written for every decoded packet, whether or not its body could be decoded.  A check
that was not received is filled in from the link's seed, and left zero if the link is unknown.
-/

namespace AirTrace

/-- The number of a physical layer in the flags of a record. -/
def Phy.captureNumber : Phy → Nat
  | le1M => 0
  | le2M => 1
  | codedS8 | codedS2 => 2

/-- The octet of a record that tells the coded physical layers apart. -/
def Phy.codingOctets : Phy → Octets
  | le1M | le2M => []
  | codedS8 => [0]
  | codedS2 => [1]

namespace Packet

variable {τ : Type}

/-- The class of a packet in the flags of its record. -/
def captureClass (p : Packet τ) : Capture.PacketClass :=
  match Family.ofAddress p.stamped.accessAddress, p.frame.channel.tier, p.frame.direction with
  | .data, _, .centralToPeripheral => .dataToPeripheral
  | .data, _, .peripheralToCentral => .dataToCentral
  | .advertising, .primary, _ => .advertising
  | .advertising, .secondary, _ => .auxiliary

/-- The part of an auxiliary packet in the flags of its record. -/
def auxiliaryType (p : Packet τ) : Capture.AuxiliaryType :=
  match p.pdu with
  | .ok (.extended .auxChainInd _) => .chain
  | .ok (.extended .auxScanRsp _) => .scanResponse
  | _ => .advertisement

/-- The flags of a packet's record: the packet is dewhitened, its signal strength and its access
address are known; the rest is as the packet says. -/
def captureFlags (p : Packet τ) : UInt16 :=
  let checked := p.wireCrc.isSome
  let auxiliary := if p.captureClass = .auxiliary then p.auxiliaryType.number else 0
  UInt16.ofNat (0x0013 + 0x0080 * p.captureClass.number + 0x0400 * checked.toNat +
    0x0800 * (checked && p.crcOk).toNat + 0x1000 * auxiliary + 0x4000 * p.frame.phy.captureNumber)

/-- The content of a packet's record. -/
def captureContent (p : Packet τ) : Octets :=
  [p.frame.channel.rf, p.frame.rssi.toUInt8, 0x80, 0] ++ Octets.ofWord32 p.stamped.accessAddress ++
    Octets.ofWord16 p.captureFlags ++ Octets.ofWord32 p.stamped.accessAddress ++
    p.frame.phy.codingOctets ++ p.frame.body ++ Octets.ofNat 3 (p.wireCrc.getD 0).toNat

variable [TimeScale τ]

/-- The time of a packet's record, in microseconds since 1970. -/
def captureMicros (p : Packet τ) : Nat := (TimeScale.toMicros p.stamped.epochTime).toNat

/-- The record of a packet. -/
def toCapture (p : Packet τ) : Octets :=
  let content := p.captureContent
  Octets.ofNat 4 (p.captureMicros / 1000000) ++ Octets.ofNat 4 (p.captureMicros % 1000000) ++
    Octets.ofNat 4 content.length ++ Octets.ofNat 4 content.length ++ content

end Packet

/-- The capture file of some packets. -/
def Capture.ofPackets {τ : Type} [TimeScale τ] (ps : List (Packet τ)) : Octets :=
  Capture.header ++ ps.flatMap Packet.toCapture

end AirTrace

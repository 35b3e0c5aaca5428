import AirTrace.Pdu.Error
import AirTrace.Pdu.Field

/-!
# Data channel packets

Packets of a connection start with a header of two octets: the class of the payload, five flags, and
the length of the rest.  If the flag CP is set, a third octet describes a constant tone extension.
-/

namespace AirTrace

/-- The class of a data channel payload. -/
inductive Llid where
  | reserved
  | continuation
  | start
  | control
  deriving DecidableEq, Repr

namespace Llid

/-- The class with a two-bit number. -/
def ofBits (b : BitVec 2) : Llid :=
  if b = 0 then reserved else if b = 1 then continuation else if b = 2 then start else control

/-- The two-bit number of a class. -/
def bits : Llid → BitVec 2
  | reserved => 0
  | continuation => 1
  | start => 2
  | control => 3

/-- The name of a class. -/
def name : Llid → String
  | reserved => "Reserved"
  | continuation => "Continuation"
  | start => "Start"
  | control => "Control"

end Llid

/-- The header of a data channel packet. -/
structure DataHeader where
  llid : Llid
  /-- The next sequence number that the sender expects. -/
  nesn : Bool
  /-- The sequence number. -/
  sn : Bool
  /-- Whether the sender has more data. -/
  md : Bool
  /-- Whether the description of a constant tone extension follows. -/
  cp : Bool
  /-- The declared length of what follows the header. -/
  length : UInt8
  deriving DecidableEq

namespace DataHeader

/-- The header in its two octets; bits 6 and 7 of the first are not used. -/
def ofOctets (first length : UInt8) : DataHeader where
  llid := .ofBits (BitVec.ofNat 2 first.toNat)
  nesn := first.toNat.testBit 2
  sn := first.toNat.testBit 3
  md := first.toNat.testBit 4
  cp := first.toNat.testBit 5
  length := length

/-- The two octets of a header. -/
def toOctets (h : DataHeader) : Octets :=
  [UInt8.ofNat (h.llid.bits.toNat + 4 * h.nesn.toNat + 8 * h.sn.toNat + 16 * h.md.toNat +
    32 * h.cp.toNat), h.length]

/-- Reads the header at the start of a body. -/
def ofBody : Octets → Except DecodeError DataHeader
  | [] => .error .empty
  | [_] => .error (.truncated "data header" 2 1)
  | first :: length :: _ => .ok (ofOctets first length)

/-- The text of a header. -/
def text (h : DataHeader) : String :=
  s!"LLID: {h.llid.name}  NESN: {h.nesn.toNat}  SN: {h.sn.toNat}  MD: {h.md.toNat}  " ++
    s!"Length: {h.length.toNat}"

end DataHeader

/-- What comes before the payload of a data channel packet. -/
structure DataPreamble where
  header : DataHeader
  cteInfo : Option CteInfo
  deriving DecidableEq

namespace DataPreamble

/-- Reads what comes before the payload, and gives the payload with it. -/
def ofBody (body : Octets) : Except DecodeError (DataPreamble × Octets) := do
  let header ← DataHeader.ofBody body
  if header.cp then
    need "data CTEInfo" 3 body
    return (⟨header, some (.ofOctet (body.octet 2))⟩, body.drop 3)
  else
    return (⟨header, none⟩, body.drop 2)

/-- Writes what comes before the payload. -/
def toOctets (p : DataPreamble) : Octets :=
  p.header.toOctets ++ (p.cteInfo.map fun c => [c.toOctet]).getD []

end DataPreamble

/-- A packet with a fragment of a higher layer's message, or with a payload of the reserved
class. -/
structure DataPacket where
  preamble : DataPreamble
  payload : Octets
  deriving DecidableEq

namespace DataPacket

/-- Writes a data packet. -/
def toBody (p : DataPacket) : Octets := p.preamble.toOctets ++ p.payload

/-- The text of a data packet. -/
def text (p : DataPacket) : String :=
  "\n    ".intercalate ([p.preamble.header.text] ++
    (p.preamble.cteInfo.map fun c => "CTEInfo: " ++ c.text).toList ++
    ["Data: " ++ Text.octets p.payload])

end DataPacket

end AirTrace

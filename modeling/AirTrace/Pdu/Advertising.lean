import AirTrace.Pdu.Error
import AirTrace.Pdu.Field

/-!
# Legacy advertising packets

Every advertising packet starts with a header of two octets: the type and three flags, and the
length of the rest.  This module holds the header and the packets that are as old as the link layer
itself: advertisements, directed advertisements, scan requests, and packets of a type that has no
meaning on their channel.  The device addresses of a packet are random or public as the flags TxAdd
and RxAdd of its header say.
-/

namespace AirTrace

/-! ## The header -/

/-- The header of an advertising packet. -/
structure AdvHeader where
  pduType : BitVec 4
  /-- Whether the advertiser can use the second channel selection algorithm. -/
  chSel : Bool
  /-- Whether the sender's address is random. -/
  txAdd : Bool
  /-- Whether the receiver's address is random. -/
  rxAdd : Bool
  /-- The declared length of what follows the header. -/
  length : UInt8
  deriving DecidableEq

namespace AdvHeader

/-- The header in its two octets; bit 4 of the first is not used. -/
def ofOctets (first length : UInt8) : AdvHeader where
  pduType := BitVec.ofNat 4 first.toNat
  chSel := first.toNat.testBit 5
  txAdd := first.toNat.testBit 6
  rxAdd := first.toNat.testBit 7
  length := length

/-- The two octets of a header. -/
def toOctets (h : AdvHeader) : Octets :=
  [UInt8.ofNat (h.pduType.toNat + 32 * h.chSel.toNat + 64 * h.txAdd.toNat + 128 * h.rxAdd.toNat),
    h.length]

/-- Reads the header at the start of a body. -/
def ofBody : Octets → Except DecodeError AdvHeader
  | [] => .error .empty
  | [_] => .error (.truncated "advertising header" 2 1)
  | first :: length :: _ => .ok (ofOctets first length)

/-- The text of a header. -/
def text (h : AdvHeader) : String :=
  s!"ChSel: {h.chSel.toNat}  TxAdd: {h.txAdd.toNat}  RxAdd: {h.rxAdd.toNat}  " ++
    s!"Length: {h.length.toNat}"

end AdvHeader

/-! ## Advertisements and scan responses -/

/-- An undirected advertisement or a scan response: the advertiser's address and its data. -/
structure Advertisement where
  header : AdvHeader
  advA : Address
  data : Octets
  deriving DecidableEq

namespace Advertisement

/-- Reads an advertisement. -/
def ofBody (name : String) (h : AdvHeader) (body : Octets) : Except DecodeError Advertisement := do
  need name 8 body
  return { header := h, advA := .read body 2 h.txAdd, data := body.drop 8 }

/-- Writes an advertisement. -/
def toBody (p : Advertisement) : Octets := p.header.toOctets ++ p.advA.toOctets ++ p.data

/-- The text of an advertisement. -/
def text (p : Advertisement) : String :=
  p.header.text ++ "\n    AdvA: " ++ p.advA.text ++ "\n    AdvData: " ++ Text.octets p.data

end Advertisement

/-! ## Directed advertisements -/

/-- An advertisement directed at one device. -/
structure DirectedAdvertisement where
  header : AdvHeader
  advA : Address
  targetA : Address
  deriving DecidableEq

namespace DirectedAdvertisement

/-- Reads a directed advertisement. -/
def ofBody (name : String) (h : AdvHeader) (body : Octets) :
    Except DecodeError DirectedAdvertisement := do
  need name 14 body
  return { header := h, advA := .read body 2 h.txAdd, targetA := .read body 8 h.rxAdd }

/-- Writes a directed advertisement. -/
def toBody (p : DirectedAdvertisement) : Octets :=
  p.header.toOctets ++ p.advA.toOctets ++ p.targetA.toOctets

/-- The text of a directed advertisement. -/
def text (p : DirectedAdvertisement) : String :=
  p.header.text ++ "\n    AdvA: " ++ p.advA.text ++ "\n    TargetA: " ++ p.targetA.text

end DirectedAdvertisement

/-! ## Scan requests -/

/-- A request for a scan response. -/
structure ScanRequest where
  header : AdvHeader
  scanA : Address
  advA : Address
  deriving DecidableEq

namespace ScanRequest

/-- Reads a scan request. -/
def ofBody (name : String) (h : AdvHeader) (body : Octets) : Except DecodeError ScanRequest := do
  need name 14 body
  return { header := h, scanA := .read body 2 h.txAdd, advA := .read body 8 h.rxAdd }

/-- Writes a scan request. -/
def toBody (p : ScanRequest) : Octets :=
  p.header.toOctets ++ p.scanA.toOctets ++ p.advA.toOctets

/-- The text of a scan request. -/
def text (p : ScanRequest) : String :=
  p.header.text ++ "\n    ScanA: " ++ p.scanA.text ++ "\n    AdvA: " ++ p.advA.text

end ScanRequest

/-! ## Other types -/

/-- An advertising packet of a type that has no meaning on its channel. -/
structure UnknownAdvertising where
  header : AdvHeader
  payload : Octets
  deriving DecidableEq

namespace UnknownAdvertising

/-- Reads a packet of unknown type. -/
def ofBody (h : AdvHeader) (body : Octets) : UnknownAdvertising := ⟨h, body.drop 2⟩

/-- Writes a packet of unknown type. -/
def toBody (p : UnknownAdvertising) : Octets := p.header.toOctets ++ p.payload

/-- The text of a packet of unknown type. -/
def text (p : UnknownAdvertising) : String :=
  s!"Type: {p.header.pduType.toNat}  " ++ p.header.text ++
    "\n    Payload: " ++ Text.octets p.payload

end UnknownAdvertising

end AirTrace

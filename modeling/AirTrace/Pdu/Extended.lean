import AirTrace.Pdu.Advertising

/-!
# Extended advertising packets

Extended packets share one payload format: an octet with the length of the extended header and the
advertising mode, the extended header, and data.  The extended header, if not empty, starts with a
flags octet; the fields whose flags are set follow in a fixed order, and what the declared length
leaves after them is additional controller data.
-/

namespace AirTrace

/-- The advertising mode. -/
inductive AdvMode where
  /-- Neither connectable nor scannable. -/
  | plain
  | connectable
  | scannable
  | reserved
  deriving DecidableEq, Repr

namespace AdvMode

/-- The mode with a two-bit number. -/
def ofBits (b : BitVec 2) : AdvMode :=
  if b = 0 then plain else if b = 1 then connectable else if b = 2 then scannable else reserved

/-- The two-bit number of a mode. -/
def bits : AdvMode → BitVec 2
  | plain => 0
  | connectable => 1
  | scannable => 2
  | reserved => 3

/-- The name of a mode. -/
def name : AdvMode → String
  | plain => "Non-connectable Non-scannable"
  | connectable => "Connectable"
  | scannable => "Scannable"
  | reserved => "Reserved"

end AdvMode

/-! ## Pointers to auxiliary packets -/

/-- The physical layer of an announced packet. -/
inductive AuxPhy where
  | le1M
  | le2M
  | coded
  /-- A number with no meaning assigned. -/
  | reserved (number : BitVec 3)
  deriving DecidableEq

namespace AuxPhy

/-- The physical layer with a three-bit number. -/
def ofBits (b : BitVec 3) : AuxPhy :=
  if b = 0 then le1M else if b = 1 then le2M else if b = 2 then coded else reserved b

/-- The three-bit number of a physical layer. -/
def bits : AuxPhy → BitVec 3
  | le1M => 0
  | le2M => 1
  | coded => 2
  | reserved b => b

/-- The name of a physical layer. -/
def name : AuxPhy → String
  | le1M => "1M"
  | le2M => "2M"
  | coded => "Coded"
  | reserved b => s!"Reserved({b.toNat})"

end AuxPhy

/-- A pointer to the next auxiliary packet. -/
structure AuxPtr where
  channel : BitVec 6
  /-- Whether the advertiser's clock is within 50 parts per million. -/
  accurate : Bool
  /-- Whether the offset counts in units of 300 microseconds and not of 30. -/
  coarse : Bool
  offset : BitVec 13
  phy : AuxPhy
  deriving DecidableEq

namespace AuxPtr

/-- Reads a pointer from its three octets. -/
def ofOctets (o : Octets) : AuxPtr :=
  let w := o.toNat
  { channel := BitVec.ofNat 6 w
    accurate := w.testBit 6
    coarse := w.testBit 7
    offset := BitVec.ofNat 13 (w / 0x100)
    phy := .ofBits (BitVec.ofNat 3 (w / 0x200000)) }

/-- Writes a pointer. -/
def toOctets (p : AuxPtr) : Octets :=
  Octets.ofNat 3 (p.channel.toNat + 0x40 * p.accurate.toNat + 0x80 * p.coarse.toNat +
    0x100 * p.offset.toNat + 0x200000 * p.phy.bits.toNat)

/-- Microseconds from the start of this packet to the announced one. -/
def offsetMicros (p : AuxPtr) : Nat := p.offset.toNat * (if p.coarse then 300 else 30)

/-- The text of a pointer. -/
def text (p : AuxPtr) : String :=
  s!"Chan {p.channel.toNat}  PHY {p.phy.name}  Offset {p.offsetMicros} us  CA " ++
    (if p.accurate then "0-50 ppm" else "51-500 ppm")

end AuxPtr

/-! ## Periodic advertising -/

/-- The parameters of a periodic advertising train. -/
structure SyncInfo where
  offset : BitVec 13
  /-- Whether the offset counts in units of 300 microseconds and not of 30. -/
  coarse : Bool
  /-- Whether the offset is to be increased by 2.4576 seconds. -/
  adjusted : Bool
  /-- The interval in units of 1.25 ms. -/
  interval : UInt16
  channelMap : ChannelMap
  sca : BitVec 3
  accessAddress : UInt32
  crcInit : BitVec 24
  event : UInt16
  deriving DecidableEq

namespace SyncInfo

/-- Reads the parameters from their eighteen octets; bit 15 of the first word is not used. -/
def ofOctets (o : Octets) : SyncInfo :=
  let w := (o.word16 0).toNat
  { offset := BitVec.ofNat 13 w
    coarse := w.testBit 13
    adjusted := w.testBit 14
    interval := o.word16 2
    channelMap := .read o 4
    sca := BitVec.ofNat 3 ((o.octet 8).toNat / 32)
    accessAddress := o.word32 9
    crcInit := o.word24 13
    event := o.word16 16 }

/-- Writes the parameters. -/
def toOctets (s : SyncInfo) : Octets :=
  Octets.ofNat 2 (s.offset.toNat + 0x2000 * s.coarse.toNat + 0x4000 * s.adjusted.toNat) ++
    Octets.ofWord16 s.interval ++
    Octets.ofNat 5 (s.channelMap.toNat + 0x2000000000 * s.sca.toNat) ++
    Octets.ofWord32 s.accessAddress ++ Octets.ofWord24 s.crcInit ++ Octets.ofWord16 s.event

/-- Microseconds from the start of this packet to the train's next one. -/
def offsetMicros (s : SyncInfo) : Nat :=
  s.offset.toNat * (if s.coarse then 300 else 30) + (if s.adjusted then 2457600 else 0)

/-- The text of the parameters. -/
def text (s : SyncInfo) : String :=
  s!"Offset {s.offsetMicros} us  Interval {s.interval.toNat}  AA 0x" ++
    Text.hexUpper 8 s.accessAddress.toNat ++ "  CRCInit 0x" ++ Text.hexUpper 6 s.crcInit.toNat ++
    s!"  Event {s.event.toNat}  ChM " ++ s.channelMap.text

end SyncInfo

/-! ## The extended header -/

/-- An extended header. -/
structure ExtHeader where
  mode : AdvMode
  /-- The declared length, from the flags octet on. -/
  length : BitVec 6
  flags : UInt8
  advA : Option Address
  targetA : Option Address
  cteInfo : Option CteInfo
  adi : Option Adi
  auxPtr : Option AuxPtr
  syncInfo : Option SyncInfo
  txPower : Option Int8
  /-- Additional controller data. -/
  acad : Octets
  deriving DecidableEq

/-- Cuts the octets of a field off the rest of a header, if the flags announce it. -/
def ExtField.cut (f : ExtField) (flags : UInt8) (rest : Octets) :
    Except DecodeError (Option Octets × Octets) :=
  if flags.toNat.testBit f.flag then
    if rest.length < f.size then .error (.fieldOverrun f)
    else .ok (some (rest.take f.size), rest.drop f.size)
  else .ok (none, rest)

namespace ExtHeader

/-- A header of length zero. -/
def empty (mode : AdvMode) : ExtHeader where
  mode := mode
  length := 0
  flags := 0
  advA := none
  targetA := none
  cteInfo := none
  adi := none
  auxPtr := none
  syncInfo := none
  txPower := none
  acad := []

/-- Reads a header from its declared octets. -/
def ofOctets (mode : AdvMode) (txAdd rxAdd : Bool) : Octets → Except DecodeError ExtHeader
  | [] => .ok (empty mode)
  | flags :: fields => do
      let (advA, rest) ← ExtField.advA.cut flags fields
      let (targetA, rest) ← ExtField.targetA.cut flags rest
      let (cteInfo, rest) ← ExtField.cteInfo.cut flags rest
      let (adi, rest) ← ExtField.adi.cut flags rest
      let (auxPtr, rest) ← ExtField.auxPtr.cut flags rest
      let (syncInfo, rest) ← ExtField.syncInfo.cut flags rest
      let (txPower, rest) ← ExtField.txPower.cut flags rest
      return {
        mode := mode
        length := BitVec.ofNat 6 (fields.length + 1)
        flags := flags
        advA := advA.map fun o => .read o 0 txAdd
        targetA := targetA.map fun o => .read o 0 rxAdd
        cteInfo := cteInfo.map fun o => .ofOctet (o.octet 0)
        adi := adi.map fun o => .ofWord (o.word16 0)
        auxPtr := auxPtr.map AuxPtr.ofOctets
        syncInfo := syncInfo.map SyncInfo.ofOctets
        txPower := txPower.map fun o => (o.octet 0).toInt8
        acad := rest }

/-- Writes the fields that are present, in order, and the controller data. -/
def fieldOctets (h : ExtHeader) : Octets :=
  (h.advA.map Address.toOctets).getD [] ++
    (h.targetA.map Address.toOctets).getD [] ++
    (h.cteInfo.map fun c => [c.toOctet]).getD [] ++
    (h.adi.map fun a => Octets.ofWord16 a.toWord).getD [] ++
    (h.auxPtr.map AuxPtr.toOctets).getD [] ++
    (h.syncInfo.map SyncInfo.toOctets).getD [] ++
    (h.txPower.map fun p => [p.toUInt8]).getD [] ++ h.acad

/-- Writes a header: nothing if its length is zero, else the flags and the fields. -/
def toOctets (h : ExtHeader) : Octets := if h.length = 0 then [] else h.flags :: h.fieldOctets

/-- The lines of a header's text. -/
def lines (h : ExtHeader) : List String :=
  ["AdvMode: " ++ h.mode.name] ++
    (h.advA.map fun a => "AdvA: " ++ a.text).toList ++
    (h.targetA.map fun a => "TargetA: " ++ a.text).toList ++
    (h.cteInfo.map fun c => "CTEInfo: " ++ c.text).toList ++
    (h.adi.map fun a => "ADI: DID 0x" ++ Text.hexUpper 3 a.did.toNat ++
      s!" SID {a.sid.toNat}").toList ++
    (h.auxPtr.map fun p => "AuxPtr: " ++ p.text).toList ++
    (h.syncInfo.map fun s => "SyncInfo: " ++ s.text).toList ++
    (h.txPower.map fun p => s!"TxPower: {p.toInt} dBm").toList ++
    (if h.acad.isEmpty then [] else ["ACAD: " ++ Text.octets h.acad])

end ExtHeader

/-! ## The packet -/

/-- An extended advertising packet. -/
structure ExtAdvertisement where
  header : AdvHeader
  ext : ExtHeader
  data : Octets
  deriving DecidableEq

namespace ExtAdvertisement

/-- Reads an extended packet. -/
def ofBody (h : AdvHeader) (body : Octets) : Except DecodeError ExtAdvertisement := do
  need "extended advertising PDU" 3 body
  let place := (body.octet 2).toNat
  let declared := place % 64
  let available := body.length - 3
  if available < declared then throw (.headerOverrun declared available)
  let ext ← ExtHeader.ofOctets (.ofBits (BitVec.ofNat 2 (place / 64))) h.txAdd h.rxAdd
    (body.slice 3 declared)
  return { header := h, ext := ext, data := body.drop (3 + declared) }

/-- Writes an extended packet. -/
def toBody (p : ExtAdvertisement) : Octets :=
  p.header.toOctets ++ [UInt8.ofNat (p.ext.length.toNat + 64 * p.ext.mode.bits.toNat)] ++
    p.ext.toOctets ++ p.data

/-- The text of an extended packet. -/
def text (p : ExtAdvertisement) : String :=
  "\n    ".intercalate ([p.header.text] ++ p.ext.lines ++ ["AdvData: " ++ Text.octets p.data])

end ExtAdvertisement

end AirTrace

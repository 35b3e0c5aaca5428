import AirTrace.Link
import AirTrace.Pdu.Advertising

/-!
# Connection requests

A connection request names the two devices and carries the 22 octets of parameters that the
connection will use.
-/

namespace AirTrace

/-- The parameters of a connection. -/
structure LinkParameters where
  accessAddress : UInt32
  crcInit : BitVec 24
  /-- The size of the transmit window, in units of 1.25 ms. -/
  winSize : UInt8
  /-- The offset of the transmit window, in units of 1.25 ms. -/
  winOffset : UInt16
  /-- The connection interval, in units of 1.25 ms. -/
  interval : UInt16
  latency : UInt16
  /-- The supervision timeout, in units of 10 ms. -/
  timeout : UInt16
  channelMap : ChannelMap
  hop : BitVec 5
  /-- The class of the central's sleep clock accuracy. -/
  sca : BitVec 3
  deriving DecidableEq

namespace LinkParameters

/-- Reads the parameters from an offset. -/
def read (o : Octets) (i : Nat) : LinkParameters where
  accessAddress := o.word32 i
  crcInit := o.word24 (i + 4)
  winSize := o.octet (i + 7)
  winOffset := o.word16 (i + 8)
  interval := o.word16 (i + 10)
  latency := o.word16 (i + 12)
  timeout := o.word16 (i + 14)
  channelMap := .read o (i + 16)
  hop := BitVec.ofNat 5 (o.octet (i + 21)).toNat
  sca := BitVec.ofNat 3 ((o.octet (i + 21)).toNat / 32)

/-- Writes the parameters. -/
def toOctets (p : LinkParameters) : Octets :=
  Octets.ofWord32 p.accessAddress ++ Octets.ofWord24 p.crcInit ++ [p.winSize] ++
    Octets.ofWord16 p.winOffset ++ Octets.ofWord16 p.interval ++ Octets.ofWord16 p.latency ++
    Octets.ofWord16 p.timeout ++ p.channelMap.toOctets ++
    [UInt8.ofNat (p.hop.toNat + 32 * p.sca.toNat)]

/-- The link that the parameters describe. -/
def context (p : LinkParameters) : LinkContext := .ofRequest p.accessAddress p.crcInit

/-- The connection interval in microseconds. -/
def intervalMicros (p : LinkParameters) : Nat := p.interval.toNat * 1250

/-- The worst accuracy, in parts per million, of a sleep clock of the central's class. -/
def scaPpm (p : LinkParameters) : Nat :=
  [500, 250, 150, 100, 75, 50, 30, 20].getD p.sca.toNat 0

end LinkParameters

/-- A connection request. -/
structure ConnectRequest where
  header : AdvHeader
  initA : Address
  advA : Address
  parameters : LinkParameters
  deriving DecidableEq

namespace ConnectRequest

/-- The length of a connection request. -/
def bodyLength : Nat := 36

/-- Reads a connection request. -/
def ofBody (name : String) (h : AdvHeader) (body : Octets) :
    Except DecodeError ConnectRequest := do
  need name bodyLength body
  return {
    header := h
    initA := .read body 2 h.txAdd
    advA := .read body 8 h.rxAdd
    parameters := .read body 14 }

/-- Writes a connection request. -/
def toBody (p : ConnectRequest) : Octets :=
  p.header.toOctets ++ p.initA.toOctets ++ p.advA.toOctets ++ p.parameters.toOctets

/-- The text of a connection request. -/
def text (p : ConnectRequest) : String :=
  let d := p.parameters
  p.header.text ++ "\n    InitA: " ++ p.initA.text ++ "\n    AdvA: " ++ p.advA.text ++
    "\n    AA: 0x" ++ Text.hexUpper 8 d.accessAddress.toNat ++
    "  CRCInit: 0x" ++ Text.hexUpper 6 d.crcInit.toNat ++
    s!"\n    WinSize: {d.winSize.toNat}  WinOffset: {d.winOffset.toNat}  " ++
    s!"Interval: {d.interval.toNat}  Latency: {d.latency.toNat}  Timeout: {d.timeout.toNat}" ++
    "\n    ChM: " ++ d.channelMap.text ++
    s!"  Hop: {d.hop.toNat}  SCA: {d.sca.toNat} ({d.scaPpm} ppm)"

end ConnectRequest

end AirTrace

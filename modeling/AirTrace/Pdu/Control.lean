import AirTrace.Pdu.Control.Opcode
import AirTrace.Pdu.Data

/-!
# Control packets

A control packet carries an opcode and the data of its procedure.  For most procedures the data has
fixed fields, which are broken out; data that has none, or that is not broken out, is kept as
octets.
-/

namespace AirTrace

/-- The data of a control procedure. -/
inductive ControlFields where
  | connectionUpdate (winSize : UInt8) (winOffset interval latency timeout instant : UInt16)
  | channelMap (map : ChannelMap) (instant : UInt16)
  /-- The reason for which something was ended or refused. -/
  | errorCode (code : UInt8)
  | encReq (rand : Vector UInt8 8) (ediv : UInt16) (skdC : Vector UInt8 8) (ivC : Vector UInt8 4)
  | encRsp (skdP : Vector UInt8 8) (ivP : Vector UInt8 4)
  | unknownRsp (unknownType : UInt8)
  /-- The features that a device supports. -/
  | features (set : UInt64)
  | version (version : UInt8) (companyId subversion : UInt16)
  | connectionParam (intervalMin intervalMax latency timeout : UInt16)
      (preferredPeriodicity : UInt8) (referenceEvent : UInt16) (offsets : Vector UInt16 6)
  | rejectExt (rejectOpcode errorCode : UInt8)
  | length (maxRxOctets maxRxTime maxTxOctets maxTxTime : UInt16)
  | phys (txPhys rxPhys : UInt8)
  | phyUpdate (cToPPhy pToCPhy : UInt8) (instant : UInt16)
  | minUsedChannels (phys minUsedChannels : UInt8)
  /-- The procedure has no data. -/
  | empty
  /-- The data is not broken out. -/
  | raw
  deriving DecidableEq

namespace ControlFields

/-- Reads the data of a procedure from octets that are long enough for it. -/
def read (op : Opcode) (d : Octets) : ControlFields :=
  match op with
  | .connectionUpdateInd =>
      connectionUpdate (d.octet 0) (d.word16 1) (d.word16 3) (d.word16 5) (d.word16 7) (d.word16 9)
  | .channelMapInd => channelMap (.read d 0) (d.word16 5)
  | .terminateInd | .rejectInd => errorCode (d.octet 0)
  | .encReq => encReq (d.vector 8 0) (d.word16 8) (d.vector 8 10) (d.vector 4 18)
  | .encRsp => encRsp (d.vector 8 0) (d.vector 4 8)
  | .unknownRsp => unknownRsp (d.octet 0)
  | .featureReq | .featureRsp | .peripheralFeatureReq => features (d.word64 0)
  | .versionInd => version (d.octet 0) (d.word16 1) (d.word16 3)
  | .connectionParamReq | .connectionParamRsp =>
      connectionParam (d.word16 0) (d.word16 2) (d.word16 4) (d.word16 6) (d.octet 8) (d.word16 9)
        (Vector.ofFn fun k => d.word16 (11 + 2 * k))
  | .rejectExtInd => rejectExt (d.octet 0) (d.octet 1)
  | .lengthReq | .lengthRsp => length (d.word16 0) (d.word16 2) (d.word16 4) (d.word16 6)
  | .phyReq | .phyRsp => phys (d.octet 0) (d.octet 1)
  | .phyUpdateInd => phyUpdate (d.octet 0) (d.octet 1) (d.word16 2)
  | .minUsedChannelsInd => minUsedChannels (d.octet 0) (d.octet 1)
  | .startEncReq | .startEncRsp | .pauseEncReq | .pauseEncRsp | .pingReq | .pingRsp => empty
  | _ => raw

/-- Writes the data of a procedure; nothing where it is not broken out. -/
def toOctets : ControlFields → Octets
  | connectionUpdate winSize winOffset interval latency timeout instant =>
      [winSize] ++ Octets.ofWord16 winOffset ++ Octets.ofWord16 interval ++
        Octets.ofWord16 latency ++ Octets.ofWord16 timeout ++ Octets.ofWord16 instant
  | channelMap map instant => map.toOctets ++ Octets.ofWord16 instant
  | errorCode code => [code]
  | encReq rand ediv skdC ivC => rand.toList ++ Octets.ofWord16 ediv ++ skdC.toList ++ ivC.toList
  | encRsp skdP ivP => skdP.toList ++ ivP.toList
  | unknownRsp unknownType => [unknownType]
  | features set => Octets.ofWord64 set
  | version v companyId subversion =>
      [v] ++ Octets.ofWord16 companyId ++ Octets.ofWord16 subversion
  | connectionParam intervalMin intervalMax latency timeout periodicity event offsets =>
      Octets.ofWord16 intervalMin ++ Octets.ofWord16 intervalMax ++ Octets.ofWord16 latency ++
        Octets.ofWord16 timeout ++ [periodicity] ++ Octets.ofWord16 event ++
        offsets.toList.flatMap Octets.ofWord16
  | rejectExt opcode code => [opcode, code]
  | length rxOctets rxTime txOctets txTime =>
      Octets.ofWord16 rxOctets ++ Octets.ofWord16 rxTime ++ Octets.ofWord16 txOctets ++
        Octets.ofWord16 txTime
  | phys tx rx => [tx, rx]
  | phyUpdate cToP pToC instant => [cToP, pToC] ++ Octets.ofWord16 instant
  | minUsedChannels phy channels => [phy, channels]
  | empty => []
  | raw => []

/-- The text of a procedure's data, given its octets for data that is not broken out. -/
def lines (d : Octets) : ControlFields → List String
  | connectionUpdate winSize winOffset interval latency timeout instant =>
      [s!"WinSize: {winSize.toNat}  WinOffset: {winOffset.toNat}  Interval: {interval.toNat}  " ++
        s!"Latency: {latency.toNat}  Timeout: {timeout.toNat}  Instant: {instant.toNat}"]
  | channelMap map instant => ["ChM: " ++ map.text ++ s!"  Instant: {instant.toNat}"]
  | errorCode code => ["ErrorCode: 0x" ++ Text.hexUpper 2 code.toNat]
  | encReq rand ediv skdC ivC =>
      ["Rand: " ++ Text.octets rand.toList ++ "  EDIV: 0x" ++ Text.hexUpper 4 ediv.toNat,
        "SKDc: " ++ Text.octets skdC.toList ++ "  IVc: " ++ Text.octets ivC.toList]
  | encRsp skdP ivP =>
      ["SKDp: " ++ Text.octets skdP.toList ++ "  IVp: " ++ Text.octets ivP.toList]
  | unknownRsp unknownType => ["UnknownType: " ++ (Opcode.ofCode unknownType).text]
  | features set => ["FeatureSet: 0x" ++ Text.hexUpper 16 set.toNat]
  | version v companyId subversion =>
      [s!"VersNr: {v.toNat}  CompId: 0x" ++ Text.hexUpper 4 companyId.toNat ++
        "  SubVersNr: 0x" ++ Text.hexUpper 4 subversion.toNat]
  | connectionParam intervalMin intervalMax latency timeout periodicity event offsets =>
      let list := ", ".intercalate (offsets.toList.map fun o => s!"{o.toNat}")
      [s!"Interval: {intervalMin.toNat}-{intervalMax.toNat}  Latency: {latency.toNat}  " ++
        s!"Timeout: {timeout.toNat}  Periodicity: {periodicity.toNat}  " ++
        s!"RefEvent: {event.toNat}  Offsets: [{list}]"]
  | rejectExt opcode code =>
      ["RejectOpcode: " ++ (Opcode.ofCode opcode).text ++ "  ErrorCode: 0x" ++
        Text.hexUpper 2 code.toNat]
  | length rxOctets rxTime txOctets txTime =>
      [s!"MaxRx: {rxOctets.toNat} octets / {rxTime.toNat} us  " ++
        s!"MaxTx: {txOctets.toNat} octets / {txTime.toNat} us"]
  | phys tx rx =>
      ["TxPhys: 0x" ++ Text.hexUpper 2 tx.toNat ++ "  RxPhys: 0x" ++ Text.hexUpper 2 rx.toNat]
  | phyUpdate cToP pToC instant =>
      ["PhyC->P: 0x" ++ Text.hexUpper 2 cToP.toNat ++ "  PhyP->C: 0x" ++
        Text.hexUpper 2 pToC.toNat ++ s!"  Instant: {instant.toNat}"]
  | minUsedChannels phy channels =>
      ["Phys: 0x" ++ Text.hexUpper 2 phy.toNat ++ s!"  MinUsedChannels: {channels.toNat}"]
  | empty => []
  | raw => ["CtrData: " ++ Text.octets d]

end ControlFields

/-- How many octets the data of a procedure must have for its fields to be read. -/
def Opcode.dataLength : Opcode → Nat
  | connectionUpdateInd => 11
  | channelMapInd => 7
  | terminateInd | rejectInd | unknownRsp => 1
  | encReq => 22
  | encRsp => 12
  | featureReq | featureRsp | peripheralFeatureReq => 8
  | versionInd => 5
  | connectionParamReq | connectionParamRsp => 23
  | rejectExtInd => 2
  | lengthReq | lengthRsp => 8
  | phyReq | phyRsp => 2
  | phyUpdateInd => 4
  | minUsedChannelsInd => 2
  | _ => 0

/-- A control packet. -/
structure ControlPacket where
  preamble : DataPreamble
  opcode : Opcode
  /-- All octets after the opcode. -/
  data : Octets
  fields : ControlFields
  deriving DecidableEq

namespace ControlPacket

/-- Reads a control packet from its payload. -/
def ofPayload (p : DataPreamble) (payload : Octets) : Except DecodeError ControlPacket := do
  need "LL control opcode" 1 payload
  let opcode := Opcode.ofCode (payload.octet 0)
  let data := payload.drop 1
  need opcode.name opcode.dataLength data
  return { preamble := p, opcode := opcode, data := data, fields := .read opcode data }

/-- Writes a control packet. -/
def toBody (p : ControlPacket) : Octets := p.preamble.toOctets ++ [p.opcode.code] ++ p.data

/-- The text of a control packet. -/
def text (p : ControlPacket) : String :=
  "\n    ".intercalate ([p.preamble.header.text, "Opcode: " ++ p.opcode.text] ++
    p.fields.lines p.data)

end ControlPacket

end AirTrace

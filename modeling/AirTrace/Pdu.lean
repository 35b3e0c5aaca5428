import AirTrace.Channel
import AirTrace.Pdu.Connect
import AirTrace.Pdu.Control
import AirTrace.Pdu.Extended

/-!
# Link-layer packets

A body is decoded without regard to what came before it: the family of its link, the kind of channel
and its own octets decide.  What a packet of the ambiguous type 7 on a secondary channel is in its
exchange shows only from earlier packets; it is read as an advertisement here, and `Pdu.withRole`
puts the answer in.

`Pdu.toBody` writes a packet again.
-/

namespace AirTrace

/-- The kind of channel that an advertising packet is on. -/
inductive Tier where
  | primary
  | secondary
  deriving DecidableEq, Repr

/-- The kind of a channel. -/
def Channel.tier (c : Channel) : Tier := if c.isPrimary then .primary else .secondary

/-- The family of packets that a link carries. -/
inductive Family where
  | advertising
  | data
  deriving DecidableEq, Repr

/-- The family of packets with an access address. -/
def Family.ofAddress (accessAddress : UInt32) : Family :=
  if accessAddress = advertisingAddress then advertising else data

/-- The undirected packets of the primary channels. -/
inductive AdvertisementKind where
  | advInd
  | advNonconnInd
  | scanRsp
  | advScanInd
  deriving DecidableEq, Repr

/-- The name of an undirected packet. -/
def AdvertisementKind.name : AdvertisementKind → String
  | advInd => "ADV_IND"
  | advNonconnInd => "ADV_NONCONN_IND"
  | scanRsp => "SCAN_RSP"
  | advScanInd => "ADV_SCAN_IND"

/-- The part of an exchange that an extended packet takes. -/
inductive ExtRole where
  | advExtInd
  | auxAdvInd
  | auxScanRsp
  | auxChainInd
  | auxConnectRsp
  deriving DecidableEq, Repr

/-- The name of an extended packet. -/
def ExtRole.name : ExtRole → String
  | advExtInd => "ADV_EXT_IND"
  | auxAdvInd => "AUX_ADV_IND"
  | auxScanRsp => "AUX_SCAN_RSP"
  | auxChainInd => "AUX_CHAIN_IND"
  | auxConnectRsp => "AUX_CONNECT_RSP"

/-- The name of a scan request. -/
def Tier.scanRequestName : Tier → String
  | primary => "SCAN_REQ"
  | secondary => "AUX_SCAN_REQ"

/-- The name of a connection request. -/
def Tier.connectRequestName : Tier → String
  | primary => "CONNECT_IND"
  | secondary => "AUX_CONNECT_REQ"

/-- The name of a data channel packet. -/
def Llid.packetName : Llid → String
  | reserved => "LL_DATA_RESERVED"
  | continuation => "LL_DATA_CONT"
  | start => "LL_DATA_START"
  | control => "LL_CONTROL"

/-- A decoded packet. -/
inductive Pdu where
  | advertisement (kind : AdvertisementKind) (p : Advertisement)
  | directed (p : DirectedAdvertisement)
  | scanRequest (tier : Tier) (p : ScanRequest)
  | connectRequest (tier : Tier) (p : ConnectRequest)
  | extended (role : ExtRole) (p : ExtAdvertisement)
  | unknown (p : UnknownAdvertising)
  | data (p : DataPacket)
  | control (p : ControlPacket)
  deriving DecidableEq

namespace Pdu

/-! ## Decoding -/

/-- Decodes a body from a primary channel, its header given. -/
def ofPrimaryBody (h : AdvHeader) (body : Octets) : Except DecodeError Pdu :=
  match h.pduType.toNat with
  | 0 => advertisement .advInd <$> Advertisement.ofBody "ADV_IND" h body
  | 1 => directed <$> DirectedAdvertisement.ofBody "ADV_DIRECT_IND" h body
  | 2 => advertisement .advNonconnInd <$> Advertisement.ofBody "ADV_NONCONN_IND" h body
  | 3 => scanRequest .primary <$> ScanRequest.ofBody "SCAN_REQ" h body
  | 4 => advertisement .scanRsp <$> Advertisement.ofBody "SCAN_RSP" h body
  | 5 => connectRequest .primary <$> ConnectRequest.ofBody "CONNECT_IND" h body
  | 6 => advertisement .advScanInd <$> Advertisement.ofBody "ADV_SCAN_IND" h body
  | 7 => extended .advExtInd <$> ExtAdvertisement.ofBody h body
  | _ => .ok (unknown (.ofBody h body))

/-- Decodes a body from a secondary channel, its header given. -/
def ofSecondaryBody (h : AdvHeader) (body : Octets) : Except DecodeError Pdu :=
  match h.pduType.toNat with
  | 3 => scanRequest .secondary <$> ScanRequest.ofBody "AUX_SCAN_REQ" h body
  | 5 => connectRequest .secondary <$> ConnectRequest.ofBody "AUX_CONNECT_REQ" h body
  | 7 => extended .auxAdvInd <$> ExtAdvertisement.ofBody h body
  | 8 => extended .auxConnectRsp <$> ExtAdvertisement.ofBody h body
  | _ => .ok (unknown (.ofBody h body))

/-- Decodes a body of the advertising family. -/
def ofAdvertisingBody (tier : Tier) (body : Octets) : Except DecodeError Pdu := do
  let h ← AdvHeader.ofBody body
  match tier with
  | .primary => ofPrimaryBody h body
  | .secondary => ofSecondaryBody h body

/-- Decodes a body of the data family. -/
def ofDataBody (body : Octets) : Except DecodeError Pdu := do
  let (preamble, payload) ← DataPreamble.ofBody body
  match preamble.header.llid with
  | .control => control <$> ControlPacket.ofPayload preamble payload
  | _ => return data ⟨preamble, payload⟩

/-- Decodes a body. -/
def ofBody (family : Family) (tier : Tier) (body : Octets) : Except DecodeError Pdu :=
  match family with
  | .advertising => ofAdvertisingBody tier body
  | .data => ofDataBody body

/-- The packet with another part in its exchange, if it is an extended one. -/
def withRole (role : ExtRole) : Pdu → Pdu
  | extended _ p => extended role p
  | p => p

/-! ## Encoding -/

/-- Writes a packet. -/
def toBody : Pdu → Octets
  | advertisement _ p => p.toBody
  | directed p => p.toBody
  | scanRequest _ p => p.toBody
  | connectRequest _ p => p.toBody
  | extended _ p => p.toBody
  | unknown p => p.toBody
  | data p => p.toBody
  | control p => p.toBody

/-! ## Reading a decoded packet -/

/-- The name of a packet's type. -/
def name : Pdu → String
  | advertisement kind _ => kind.name
  | directed _ => "ADV_DIRECT_IND"
  | scanRequest tier _ => tier.scanRequestName
  | connectRequest tier _ => tier.connectRequestName
  | extended role _ => role.name
  | unknown _ => "ADV_UNKNOWN"
  | data p => p.preamble.header.llid.packetName
  | control p => p.preamble.header.llid.packetName

/-- Whether a packet is of the data family. -/
def isData : Pdu → Bool
  | data _ | control _ => true
  | _ => false

/-- The advertiser's address, if the packet carries it. -/
def advAddress? : Pdu → Option Address
  | advertisement _ p => some p.advA
  | directed p => some p.advA
  | scanRequest _ p => some p.advA
  | connectRequest _ p => some p.advA
  | extended _ p => p.ext.advA
  | unknown _ | data _ | control _ => none

/-- The text of a packet: its name, its header and a line for each group of fields. -/
def text (p : Pdu) : String :=
  p.name ++ "  " ++ match p with
    | advertisement _ p => p.text
    | directed p => p.text
    | scanRequest _ p => p.text
    | connectRequest _ p => p.text
    | extended _ p => p.text
    | unknown p => p.text
    | data p => p.text
    | control p => p.text

end Pdu

end AirTrace

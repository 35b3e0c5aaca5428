import AirTrace.Decimal.Fixed
import AirTrace.Frame
import AirTrace.Tracker

/-!
# Packets

A packet is a frame that has been given its time and its link and whose body has been decoded.
`Tracker.receive` makes a packet of a frame and says what the tracker knows afterwards.
-/

namespace AirTrace

/-- A frame with its time and the link it belongs to. -/
structure StampedFrame (τ : Type) where
  /-- Seconds since the clock was fixed. -/
  time : τ
  /-- Seconds since 1970. -/
  epochTime : τ
  /-- The access address: the frame's own if the receiver knew it, else that of the current
  link. -/
  accessAddress : UInt32
  frame : Frame

/-- A decoded frame. -/
structure Packet (τ : Type) where
  stamped : StampedFrame τ
  pdu : Except DecodeError Pdu
  /-- Whether the received check is right, if one was received and the link's seed is known. -/
  crcValid : Option Bool
  /-- The seed for the check of the packet's link, if the link is known. -/
  seed : Option Crc.Register

namespace Packet

variable {τ : Type}

/-- The frame that was decoded. -/
def frame (p : Packet τ) : Frame := p.stamped.frame

/-- The check as it was sent: the received one, else the one that the link's seed gives. -/
def wireCrc (p : Packet τ) : Option UInt32 :=
  match p.frame.crc with
  | some c => some c
  | none => p.seed.map fun s => UInt32.ofNat (Crc.checksum s p.frame.body).toNat

/-- Whether the packet counts as undamaged: as its check says, else as the receiver said. -/
def crcOk (p : Packet τ) : Bool := p.crcValid.getD (!p.frame.crcError)

/-- Whether decoding failed. -/
def failed (p : Packet τ) : Bool :=
  match p.pdu with
  | .error _ => true
  | .ok _ => false

end Packet

/-! ## Receiving -/

namespace Tracker

variable {τ : Type} [TimeScale τ]

/-- Gives a frame its time and its link. -/
def attach (t : Tracker τ) (now : τ) (f : Frame) : StampedFrame τ × Tracker τ :=
  let (time, t) := t.stamp now f.tick
  let epochTime := time + t.epoch
  let t := t.notice f.channel
  ({ time := time
     epochTime := epochTime
     accessAddress := f.accessAddress.getD t.link.current.accessAddress
     frame := f }, t)

/-- Whether a body on a secondary channel is of the type that answers a connection request.  The
type alone counts; the rest of the body need not be well formed. -/
def answersRequest (family : Family) (tier : Tier) (body : Octets) : Bool :=
  match family, tier, AdvHeader.ofBody body with
  | .advertising, .secondary, .ok h => h.pduType == 8
  | _, _, _ => false

/-- What a decoded packet tells the tracker, and the packet with its part in its exchange. -/
def observe (t : Tracker τ) (f : StampedFrame τ) (p : Pdu) : Pdu × Tracker τ :=
  match p with
  | .connectRequest tier r => (p, t.request r.parameters.context tier)
  | .extended .auxAdvInd e =>
      let (role, t) := t.classify f.time f.frame.channel e.ext.adi
      let scannable := role == .auxAdvInd && e.ext.mode == .scannable
      let pointer := e.ext.auxPtr.map fun a => (UInt8.ofNat a.channel.toNat, a.offsetMicros)
      (p.withRole role,
        t.expect f.time f.frame.channel f.frame.phy f.frame.body.length e.ext.adi scannable pointer)
  | _ => (p, t)

/-- Decodes the body of a frame and notes what it tells. -/
def decodeBody (t : Tracker τ) (f : StampedFrame τ) : Except DecodeError Pdu × Tracker τ :=
  let family := Family.ofAddress f.accessAddress
  let tier := f.frame.channel.tier
  let t := if answersRequest family tier f.frame.body then t.confirm else t
  match Pdu.ofBody family tier f.frame.body with
  | .error e => (.error e, t)
  | .ok p =>
      let (p, t) := t.observe f p
      (.ok p, t)

/-- Whether a received check is the one that a seed gives. -/
def checks (seed : Crc.Register) (body : Octets) (crc : UInt32) : Bool :=
  (Crc.checksum seed body).toNat == crc.toNat

/-- Decodes a frame that has its time and link. -/
def decode (t : Tracker τ) (f : StampedFrame τ) : Packet τ × Tracker τ :=
  let t := t.expire f.time
  let seed := t.link.seedFor? f.accessAddress
  let crcValid := match f.frame.crc, seed with
    | some c, some s => some (checks s f.frame.body c)
    | _, _ => none
  let (pdu, t) := t.decodeBody f
  ({ stamped := f, pdu := pdu, crcValid := crcValid, seed := seed }, t)

/-- Makes a packet of a frame. -/
def receive (t : Tracker τ) (now : τ) (f : Frame) : Packet τ × Tracker τ :=
  let (s, t) := t.attach now f
  t.decode s

end Tracker

/-! ## Listings -/

namespace Packet

/-- The first line of a packet's listing. -/
def summary (p : Packet Float) : String :=
  let f := p.frame
  "Timestamp: " ++ Decimal.fixed 6 p.stamped.time ++
    s!"  Length: {f.body.length}  RSSI: {f.rssi.toInt}  Channel: {f.channel.toNat}  " ++
    s!"PHY: {f.phy.name}" ++
    (match Family.ofAddress p.stamped.accessAddress with
      | .advertising => ""
      | .data => s!"  Event: {f.event.toNat}  Dir: {f.direction.name}") ++
    (match p.pdu with
      | .ok pdu => (pdu.advAddress?.map fun a => "  AdvA: " ++ a.text).getD ""
      | .error _ => "") ++
    (match p.crcValid with
      | some true => "  CRC: ok"
      | some false => "  CRC: BAD"
      | none => if f.crcError then "  CRC: BAD" else "")

/-- The listing of a packet: a summary, the decoded packet or why there is none, and the octets. -/
def text (p : Packet Float) : String :=
  p.summary ++ "\n" ++
    (match p.pdu with
      | .ok pdu => pdu.text
      | .error e => "<decode error: " ++ e.message ++ ">\n    Header: " ++
          Text.octets (p.frame.body.take 2)) ++
    "\n" ++ Text.dump p.frame.body

end Packet

end AirTrace

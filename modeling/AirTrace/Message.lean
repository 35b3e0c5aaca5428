import AirTrace.Frame.Firmware
import AirTrace.Mode
import AirTrace.Pdu.Field
import AirTrace.Text.Utf8

/-!
# Messages of the sniffer firmware

The firmware sends messages in envelopes: an octet that the serial line has already used up, an
octet with the type of the message, and its payload.
-/

namespace AirTrace

/-- A host's marker, sent back by the firmware with its tick. -/
structure Marker where
  tick : UInt32
  token : Octets
  deriving DecidableEq

/-- What the firmware has measured of the link it follows. -/
inductive Measurement where
  /-- The connection interval, in units of 1.25 ms. -/
  | interval (units : UInt16)
  | channelMap (map : ChannelMap)
  /-- The time between two advertising channels, in microseconds. -/
  | advHop (micros : UInt32)
  | winOffset (units : UInt16)
  | deltaInstant (events : UInt16)
  /-- The version of the firmware. -/
  | version (major minor revision apiLevel : UInt8)
  | unknown (kind : UInt8) (data : Octets)
  deriving DecidableEq

/-- A message of the firmware. -/
inductive Message where
  | packet (frame : Frame)
  | debug (text : String)
  | marker (m : Marker)
  | mode (m : Mode)
  | measurement (m : Measurement)
  deriving DecidableEq

/-- The types of message that can break off early. -/
inductive MessageKind where
  | marker
  | state
  | measurement
  deriving DecidableEq, Repr

/-- The name of a type of message. -/
def MessageKind.name : MessageKind → String
  | marker => "marker"
  | state => "state"
  | measurement => "measurement"

/-- Why an envelope holds no message. -/
inductive MessageError where
  | short (length : Nat)
  | unknownType (code : UInt8)
  | truncated (kind : MessageKind)
  /-- The envelope announces a frame, but its payload is none. -/
  | badFrame (e : FrameError)
  deriving DecidableEq

/-- The wording of a message error. -/
def MessageError.message : MessageError → String
  | short n => s!"message error: message envelope too short ({n} bytes)"
  | unknownType code => "message error: unknown message type 0x" ++ Text.hexUpper 2 code.toNat
  | truncated kind => "message error: " ++ kind.name ++ " message truncated"
  | badFrame e => "framing error: " ++ e.message

namespace Measurement

/-- Requires a number of octets for a measurement. -/
def enough (n : Nat) (o : Octets) (m : Measurement) : Except MessageError Measurement :=
  if o.length < n then .error (.truncated .measurement) else .ok m

/-- Reads a measurement from its payload. -/
def ofPayload (payload : Octets) : Except MessageError Measurement :=
  if payload.isEmpty then .error (.truncated .measurement)
  else
    let kind := payload.octet 0
    let v : Octets := payload.drop 1
    match kind.toNat with
    | 0 => enough 2 v (interval (v.word16 0))
    | 1 => enough 5 v (channelMap (.read v 0))
    | 2 => enough 4 v (advHop (v.word32 0))
    | 3 => enough 2 v (winOffset (v.word16 0))
    | 4 => enough 2 v (deltaInstant (v.word16 0))
    | 5 => enough 4 v (version (v.octet 0) (v.octet 1) (v.octet 2) (v.octet 3))
    | _ => .ok (unknown kind v)

/-- Some hundredths, written as a number with two places. -/
private def hundredths (n : Nat) : String :=
  s!"{n / 100}." ++ Text.zeroFill 2 (Nat.toDigits 10 (n % 100))

/-- The text of a measurement. -/
def text : Measurement → String
  | interval units => "Measured Connection Interval: " ++ hundredths (125 * units.toNat) ++ " ms"
  | channelMap map => "Measured Channel Map: " ++ ChannelMap.text map
  | advHop micros => s!"Measured Advertising Hop: {micros.toNat} us"
  | winOffset units => s!"Measured Window Offset: {units.toNat}"
  | deltaInstant events => s!"Measured Delta Instant: {events.toNat}"
  | version major minor revision apiLevel =>
      s!"Firmware Version: {major.toNat}.{minor.toNat}.{revision.toNat} (API {apiLevel.toNat})"
  | unknown kind data => s!"Unknown Measurement {kind.toNat}: " ++ Text.octets data

end Measurement

namespace Message

/-- Reads a message from the type and the payload of its envelope. -/
def ofPayload (type : UInt8) (payload : Octets) : Except MessageError Message :=
  match type.toNat with
  | 0x10 => match Frame.ofFirmware payload with
      | .ok f => .ok (packet f)
      | .error e => .error (.badFrame e)
  | 0x11 => .ok (debug (Utf8.lossy payload))
  | 0x12 =>
      if payload.length < 4 then .error (.truncated .marker)
      else .ok (marker ⟨payload.word32 0, payload.drop 4⟩)
  | 0x13 => match payload with
      | [] => .error (.truncated .state)
      | code :: _ => .ok (mode (.ofCode code))
  | 0x14 => measurement <$> Measurement.ofPayload payload
  | _ => .error (.unknownType type)

/-- Reads a message from its envelope. -/
def ofEnvelope : Octets → Except MessageError Message
  | _ :: type :: payload => ofPayload type payload
  | o => .error (.short o.length)

end Message

end AirTrace

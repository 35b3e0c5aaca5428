import AirTrace.Octets

/-!
# Why a body is no packet

A body that breaks off before the fields of its type are complete, or whose extended header
contradicts itself, cannot be decoded.
-/

namespace AirTrace

/-- The fields of an extended header, in the order in which they are sent. -/
inductive ExtField where
  | advA
  | targetA
  | cteInfo
  | adi
  | auxPtr
  | syncInfo
  | txPower
  deriving DecidableEq, Repr

namespace ExtField

/-- The name of a field. -/
def name : ExtField → String
  | advA => "AdvA"
  | targetA => "TargetA"
  | cteInfo => "CTEInfo"
  | adi => "ADI"
  | auxPtr => "AuxPtr"
  | syncInfo => "SyncInfo"
  | txPower => "TxPower"

/-- The bit of the flags octet that announces a field. -/
def flag : ExtField → Nat
  | advA => 0
  | targetA => 1
  | cteInfo => 2
  | adi => 3
  | auxPtr => 4
  | syncInfo => 5
  | txPower => 6

/-- The length of a field. -/
def size : ExtField → Nat
  | advA => 6
  | targetA => 6
  | cteInfo => 1
  | adi => 2
  | auxPtr => 3
  | syncInfo => 18
  | txPower => 1

end ExtField

/-- Why a body cannot be decoded. -/
inductive DecodeError where
  | empty
  /-- A part that needs more octets than there are. -/
  | truncated (part : String) (needed available : Nat)
  /-- An extended header that declares more octets than there are. -/
  | headerOverrun (declared available : Nat)
  /-- A field that does not fit the declared length of its extended header. -/
  | fieldOverrun (field : ExtField)
  deriving DecidableEq, Repr

/-- The wording of a decode error. -/
def DecodeError.message : DecodeError → String
  | empty => "empty PDU body"
  | truncated part needed available =>
      s!"{part} truncated: need {needed} bytes, have {available}"
  | headerOverrun declared available =>
      s!"extended header length {declared} exceeds remaining {available} bytes"
  | fieldOverrun field =>
      s!"extended header field {field.name} runs past declared header length"

/-- Requires a number of octets for a part of a packet. -/
def need (part : String) (needed : Nat) (o : Octets) : Except DecodeError Unit :=
  if o.length < needed then .error (.truncated part needed o.length) else .ok ()

end AirTrace

/-!
# Modes of the sniffer

The sniffer firmware reports what it is doing as a one-octet code.
-/

namespace AirTrace

/-- What the sniffer is doing. -/
inductive Mode where
  | static
  | advertSeek
  | advertHop
  | data
  | paused
  | initiating
  | central
  | peripheral
  | advertising
  | scanning
  | advertisingExt
  /-- A code with no meaning assigned. -/
  | unknown (code : UInt8)
  deriving DecidableEq, Repr

namespace Mode

/-- The modes that have a code, in the order of their codes. -/
def assigned : List Mode :=
  [static, advertSeek, advertHop, data, paused, initiating, central, peripheral, advertising,
    scanning, advertisingExt]

/-- The mode that a code reports. -/
def ofCode (code : UInt8) : Mode := assigned.getD code.toNat (unknown code)

/-- The code of a mode. -/
def code : Mode → UInt8
  | unknown c => c
  | m => UInt8.ofNat (assigned.idxOf m)

/-- The name of a mode. -/
def name : Mode → String
  | static => "STATIC"
  | advertSeek => "ADVERT_SEEK"
  | advertHop => "ADVERT_HOP"
  | data => "DATA"
  | paused => "PAUSED"
  | initiating => "INITIATING"
  | central => "CENTRAL"
  | peripheral => "PERIPHERAL"
  | advertising => "ADVERTISING"
  | scanning => "SCANNING"
  | advertisingExt => "ADVERTISING_EXT"
  | unknown c => s!"UNKNOWN({c.toNat})"

/-- Whether the sniffer follows a connection. -/
def isConnected : Mode → Bool
  | data | central | peripheral => true
  | _ => false

end Mode

end AirTrace

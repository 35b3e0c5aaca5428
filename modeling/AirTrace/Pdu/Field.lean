import AirTrace.Octets
import AirTrace.Text.Hexadecimal

/-!
# Fields that several packets share

Device addresses, channel maps, the description of a constant tone extension and the identity of an
advertising set, each with its octets and its text.
-/

namespace AirTrace

/-! ## Device addresses -/

/-- A device address, its octets in the order they are sent. -/
structure Address where
  octets : Vector UInt8 6
  /-- Whether the address is random and not assigned. -/
  random : Bool
  deriving DecidableEq

namespace Address

/-- The address in the six octets from an offset. -/
def read (o : Octets) (i : Nat) (random : Bool) : Address := ⟨o.vector 6 i, random⟩

/-- The octets of an address in the order they are sent. -/
def toOctets (a : Address) : Octets := a.octets.toList

/-- The text of an address: the octet sent last comes first. -/
def text (a : Address) : String :=
  ":".intercalate (a.octets.toList.reverse.map fun b => Text.hexUpper 2 b.toNat) ++
    (if a.random then " (random)" else " (public)")

end Address

/-! ## Channel maps -/

/-- Which of the channels 0 to 36 are in use, one bit each. -/
abbrev ChannelMap := BitVec 37

namespace ChannelMap

/-- The channel map in the five octets from an offset. -/
def read (o : Octets) (i : Nat) : ChannelMap := Octets.field 37 o i 5

/-- The five octets of a channel map, the three unassigned bits zero. -/
def toOctets (m : ChannelMap) : Octets := Octets.ofNat 5 m.toNat

/-- Whether a channel is in use. -/
def uses (m : ChannelMap) (c : Nat) : Bool := m.getLsbD c

/-- The channels in use, in ascending order. -/
def used (m : ChannelMap) : List Nat := (List.range 37).filter m.uses

/-- The text of a channel map. -/
def text (m : ChannelMap) : String :=
  "0x" ++ Text.hexUpper 10 m.toNat ++ s!" ({m.used.length} channels)"

end ChannelMap

/-! ## Constant tone extensions -/

/-- The description of a constant tone extension. -/
structure CteInfo where
  /-- The length in units of eight microseconds. -/
  time : BitVec 5
  kind : BitVec 2
  deriving DecidableEq

namespace CteInfo

/-- The description in an octet; bit 5 is not used. -/
def ofOctet (o : UInt8) : CteInfo :=
  ⟨BitVec.ofNat 5 o.toNat, BitVec.ofNat 2 (o.toNat / 64)⟩

/-- The octet of a description. -/
def toOctet (c : CteInfo) : UInt8 := UInt8.ofNat (c.time.toNat + 64 * c.kind.toNat)

/-- The text of a description. -/
def text (c : CteInfo) : String := s!"time {c.time.toNat} type {c.kind.toNat}"

end CteInfo

/-! ## Advertising sets -/

/-- The identity of an advertising set and of the data it currently sends. -/
structure Adi where
  /-- The identifier of the data. -/
  did : BitVec 12
  /-- The identifier of the set. -/
  sid : BitVec 4
  deriving DecidableEq

namespace Adi

/-- The identity in a 16-bit word. -/
def ofWord (w : UInt16) : Adi := ⟨BitVec.ofNat 12 w.toNat, BitVec.ofNat 4 (w.toNat / 0x1000)⟩

/-- The 16-bit word of an identity. -/
def toWord (a : Adi) : UInt16 := UInt16.ofNat (a.did.toNat + 0x1000 * a.sid.toNat)

end Adi

end AirTrace

import AirTrace.Crc

/-!
# Links

Packets belong to links.  A link is known by its access address and by the initial value of its
check register; advertising is one link with values that the radio specification fixes.
-/

namespace AirTrace

/-- The access address of all advertising packets. -/
def advertisingAddress : UInt32 := 0x8E89BED6

/-- The initial value of the check of all advertising packets. -/
def advertisingCrcInit : BitVec 24 := 0x555555#24

/-- What it takes to receive the packets of a link. -/
structure LinkContext where
  accessAddress : UInt32
  /-- The initial value of the check, reflected for the register. -/
  seed : Crc.Register
  deriving DecidableEq

namespace LinkContext

/-- A link from the values a connection request carries. -/
def ofRequest (accessAddress : UInt32) (crcInit : BitVec 24) : LinkContext :=
  ⟨accessAddress, Crc.seed crcInit⟩

/-- The link that advertising uses. -/
def advertising : LinkContext := ofRequest advertisingAddress advertisingCrcInit

end LinkContext

/-- Which link is being followed. -/
inductive LinkState where
  | advertising
  /-- A connection was requested and takes effect once it is confirmed. -/
  | pending (c : LinkContext)
  | connected (c : LinkContext)
  deriving DecidableEq

namespace LinkState

/-- The link that packets are received on. -/
def current : LinkState → LinkContext
  | connected c => c
  | advertising | pending _ => .advertising

/-- The connection that waits for confirmation. -/
def awaiting? : LinkState → Option LinkContext
  | pending c => some c
  | advertising | connected _ => none

/-- Whether no connection is being followed. -/
def isAdvertising : LinkState → Bool
  | connected _ => false
  | advertising | pending _ => true

/-- Confirms the connection that waits for it, if one does. -/
def confirm : LinkState → LinkState
  | pending c => connected c
  | advertising => advertising
  | connected c => connected c

/-- The seed for the check of a packet with some access address, if the address belongs to a known
link: advertising first, then the current link, then the one that waits for confirmation. -/
def seedFor? (l : LinkState) (accessAddress : UInt32) : Option Crc.Register :=
  if accessAddress = advertisingAddress then some LinkContext.advertising.seed
  else if accessAddress = l.current.accessAddress then some l.current.seed
  else match l.awaiting? with
    | some c => if c.accessAddress = accessAddress then some c.seed else none
    | none => none

end LinkState

end AirTrace

import AirTrace.Clock
import AirTrace.Link
import AirTrace.Mode
import AirTrace.Pdu
import AirTrace.Phy
import AirTrace.Window

/-!
# Tracking the traffic

A tracker holds what decoding a packet can depend on besides the packet itself: the clock, the link
being followed, the windows in which auxiliary packets are expected, and the mode that the sniffer
last reported.  This module says how each event changes it.
-/

namespace AirTrace

/-- What the decoder knows between two packets. -/
structure Tracker (τ : Type) where
  settings : Settings τ
  /-- The capture clock, once it is fixed to a time of day. -/
  clock : Option (Clock τ)
  link : LinkState
  /-- Where the response to a scan request is expected. -/
  scanWindow : Option (Window τ)
  /-- Where the next packet of a chain is expected. -/
  chainWindow : Option (Window τ)
  /-- The mode that the sniffer last reported. -/
  mode : Option Mode

namespace Tracker

variable {τ : Type}

/-- A tracker that has seen nothing. -/
def start (s : Settings τ) : Tracker τ where
  settings := s
  clock := none
  link := .advertising
  scanWindow := none
  chainWindow := none
  mode := none

/-! ## The clock -/

section Clock

variable [TimeScale τ]

/-- Fixes the clock to a time of day at a tick, unless it is fixed already. -/
def fixClock (t : Tracker τ) (tick : UInt32) (epoch : τ) : Tracker τ :=
  match t.clock with
  | some _ => t
  | none => { t with clock := some (.fixAt t.settings tick epoch) }

/-- The session time of a tick.  A clock that is not fixed yet is fixed to the present time. -/
def stamp (t : Tracker τ) (now : τ) (tick : UInt32) : τ × Tracker τ :=
  let c := t.clock.getD (.fixAt t.settings tick now)
  let (time, c') := c.stamp t.settings tick
  (time, { t with clock := some c' })

/-- The time of day at which the clock was fixed; zero before that. -/
def epoch (t : Tracker τ) : τ := (t.clock.map Clock.epoch).getD TimeScale.zero

end Clock

/-! ## The link -/

/-- Follows a connection at once. -/
def follow (t : Tracker τ) (c : LinkContext) : Tracker τ := { t with link := .connected c }

/-- Goes back to advertising; a connection that waits for confirmation is dropped as well. -/
def leave (t : Tracker τ) : Tracker τ := { t with link := .advertising }

/-- Confirms the connection that waits for it. -/
def confirm (t : Tracker τ) : Tracker τ := { t with link := t.link.confirm }

/-- Notes a connection request.  It waits for confirmation, except that a request on a secondary
channel takes effect at once if the sniffer is the extended advertiser. -/
def request (t : Tracker τ) (c : LinkContext) (tier : Tier) : Tracker τ :=
  if tier = .secondary ∧ t.mode = some .advertisingExt then t.follow c
  else { t with link := .pending c }

/-- Notes the mode that the sniffer reports; one in which it follows a connection confirms the
connection that waits for it. -/
def report (t : Tracker τ) (m : Mode) : Tracker τ :=
  let t := { t with mode := some m }
  if m.isConnected then t.confirm else t

/-- Notes the channel of a packet: on a primary channel no connection can be followed. -/
def notice (t : Tracker τ) (c : Channel) : Tracker τ :=
  if c.isPrimary && !t.link.isAdvertising then t.leave else t

/-! ## The windows -/

section Windows

variable [TimeScale τ]

/-- Closes the windows whose time has passed. -/
def expire (t : Tracker τ) (now : τ) : Tracker τ :=
  { t with
    scanWindow := t.scanWindow.filter fun w => !w.isStale now
    chainWindow := t.chainWindow.filter fun w => !w.isStale now }

/-- The part in its exchange that an ambiguous packet takes.  The window it answers is closed; a
scan response is looked for first. -/
def classify (t : Tracker τ) (time : τ) (channel : Channel) (adi : Option Adi) :
    ExtRole × Tracker τ :=
  if t.scanWindow.any (·.admits time channel adi) then
    (.auxScanRsp, { t with scanWindow := none })
  else if t.chainWindow.any (·.admits time channel adi) then
    (.auxChainInd, { t with chainWindow := none })
  else (.auxAdvInd, t)

/-- Opens the window for the packet that a pointer announces. -/
def expectChain (t : Tracker τ) (time : τ) (adi : Option Adi) (channel : Channel)
    (offsetMicros : Nat) : Tracker τ :=
  { t with chainWindow := some {
      adi := adi
      channel := channel
      deadline := time +
        (TimeScale.ofNat offsetMicros + t.settings.chainMargin) * TimeScale.micro } }

/-- Microseconds from the start of a scannable advertisement to the latest start of the response:
the advertisement, a request of fourteen octets, and the space after each. -/
def scanSpan (s : Settings τ) (phy : Phy) (bodyLength : Nat) : τ :=
  phy.airtime bodyLength + s.interFrameSpace + phy.airtime 14 + s.interFrameSpace +
    s.scanTolerance

/-- Opens the window for the response to a scan request. -/
def expectScan (t : Tracker τ) (time : τ) (adi : Option Adi) (channel : Channel) (phy : Phy)
    (bodyLength : Nat) : Tracker τ :=
  { t with scanWindow := some {
      adi := adi
      channel := channel
      deadline := time + scanSpan t.settings phy bodyLength * TimeScale.micro } }

/-- Opens the windows that an auxiliary packet implies: one for the packet its pointer announces,
and one for the scan response if it invites a request. -/
def expect (t : Tracker τ) (time : τ) (channel : Channel) (phy : Phy) (bodyLength : Nat)
    (adi : Option Adi) (scannable : Bool) (pointer : Option (Channel × Nat)) : Tracker τ :=
  let t := match pointer with
    | some (c, offsetMicros) => t.expectChain time adi c offsetMicros
    | none => t
  if scannable then t.expectScan time adi channel phy bodyLength else t

end Windows

end Tracker

end AirTrace

import AirTrace.Channel
import AirTrace.Pdu.Field
import AirTrace.Settings

/-!
# Windows for auxiliary packets

An advertisement can announce a packet that follows it: the next of a chain, or the response to a
scan request.  A window says where the packet is expected, of which advertising set, and until when.
-/

namespace AirTrace

/-- An expected auxiliary packet. -/
structure Window (τ : Type) where
  adi : Option Adi
  channel : Channel
  /-- The session time after which the packet is no longer expected. -/
  deadline : τ

namespace Window

variable {τ : Type} [TimeScale τ]

/-- Whether the window's time has passed. -/
def isStale (w : Window τ) (now : τ) : Bool := TimeScale.after now w.deadline

/-- Whether two identities can belong to one advertising set: a missing one does not rule it
out. -/
def compatible : Option Adi → Option Adi → Bool
  | some a, some b => a == b
  | none, _ | _, none => true

/-- Whether a packet is the one the window expects. -/
def admits (w : Window τ) (time : τ) (channel : Channel) (adi : Option Adi) : Bool :=
  w.channel == channel && !w.isStale time && compatible w.adi adi

end Window

end AirTrace

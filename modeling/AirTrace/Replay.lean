import AirTrace.Capture.Reader
import AirTrace.Capture.Writer
import AirTrace.Session

/-!
# Replaying capture files

A capture file is replayed through a session: the clock is fixed to the time of the first record
that can be read, every such record becomes a packet, and every one that cannot counts as a framing
error.
-/

namespace AirTrace

/-- The packets of a replay and the session after it. -/
structure Replay (τ : Type) where
  packets : List (Packet τ)
  session : Session τ

namespace Replay

variable {τ : Type} [TimeScale τ]

/-- Takes one result of reading a capture file: a packet, if there is one, and the session after
it. -/
def step (s : Session τ) :
    Except Capture.RecordError Capture.Record → Option (Packet τ) × Session τ
  | .error _ => (none, s.countFramingError)
  | .ok r =>
      let (p, s) := (s.fixClock r.frame.tick r.time).process r.time r.frame
      (some p, s)

/-- Takes the results of reading a capture file in order. -/
def run (s : Session τ) : List (Except Capture.RecordError Capture.Record) → Replay τ
  | [] => ⟨[], s⟩
  | r :: rest =>
      let (p, s) := step s r
      let tail := run s rest
      ⟨p.toList ++ tail.packets, tail.session⟩

/-- Replays a capture file. -/
def ofFile (s : Settings τ) (file : Octets) : Except Capture.HeaderError (Replay τ) :=
  (Capture.ofFile file).map (run (.start s))

/-- The records of the packets of a replay. -/
def toRecords (r : Replay τ) : Octets := r.packets.flatMap Packet.toCapture

/-- The capture file of the packets of a replay. -/
def toCapture (r : Replay τ) : Octets := Capture.ofPackets r.packets

theorem toCapture_eq (r : Replay τ) : r.toCapture = Capture.header ++ r.toRecords := rfl

/-- The listing of a replay: each packet's listing and an empty line. -/
def text (r : Replay Float) : String :=
  String.join (r.packets.map fun p => p.text ++ "\n\n")

end Replay

end AirTrace

import AirTrace.Message
import AirTrace.Packet

/-!
# Sessions

A session takes frames and messages one at a time, makes packets of the frames, and counts.  Frames
of several receivers are put in the order of their capture times first.

The present time, which fixes a clock that nothing else has fixed, is an argument of every step.
-/

namespace AirTrace

/-- What a session counts. -/
structure Stats where
  packets : Nat
  framingErrors : Nat
  decodeErrors : Nat
  /-- Packets whose received check could be compared. -/
  crcChecked : Nat
  /-- Packets whose received check was right. -/
  crcValid : Nat
  messages : Nat
  deriving DecidableEq, Repr

namespace Stats

/-- Nothing counted yet. -/
def zero : Stats := ⟨0, 0, 0, 0, 0, 0⟩

/-- Counts a packet. -/
def count {τ : Type} (s : Stats) (p : Packet τ) : Stats :=
  { s with
    packets := s.packets + 1
    decodeErrors := s.decodeErrors + p.failed.toNat
    crcChecked := s.crcChecked + p.crcValid.isSome.toNat
    crcValid := s.crcValid + (p.crcValid == some true).toNat }

/-- How many of the checked packets were right, in percent. -/
def percentValid (s : Stats) : Float :=
  if s.crcChecked = 0 then 0
  else Float.ofNat s.crcValid / Float.ofNat s.crcChecked * 100

/-- The text of the counters. -/
def text (s : Stats) : String :=
  s!"packets: {s.packets} decode errors: {s.decodeErrors} framing errors: {s.framingErrors} " ++
    "CRC: " ++ Decimal.fixed 1 s.percentValid ++ s!"% ({s.crcValid}/{s.crcChecked})"

end Stats

/-- A frame with its capture time in microseconds, on a clock that all receivers share. -/
structure Candidate where
  time : UInt64
  frame : Frame
  deriving DecidableEq

/-- The frames of several receivers in the order of their capture times; frames of equal times stay
in the order of the receivers. -/
def Candidate.merge (batches : List (List Candidate)) : List Frame :=
  (batches.flatten.mergeSort fun a b => a.time ≤ b.time).map Candidate.frame

/-- What a message turned into. -/
inductive Event (τ : Type) where
  | packet (p : Packet τ)
  | debug (text : String)
  | marker (m : Marker)
  | mode (m : Mode)
  | measurement (m : Measurement)

/-- A capture session. -/
structure Session (τ : Type) where
  tracker : Tracker τ
  stats : Stats

namespace Session

variable {τ : Type}

/-- A session that has seen nothing. -/
def start (s : Settings τ) : Session τ := ⟨.start s, .zero⟩

/-- Forgets the link, the windows, the mode and the clock; what was counted stays. -/
def reset (s : Session τ) : Session τ := { s with tracker := .start s.tracker.settings }

/-- Counts a frame that could not be read. -/
def countFramingError (s : Session τ) : Session τ :=
  { s with stats := { s.stats with framingErrors := s.stats.framingErrors + 1 } }

/-- Counts a message. -/
def countMessage (s : Session τ) : Session τ :=
  { s with stats := { s.stats with messages := s.stats.messages + 1 } }

variable [TimeScale τ]

/-- Fixes the clock to a time of day at a tick, unless it is fixed already. -/
def fixClock (s : Session τ) (tick : UInt32) (epoch : τ) : Session τ :=
  { s with tracker := s.tracker.fixClock tick epoch }

/-- Makes a packet of a frame. -/
def process (s : Session τ) (now : τ) (f : Frame) : Packet τ × Session τ :=
  let (p, t) := s.tracker.receive now f
  (p, { tracker := t, stats := s.stats.count p })

/-- Makes packets of frames, one after the other. -/
def processAll (s : Session τ) (now : τ) : List Frame → List (Packet τ) × Session τ
  | [] => ([], s)
  | f :: rest =>
      let (p, s) := s.process now f
      let (ps, s) := processAll s now rest
      (p :: ps, s)

/-- Makes packets of the frames of several receivers, in the order of their capture times. -/
def processCandidates (s : Session τ) (now : τ) (batches : List (List Candidate)) :
    List (Packet τ) × Session τ :=
  s.processAll now (Candidate.merge batches)

/-- Takes a marker: it moves the clock on, or fixes it to the present time. -/
def mark (s : Session τ) (now : τ) (m : Marker) : Session τ :=
  { s with tracker := (s.tracker.stamp now m.tick).2 }

/-- Takes a message that could be read. -/
def take (s : Session τ) (now : τ) : Message → Event τ × Session τ
  | .packet f =>
      let (p, s) := s.process now f
      (.packet p, s)
  | .debug text => (.debug text, s)
  | .marker m => (.marker m, s.mark now m)
  | .mode m => (.mode m, { s with tracker := s.tracker.report m })
  | .measurement m => (.measurement m, s)

/-- Takes a message in its envelope.  One that cannot be read is counted and dropped. -/
def handle (s : Session τ) (now : τ) (envelope : Octets) :
    Except MessageError (Event τ) × Session τ :=
  let s := s.countMessage
  match Message.ofEnvelope envelope with
  | .error e => (.error e, s.countFramingError)
  | .ok m =>
      let (e, s) := s.take now m
      (.ok e, s)

end Session

end AirTrace

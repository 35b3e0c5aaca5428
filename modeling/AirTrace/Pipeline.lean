import AirTrace.Capture.Cursor
import AirTrace.Program

/-!
# Replaying while reading

A capture file is read and replayed at the same time.  A reader takes one record after the other
from the file and puts its result into a queue that holds a limited number of them; a decoder takes
the results out, oldest first.  Neither waits for the other, except that the reader waits while the
queue is full and the decoder while it is empty.

`Step` says what each of them can do next.  A run of the two is any list of such steps.
-/

namespace AirTrace.Pipeline

/-- Why there is no record. -/
inductive Fault where
  | record (e : Capture.RecordError)
  /-- The operating system could not read the file. -/
  | system (e : SystemError)
  deriving DecidableEq, Repr

/-- What the reader hands over: a record, or why there is none. -/
abbrev Item := Except Fault Capture.Record

/-- Nothing is read after this item. -/
def Item.isFatal : Item → Bool
  | .ok _ => false
  | .error (.record (.malformed _)) => false
  | .error (.record .cutOff) => true
  | .error (.system _) => true

/-! ## The reader -/

/-- What is left of a file. -/
structure Source where
  octets : Octets
  /-- The error that reading past these octets gives.  If there is none, the file ends with them. -/
  fault : Option SystemError

/-- Reads the next record.  Where the octets end, the file ends or the operating system fails. -/
def Source.next? (s : Source) : Option (Item × Source) :=
  match Capture.next? s.octets with
  | none => s.fault.map fun e => (.error (.system e), { s with octets := [] })
  | some (.error .cutOff, rest) =>
      some (.error (s.fault.elim (.record .cutOff) .system), { s with octets := rest })
  | some (x, rest) => some (x.mapError .record, { s with octets := rest })

/-! ## The decoder -/

/-- What the decoder has made of the items it has taken. -/
structure Decoder (τ : Type) where
  session : Session τ
  /-- The packets it has listed. -/
  listed : List (Packet τ)
  /-- The octets it has written, if there is a file to write. -/
  written : Option Octets

/-- Where the decoder is. -/
inductive Progress where
  /-- It takes items. -/
  | decoding
  /-- It takes no more items and waits for the reader to stop. -/
  | joining
  | done
  | failed (text : String)
  deriving DecidableEq, Repr

/-- The queue has no receiver any more. -/
def Progress.isOver : Progress → Bool
  | decoding | joining => false
  | done | failed _ => true

variable {τ : Type} [TimeScale τ]

/-- The decoder before it has taken an item.  A file that is to be written has its header. -/
def Decoder.start (s : Settings τ) (writes : Bool) : Decoder τ where
  session := .start s
  listed := []
  written := if writes then some Capture.header else none

/-- Takes an item.  A record is listed and written; the first one fixes the clock.  A record that
could not be read is counted. -/
def Decoder.take (d : Decoder τ) : Item → Decoder τ
  | .ok r =>
      let (p, s) := (d.session.fixClock r.frame.tick r.time).process r.time r.frame
      { session := s
        listed := d.listed ++ [p]
        written := d.written.map (· ++ p.toCapture) }
  | .error (.record _) => { d with session := d.session.countFramingError }
  | .error (.system _) => d

/-- Where the decoder is after an item: a malformed record is passed over, a file that breaks off
ends the replay, and an error of the operating system lets it fail. -/
def Progress.after : Item → Progress
  | .ok _ => decoding
  | .error (.record (.malformed _)) => decoding
  | .error (.record .cutOff) => joining
  | .error (.system e) => failed ("read error: " ++ e.message)

/-! ## Both together -/

/-- How many items the queue holds. -/
def capacity : Nat := 64

/-- A reader and a decoder with the queue between them. -/
structure State (τ : Type) where
  /-- What the reader has left to read; none once it has stopped. -/
  reader : Option Source
  /-- The items that have been handed over and not been taken, oldest first. -/
  queue : List Item
  decoder : Decoder τ
  progress : Progress

/-- The state in which the records of a file are about to be read. -/
def State.start (s : Settings τ) (writes : Bool) (source : Source) : State τ where
  reader := some source
  queue := []
  decoder := .start s writes
  progress := .decoding

/-- One step of the reader or the decoder. -/
inductive Step : State τ → State τ → Prop where
  /-- The reader hands over an item. -/
  | send {s s' : Source} {x : Item} {q : List Item} {d : Decoder τ} {g : Progress}
      (hnext : s.next? = some (x, s')) (hroom : q.length < capacity) (hopen : g.isOver = false) :
      Step ⟨some s, q, d, g⟩ ⟨if x.isFatal then none else some s', q ++ [x], d, g⟩
  /-- The reader has read the whole file. -/
  | stop {s : Source} {q : List Item} {d : Decoder τ} {g : Progress} (hnext : s.next? = none) :
      Step ⟨some s, q, d, g⟩ ⟨none, q, d, g⟩
  /-- The reader finds that nobody receives. -/
  | abandon {s : Source} {q : List Item} {d : Decoder τ} {g : Progress} (hover : g.isOver = true) :
      Step ⟨some s, q, d, g⟩ ⟨none, q, d, g⟩
  /-- The decoder takes the oldest item. -/
  | receive {r : Option Source} {x : Item} {q : List Item} {d : Decoder τ} :
      Step ⟨r, x :: q, d, .decoding⟩ ⟨r, q, d.take x, .after x⟩
  /-- The decoder finds that nothing more will come. -/
  | leave {d : Decoder τ} : Step ⟨none, [], d, .decoding⟩ ⟨none, [], d, .joining⟩
  /-- The reader has stopped, and the decoder is done. -/
  | join {q : List Item} {d : Decoder τ} : Step ⟨none, q, d, .joining⟩ ⟨none, q, d, .done⟩

/-- A state that so many steps lead to. -/
inductive State.Reaches (start : State τ) : Nat → State τ → Prop where
  | zero : Reaches start 0 start
  | succ {n : Nat} {a b : State τ} (h : Reaches start n a) (hstep : Step a b) :
      Reaches start (n + 1) b

end AirTrace.Pipeline

import AirTrace.Capture.Reader

/-!
# Reading capture files as a stream

A file that is read piece by piece can end within any piece.  This module reads a capture file that
way: `next?` is one call for the next record, and each of its reads fails where the file, or the
content of the record, has too few octets left.  `records` gives the results of all calls at once.
-/

namespace AirTrace.Capture

/-- Cuts octets off the front.  Where there are too few of them, that is the end of the file inside
a record. -/
def cut (n : Nat) (o : Octets) : Except RecordError (Octets × Octets) :=
  match Octets.split? n o with
  | none => .error .cutOff
  | some parts => .ok parts

/-- The physical layer that some flags name, and the octets after the one that tells the coded ones
apart. -/
def cutPhy (flags : UInt16) (o : Octets) : Except RecordError (Phy × Octets) :=
  match flags.toNat / 0x4000 with
  | 0 => .ok (.le1M, o)
  | 1 => .ok (.le2M, o)
  | 2 => do
      let (coding, o) ← cut 1 o
      return (if coding.octet 0 = 1 then .codedS2 else .codedS8, o)
  | n => .error (.malformed (.reservedPhy (n * 0x4000)))

/-- Reads the content of a record with a time, field by field. -/
def readContent (micros : Nat) (content : Octets) : Except RecordError Record := do
  if content.length < 17 then throw (.malformed (.tooShort content.length))
  let (rf, o) ← cut 1 content
  let (rssi, o) ← cut 1 o
  let (_, o) ← cut 6 o
  let (flags, o) ← cut 2 o
  let flags := UInt16.ofNat flags.toNat
  if 40 ≤ rf.octet 0 then throw (.malformed (.badRfChannel (rf.octet 0)))
  let (address, o) ← cut 4 o
  let (phy, o) ← cutPhy flags o
  if o.length < 3 then throw (.malformed .missingCrc)
  let (body, o) ← cut (o.length - 3) o
  let (crc, _) ← cut 3 o
  let checked := flags.toNat.testBit 10
  let valid := flags.toNat.testBit 11
  return {
    micros := micros
    flags := flags
    frame := {
      tick := UInt32.ofNat micros
      direction :=
        if flags.toNat / 0x0080 % 8 = PacketClass.dataToCentral.number then .peripheralToCentral
        else .centralToPeripheral
      crcError := checked && !valid
      event := 0
      rssi := (rssi.octet 0).toInt8
      channel := .ofRf (rf.octet 0)
      phy := phy
      body := body
      crc := if checked then some (UInt32.ofNat (BitVec.ofNat 24 crc.toNat).toNat) else none
      accessAddress := some (UInt32.ofNat address.toNat) } }

/-- The rest of a record after the seconds of its time: the microseconds, the content, and what
comes after the record.  The second length is not used. -/
def cutRecord (o : Octets) : Except RecordError (UInt32 × Octets × Octets) := do
  let (micros, o) ← cut 4 o
  let (length, o) ← cut 4 o
  let (_, o) ← cut 4 o
  let (content, o) ← cut (length.word32 0).toNat o
  return (micros.word32 0, content, o)

/-- Reads the next record of what is left of a file: nothing if the file has ended, else a result
and what is left after it.  A content is taken off the file before it is looked at. -/
def next? (o : Octets) : Option (Except RecordError Record × Octets) :=
  match cut 4 o with
  | .error _ => none
  | .ok (seconds, o) => match cutRecord o with
      | .error e => some (.error e, [])
      | .ok (micros, content, rest) =>
          some (readContent ((seconds.word32 0).toNat * 1000000 + micros.toNat) content, rest)

end AirTrace.Capture

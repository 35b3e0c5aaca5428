import AirTrace.Capture.Format
import AirTrace.Frame
import AirTrace.Text.Hexadecimal
import AirTrace.Time

/-!
# Reading capture files

The length in a record's header alone says where the next record starts.  So a record whose content
is not well formed is one error in the list of results and nothing more; only a file that ends
inside a record, at least four octets into it, ends the list with an error.
-/

namespace AirTrace.Capture

/-- A record that was read. -/
structure Record where
  /-- The time of the record, in microseconds since 1970. -/
  micros : Nat
  flags : UInt16
  /-- The packet, with its access address and, if the record has one, its check.  Its tick is the
  time of the record. -/
  frame : Frame
  deriving DecidableEq

/-- The time of a record, in seconds since 1970. -/
def Record.time {τ : Type} [TimeScale τ] (r : Record) : τ :=
  TimeScale.ofNat r.micros / TimeScale.ofInt 1000000

/-- Why a file is no capture file. -/
inductive HeaderError where
  /-- The file ends before its header does. -/
  | cutOff
  | badMagic (number : UInt32)
  | badLinkType (number : UInt32)
  deriving DecidableEq, Repr

/-- The wording of a header error, where it has one of its own. -/
def HeaderError.message? : HeaderError → Option String
  | cutOff => none
  | badMagic n => some ("unsupported pcap magic 0x" ++ Text.hexLower 8 n.toNat)
  | badLinkType n => some s!"unsupported link type {n.toNat}"

/-- Why the content of a record is not well formed. -/
inductive ContentError where
  | tooShort (length : Nat)
  | badRfChannel (number : UInt8)
  | reservedPhy (bits : Nat)
  | missingCrc
  deriving DecidableEq, Repr

/-- The wording of a content error. -/
def ContentError.message : ContentError → String
  | tooShort n => s!"record too short: {n} bytes"
  | badRfChannel n => s!"rf channel {n.toNat} out of range"
  | reservedPhy bits => "reserved PHY bits 0x" ++ Text.hexLower 4 bits
  | missingCrc => "record missing CRC"

/-- Why a record could not be read. -/
inductive RecordError where
  /-- The file ends before the record does. -/
  | cutOff
  | malformed (e : ContentError)
  deriving DecidableEq, Repr

/-- Reads the header of a file and gives the octets after it. -/
def ofHeader (file : Octets) : Except HeaderError Octets :=
  match Octets.split? 4 file with
  | none => .error .cutOff
  | some (number, rest) =>
      if number.word32 0 ≠ magic then .error (.badMagic (number.word32 0))
      else match Octets.split? 20 rest with
        | none => .error .cutOff
        | some (fields, rest) =>
            if fields.word32 16 ≠ linkType then .error (.badLinkType (fields.word32 16))
            else .ok rest

/-- The physical layer in the flags and the coding octet of a record. -/
def readPhy (flags : UInt16) (coding : UInt8) : Except ContentError Phy :=
  match flags.toNat / 0x4000 with
  | 0 => .ok .le1M
  | 1 => .ok .le2M
  | 2 => .ok (if coding = 1 then .codedS2 else .codedS8)
  | n => .error (.reservedPhy (n * 0x4000))

/-- Reads the content of a record with a time. -/
def ofContent (micros : Nat) (content : Octets) : Except ContentError Record := do
  if content.length < 17 then throw (.tooShort content.length)
  let rf := content.octet 0
  let flags := content.word16 8
  if 40 ≤ rf then throw (.badRfChannel rf)
  let phy ← readPhy flags (content.octet 14)
  let packet := content.drop (if phy.isCoded then 15 else 14)
  if packet.length < 3 then throw .missingCrc
  let bodyLength := packet.length - 3
  let checked := flags.toNat.testBit 10
  let valid := flags.toNat.testBit 11
  return {
    micros := micros
    flags := flags
    frame := {
      tick := UInt32.ofNat micros
      direction :=
        if flags.toNat / 0x0080 % 8 = PacketClass.dataToCentral.number then .peripheralToCentral
        else .centralToPeripheral
      crcError := checked && !valid
      event := 0
      rssi := (content.octet 1).toInt8
      channel := .ofRf rf
      phy := phy
      body := packet.take bodyLength
      crc := if checked then
          some (UInt32.ofNat (Octets.word24 (packet.drop bodyLength) 0).toNat)
        else none
      accessAddress := some (content.word32 10) } }

/-- The results of reading the records after a file's header, in order. -/
def records (o : Octets) : List (Except RecordError Record) :=
  match _h : Octets.split? 16 o with
  | none => if o.length < 4 then [] else [.error .cutOff]
  | some (fields, rest) =>
      match h' : Octets.split? (fields.word32 8).toNat rest with
      | none => [.error .cutOff]
      | some (content, rest') =>
          let micros := (fields.word32 0).toNat * 1000000 + (fields.word32 4).toNat
          (ofContent micros content).mapError .malformed :: records rest'
termination_by o.length
decreasing_by
  have h1 := Octets.split?_eq_some _h
  have h2 := Octets.split?_eq_some h'
  have h3 := congrArg List.length h1.1
  have h4 := congrArg List.length h2.1
  simp only [List.length_append] at h3 h4
  omega

/-- The results of reading a file. -/
def ofFile (file : Octets) : Except HeaderError (List (Except RecordError Record)) :=
  (ofHeader file).map records

end AirTrace.Capture

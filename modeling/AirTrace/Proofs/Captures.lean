import AirTrace.Capture.Reader
import AirTrace.Capture.Writer
import AirTrace.Octets.Number
import AirTrace.Session
import AirTrace.Time.Exact

/-!
# A capture file gives back what was written

A record is read by the length in its header, and its content by fixed offsets and by the flags.
`Packet.captureRecord` is the record that is read back of a packet, and `Capture.ofFile_ofPackets`
says that the file of some packets holds exactly their records.  `Capture.packets_read_back` says
what that means for each part of a packet.

There are four groups.

* The flags.  They are a sum of numbers at different places, and `toNat_captureFlags` lets each part
  be read off it.
* The content.  `captureContent_eq` groups it at the offset of each field, and
  `ofContent_captureContent` reads it.
* The file.  One record is read whatever comes after it, so the list follows by induction.
* What a record says of its packet.  `Capture.Record.Describes` lists it, in terms of the packet
  alone.
-/

namespace AirTrace

namespace Capture

/-! ## Numbers in the flags -/

/-- The class with a number. -/
def PacketClass.ofNumber? : Nat → Option PacketClass
  | 0 => some advertising
  | 1 => some auxiliary
  | 2 => some dataToPeripheral
  | 3 => some dataToCentral
  | _ => none

/-- The part of an auxiliary packet with a number. -/
def AuxiliaryType.ofNumber? : Nat → Option AuxiliaryType
  | 0 => some advertisement
  | 1 => some chain
  | 3 => some scanResponse
  | _ => none

@[simp] theorem PacketClass.ofNumber?_number (c : PacketClass) : ofNumber? c.number = some c := by
  cases c <;> rfl

@[simp] theorem AuxiliaryType.ofNumber?_number (t : AuxiliaryType) :
    ofNumber? t.number = some t := by
  cases t <;> rfl

theorem PacketClass.number_le (c : PacketClass) : c.number ≤ 3 := by cases c <;> decide

theorem AuxiliaryType.number_le (t : AuxiliaryType) : t.number ≤ 3 := by cases t <;> decide

/-- The class of a record's packet, as its flags tell it. -/
def Record.packetClass? (r : Record) : Option PacketClass :=
  PacketClass.ofNumber? (r.flags.toNat / 0x0080 % 8)

/-- The part of a record's packet, as its flags tell it.  It counts for auxiliary packets only. -/
def Record.auxiliaryType? (r : Record) : Option AuxiliaryType :=
  AuxiliaryType.ofNumber? (r.flags.toNat / 0x1000 % 4)

end Capture

theorem Phy.captureNumber_le (phy : Phy) : phy.captureNumber ≤ 2 := by cases phy <;> decide

open Capture (Record PacketClass AuxiliaryType)

namespace Packet

variable {τ : Type}

/-- The number of an auxiliary packet's part in the flags; zero for other packets. -/
def auxiliaryNumber (p : Packet τ) : Nat :=
  if p.captureClass = .auxiliary then p.auxiliaryType.number else 0

theorem auxiliaryNumber_le (p : Packet τ) : p.auxiliaryNumber ≤ 3 := by
  unfold auxiliaryNumber
  split
  · exact p.auxiliaryType.number_le
  · omega

/-- The flags fit their word, so nothing of the sum is lost. -/
theorem toNat_captureFlags (p : Packet τ) :
    p.captureFlags.toNat = 0x0013 + 0x0080 * p.captureClass.number +
      0x0400 * p.wireCrc.isSome.toNat + 0x0800 * (p.wireCrc.isSome && p.crcOk).toNat +
      0x1000 * p.auxiliaryNumber + 0x4000 * p.frame.phy.captureNumber := by
  have hclass := p.captureClass.number_le
  have hchecked := p.wireCrc.isSome.toNat_le
  have hvalid := (p.wireCrc.isSome && p.crcOk).toNat_le
  have hauxiliary := p.auxiliaryNumber_le
  have hphy := p.frame.phy.captureNumber_le
  unfold captureFlags
  rw [UInt16.toNat_ofNat']
  exact Nat.mod_eq_of_lt (by unfold auxiliaryNumber at hauxiliary; omega)

private theorem testBit_eq {n i : Nat} {b : Bool} (h : n / 2 ^ i % 2 = b.toNat) :
    n.testBit i = b := by
  rw [Nat.testBit_eq_decide_div_mod_eq, h]
  cases b <;> rfl

/-- Each part of the flags is read back from its own place. -/
theorem captureFlags_parts (p : Packet τ) :
    p.captureFlags.toNat / 0x0080 % 8 = p.captureClass.number ∧
      p.captureFlags.toNat.testBit 10 = p.wireCrc.isSome ∧
      p.captureFlags.toNat.testBit 11 = (p.wireCrc.isSome && p.crcOk) ∧
      p.captureFlags.toNat / 0x1000 % 4 = p.auxiliaryNumber ∧
      p.captureFlags.toNat / 0x4000 = p.frame.phy.captureNumber := by
  have hclass := p.captureClass.number_le
  have hchecked := p.wireCrc.isSome.toNat_le
  have hvalid := (p.wireCrc.isSome && p.crcOk).toNat_le
  have hauxiliary := p.auxiliaryNumber_le
  have hphy := p.frame.phy.captureNumber_le
  rw [toNat_captureFlags]
  exact ⟨by omega, testBit_eq (by omega), testBit_eq (by omega), by omega, by omega⟩

/-! ## The content of a record -/

/-- The check as it was sent has 24 bits, be it a received one or one that a seed gives. -/
theorem toNat_wireCrc_lt {p : Packet τ} (h : ∀ c, p.frame.crc = some c → c.toNat < 2 ^ 24) :
    ∀ c, p.wireCrc = some c → c.toNat < 2 ^ 24 := by
  intro c hc
  unfold wireCrc at hc
  split at hc
  next c' hc' =>
    obtain rfl := Option.some.inj hc
    exact h c' hc'
  next =>
    obtain ⟨seed, _, rfl⟩ := Option.map_eq_some_iff.mp hc
    have hlt := (Crc.checksum seed p.frame.body).isLt
    rw [UInt32.toNat_ofNat']
    omega

/-- The octets of a content before the flags. -/
def captureReception (p : Packet τ) : Octets :=
  [p.frame.channel.rf, p.frame.rssi.toUInt8, 0x80, 0] ++ Octets.ofWord32 p.stamped.accessAddress

@[simp] theorem length_captureReception (p : Packet τ) : p.captureReception.length = 8 := rfl

/-- A content field by field. -/
theorem captureContent_eq (p : Packet τ) :
    p.captureContent = p.captureReception ++ (Octets.ofWord16 p.captureFlags ++
      (Octets.ofWord32 p.stamped.accessAddress ++ (p.frame.phy.codingOctets ++
        (p.frame.body ++ Octets.ofNat 3 (p.wireCrc.getD 0).toNat)))) := by
  simp only [captureContent, captureReception, List.append_assoc]

theorem length_codingOctets (phy : Phy) :
    phy.codingOctets.length = if phy.isCoded then 1 else 0 := by
  cases phy <;> rfl

theorem length_captureContent (p : Packet τ) :
    p.captureContent.length =
      14 + (if p.frame.phy.isCoded then 1 else 0) + p.frame.body.length + 3 := by
  rw [captureContent_eq]
  simp [length_codingOctets, Octets.ofWord16, Octets.ofWord32]
  omega

/-- The fields at fixed offsets, and the coding octet where there is one. -/
theorem captureContent_fields (p : Packet τ) :
    p.captureContent.octet 0 = p.frame.channel.rf ∧
      (p.captureContent.octet 1).toInt8 = p.frame.rssi ∧
      p.captureContent.word16 8 = p.captureFlags ∧
      p.captureContent.word32 10 = p.stamped.accessAddress := by
  rw [captureContent_eq]
  refine ⟨rfl, Int8.toInt8_toUInt8 _, ?_, ?_⟩
  · unfold Octets.ofWord16
    rw [Octets.word16_append _ _ p.length_captureReception, UInt16.ofNat_toNat]
  · have hoffset : (p.captureReception ++ Octets.ofWord16 p.captureFlags).length = 10 := rfl
    unfold Octets.ofWord32
    rw [← List.append_assoc, Octets.word32_append _ _ hoffset, UInt32.ofNat_toNat]

/-- The physical layer is told by the flags and, if it is a coded one, by the coding octet. -/
theorem readPhy_captureContent (p : Packet τ) :
    Capture.readPhy p.captureFlags (p.captureContent.octet 14) = .ok p.frame.phy := by
  have hnumber := p.captureFlags_parts.2.2.2.2
  have hcoding : p.captureContent.octet 14 = (p.frame.phy.codingOctets ++
      (p.frame.body ++ Octets.ofNat 3 (p.wireCrc.getD 0).toNat)).octet 0 := by
    rw [captureContent_eq, ← List.append_assoc, ← List.append_assoc]
    exact Octets.octet_append_right _ rfl
  unfold Capture.readPhy
  rw [hnumber, hcoding]
  cases p.frame.phy <;> rfl

/-- What follows the coding octet is the body and its check. -/
theorem drop_captureContent (p : Packet τ) :
    p.captureContent.drop (if p.frame.phy.isCoded then 15 else 14) =
      p.frame.body ++ Octets.ofNat 3 (p.wireCrc.getD 0).toNat := by
  rw [captureContent_eq, ← List.append_assoc, ← List.append_assoc, ← List.append_assoc]
  apply List.drop_left'
  cases p.frame.phy <;> rfl

/-! ## The record of a packet -/

/-- The record that is read back of a packet with a time in microseconds. -/
def captureRecord (p : Packet τ) (micros : Nat) : Record where
  micros := micros
  flags := p.captureFlags
  frame := {
    tick := UInt32.ofNat micros
    direction :=
      if p.captureClass = .dataToCentral then .peripheralToCentral else .centralToPeripheral
    crcError := p.wireCrc.isSome && !p.crcOk
    event := 0
    rssi := p.frame.rssi
    channel := p.frame.channel
    phy := p.frame.phy
    body := p.frame.body
    crc := p.wireCrc
    accessAddress := some p.stamped.accessAddress }

/-- What a record can hold: a channel that exists, a check of 24 bits and a content whose length
fits its field. -/
structure FitsCapture (p : Packet τ) : Prop where
  channel : p.frame.channel < Channel.count
  crc : ∀ c, p.frame.crc = some c → c.toNat < 2 ^ 24
  length : p.captureContent.length < 2 ^ 32

instance (p : Packet τ) : Decidable p.FitsCapture :=
  decidable_of_iff (p.frame.channel < Channel.count ∧
      (p.frame.crc.all fun c => c.toNat < 2 ^ 24) = true ∧ p.captureContent.length < 2 ^ 32) (by
    rw [Option.all_eq_true]
    simp only [decide_eq_true_eq]
    exact ⟨fun h => ⟨h.1, h.2.1, h.2.2⟩, fun h => ⟨h.channel, h.crc, h.length⟩⟩)

/-- The check is read from the end of the content, if the flags say that there is one. -/
theorem wireCrc_eq {p : Packet τ} (h : ∀ c, p.frame.crc = some c → c.toNat < 2 ^ 24) :
    (if p.wireCrc.isSome then
        some (UInt32.ofNat (Octets.word24 (Octets.ofNat 3 (p.wireCrc.getD 0).toNat) 0).toNat)
      else none) = p.wireCrc := by
  have hread : ∀ v, Octets.word24 (Octets.ofNat 3 v) 0 = BitVec.ofNat 24 v := by
    intro v
    simpa using Octets.word24_append v [] (List.length_nil (α := UInt8))
  have hlt := toNat_wireCrc_lt h
  rw [hread]
  cases hcrc : p.wireCrc with
  | none => rfl
  | some c =>
    rw [Option.isSome_some, if_pos rfl, Option.getD_some, BitVec.toNat_ofNat,
      Nat.mod_eq_of_lt (hlt c hcrc), UInt32.ofNat_toNat]

theorem ofContent_captureContent {p : Packet τ} (h : p.FitsCapture) (micros : Nat) :
    Capture.ofContent micros p.captureContent = .ok (p.captureRecord micros) := by
  obtain ⟨hrf, hrssi, hflags, haddress⟩ := p.captureContent_fields
  obtain ⟨hclass, hchecked, hvalid, _, _⟩ := p.captureFlags_parts
  have hlong : ¬ p.captureContent.length < 17 := by
    rw [length_captureContent]
    omega
  have hchannel : ¬ 40 ≤ p.frame.channel.rf := UInt8.not_le.mpr (Channel.rf_lt _ h.channel)
  have hcheck : ¬ (p.frame.body ++ Octets.ofNat 3 (p.wireCrc.getD 0).toNat).length < 3 := by
    rw [List.length_append, Octets.length_ofNat]
    omega
  have hend : (p.frame.body ++ Octets.ofNat 3 (p.wireCrc.getD 0).toNat).length - 3 =
      p.frame.body.length := by
    rw [List.length_append, Octets.length_ofNat, Nat.add_sub_cancel]
  have hdirection : p.captureClass.number = PacketClass.dataToCentral.number ↔
      p.captureClass = .dataToCentral := by
    cases p.captureClass <;> decide
  have herror : (p.wireCrc.isSome && !(p.wireCrc.isSome && p.crcOk)) =
      (p.wireCrc.isSome && !p.crcOk) := by
    cases p.wireCrc.isSome <;> rfl
  unfold Capture.ofContent
  simp only [bind, Except.bind, pure, Except.pure, hrf, hrssi, hflags, haddress, hclass, hchecked,
    hvalid, if_neg hlong, if_neg hchannel, readPhy_captureContent, drop_captureContent,
    if_neg hcheck, hend, List.take_left, List.drop_left, wireCrc_eq h.crc,
    Channel.ofRf_rf _ h.channel, herror, hdirection]
  rfl

/-! ## The file -/

variable [TimeScale τ]

/-- The time in a packet's record, in microseconds: its seconds are held in 32 bits. -/
def writtenMicros (p : Packet τ) : Nat :=
  p.captureMicros / 1000000 % 2 ^ 32 * 1000000 + p.captureMicros % 1000000

/-- The header of a packet's record: its time, and the length of its content twice. -/
def captureFields (p : Packet τ) : Octets :=
  Octets.ofNat 4 (p.captureMicros / 1000000) ++ Octets.ofNat 4 (p.captureMicros % 1000000) ++
    Octets.ofNat 4 p.captureContent.length ++ Octets.ofNat 4 p.captureContent.length

theorem toCapture_eq_append (p : Packet τ) :
    p.toCapture = p.captureFields ++ p.captureContent := rfl

theorem length_captureFields (p : Packet τ) : p.captureFields.length = 16 := rfl

theorem captureFields_words (p : Packet τ) :
    p.captureFields.word32 0 = UInt32.ofNat (p.captureMicros / 1000000) ∧
      p.captureFields.word32 4 = UInt32.ofNat (p.captureMicros % 1000000) ∧
      p.captureFields.word32 8 = UInt32.ofNat p.captureContent.length := by
  unfold captureFields
  refine ⟨?_, ?_, ?_⟩
  · rw [List.append_assoc, List.append_assoc]
    exact Octets.word32_append _ _ (List.length_nil (α := UInt8))
  · rw [List.append_assoc, List.append_assoc]
    exact Octets.word32_append _ _ (Octets.length_ofNat 4 _)
  · rw [List.append_assoc]
    exact Octets.word32_append _ _ rfl

/-- A record is read as it was written, whatever comes after it. -/
theorem records_toCapture_append {p : Packet τ} (h : p.FitsCapture) (rest : Octets) :
    Capture.records (p.toCapture ++ rest) =
      .ok (p.captureRecord p.writtenMicros) :: Capture.records rest := by
  obtain ⟨hseconds, hmicros, hlength⟩ := p.captureFields_words
  have hfields := Octets.split?_append (p.captureContent ++ rest) p.length_captureFields
  have hcontent : Octets.split? (p.captureFields.word32 8).toNat (p.captureContent ++ rest) =
      some (p.captureContent, rest) := by
    apply Octets.split?_append
    rw [hlength, UInt32.toNat_ofNat', Nat.mod_eq_of_lt h.length]
  have htime : (p.captureFields.word32 0).toNat * 1000000 + (p.captureFields.word32 4).toNat =
      p.writtenMicros := by
    unfold writtenMicros
    rw [hseconds, hmicros, UInt32.toNat_ofNat', UInt32.toNat_ofNat']
    omega
  rw [toCapture_eq_append, List.append_assoc, Capture.records]
  split
  · next hnone =>
    rw [hfields] at hnone
    exact absurd hnone (by simp)
  · next fields content hsome =>
    rw [hfields] at hsome
    obtain ⟨rfl, rfl⟩ := Prod.mk.inj (Option.some.inj hsome)
    split
    · next hnone =>
      rw [hcontent] at hnone
      exact absurd hnone (by simp)
    · next content rest' hsome' =>
      rw [hcontent] at hsome'
      obtain ⟨rfl, rfl⟩ := Prod.mk.inj (Option.some.inj hsome')
      simp only [htime, ofContent_captureContent h]
      rfl

end Packet

namespace Capture

variable {τ : Type} [TimeScale τ]

theorem ofHeader_header_append (rest : Octets) : ofHeader (header ++ rest) = .ok rest := by
  rfl

/-- The file of some packets holds their records and nothing else. -/
theorem ofFile_ofPackets {ps : List (Packet τ)} (h : ∀ p ∈ ps, p.FitsCapture) :
    ofFile (ofPackets ps) = .ok (ps.map fun p => .ok (p.captureRecord p.writtenMicros)) := by
  have hrecords : records (ps.flatMap Packet.toCapture) =
      ps.map fun p => .ok (p.captureRecord p.writtenMicros) := by
    induction ps with
    | nil =>
      rw [List.flatMap_nil, records]
      rfl
    | cons p ps ih =>
      rw [List.flatMap_cons, Packet.records_toCapture_append (h p List.mem_cons_self),
        ih fun q hq => h q (List.mem_cons_of_mem p hq), List.map_cons]
  unfold ofFile ofPackets
  rw [ofHeader_header_append, ← hrecords]
  rfl

/-- The file of one packet. -/
theorem ofFile_singleton {p : Packet τ} (h : p.FitsCapture) :
    ofFile (ofPackets [p]) = .ok [.ok (p.captureRecord p.writtenMicros)] := by
  apply ofFile_ofPackets
  intro q hq
  rwa [List.mem_singleton.mp hq]

end Capture

/-! ## What a record says of its packet -/

namespace Packet

variable {τ : Type}

/-- The packet belongs to a class: advertising packets to that of their channel, all others to that
of their direction. -/
def IsOfClass (p : Packet τ) : PacketClass → Prop
  | .advertising => p.stamped.accessAddress = advertisingAddress ∧ p.frame.channel.isPrimary = true
  | .auxiliary => p.stamped.accessAddress = advertisingAddress ∧ p.frame.channel.isPrimary = false
  | .dataToPeripheral =>
      p.stamped.accessAddress ≠ advertisingAddress ∧ p.frame.direction = .centralToPeripheral
  | .dataToCentral =>
      p.stamped.accessAddress ≠ advertisingAddress ∧ p.frame.direction = .peripheralToCentral

/-- The packet takes a part among auxiliary packets; whatever is neither the next of a chain nor a
scan response counts as an advertisement. -/
def TakesPart (p : Packet τ) : AuxiliaryType → Prop
  | .advertisement => ∀ e, p.pdu ≠ .ok (.extended .auxChainInd e) ∧
      p.pdu ≠ .ok (.extended .auxScanRsp e)
  | .chain => ∃ e, p.pdu = .ok (.extended .auxChainInd e)
  | .scanResponse => ∃ e, p.pdu = .ok (.extended .auxScanRsp e)

theorem captureClass_eq_iff (p : Packet τ) (c : PacketClass) :
    p.captureClass = c ↔ p.IsOfClass c := by
  unfold captureClass Family.ofAddress Channel.tier
  by_cases haddress : p.stamped.accessAddress = advertisingAddress
  · cases hprimary : p.frame.channel.isPrimary <;>
      cases c <;> simp [IsOfClass, haddress, hprimary]
  · cases hdirection : p.frame.direction <;>
      cases c <;> simp [IsOfClass, haddress, hdirection]

theorem auxiliaryType_eq_iff (p : Packet τ) (t : AuxiliaryType) :
    p.auxiliaryType = t ↔ p.TakesPart t := by
  unfold auxiliaryType
  split
  · next e h => cases t <;> simp [TakesPart, h]
  · next e h => cases t <;> simp [TakesPart, h]
  · next hchain hresponse =>
    cases t with
    | advertisement => exact iff_of_true rfl fun e => ⟨hchain e, hresponse e⟩
    | chain => exact iff_of_false (by simp) fun ⟨e, he⟩ => hchain e he
    | scanResponse => exact iff_of_false (by simp) fun ⟨e, he⟩ => hresponse e he

end Packet

namespace Capture

variable {τ : Type} [TimeScale τ]

/-- The record describes the packet: it has the packet's data, the check as it was sent and the
verdict on it, the time of the packet as far as its fields hold it, and flags that tell the class of
the packet and the part of an auxiliary one. -/
structure Record.Describes (r : Record) (p : Packet τ) : Prop where
  accessAddress : r.frame.accessAddress = some p.stamped.accessAddress
  channel : r.frame.channel = p.frame.channel
  phy : r.frame.phy = p.frame.phy
  rssi : r.frame.rssi = p.frame.rssi
  body : r.frame.body = p.frame.body
  crc : r.frame.crc = p.wireCrc
  crcError : r.frame.crcError = true ↔ p.wireCrc ≠ none ∧ p.crcOk = false
  /-- The direction of advertising packets is not written. -/
  direction : p.stamped.accessAddress ≠ advertisingAddress → r.frame.direction = p.frame.direction
  micros : r.micros = p.writtenMicros
  tick : r.frame.tick.toNat = p.writtenMicros % 2 ^ 32
  packetClass : ∀ c, r.packetClass? = some c ↔ p.IsOfClass c
  auxiliaryType : p.IsOfClass .auxiliary → ∀ t, r.auxiliaryType? = some t ↔ p.TakesPart t

theorem describes_captureRecord (p : Packet τ) {micros : Nat} (h : micros = p.writtenMicros) :
    (p.captureRecord micros).Describes p := by
  constructor
  case accessAddress | channel | phy | rssi | body | crc => rfl
  case micros => exact h
  case tick =>
    rw [← h]
    exact UInt32.toNat_ofNat'
  case crcError =>
    show (p.wireCrc.isSome && !p.crcOk) = true ↔ _
    rw [Bool.and_eq_true, Bool.not_eq_true', Option.isSome_iff_ne_none]
  case direction =>
    intro haddress
    have hclass := p.captureClass_eq_iff .dataToCentral
    show (if p.captureClass = .dataToCentral then Direction.peripheralToCentral
      else .centralToPeripheral) = _
    cases hdirection : p.frame.direction <;> simp [hclass, Packet.IsOfClass, haddress, hdirection]
  case packetClass =>
    intro c
    show PacketClass.ofNumber? (p.captureFlags.toNat / 0x0080 % 8) = some c ↔ _
    rw [p.captureFlags_parts.1, PacketClass.ofNumber?_number, Option.some.injEq,
      p.captureClass_eq_iff]
  case auxiliaryType =>
    intro hauxiliary t
    show AuxiliaryType.ofNumber? (p.captureFlags.toNat / 0x1000 % 4) = some t ↔ _
    rw [p.captureFlags_parts.2.2.2.1, Packet.auxiliaryNumber,
      if_pos ((p.captureClass_eq_iff _).mpr hauxiliary), AuxiliaryType.ofNumber?_number,
      Option.some.injEq, p.auxiliaryType_eq_iff]

/-- Reading the file of some packets gives one record for each of them, in order, and then the end
of the file; every record describes its packet. -/
theorem packets_read_back (ps : List (Packet τ)) (h : ∀ p ∈ ps, p.FitsCapture) :
    ∃ rs : List Record, ofFile (ofPackets ps) = .ok (rs.map .ok) ∧
      List.Forall₂ (fun p r => r.Describes p) ps rs := by
  refine ⟨ps.map fun p => p.captureRecord p.writtenMicros, ?_, ?_⟩
  · rw [ofFile_ofPackets h, List.map_map]
    rfl
  · rw [List.forall₂_map_right_iff, List.forall₂_same]
    intro p _
    exact describes_captureRecord p rfl

/-- A scannable advertisement with its response at two symbols a bit, and a packet of an unknown
connection with its check. -/
def exchange : List Frame :=
  [⟨0, .centralToPeripheral, false, 0, -48, 22, .codedS2, [7, 1, 0x80], none,
      some advertisingAddress⟩,
    ⟨1000, .centralToPeripheral, false, 0, -50, 22, .codedS2, [7, 1, 0], none,
      some advertisingAddress⟩,
    ⟨5000, .peripheralToCentral, false, 7, -60, 17, .le2M, [14, 3, 18, 52, 86], some 0xA1B2,
      some 0x50654321⟩]

/-- The file of that exchange is read back, the response as a response. -/
theorem packets_read_back_exchange :
    let ps := ((Session.start (Settings.standard : Settings ℚ)).processAll 0 exchange).1
    (∀ p ∈ ps, p.FitsCapture) ∧
      ∃ a b c : Record, ofFile (ofPackets ps) = .ok [.ok a, .ok b, .ok c] ∧
        a.frame.phy = .codedS2 ∧ b.auxiliaryType? = some .scanResponse ∧
        c.frame.crc = some 0xA1B2 ∧ c.frame.direction = .peripheralToCentral := by
  intro ps
  have hfits : ∀ p ∈ ps, p.FitsCapture := by decide +kernel
  obtain ⟨rs, hfile, hrecords⟩ := packets_read_back ps hfits
  change List.Forall₂ _ [_, _, _] rs at hrecords
  rcases hrecords with _ | ⟨ha, _ | ⟨hb, _ | ⟨hc, _ | _⟩⟩⟩
  refine ⟨hfits, _, _, _, hfile, ha.phy, ?_, hc.crc, hc.direction (by decide)⟩
  exact (hb.auxiliaryType ⟨rfl, rfl⟩ _).mpr ⟨⟨.ofOctets 7 1, .empty .plain, []⟩, by decide +kernel⟩

end Capture

end AirTrace

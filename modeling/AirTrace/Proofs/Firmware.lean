import AirTrace.Message
import AirTrace.Proofs.Fields

/-!
# The firmware's layout loses nothing

The header of a frame packs two flags and a length of 14 bits into one word, and the channel and the
physical layer into one octet.

There are four groups.

* The packed fields.  `lengthWord_parts` and `placeOctet_parts` read each part from its own place.
* From frames to octets and back.  `toFirmware_fields` finds the fields of a written frame, and
  `ofFirmware_toFirmware` says how any frame is read: its channel is cut down to six bits, and a
  body whose length has more than 14 bits is refused, as the length that is written for it is not
  the one that is found.
* From octets to frames and back.  `ofFirmware_eq_ok` says which octets are a frame and which frame
  they are; `toFirmware_ofFields` writes it again.
* The layout as a code.  `firmware_layout` puts the two directions together.
-/

namespace AirTrace

/-! ## The packed fields -/

/-- The direction that a flag stands for. -/
def Direction.ofFlag (b : Bool) : Direction :=
  if b then peripheralToCentral else centralToPeripheral

theorem Direction.exists_ofFlag (d : Direction) : ∃ b, d = ofFlag b := by
  cases d with
  | centralToPeripheral => exact ⟨false, rfl⟩
  | peripheralToCentral => exact ⟨true, rfl⟩

/-- Of six bits, those that are no channel are the numbers from forty on. -/
theorem Channel.count_le_iff (place : Nat) :
    count ≤ UInt8.ofNat (place % 64) ↔ ¬ place % 64 < 40 := by
  rw [UInt8.le_iff_toNat_le, UInt8.toNat_ofNat', Nat.not_lt]
  show 40 ≤ _ ↔ _
  omega

namespace Frame

theorem lengthWord_eq {f : Frame} {b : Bool} (h : f.direction = .ofFlag b) :
    f.lengthWord = f.body.length % 0x4000 + 0x4000 * f.crcError.toNat + 0x8000 * b.toNat := by
  rw [lengthWord, h]
  cases b <;> rfl

/-- The length and the two flags stand at places of their own in their word. -/
theorem lengthWord_parts (f : Frame) :
    f.lengthWord < 2 ^ 16 ∧ f.lengthWord % 0x4000 = f.body.length % 0x4000 ∧
      f.lengthWord.testBit 14 = f.crcError ∧
      .ofFlag (f.lengthWord.testBit 15) = f.direction := by
  obtain ⟨b, hdirection⟩ := f.direction.exists_ofFlag
  have hword := lengthWord_eq hdirection
  have herror := f.crcError.toNat_le
  have hflag := b.toNat_le
  refine ⟨by omega, by omega, testBit_eq_of_div (by omega), ?_⟩
  rw [hdirection, testBit_eq_of_div (b := b) (by omega)]

/-- So do the channel, of which six bits are kept, and the physical layer. -/
theorem placeOctet_parts (f : Frame) :
    f.placeOctet.toNat % 64 = f.channel.toNat % 64 ∧
      Phy.ofBits (BitVec.ofNat 2 (f.placeOctet.toNat / 64)) = f.phy := by
  have hphy := f.phy.bits.isLt
  have hplace : f.placeOctet.toNat = f.channel.toNat % 64 + 64 * f.phy.bits.toNat := by
    rw [placeOctet, UInt8.toNat_ofNat']
    omega
  refine ⟨by omega, ?_⟩
  rw [bitVec_ofNat_eq (b := f.phy.bits) (by omega), Phy.ofBits_bits]

/-! ## From frames to octets and back -/

theorem length_toFirmware (f : Frame) : f.toFirmware.length = headerLength + f.body.length := by
  unfold toFirmware
  rw [List.length_append]
  rfl

/-- The fields of a written frame. -/
theorem toFirmware_fields (f : Frame) :
    f.toFirmware.word32 0 = f.tick ∧ f.toFirmware.word16 4 = UInt16.ofNat f.lengthWord ∧
      f.toFirmware.word16 6 = f.event ∧ f.toFirmware.octet 8 = f.rssi.toUInt8 ∧
      f.toFirmware.octet 9 = f.placeOctet ∧ f.toFirmware.drop headerLength = f.body := by
  unfold toFirmware
  refine ⟨?_, ?_, ?_, rfl, rfl, rfl⟩
  · simp only [List.append_assoc]
    exact (Octets.word32_append _ _ (List.length_nil (α := UInt8))).trans (UInt32.ofNat_toNat)
  · simp only [List.append_assoc]
    exact Octets.word16_append _ _ (Octets.length_ofNat 4 _)
  · rw [List.append_assoc, List.append_assoc]
    exact (Octets.word16_append _ _ rfl).trans (UInt16.ofNat_toNat)

/-- How a written frame is read. -/
theorem ofFirmware_toFirmware (f : Frame) :
    ofFirmware f.toFirmware =
      if f.body.length < 0x4000 then
        if f.channel.toNat % 64 < 40 then
          .ok { f with
            channel := UInt8.ofNat (f.channel.toNat % 64)
            crc := none
            accessAddress := none }
        else .error (.badChannel (UInt8.ofNat (f.channel.toNat % 64)))
      else .error (.lengthMismatch (f.body.length % 0x4000) f.body.length) := by
  obtain ⟨htick, hword, hevent, hrssi, hplace, hbody⟩ := f.toFirmware_fields
  obtain ⟨hlt, hlength, herror, hdirection⟩ := f.lengthWord_parts
  obtain ⟨hchannel, hphy⟩ := f.placeOctet_parts
  have hvalue : (UInt16.ofNat f.lengthWord).toNat = f.lengthWord := by
    rw [UInt16.toNat_ofNat', Nat.mod_eq_of_lt hlt]
  unfold Direction.ofFlag at hdirection
  unfold ofFirmware
  rw [if_neg (by rw [length_toFirmware]; omega)]
  simp only [htick, hword, hevent, hrssi, hplace, hbody, hvalue, hlength, herror, hdirection,
    hchannel, hphy, Channel.count_le_iff]
  by_cases hfits : f.body.length < 0x4000
  · rw [if_neg (by omega), if_pos hfits]
    by_cases hreal : f.channel.toNat % 64 < 40
    · rw [if_neg (by omega), if_pos hreal]
      rfl
    · rw [if_pos hreal, if_neg hreal]
  · rw [if_pos (by omega), if_neg hfits]

/-- A frame whose channel and length have room in the header is read as it was written, less the
check and the access address. -/
theorem ofFirmware_toFirmware_of_fits {f : Frame} (hchannel : f.channel < Channel.count)
    (hlength : f.body.length ≤ 16383) :
    ofFirmware f.toFirmware = .ok { f with crc := none, accessAddress := none } := by
  have hlt : f.channel.toNat < 40 := hchannel
  have hmod : f.channel.toNat % 64 = f.channel.toNat := Nat.mod_eq_of_lt (by omega)
  rw [ofFirmware_toFirmware, if_pos (by omega), hmod, if_pos hlt, UInt8.ofNat_toNat]

/-! ## From octets to frames and back -/

/-- The octets hold a whole header, the length in it is that of the rest, and the channel in it is
one of the forty. -/
def IsFirmware (o : Octets) : Prop :=
  headerLength ≤ o.length ∧ (o.word16 4).toNat % 2 ^ 14 = o.length - headerLength ∧
    (o.octet 9).toNat % 2 ^ 6 < 40

/-- The frame whose fields stand in some octets. -/
def ofFields (o : Octets) : Frame where
  tick := o.word32 0
  direction := .ofFlag ((o.word16 4).toNat.testBit 15)
  crcError := (o.word16 4).toNat.testBit 14
  event := o.word16 6
  rssi := (o.octet 8).toInt8
  channel := UInt8.ofNat ((o.octet 9).toNat % 64)
  phy := .ofBits (BitVec.ofNat 2 ((o.octet 9).toNat / 64))
  body := o.drop headerLength
  crc := none
  accessAddress := none

/-- Octets are read by their fields, if they are a frame at all. -/
theorem ofFirmware_eq_ok {o : Octets} {f : Frame} :
    ofFirmware o = .ok f ↔ IsFirmware o ∧ f = ofFields o := by
  unfold ofFirmware IsFirmware
  simp only [Channel.count_le_iff, List.length_drop]
  by_cases hheader : o.length < headerLength
  · rw [if_pos hheader]
    exact iff_of_false (by simp) fun h => absurd h.1.1 (by omega)
  rw [if_neg hheader]
  by_cases hlength : (o.word16 4).toNat % 0x4000 = o.length - headerLength
  · rw [if_neg (not_not_intro hlength)]
    by_cases hchannel : (o.octet 9).toNat % 64 < 40
    · rw [if_neg (not_not_intro hchannel)]
      constructor
      · intro h
        exact ⟨⟨by omega, hlength, hchannel⟩, (Except.ok.inj h).symm⟩
      · intro h
        rw [h.2]
        rfl
    · rw [if_pos hchannel]
      exact iff_of_false (by simp) fun h => hchannel h.1.2.2
  · rw [if_pos hlength]
    exact iff_of_false (by simp) fun h => hlength h.1.2.1

/-- The fields of a frame are written as they were read. -/
theorem toFirmware_ofFields {o : Octets} (h : IsFirmware o) : (ofFields o).toFirmware = o := by
  obtain ⟨hheader, hlength, _⟩ := h
  have hten : 10 ≤ o.length := hheader
  have hword : (ofFields o).lengthWord = (o.word16 4).toNat := by
    have hlt := (o.word16 4).toNat_lt
    rw [lengthWord_eq rfl]
    show (o.drop headerLength).length % 0x4000 + 0x4000 * ((o.word16 4).toNat.testBit 14).toNat +
      0x8000 * ((o.word16 4).toNat.testBit 15).toNat = _
    rw [List.length_drop, Nat.toNat_testBit, Nat.toNat_testBit]
    omega
  have hplace : (ofFields o).placeOctet = o.octet 9 := by
    have hlt := (o.octet 9).toNat_lt
    unfold placeOctet ofFields
    rw [Phy.bits_ofBits, BitVec.toNat_ofNat, ← UInt8.toNat_inj, UInt8.toNat_ofNat',
      UInt8.toNat_ofNat']
    omega
  unfold toFirmware
  rw [hword, hplace]
  show Octets.ofWord32 (o.word32 0) ++ Octets.ofWord16 (o.word16 4) ++
    Octets.ofWord16 (o.word16 6) ++ [(o.octet 8).toInt8.toUInt8, o.octet 9] ++
    o.drop headerLength = o
  rw [UInt8.toUInt8_toInt8, ← Octets.slice_two (by omega) rfl, Octets.ofWord32_word32 (by omega),
    Octets.ofWord16_word16 (by omega), Octets.ofWord16_word16 (by omega),
    Octets.slice_append_slice rfl, Octets.slice_append_slice rfl, Octets.slice_append_slice rfl,
    Octets.slice_append_drop (j := headerLength) rfl, List.drop_zero]

end Frame

/-- A frame is read from its message. -/
theorem Message.ofEnvelope_of_ofFirmware {o : Octets} {f : Frame} (h : Frame.ofFirmware o = .ok f)
    (words : UInt8) : ofEnvelope (words :: 0x10 :: o) = .ok (.packet f) := by
  show ofPayload 0x10 o = _
  unfold ofPayload
  simp only [h]
  rfl

/-! ## The layout as a code -/

namespace Frame

/-- The firmware's layout is a code between frames and octets.  Octets that are a frame are written
again as they were read; they are a frame if the header is whole, the length in it is right and the
channel in it is one of the forty.  A frame is read as it was written, also from its message, less
the check and the access address, if its channel is one of the forty and the length of its body has
14 bits; a longer body is never taken for another frame. -/
theorem firmware_layout :
    (∀ o f, ofFirmware o = .ok f → f.toFirmware = o) ∧
      (∀ o : Octets, (∃ f, ofFirmware o = .ok f) ↔
        10 ≤ o.length ∧ (o.word16 4).toNat % 2 ^ 14 = o.length - 10 ∧
          (o.octet 9).toNat % 2 ^ 6 < 40) ∧
      (∀ f : Frame, f.channel < Channel.count → f.body.length ≤ 16383 →
        ofFirmware f.toFirmware = .ok { f with crc := none, accessAddress := none } ∧
          ∀ words, Message.ofEnvelope (words :: 0x10 :: f.toFirmware) =
            .ok (.packet { f with crc := none, accessAddress := none })) ∧
      ∀ f : Frame, 16383 < f.body.length →
        ofFirmware f.toFirmware =
          .error (.lengthMismatch (f.body.length % 2 ^ 14) f.body.length) := by
  refine ⟨?_, ?_, ?_, ?_⟩
  · intro o f h
    obtain ⟨hfirmware, rfl⟩ := ofFirmware_eq_ok.mp h
    exact toFirmware_ofFields hfirmware
  · intro o
    constructor
    · rintro ⟨f, h⟩
      exact (ofFirmware_eq_ok.mp h).1
    · intro h
      exact ⟨ofFields o, ofFirmware_eq_ok.mpr ⟨h, rfl⟩⟩
  · intro f hchannel hlength
    have hread := ofFirmware_toFirmware_of_fits hchannel hlength
    exact ⟨hread, Message.ofEnvelope_of_ofFirmware hread⟩
  · intro f hlength
    rw [ofFirmware_toFirmware, if_neg (by omega)]
    rfl

/-- A frame with both flags set, at two megabits on channel 12, and the same frame with one octet
more than a length of 14 bits can tell. -/
theorem firmware_layout_flags :
    let o : Octets := [0x40, 0x42, 0x0F, 0, 3, 0xC0, 7, 0, 0xC4, 0x4C, 0xAA, 0xBB, 0xCC]
    let f : Frame := ⟨1000000, .peripheralToCentral, true, 7, -60, 12, .le2M, [0xAA, 0xBB, 0xCC],
      some 1, some 2⟩
    ofFirmware o = .ok { f with crc := none, accessAddress := none } ∧ f.toFirmware = o ∧
      Message.ofEnvelope (4 :: 0x10 :: o) =
        .ok (.packet { f with crc := none, accessAddress := none }) ∧
      ofFirmware (toFirmware { f with body := List.replicate 16384 0 }) =
        .error (.lengthMismatch 0 16384) := by
  intro o f
  obtain ⟨hwrite, _, hread, hlong⟩ := firmware_layout
  have hf : f.toFirmware = o := by decide +kernel
  obtain ⟨hframe, hmessage⟩ := hread f (by decide) (by decide)
  rw [hf] at hframe hmessage
  have hlength : (List.replicate 16384 (0 : UInt8)).length = 16384 := List.length_replicate
  refine ⟨hframe, hf, hmessage 4, ?_⟩
  have hrefused := hlong { f with body := List.replicate 16384 0 } (by rw [hlength]; decide)
  rwa [hlength] at hrefused

end Frame

end AirTrace

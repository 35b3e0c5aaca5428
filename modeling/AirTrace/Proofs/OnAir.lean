import AirTrace.Frame.OnAir
import AirTrace.Octets.Number
import AirTrace.Packet
import AirTrace.Proofs.Convolution
import AirTrace.Proofs.Pattern
import AirTrace.Proofs.Whitening

/-!
# A packet comes back from the air

Sending a packet appends its check, whitens both and codes them; receiving takes these layers off
again.  Each layer gives back what was sent at the front of what it gives back, whatever was
received after the packet, so the layers compose: `demodulate_modulate_append` for the codes, then
`Frame.ofAir_toAir_append` for the frame.  A receiver that knows the seed of the link finds the
check of such a frame right: `Frame.received_as_sent`.
-/

namespace AirTrace

/-! ## The codes of the physical layers -/

/-- On every physical layer the whitened octets come back first. -/
theorem Phy.demodulate_modulate_append (phy : Phy) (o noise : Octets) :
    ∃ rest, phy.demodulate (phy.modulate o ++ noise) = o ++ rest := by
  cases phy with
  | le1M | le2M => exact ⟨noise, rfl⟩
  | codedS2 => exact ⟨_, Coding.decode_encode_append o noise⟩
  | codedS8 =>
    show ∃ rest, Coding.decode (Coding.Pattern.unmap
      (Coding.Pattern.map (Coding.encode o) ++ noise)) = o ++ rest
    rw [Coding.Pattern.unmap_map_append]
    exact ⟨_, Coding.decode_encode_append o _⟩

/-! ## The check -/

namespace Crc

@[simp] theorem length_toWire (r : Register) : (toWire r).length = 3 := Octets.length_ofNat 3 _

/-- The check is read from the front of what follows a body. -/
theorem ofWire_toWire_append (r : Register) (rest : Octets) : ofWire (toWire r ++ rest) = r := by
  have hread := Octets.word24_append r.toNat rest (List.length_nil (α := UInt8))
  exact hread.trans (by rw [BitVec.ofNat_toNat, BitVec.setWidth_eq])

/-- A check fits the word in which a frame carries it. -/
theorem toNat_word (r : Register) : (UInt32.ofNat r.toNat).toNat = r.toNat := by
  have hlt := r.isLt
  rw [UInt32.toNat_ofNat']
  omega

end Crc

/-! ## Frames -/

namespace Frame

/-- What a receiver recovers of a packet starts with the body and its check. -/
theorem clear_toAir_append (phy : Phy) (channel : Channel) (body noise : Octets)
    (crc : Crc.Register) :
    ∃ rest, Whitening.apply channel 0 (phy.demodulate (toAir phy channel body crc ++ noise)) =
      body ++ (Crc.toWire crc ++ rest) := by
  unfold toAir
  obtain ⟨rest, hrest⟩ := phy.demodulate_modulate_append
    (Whitening.apply channel 0 (body ++ Crc.toWire crc)) noise
  rw [hrest, Whitening.apply_apply_append, List.append_assoc]
  exact ⟨_, rfl⟩

/-- A frame that was sent with a check is received as it was sent, whatever is received after it. -/
theorem ofAir_toAir_append (tick : UInt32) {channel : Channel} (phy : Phy) (rssi : Int8)
    (accessAddress : UInt32) {body : Octets} (crc : Crc.Register) (noise : Octets)
    (hchannel : channel < Channel.count) (hbody : body.length = 2 + (body.octet 1).toNat) :
    ofAir tick channel phy rssi accessAddress (toAir phy channel body crc ++ noise) = .ok {
      tick := tick
      direction := .centralToPeripheral
      crcError := false
      event := 0
      rssi := rssi
      channel := channel
      phy := phy
      body := body
      crc := some (UInt32.ofNat crc.toNat)
      accessAddress := some accessAddress } := by
  obtain ⟨rest, hclear⟩ := clear_toAir_append phy channel body noise crc
  have hlength : (body ++ (Crc.toWire crc ++ rest)).length = body.length + 3 + rest.length := by
    rw [List.length_append, List.length_append, Crc.length_toWire, Nat.add_assoc]
  -- The length octet lies in the body, so the receiver finds the end of the body there.
  have hend : 2 + (Octets.octet (body ++ (Crc.toWire crc ++ rest)) 1).toNat = body.length := by
    unfold Octets.octet at hbody ⊢
    rw [List.getD_append _ _ _ _ (by omega)]
    exact hbody.symm
  unfold ofAir
  rw [if_neg (by rw [UInt8.not_le]; exact hchannel)]
  simp only [hclear, hend]
  rw [if_neg (by omega), if_neg (by omega), List.take_left, List.drop_left,
    Crc.ofWire_toWire_append]

end Frame

/-! ## Packets -/

namespace Tracker

variable {τ : Type} [TimeScale τ]

omit [TimeScale τ] in
/-- The check that a seed gives is right. -/
theorem checks_checksum (seed : Crc.Register) (body : Octets) :
    checks seed body (UInt32.ofNat (Crc.checksum seed body).toNat) = true := by
  unfold checks
  rw [Crc.toNat_word, beq_self_eq_true]

/-- A frame that carries the check of its body is found right where the link's seed is known. -/
theorem decode_crcValid (t : Tracker τ) (f : StampedFrame τ) {seed : Crc.Register}
    (hseed : t.link.seedFor? f.accessAddress = some seed)
    (hcrc : f.frame.crc = some (UInt32.ofNat (Crc.checksum seed f.frame.body).toNat)) :
    (t.decode f).1.crcValid = some true := by
  have hexpired : (t.expire f.time).link.seedFor? f.accessAddress = some seed := hseed
  simp only [decode, hcrc, hexpired, checks_checksum]

end Tracker

/-- A packet that is sent as the link's seed says is received as it was sent, on every physical
layer and whatever is received after it, and a tracker that knows the seed finds its check
right. -/
theorem Frame.received_as_sent {τ : Type} [TimeScale τ] (tick : UInt32) (channel : Channel)
    (phy : Phy) (rssi : Int8) (accessAddress : UInt32) (body noise : Octets) (t : Tracker τ)
    (seed : Crc.Register) (hchannel : channel < Channel.count)
    (hbody : body.length = 2 + (body.octet 1).toNat)
    (hseed : t.link.seedFor? accessAddress = some seed) :
    ∃ f, ofAir tick channel phy rssi accessAddress
        (toAir phy channel body (Crc.checksum seed body) ++ noise) = .ok f ∧
      f.tick = tick ∧ f.channel = channel ∧ f.phy = phy ∧ f.rssi = rssi ∧
      f.accessAddress = some accessAddress ∧ f.body = body ∧
      f.crc = some (UInt32.ofNat (Crc.checksum seed body).toNat) ∧
      ∀ time epochTime, (t.decode ⟨time, epochTime, accessAddress, f⟩).1.crcValid = some true := by
  refine ⟨_, ofAir_toAir_append tick phy rssi accessAddress _ noise hchannel hbody,
    rfl, rfl, rfl, rfl, rfl, rfl, rfl, ?_⟩
  intro time epochTime
  exact t.decode_crcValid _ hseed rfl

/-- An advertising packet at eight symbols a bit, with a stray octet after it. -/
theorem Frame.received_as_sent_codedS8 :
    ∃ f, ofAir 7 37 .codedS8 (-40) advertisingAddress
        (toAir .codedS8 37 [0x42, 2, 0xAA, 0xBB]
          (Crc.checksum LinkContext.advertising.seed [0x42, 2, 0xAA, 0xBB]) ++ [0x5F]) = .ok f ∧
      f.body = [0x42, 2, 0xAA, 0xBB] ∧
      ∀ time epochTime, ((Tracker.start .standard : Tracker Float).decode
        ⟨time, epochTime, advertisingAddress, f⟩).1.crcValid = some true := by
  obtain ⟨f, hf, _, _, _, _, _, hbody, _, hvalid⟩ :=
    Frame.received_as_sent 7 37 .codedS8 (-40) advertisingAddress [0x42, 2, 0xAA, 0xBB] [0x5F]
      (.start .standard : Tracker Float) LinkContext.advertising.seed (by decide) (by decide)
      (if_pos rfl)
  exact ⟨f, hf, hbody, hvalid⟩

end AirTrace

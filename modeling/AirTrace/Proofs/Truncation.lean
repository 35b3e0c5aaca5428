import AirTrace.Frame.OnAir
import AirTrace.Link
import AirTrace.Proofs.Convolution
import AirTrace.Proofs.Pattern
import AirTrace.Proofs.Whitening

/-!
# A packet that is cut short

A transmission may break off anywhere, also within the octets that one octet of the packet is sent
as.  What arrived of such a group says nothing: `Phy.demodulate_part` says that the codes give
back the octets whose groups arrived as a whole, and no other.  Whitening does not mind where a
packet ends, so the receiver has a front of the packet.  `Frame.ofAir_of_cutShort` is what it makes
of it: the length octet, if it arrived, tells the receiver how much is missing, so it never takes
the front for a packet.
-/

namespace AirTrace

/-! ## The codes of the physical layers -/

namespace Phy

/-- How many octets are sent for each octet of a packet. -/
def airOctets : Phy → Nat
  | le1M | le2M => 1
  | codedS2 => 2
  | codedS8 => 8

theorem airOctets_pos (phy : Phy) : 0 < phy.airOctets := by
  cases phy <;> decide

@[simp] theorem length_modulate (phy : Phy) (o : Octets) :
    (phy.modulate o).length = phy.airOctets * o.length := by
  cases phy with
  | le1M | le2M => exact (Nat.one_mul o.length).symm
  | codedS2 => exact Coding.length_encode o
  | codedS8 =>
    show (Coding.Pattern.map (Coding.encode o)).length = 8 * o.length
    rw [Coding.Pattern.length_map, Coding.length_encode]
    omega

/-- What is sent for a packet starts with what is sent for its front. -/
theorem modulate_front (phy : Phy) (front rest : Octets) :
    phy.modulate front <+: phy.modulate (front ++ rest) := by
  cases phy with
  | le1M | le2M => exact List.prefix_append front rest
  | codedS2 =>
    show Coding.encode front <+: Coding.encode (front ++ rest)
    rw [Coding.encode_append]
    exact List.prefix_append _ _
  | codedS8 =>
    show Coding.Pattern.map (Coding.encode front) <+:
      Coding.Pattern.map (Coding.encode (front ++ rest))
    rw [Coding.encode_append, Coding.Pattern.map_append]
    exact List.prefix_append _ _

/-- An incomplete group adds nothing. -/
theorem demodulate_modulate_append_of_length_lt (phy : Phy) (o : Octets) {noise : Octets}
    (h : noise.length < phy.airOctets) : phy.demodulate (phy.modulate o ++ noise) = o := by
  cases phy with
  | le1M | le2M =>
    have hnone : noise = [] := List.length_eq_zero_iff.mp (Nat.lt_one_iff.mp h)
    rw [hnone, List.append_nil]
    rfl
  | codedS2 => exact Coding.decode_encode_append_of_length_lt o h
  | codedS8 =>
    show Coding.decode (Coding.Pattern.unmap
      (Coding.Pattern.map (Coding.encode o) ++ noise)) = o
    have hshort : (Coding.Pattern.unmap noise).length < 2 := by
      have hgroup : noise.length < 8 := h
      rw [Coding.Pattern.length_unmap]
      omega
    rw [Coding.Pattern.unmap_map_append, Coding.decode_encode_append_of_length_lt o hshort]

/-- What arrived of a transmission that broke off is what is sent for the octets whose groups it
holds as a whole, and less than one group more. -/
theorem exists_of_part {phy : Phy} {o part : Octets} (h : part <+: phy.modulate o) :
    ∃ noise : Octets, noise.length < phy.airOctets ∧
      part = phy.modulate (o.take (part.length / phy.airOctets)) ++ noise := by
  let groups := part.length / phy.airOctets
  have hlength := h.length_le
  rw [length_modulate] at hlength
  have hgroups : groups ≤ o.length := Nat.div_le_of_le_mul hlength
  have hwhole : (phy.modulate (o.take groups)).length = phy.airOctets * groups := by
    rw [length_modulate, List.length_take, Nat.min_eq_left hgroups]
  have hfront : phy.modulate (o.take groups) <+: phy.modulate o := by
    have hparts := phy.modulate_front (o.take groups) (o.drop groups)
    rwa [List.take_append_drop] at hparts
  -- Both are fronts of what is sent, and the groups are the shorter one.
  obtain ⟨noise, hnoise⟩ := List.prefix_of_prefix_length_le hfront h
    (by rw [hwhole]; exact Nat.mul_div_le _ _)
  refine ⟨noise, ?_, hnoise.symm⟩
  have htotal := congrArg List.length hnoise
  rw [List.length_append, hwhole] at htotal
  have hdivision : phy.airOctets * groups + part.length % phy.airOctets = part.length :=
    Nat.div_add_mod part.length phy.airOctets
  have hremainder := Nat.mod_lt part.length phy.airOctets_pos
  omega

/-- Of a transmission that broke off, the octets come back whose groups arrived as a whole. -/
theorem demodulate_part {phy : Phy} {o part : Octets} (h : part <+: phy.modulate o) :
    phy.demodulate part = o.take (part.length / phy.airOctets) := by
  obtain ⟨noise, hnoise, hpart⟩ := exists_of_part h
  calc phy.demodulate part
      = phy.demodulate (phy.modulate (o.take (part.length / phy.airOctets)) ++ noise) := by
        rw [← hpart]
    _ = o.take (part.length / phy.airOctets) :=
        phy.demodulate_modulate_append_of_length_lt _ hnoise

end Phy

/-! ## Frames -/

namespace Frame

/-- Without the whitening, a front of the packet is left. -/
theorem clear_of_part {phy : Phy} {channel : UInt8} {packet part : Octets}
    (h : part <+: phy.modulate (Whitening.apply channel 0 packet)) :
    Whitening.apply channel 0 (phy.demodulate part) =
      packet.take (part.length / phy.airOctets) := by
  rw [Phy.demodulate_part h, Whitening.apply_take, Whitening.apply_apply]

/-- An octet stays where it is when others are put after it and the string is cut off behind it. -/
theorem octet_take_append {i n : Nat} {a : Octets} (b : Octets) (ha : i < a.length) (hn : i < n) :
    Octets.octet ((a ++ b).take n) i = a.octet i := by
  unfold Octets.octet
  rw [List.getD_eq_getElem?_getD, List.getElem?_take_of_lt hn, List.getElem?_append_left ha,
    List.getD_eq_getElem?_getD]

/-- A packet that is sent with a check of three octets is not received if its transmission breaks
off before its end, wherever that is.  The receiver has the octets whose groups arrived as a whole.
If its length octet is not among them, the header is too short; else the receiver knows that the
body and the check are not complete. -/
theorem ofAir_of_cutShort (tick : UInt32) {channel : Channel} (phy : Phy) (rssi : Int8)
    (accessAddress : UInt32) {body check air part : Octets} (hchannel : channel < Channel.count)
    (hbody : body.length = 2 + (body.octet 1).toNat) (hcheck : check.length = 3)
    (hair : air = phy.modulate (Whitening.apply channel 0 (body ++ check)))
    (hpart : part <+: air) (hshort : part.length < air.length) :
    air.length = phy.airOctets * (body.length + 3) ∧
      let recovered := Whitening.apply channel 0 (phy.demodulate part)
      recovered = (body ++ check).take (part.length / phy.airOctets) ∧
      ofAir tick channel phy rssi accessAddress part =
        .error (if recovered.length < 2 then .shortHeader recovered.length
          else .lengthMismatch body.length (recovered.length - 3)) := by
  subst hair
  have hclear := clear_of_part hpart
  have hsent : (phy.modulate (Whitening.apply channel 0 (body ++ check))).length =
      phy.airOctets * (body.length + 3) := by
    rw [Phy.length_modulate, Whitening.length_apply, List.length_append, hcheck]
  rw [hsent] at hshort
  have hmissing : part.length / phy.airOctets < body.length + 3 := Nat.div_lt_of_lt_mul hshort
  have hrecovered : ((body ++ check).take (part.length / phy.airOctets)).length =
      part.length / phy.airOctets := by
    rw [List.length_take, List.length_append, hcheck, Nat.min_eq_left hmissing.le]
  refine ⟨hsent, hclear, ?_⟩
  unfold ofAir
  rw [if_neg (by rw [UInt8.not_le]; exact hchannel)]
  simp only [hclear, hrecovered]
  by_cases hheader : part.length / phy.airOctets < 2
  · rw [if_pos hheader, if_pos hheader]
  · -- The length octet arrived, and it is the one that was sent.
    have hend : 2 + (Octets.octet ((body ++ check).take (part.length / phy.airOctets)) 1).toNat =
        body.length := by
      rw [octet_take_append check (by omega) (by omega)]
      exact hbody.symm
    rw [if_neg hheader, if_neg hheader, hend, if_pos hmissing]

/-- What is sent at eight symbols a bit for an advertisement of four octets and some check. -/
def advertisementAir : Octets :=
  Phy.codedS8.modulate (Whitening.apply 37 0 ([0x42, 2, 0xAA, 0xBB] ++ [1, 2, 3]))

/-- It takes 56 octets.  Of 45 the receiver makes five octets of the packet, of 15 only one. -/
theorem ofAir_of_cutShort_codedS8 :
    advertisementAir.length = 56 ∧
      ofAir 7 37 .codedS8 (-40) advertisingAddress (advertisementAir.take 45) =
        .error (.lengthMismatch 4 2) ∧
      ofAir 7 37 .codedS8 (-40) advertisingAddress (advertisementAir.take 15) =
        .error (.shortHeader 1) := by
  obtain ⟨_, _, hlate⟩ := @ofAir_of_cutShort 7 37 .codedS8 (-40) advertisingAddress
    [0x42, 2, 0xAA, 0xBB] [1, 2, 3] _ (advertisementAir.take 45) (by decide) (by decide) rfl rfl
    (List.take_prefix 45 advertisementAir) (by decide +kernel)
  obtain ⟨_, _, hearly⟩ := @ofAir_of_cutShort 7 37 .codedS8 (-40) advertisingAddress
    [0x42, 2, 0xAA, 0xBB] [1, 2, 3] _ (advertisementAir.take 15) (by decide) (by decide) rfl rfl
    (List.take_prefix 15 advertisementAir) (by decide +kernel)
  exact ⟨by decide +kernel, hlate.trans (by decide +kernel), hearly.trans (by decide +kernel)⟩

end Frame

end AirTrace

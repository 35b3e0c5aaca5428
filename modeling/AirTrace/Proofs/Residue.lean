import AirTrace.Proofs.Reflection

/-!
# The residue of a right check

Body and check together leave zero in the register if the check is right.  The converse holds as
well: two registers that take the same three octets and both end at zero were the same, so no other
check leaves zero (`Crc.checksum_append_toWire_eq_zero_iff`).

`Tracker.valid_iff_residue` says that the verdict on a received check comes to the same.  A frame
carries its check in a word of 32 bits, and only three octets of that are sent; a word that does not
fit them is never right, whatever the octets leave in the register.
-/

namespace AirTrace

namespace Crc

/-- A body and three octets of a check leave zero exactly if the check is that of the body. -/
theorem checksum_append_toWire_eq_zero_iff (seed c : Register) (body : Octets) :
    checksum seed (body ++ toWire c) = 0#24 ↔ c = checksum seed body := by
  constructor
  · intro hzero
    -- A register that takes its own octets ends at zero as well.
    have hown : checksum c (toWire c) = 0#24 := checksum_append_toWire c []
    rw [checksum_append, ← hown] at hzero
    exact (checksum_injective (toWire c) hzero).symm
  · rintro rfl
    exact checksum_append_toWire seed body

/-- A word that fits three octets is sent as the register that it holds. -/
theorem ofNat_eq_toWire {c : Nat} (h : c < 2 ^ 24) :
    Octets.ofNat 3 c = toWire (BitVec.ofNat 24 c) := by
  rw [toWire, Octets.ofWord24, BitVec.toNat_ofNat, Nat.mod_eq_of_lt h]

end Crc

namespace Tracker

/-- A check is right if it fits three octets and these leave zero after the body. -/
theorem checks_eq_residue (seed : Crc.Register) (body : Octets) (c : UInt32) :
    checks seed body c =
      decide (c.toNat < 2 ^ 24 ∧ Crc.checksum seed (body ++ Octets.ofNat 3 c.toNat) = 0#24) := by
  rw [checks, Bool.eq_iff_iff, beq_iff_eq, decide_eq_true_iff]
  by_cases h : c.toNat < 2 ^ 24
  · rw [and_iff_right h, Crc.ofNat_eq_toWire h, Crc.checksum_append_toWire_eq_zero_iff,
      ← BitVec.toNat_inj, BitVec.toNat_ofNat, Nat.mod_eq_of_lt h]
    exact eq_comm
  · have hlt := (Crc.checksum seed body).isLt
    exact iff_of_false (by omega) fun hfit => h hfit.1

/-- Of all checks only that of a body leaves zero after the body.  Hence the verdict on a received
check, where the seed is known, is whether the check fits its three octets and the body and these
octets leave zero. -/
theorem valid_iff_residue {τ : Type} [TimeScale τ] :
    (∀ (body : Octets) (seed c : Crc.Register),
      Crc.checksum seed (body ++ Crc.toWire c) = 0#24 ↔ c = Crc.checksum seed body) ∧
      ∀ (t : Tracker τ) (f : StampedFrame τ) (c : UInt32) (seed : Crc.Register),
        f.frame.crc = some c → t.link.seedFor? f.accessAddress = some seed →
          ((t.decode f).1.crcValid = some true ↔ c.toNat < 2 ^ 24 ∧
            Crc.checksum seed (f.frame.body ++ Octets.ofNat 3 c.toNat) = 0#24) := by
  refine ⟨fun body seed c => Crc.checksum_append_toWire_eq_zero_iff seed c body, ?_⟩
  intro t f c seed hcrc hseed
  have hverdict : (t.decode f).1.crcValid = some (checks seed f.frame.body c) :=
    decode_crcValid_eq_some.mpr ⟨c, seed, hcrc, hseed, rfl⟩
  rw [hverdict, Option.some.injEq, checks_eq_residue, decide_eq_true_iff]

/-- A beacon's advertisement as it arrives with some check. -/
def beacon (c : UInt32) : StampedFrame ℚ :=
  ⟨0, 0, advertisingAddress, ⟨0, .centralToPeripheral, false, 0, 0, 37, .le1M,
    [0x42, 0x24, 0xA1, 0xB2, 0xC3, 0xD4, 0xE5, 0xC6, 0x02, 0x01, 0x06, 0x1A, 0xFF, 0x4C, 0x00,
      0x02, 0x15, 0xE2, 0xC5, 0x6D, 0xB5, 0xDF, 0xFB, 0x48, 0xD2, 0xB0, 0x60, 0xD0, 0xF5, 0xA7,
      0x10, 0x96, 0xE0, 0x00, 0x01, 0x00, 0x02, 0xC5], some c, none⟩⟩

/-- The beacon's check is 0x1D4D23.  The same octets in a larger word are no right check, although
they leave zero. -/
theorem valid_iff_residue_beacon :
    let t : Tracker ℚ := .start .standard
    (beacon 0x1D4D23).frame.crc = some 0x1D4D23 ∧
      t.link.seedFor? (beacon 0x1D4D23).accessAddress = some LinkContext.advertising.seed ∧
      (t.decode (beacon 0x1D4D23)).1.crcValid = some true ∧
      (t.decode (beacon 0x011D4D23)).1.crcValid ≠ some true ∧
      (t.decode (beacon 0x1D4D22)).1.crcValid ≠ some true := by
  intro t
  have hseed : ∀ c, t.link.seedFor? (beacon c).accessAddress = some LinkContext.advertising.seed :=
    fun _ => rfl
  have hverdict := fun c => (@valid_iff_residue ℚ _).2 t (beacon c) c _ rfl (hseed c)
  refine ⟨rfl, hseed _, ?_, ?_, ?_⟩
  · exact (hverdict 0x1D4D23).mpr ⟨by decide, by decide +kernel⟩
  · exact fun h => absurd ((hverdict 0x011D4D23).mp h).1 (by decide)
  · exact fun h => absurd ((hverdict 0x1D4D22).mp h).2 (by decide +kernel)

end Tracker

end AirTrace

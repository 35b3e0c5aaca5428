import Mathlib
import AirTrace.Proofs.Whitening
import AirTrace.Whitening.ShiftRegister
import AirTrace.Whitening.Table

/-!
# The whitening tables and the shift register

The radio specification gives whitening by a shift register that each channel starts in another
state.  Forty offsets into one sequence of 127 bits stand for it: the register comes back after 127
shifts (`ShiftRegister.shifted_period`), and every channel's start is met on the way from the start
of the channel whose offset is zero (`start_eq_shifted`).  So the bit for a position is what the
register gives out after that many shifts, without a bound on the position (`bit_eq`).

The tables are read with machine words.  There are two groups of lemmas on them.

* One octet.  A mask takes the whitening bits in one by one (`Mask.testBit_build`), and adding it
  adds to each bit of the octet the bit for its position (`octetBits_xor_mask`).
* Octet strings.  The positions move on by eight with each octet, modulo 2 ^ 32 (`bits_apply`).

A word that has not wrapped is the position itself, and then the table says what the sequence says
(`Table.key_eq`).
-/

namespace AirTrace.Whitening

/-! ## The register -/

namespace ShiftRegister

variable (r : ShiftRegister)

theorem shifted_add (m n : Nat) : r.shifted (m + n) = (r.shifted m).shifted n := by
  induction n with
  | zero => rfl
  | succ n ih => rw [← Nat.add_assoc, shifted, ih, shifted]

theorem output_add (m n : Nat) : r.output (m + n) = (r.shifted m).output n := by
  rw [output, shifted_add, output]

/-- After 127 shifts the register holds what it held before. -/
theorem shifted_period : r.shifted 127 = r := by
  rcases r with ⟨p0, p1, p2, p3, p4, p5, p6⟩
  revert p0 p1 p2 p3 p4 p5 p6
  decide +kernel

theorem output_periodic : Function.Periodic r.output 127 := by
  intro n
  rw [Nat.add_comm, output_add, shifted_period]

end ShiftRegister

/-- Channel 23 enters the sequence at its first bit. -/
theorem output_start_eq_sequence (n : Nat) :
    (ShiftRegister.start 23).output n = sequence.getLsbD (n % 127) := by
  have honce : ∀ k : Fin 127, (ShiftRegister.start 23).output k = sequence.getLsbD k := by
    decide +kernel
  rw [← (ShiftRegister.start 23).output_periodic.map_mod_nat n]
  exact honce ⟨n % 127, Nat.mod_lt n (by decide)⟩

/-- The offset of a channel is how many shifts its start lies behind that of channel 23. -/
theorem start_eq_shifted (channel : UInt8) : channel < 40 →
    ShiftRegister.start channel =
      (ShiftRegister.start 23).shifted (offsets.getD (channel.toNat % 40) 0) := by
  revert channel
  exact Octets.forall_octet (by decide +kernel)

/-- The whitening bit for a position is what the register gives out there. -/
theorem bit_eq {channel : UInt8} (h : channel < 40) (position : Nat) :
    bit channel position = (ShiftRegister.start channel).output position := by
  rw [start_eq_shifted channel h, ← ShiftRegister.output_add, output_start_eq_sequence, bit]

/-- Whitening adds to each bit the one for its position. -/
theorem applyBits_eq_mapIdx (channel : UInt8) (position : Nat) (bs : List Bool) :
    applyBits channel position bs = bs.mapIdx fun i b => b ^^ bit channel (position + i) := by
  induction bs generalizing position with
  | nil => rfl
  | cons b bs ih =>
    have hnext : ∀ i : Nat, position + 1 + i = position + (i + 1) := by
      intro i
      omega
    rw [applyBits, ih, List.mapIdx_cons]
    simp only [hnext, Nat.add_zero]

/-! ## The tables -/

namespace Table

/-- The whitening bit that the tables give. -/
def key (channel : UInt8) (position : UInt32) : Bool :=
  Whitening.sequence.getLsbD ((offset channel + position) % 127).toNat

theorem bit_eq_key (channel : UInt8) (position : UInt32) :
    bit channel position = (key channel position).toUInt8 := by
  have hsequence : ∀ k : Fin 127, sequence.get k = (Whitening.sequence.getLsbD k).toUInt8 := by
    decide +kernel
  exact hsequence ⟨((offset channel + position) % 127).toNat, toNat_mod_lt _⟩

theorem toNat_offset (channel : UInt8) :
    (offset channel).toNat = Whitening.offsets.getD (channel.toNat % 40) 0 := by
  revert channel
  exact Octets.forall_octet (by decide +kernel)

/-- A position moved on by less than what is left does not wrap. -/
theorem toNat_add_ofNat {position : UInt32} {i : Nat} (h : position.toNat + i < 2 ^ 32) :
    (position + UInt32.ofNat i).toNat = position.toNat + i := by
  have hi : i < 2 ^ 32 := by omega
  rw [UInt32.toNat_add, UInt32.toNat_ofNat', Nat.mod_eq_of_lt hi, Nat.mod_eq_of_lt h]

/-- Where the sum with the offset does not wrap, the tables give the bit of the sequence. -/
theorem key_eq {channel : UInt8} {position : UInt32}
    (h : (offset channel).toNat + position.toNat < 2 ^ 32) :
    key channel position = Whitening.bit channel position.toNat := by
  rw [key, Whitening.bit, UInt32.toNat_mod, UInt32.toNat_add, Nat.mod_eq_of_lt h, toNat_offset]
  rfl

/-- The same for a position that has been moved on. -/
theorem key_add_ofNat {channel : UInt8} {position : UInt32} {i : Nat}
    (h : (offset channel).toNat + (position.toNat + i) < 2 ^ 32) :
    key channel (position + UInt32.ofNat i) = Whitening.bit channel (position.toNat + i) := by
  have hposition : (position + UInt32.ofNat i).toNat = position.toNat + i :=
    toNat_add_ofNat (by omega)
  rw [key_eq (by rwa [hposition]), hposition]

/-! ## One octet -/

theorem testBit_shiftLeft (b : Bool) {i j : Nat} (hi : i < 8) (hj : j < 8) :
    (b.toUInt8 <<< UInt8.ofNat j).toNat.testBit i = (decide (i = j) && b) := by
  have hplaces : ∀ (b : Bool) (i j : Fin 8),
      (b.toUInt8 <<< UInt8.ofNat j).toNat.testBit i = (decide (i.val = j.val) && b) := by
    decide
  exact hplaces b ⟨i, hi⟩ ⟨j, hj⟩

namespace Mask

variable (channel : UInt8) (position : UInt32)

/-- One step puts one whitening bit into the mask. -/
theorem testBit_extend (m : Mask) {i j : Nat} (hi : i < 8) (hj : j < 8) :
    (m.extend channel j).octet.toNat.testBit i =
      (m.octet.toNat.testBit i || (decide (i = j) && key channel m.position)) := by
  rw [extend, UInt8.toNat_or, Nat.testBit_or, bit_eq_key, testBit_shiftLeft _ hi hj]

theorem build_succ (n : Nat) :
    build channel position (n + 1) = (build channel position n).extend channel n := by
  rw [build, List.range_succ, List.foldl_append]
  rfl

theorem position_build (n : Nat) :
    (build channel position n).position = position + UInt32.ofNat n := by
  induction n with
  | zero => exact (UInt32.add_zero position).symm
  | succ n ih =>
    rw [build_succ, extend, ih, UInt32.add_assoc]
    show position + (UInt32.ofNat n + UInt32.ofNat 1) = position + UInt32.ofNat (n + 1)
    rw [UInt32.ofNat_add]

/-- The mask holds the whitening bits in order, and above them there are zeros. -/
theorem testBit_build {n i : Nat} (hn : n ≤ 8) (hi : i < 8) :
    (build channel position n).octet.toNat.testBit i =
      (decide (i < n) && key channel (position + UInt32.ofNat i)) := by
  induction n with
  | zero => exact Nat.zero_testBit i
  | succ n ih =>
    rw [build_succ, testBit_extend channel _ hi hn, ih (Nat.le_of_succ_le hn), position_build]
    -- The new bit is bit `n`; those below it were there and those above it are still zero.
    rcases Nat.lt_trichotomy i n with hbelow | rfl | habove
    · simp [hbelow, Nat.lt_succ_of_lt hbelow, Nat.ne_of_lt hbelow]
    · simp
    · simp [Nat.not_lt_of_lt habove, Nat.ne_of_gt habove, Nat.not_le_of_lt habove]

end Mask

variable (channel : UInt8) (position : UInt32)

/-- Adding a mask to an octet adds to each of its bits the one for its position. -/
theorem octetBits_xor_mask (o : UInt8) :
    Octets.octetBits (o ^^^ (Mask.build channel position 8).octet) =
      (Octets.octetBits o).mapIdx fun i b => b ^^ key channel (position + UInt32.ofNat i) := by
  have hbit : ∀ i < 8, (o ^^^ (Mask.build channel position 8).octet).toNat.testBit i =
      (o.toNat.testBit i ^^ key channel (position + UInt32.ofNat i)) := by
    intro i hi
    rw [UInt8.toNat_xor, Nat.testBit_xor, Mask.testBit_build channel position (Nat.le_refl 8) hi,
      decide_eq_true hi, Bool.true_and]
  have hlist : ∀ b : UInt8, Octets.octetBits b = (List.range 8).map b.toNat.testBit :=
    fun _ => rfl
  rw [hlist, List.map_congr_left fun i hi => hbit i (List.mem_range.mp hi)]
  rfl

/-! ## Octet strings -/

theorem bits_apply (data : Octets) :
    (apply channel position data).1.bits =
      data.bits.mapIdx fun i b => b ^^ key channel (position + UInt32.ofNat i) := by
  induction data generalizing position with
  | nil => rfl
  | cons o data ih =>
    have hnext : ∀ i : Nat, position + UInt32.ofNat 8 + UInt32.ofNat i =
        position + UInt32.ofNat (i + (Octets.octetBits o).length) := by
      intro i
      rw [UInt32.add_assoc, ← UInt32.ofNat_add, Nat.add_comm i]
      rfl
    rw [apply, Octets.bits_cons, octetBits_xor_mask, ih, Mask.position_build, Octets.bits_cons,
      List.mapIdx_append]
    simp only [hnext]

@[simp] theorem length_apply (data : Octets) :
    (apply channel position data).1.length = data.length := by
  induction data generalizing position with
  | nil => rfl
  | cons o data ih => rw [apply, List.length_cons, ih, List.length_cons]

end Table

/-- The whitening bit of a channel for a position, by the sequence or by the tables, is what the
register of the channel gives out after as many shifts.  Whitening octets adds these bits to the
bits of the octets in transmission order, however many octets there are; by the tables it does so
as far as the positions, counted from the start of the sequence, fit a word. -/
theorem bit_eq_output (channel : UInt8) (hchannel : channel < 40) :
    (∀ n : Nat, bit channel n = (ShiftRegister.start channel).output n) ∧
      (∀ p : UInt32, (Table.offset channel).toNat + p.toNat < 2 ^ 32 →
        Table.bit channel p = ((ShiftRegister.start channel).output p.toNat).toUInt8) ∧
      ∀ data : Octets,
        (∀ p : Nat, (apply channel p data).bits =
          data.bits.mapIdx fun i b => b ^^ (ShiftRegister.start channel).output (p + i)) ∧
        ∀ p : UInt32, (Table.apply channel p data).1.length = data.length ∧
          ∀ i : Nat, (Table.offset channel).toNat + (p.toNat + i) < 2 ^ 32 →
            (Table.apply channel p data).1.bits[i]? =
              data.bits[i]?.map (· ^^ (ShiftRegister.start channel).output (p.toNat + i)) := by
  refine ⟨bit_eq hchannel, fun p hp => ?_, fun data => ⟨fun p => ?_, fun p => ?_⟩⟩
  · rw [Table.bit_eq_key, Table.key_eq hp, bit_eq hchannel]
  · rw [bits_apply, applyBits_eq_mapIdx]
    simp only [bit_eq hchannel]
  · refine ⟨Table.length_apply channel p data, fun i hi => ?_⟩
    rw [Table.bits_apply, List.getElem?_mapIdx, Table.key_add_ofNat hi, bit_eq hchannel]

/-- The last position that channel 39 reaches within a word.  The register has been shifted more
than four thousand million times by then; that it gives out a zero is read off the table. -/
theorem bit_eq_output_at_wordEnd :
    let last : UInt32 := 4294967193
    (39 : UInt8) < 40 ∧ (Table.offset 39).toNat + last.toNat < 2 ^ 32 ∧
      Table.bit 39 last = 0 ∧ (ShiftRegister.start 39).output last.toNat = false ∧
      (Table.offset 39).toNat + ((last - 7).toNat + 7) < 2 ^ 32 ∧
      (Table.apply 39 (last - 7) [0x80]).1.bits[7]? =
        some (true ^^ (ShiftRegister.start 39).output ((last - 7).toNat + 7)) := by
  intro last
  have hchannel : (39 : UInt8) < 40 := by decide
  have hlast : (Table.offset 39).toNat + last.toNat < 2 ^ 32 := by decide
  have hdata : (Table.offset 39).toNat + ((last - 7).toNat + 7) < 2 ^ 32 := by decide
  have hbit : Table.bit 39 last = 0 := by decide
  have hzero : ∀ b : Bool, b.toUInt8 = 0 → b = false := by decide
  obtain ⟨-, htable, hoctets⟩ := bit_eq_output 39 hchannel
  exact ⟨hchannel, hlast, hbit, hzero _ ((htable last hlast).symm.trans hbit), hdata,
    ((hoctets [0x80]).2 (last - 7)).2 7 hdata⟩

end AirTrace.Whitening

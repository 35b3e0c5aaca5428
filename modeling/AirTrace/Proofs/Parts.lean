import AirTrace.Proofs.Sequence

/-!
# Whitening a packet in parts

A packet may arrive in parts of any lengths, whose boundaries fall anywhere in the whitening
sequence, as its period is no number of whole octets.  All that one part leaves for the next is the
position after it.

* Octet strings.  The position after a string depends on its length alone (`position_apply`), so
  two strings one after the other are whitened as one (`apply_append`), and whitening again at the
  same position restores a string and ends at the same position (`apply_apply`).
* Parts.  Both laws go over to lists of parts by induction (`applyParts_flatten`,
  `applyParts_applyParts`).
* Positions that do not wrap.  There the words may be read as numbers (`applyParts_eq`).
-/

namespace AirTrace.Whitening

/-- The position goes on by eight for each octet of the parts. -/
theorem foldl_next (position : Nat) (parts : List Octets) :
    parts.foldl next position = position + 8 * parts.flatten.length := by
  induction parts generalizing position with
  | nil => rfl
  | cons part parts ih =>
    rw [List.foldl_cons, ih, next, List.flatten_cons, List.length_append, Nat.mul_add,
      Nat.add_assoc]

namespace Table

variable (channel : UInt8) (position : UInt32)

/-! ## Octet strings -/

theorem position_apply (data : Octets) :
    (apply channel position data).2 = position + UInt32.ofNat (8 * data.length) := by
  induction data generalizing position with
  | nil => exact (UInt32.add_zero position).symm
  | cons o data ih =>
    rw [apply, ih, Mask.position_build, UInt32.add_assoc, ← UInt32.ofNat_add, List.length_cons,
      Nat.mul_succ, Nat.add_comm]

/-- The second of two strings is whitened from the position after the first. -/
theorem apply_append (a b : Octets) :
    apply channel position (a ++ b) =
      ((apply channel position a).1 ++ (apply channel (apply channel position a).2 b).1,
        (apply channel (apply channel position a).2 b).2) := by
  induction a generalizing position with
  | nil => rfl
  | cons o a ih => rw [List.cons_append, apply, ih, apply, List.cons_append]

/-- Whitening again at the same position takes the whitening off. -/
theorem apply_apply (data : Octets) :
    apply channel position (apply channel position data).1 =
      (data, (apply channel position data).2) := by
  induction data generalizing position with
  | nil => rfl
  | cons o data ih =>
    rw [apply, apply, ih, UInt8.xor_assoc, UInt8.xor_self, UInt8.xor_zero]

/-! ## Parts -/

/-- Whitening parts is whitening what they make up together. -/
theorem applyParts_flatten (parts : List Octets) :
    ((applyParts channel position parts).1.flatten, (applyParts channel position parts).2) =
      apply channel position parts.flatten := by
  induction parts generalizing position with
  | nil => rfl
  | cons part parts ih =>
    rw [applyParts, List.flatten_cons, List.flatten_cons, apply_append, ← ih]

theorem map_length_applyParts (parts : List Octets) :
    (applyParts channel position parts).1.map List.length = parts.map List.length := by
  induction parts generalizing position with
  | nil => rfl
  | cons part parts ih => rw [applyParts, List.map_cons, ih, length_apply, List.map_cons]

/-- Whitening the same parts again gives them back one by one. -/
theorem applyParts_applyParts (parts : List Octets) :
    applyParts channel position (applyParts channel position parts).1 =
      (parts, (applyParts channel position parts).2) := by
  induction parts generalizing position with
  | nil => rfl
  | cons part parts ih => rw [applyParts, applyParts, apply_apply, ih]

/-- Whitening again in other parts gives back what the parts made up together. -/
theorem flatten_applyParts_again {parts again : List Octets}
    (h : again.flatten = (applyParts channel position parts).1.flatten) :
    ((applyParts channel position again).1.flatten, (applyParts channel position again).2) =
      (parts.flatten, (applyParts channel position parts).2) := by
  obtain ⟨hdata, hend⟩ := Prod.mk.inj (applyParts_flatten channel position parts)
  rw [applyParts_flatten, h, hdata, apply_apply, hend]

/-! ## Positions that do not wrap -/

variable {channel position}

theorem toNat_position_apply {data : Octets} (h : position.toNat + 8 * data.length < 2 ^ 32) :
    (apply channel position data).2.toNat = next position.toNat data := by
  rw [position_apply, toNat_add_ofNat h, next]

/-- The tables whiten as the sequence does. -/
theorem apply_eq {data : Octets}
    (h : (offset channel).toNat + (position.toNat + 8 * data.length) < 2 ^ 32) :
    (apply channel position data).1 = Whitening.apply channel position.toNat data := by
  have hbits : (apply channel position data).1.bits =
      applyBits channel position.toNat data.bits := by
    rw [bits_apply, applyBits_eq_mapIdx, List.mapIdx_eq_mapIdx_iff]
    intro i hi
    rw [Octets.length_bits] at hi
    rw [key_add_ofNat (by omega)]
  rw [Whitening.apply, ← hbits, Octets.ofBits_bits]

/-- The tables whiten parts as the sequence does. -/
theorem applyParts_eq {parts : List Octets}
    (h : (offset channel).toNat + (position.toNat + 8 * parts.flatten.length) < 2 ^ 32) :
    (applyParts channel position parts).1 =
      Whitening.applyParts channel position.toNat parts := by
  induction parts generalizing position with
  | nil => rfl
  | cons part parts ih =>
    rw [List.flatten_cons, List.length_append] at h
    -- The next part starts where this one ended, and what is left still fits.
    have hnext : (apply channel position part).2.toNat = next position.toNat part :=
      toNat_position_apply (by omega)
    have hrest := @ih (apply channel position part).2 (by rw [hnext, next]; omega)
    rw [applyParts, hrest, hnext, apply_eq (by omega), Whitening.applyParts]

end Table

/-- A packet in parts, empty ones included, is whitened to parts of the same lengths that make up
the packet whitened as a whole, and the position goes on by eight for each octet.  A second pass
from the same position restores the packet, in the same parts or in others.  Where the positions,
counted from the start of the sequence, stay below 2 ^ 32 the parts are those that the sequence
gives. -/
theorem applyParts_as_whole (channel : UInt8) (start : UInt32) (parts : List Octets)
    (hfit : start.toNat + 8 * parts.flatten.length < 2 ^ 32) :
    let sent := Table.applyParts channel start parts
    let whole := Table.apply channel start parts.flatten
    sent.1.flatten = whole.1 ∧ sent.1.map List.length = parts.map List.length ∧
      sent.2 = whole.2 ∧ sent.2.toNat = start.toNat + 8 * parts.flatten.length ∧
      Table.applyParts channel start sent.1 = (parts, sent.2) ∧
      (∀ again : List Octets, again.flatten = sent.1.flatten →
        (Table.applyParts channel start again).1.flatten = parts.flatten ∧
          (Table.applyParts channel start again).2 = sent.2) ∧
      ((Table.offset channel).toNat + (start.toNat + 8 * parts.flatten.length) < 2 ^ 32 →
        sent.1 = applyParts channel start.toNat parts ∧
          sent.2.toNat = parts.foldl next start.toNat) := by
  intro sent whole
  obtain ⟨hdata, hposition⟩ : sent.1.flatten = whole.1 ∧ sent.2 = whole.2 :=
    Prod.mk.inj (Table.applyParts_flatten channel start parts)
  have hend : sent.2.toNat = start.toNat + 8 * parts.flatten.length := by
    rw [hposition, Table.toNat_position_apply hfit, next]
  refine ⟨hdata, Table.map_length_applyParts channel start parts, hposition, hend,
    Table.applyParts_applyParts channel start parts, ?_, ?_⟩
  · intro again hagain
    exact Prod.mk.inj (Table.flatten_applyParts_again channel start hagain)
  · intro h
    exact ⟨Table.applyParts_eq h, hend.trans (foldl_next start.toNat parts).symm⟩

/-- Three octets in three parts, one of them empty, from a position inside an octet; the second pass
cuts them elsewhere. -/
theorem applyParts_as_whole_unaligned :
    let parts : List Octets := [[0x40, 0x02], [], [0xA5]]
    let again : List Octets := [[], [0xA5], [0x1F, 0x5B]]
    (3 : UInt32).toNat + 8 * parts.flatten.length < 2 ^ 32 ∧
      (Table.applyParts 12 3 parts).1.flatten = (Table.apply 12 3 parts.flatten).1 ∧
      (Table.applyParts 12 3 parts).2.toNat = 27 ∧
      again.flatten = (Table.applyParts 12 3 parts).1.flatten ∧
      (Table.applyParts 12 3 again).1.flatten = [0x40, 0x02, 0xA5] ∧
      (Table.offset 12).toNat + ((3 : UInt32).toNat + 8 * parts.flatten.length) < 2 ^ 32 ∧
      (Table.applyParts 12 3 parts).1 = applyParts 12 3 parts := by
  intro parts again
  have hfit : (3 : UInt32).toNat + 8 * parts.flatten.length < 2 ^ 32 := by decide
  have hagain : again.flatten = (Table.applyParts 12 3 parts).1.flatten := by decide +kernel
  have hoffset : (Table.offset 12).toNat + ((3 : UInt32).toNat + 8 * parts.flatten.length) <
      2 ^ 32 := by
    decide
  obtain ⟨hwhole, -, -, hend, -, hrestored, hsequence⟩ := applyParts_as_whole 12 3 parts hfit
  exact ⟨hfit, hwhole, hend, hagain, (hrestored again hagain).1, hoffset, (hsequence hoffset).1⟩

end AirTrace.Whitening

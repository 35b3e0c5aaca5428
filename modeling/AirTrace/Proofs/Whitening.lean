import Mathlib
import AirTrace.Whitening

/-!
# Whitening undoes itself

The whitening bit of a position does not depend on the data, so whitening is the same whether octets
are whitened together or one part after the other (`apply_append`), and whitening twice at the same
positions changes nothing (`apply_apply`).  `apply_apply_append` puts the two together: whitened
octets come back also where more octets follow them.
-/

namespace AirTrace.Whitening

variable (channel : UInt8) (position : Nat)

/-! ## Bits -/

@[simp] theorem length_applyBits (b : List Bool) :
    (applyBits channel position b).length = b.length := by
  induction b generalizing position with
  | nil => rfl
  | cons x b ih => rw [applyBits, List.length_cons, ih, List.length_cons]

theorem applyBits_append (a b : List Bool) :
    applyBits channel position (a ++ b) =
      applyBits channel position a ++ applyBits channel (position + a.length) b := by
  induction a generalizing position with
  | nil => rfl
  | cons x a ih =>
    rw [List.cons_append, applyBits, ih, applyBits, List.cons_append, List.length_cons,
      Nat.add_right_comm, Nat.add_assoc]

theorem applyBits_applyBits (b : List Bool) :
    applyBits channel position (applyBits channel position b) = b := by
  induction b generalizing position with
  | nil => rfl
  | cons x b ih =>
    rw [applyBits, applyBits, ih, Bool.xor_assoc, Bool.xor_self, Bool.xor_false]

/-! ## Octets -/

/-- Whitened bits fill the octets they were taken from. -/
theorem bits_apply (o : Octets) :
    (apply channel position o).bits = applyBits channel position o.bits := by
  apply Octets.bits_ofBits_of_dvd
  rw [length_applyBits, Octets.length_bits]
  exact Nat.dvd_mul_right 8 o.length

@[simp] theorem length_apply (o : Octets) : (apply channel position o).length = o.length := by
  rw [apply, Octets.length_ofBits, length_applyBits, Octets.length_bits]
  omega

/-- Whitening octets in two parts is whitening them together. -/
theorem apply_append (a b : Octets) :
    apply channel position (a ++ b) =
      apply channel position a ++ apply channel (next position a) b := by
  have hwhole : 8 ∣ (applyBits channel position a.bits).length := by
    rw [length_applyBits, Octets.length_bits]
    exact Nat.dvd_mul_right 8 a.length
  rw [apply, Octets.bits_append, applyBits_append, Octets.ofBits_append hwhole, Octets.length_bits]
  rfl

/-- Of octets cut short, what is left is whitened as before. -/
theorem apply_take (o : Octets) (n : Nat) :
    apply channel position (o.take n) = (apply channel position o).take n := by
  rcases Nat.le_total n o.length with hn | hn
  · have hparts := apply_append channel position (o.take n) (o.drop n)
    rw [List.take_append_drop] at hparts
    rw [hparts, List.take_left' (by rw [length_apply, List.length_take, Nat.min_eq_left hn])]
  · rw [List.take_of_length_le hn, List.take_of_length_le (by rw [length_apply]; exact hn)]

/-- Whitening at the same positions again takes the whitening off. -/
theorem apply_apply (o : Octets) :
    apply channel position (apply channel position o) = o := by
  rw [apply, bits_apply, applyBits_applyBits, Octets.ofBits_bits]

/-- Whitened octets come back also where more octets follow them. -/
theorem apply_apply_append (a b : Octets) :
    apply channel position (apply channel position a ++ b) =
      a ++ apply channel (next position a) b := by
  rw [apply_append, apply_apply]
  unfold next
  rw [length_apply]

end AirTrace.Whitening

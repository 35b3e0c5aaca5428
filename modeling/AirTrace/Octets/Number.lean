import Mathlib
import AirTrace.Octets

/-!
# The number of an octet string

`toNat_ofNat` and `toNat_lt` say how little-endian octets and numbers match: `n` octets hold exactly
the numbers below `256 ^ n`, and a larger number is cut down to its remainder.  `toNat_append` puts
the number of a string together from those of its parts.  The lemmas on words say the same of a word
that stands in a longer string.
-/

namespace AirTrace.Octets

/-- Reading back `n` octets of a number leaves it modulo `256 ^ n`. -/
theorem toNat_ofNat (n v : Nat) : toNat (ofNat n v) = v % 256 ^ n := by
  induction n generalizing v with
  | zero => simp [ofNat, toNat, Nat.mod_one]
  | succ n ih =>
    rw [ofNat, toNat, ih, UInt8.toNat_ofNat', Nat.pow_succ 256 n, Nat.mul_comm (256 ^ n) 256,
      Nat.mod_mul]

theorem toNat_lt (o : Octets) : o.toNat < 256 ^ o.length := by
  induction o with
  | nil => simp [toNat]
  | cons b rest ih =>
    have := b.toNat_lt
    rw [toNat, List.length_cons, Nat.pow_succ]
    omega

theorem toNat_append (a b : Octets) :
    toNat (a ++ b) = a.toNat + 256 ^ a.length * toNat b := by
  induction a with
  | nil => rw [List.nil_append, toNat, List.length_nil, Nat.pow_zero, Nat.one_mul, Nat.zero_add]
  | cons c a ih =>
    rw [List.cons_append, toNat, ih, toNat, List.length_cons]
    ring

/-! ## Words in a string -/

variable {i v : Nat} {o a : Octets}

theorem word16_of_slice (h : o.slice i 2 = ofNat 2 v) : o.word16 i = UInt16.ofNat v := by
  rw [word16, h, toNat_ofNat, ← UInt16.toNat_inj]
  simp

theorem word24_of_slice (h : o.slice i 3 = ofNat 3 v) : o.word24 i = BitVec.ofNat 24 v := by
  rw [word24, field, h, toNat_ofNat, ← BitVec.toNat_inj]
  simp

theorem word32_of_slice (h : o.slice i 4 = ofNat 4 v) : o.word32 i = UInt32.ofNat v := by
  rw [word32, h, toNat_ofNat, ← UInt32.toNat_inj]
  simp

theorem slice_append_ofNat {n : Nat} (v : Nat) (rest : Octets) (ha : a.length = i) :
    slice (a ++ (ofNat n v ++ rest)) i n = ofNat n v := by
  rw [slice_append_right _ _ ha, slice_append_left rest (length_ofNat n v)]

theorem word16_append (v : Nat) (rest : Octets) (ha : a.length = i) :
    word16 (a ++ (ofNat 2 v ++ rest)) i = UInt16.ofNat v :=
  word16_of_slice (slice_append_ofNat v rest ha)

theorem word32_append (v : Nat) (rest : Octets) (ha : a.length = i) :
    word32 (a ++ (ofNat 4 v ++ rest)) i = UInt32.ofNat v :=
  word32_of_slice (slice_append_ofNat v rest ha)

theorem word24_append (v : Nat) (rest : Octets) (ha : a.length = i) :
    word24 (a ++ (ofNat 3 v ++ rest)) i = BitVec.ofNat 24 v :=
  word24_of_slice (slice_append_ofNat v rest ha)

end AirTrace.Octets

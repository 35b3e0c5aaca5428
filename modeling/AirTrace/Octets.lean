/-!
# Octet strings and little-endian words

Everything on the air, in a firmware message and in a capture file is a string of octets whose
numbers are little-endian.  `Octets.toNat` and `Octets.ofNat` are the two directions of that one
code; every wider field of the library is read and written through them.

`ofNat_toNat` says that writing undoes reading.  The lemmas on `split?`, `slice` and `octet` find a
field in a string that was put together from its fields.  `forall_octet` turns a fact about all
octets into one that can be checked case by case.
-/

namespace AirTrace

/-- A string of octets, first octet first. -/
abbrev Octets := List UInt8

namespace Octets

/-- The number whose little-endian octets are given. -/
def toNat : Octets → Nat
  | [] => 0
  | o :: rest => o.toNat + 256 * toNat rest

/-- The lowest `n` little-endian octets of a number. -/
def ofNat : Nat → Nat → Octets
  | 0, _ => []
  | n + 1, v => UInt8.ofNat v :: ofNat n (v / 256)

@[simp] theorem length_ofNat (n v : Nat) : (ofNat n v).length = n := by
  induction n generalizing v with
  | zero => rfl
  | succ n ih => simp [ofNat, ih]

/-- Writing the number of an octet string gives the string back. -/
theorem ofNat_toNat (o : Octets) : ofNat o.length o.toNat = o := by
  induction o with
  | nil => rfl
  | cons b rest ih =>
    have hlow : UInt8.ofNat (b.toNat + 256 * toNat rest) = b := by
      apply UInt8.toNat_inj.mp
      have := b.toNat_lt
      rw [UInt8.toNat_ofNat']
      omega
    have hhigh : (b.toNat + 256 * toNat rest) / 256 = toNat rest := by
      have := b.toNat_lt
      omega
    rw [List.length_cons, ofNat, toNat, hlow, hhigh, ih]

/-- Cuts `n` octets off the front, if there are that many. -/
def split? (n : Nat) (o : Octets) : Option (Octets × Octets) :=
  if (o.take n).length < n then none else some (o.take n, o.drop n)

theorem split?_eq_some {n : Nat} {o a b : Octets} (h : o.split? n = some (a, b)) :
    o = a ++ b ∧ a.length = n := by
  unfold split? at h
  split at h
  · exact absurd h (by simp)
  · next hlen =>
    obtain ⟨rfl, rfl⟩ := Prod.mk.inj (Option.some.inj h)
    refine ⟨(List.take_append_drop n o).symm, ?_⟩
    have := List.length_take_le n o
    omega

theorem split?_append {n : Nat} {a : Octets} (b : Octets) (ha : a.length = n) :
    split? n (a ++ b) = some (a, b) := by
  subst ha
  unfold split?
  rw [List.take_left, List.drop_left, if_neg (Nat.lt_irrefl _)]

/-! ## Fields at an offset -/

/-- The `n` octets from offset `i`, fewer where the string ends. -/
def slice (o : Octets) (i n : Nat) : Octets := (o.drop i).take n

/-- The octet at offset `i`; zero past the end. -/
def octet (o : Octets) (i : Nat) : UInt8 := o.getD i 0

/-- The `n` octets from offset `i` as a vector; zero past the end. -/
def vector (n : Nat) (o : Octets) (i : Nat) : Vector UInt8 n :=
  Vector.ofFn fun k => o.octet (i + k)

/-- The `w` low bits of the `n`-octet word at offset `i`. -/
def field (w : Nat) (o : Octets) (i n : Nat) : BitVec w := BitVec.ofNat w (o.slice i n).toNat

/-- The 16-bit word at offset `i`. -/
def word16 (o : Octets) (i : Nat) : UInt16 := UInt16.ofNat (o.slice i 2).toNat

/-- The 24-bit word at offset `i`. -/
def word24 (o : Octets) (i : Nat) : BitVec 24 := field 24 o i 3

/-- The 32-bit word at offset `i`. -/
def word32 (o : Octets) (i : Nat) : UInt32 := UInt32.ofNat (o.slice i 4).toNat

/-- The 64-bit word at offset `i`. -/
def word64 (o : Octets) (i : Nat) : UInt64 := UInt64.ofNat (o.slice i 8).toNat

/-- The two octets of a 16-bit word. -/
def ofWord16 (w : UInt16) : Octets := ofNat 2 w.toNat

/-- The three octets of a 24-bit word. -/
def ofWord24 (w : BitVec 24) : Octets := ofNat 3 w.toNat

/-- The four octets of a 32-bit word. -/
def ofWord32 (w : UInt32) : Octets := ofNat 4 w.toNat

/-- The eight octets of a 64-bit word. -/
def ofWord64 (w : UInt64) : Octets := ofNat 8 w.toNat

/-! ## All octets -/

/-- What holds of the octets of all numbers below 256 holds of all octets. -/
theorem forall_octet {P : UInt8 → Prop} (h : ∀ n : Fin 256, P (UInt8.ofNat n.val)) (b : UInt8) :
    P b := by
  have hb := h ⟨b.toNat, b.toNat_lt⟩
  rwa [UInt8.ofNat_toNat] at hb

/-! ## Fields of a string put together -/

theorem slice_append_left {n : Nat} {a : Octets} (b : Octets) (ha : a.length = n) :
    slice (a ++ b) 0 n = a := by
  subst ha
  unfold slice
  rw [List.drop_zero, List.take_left]

theorem slice_append_right {i : Nat} {a : Octets} (b : Octets) (n : Nat) (ha : a.length = i) :
    slice (a ++ b) i n = slice b 0 n := by
  subst ha
  unfold slice
  rw [List.drop_left, List.drop_zero]

theorem octet_append_right {i : Nat} {a : Octets} (b : Octets) (ha : a.length = i) :
    octet (a ++ b) i = octet b 0 := by
  subst ha
  unfold octet
  rw [List.getD_eq_getElem?_getD, List.getD_eq_getElem?_getD,
    List.getElem?_append_right (Nat.le_refl _), Nat.sub_self]

end Octets

end AirTrace

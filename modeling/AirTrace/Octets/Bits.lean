import AirTrace.Octets

/-!
# Bits in transmission order

The radio sends the octets of a packet in order and the bits of each octet lowest first.  `bits` is
that view of an octet string; `ofBits` packs a bit string back into whole octets, and a trailing
group of fewer than eight bits is dropped.

The lemmas say that nothing is lost on the way: `ofBits_bits` for octet strings, `bits_ofBits` for
bit strings, which lose their incomplete last octet.  A bit string that fills whole octets comes
back (`bits_ofBits_of_dvd`), and bits packed after it do not mix with its own (`ofBits_append`).
-/

namespace AirTrace.Octets

/-- The eight bits of one octet, lowest first. -/
def octetBits (o : UInt8) : List Bool :=
  [o.toNat.testBit 0, o.toNat.testBit 1, o.toNat.testBit 2, o.toNat.testBit 3,
    o.toNat.testBit 4, o.toNat.testBit 5, o.toNat.testBit 6, o.toNat.testBit 7]

/-- The octet whose bits are given, lowest first. -/
def ofOctetBits (b0 b1 b2 b3 b4 b5 b6 b7 : Bool) : UInt8 :=
  UInt8.ofNat (b0.toNat + 2 * (b1.toNat + 2 * (b2.toNat + 2 * (b3.toNat +
    2 * (b4.toNat + 2 * (b5.toNat + 2 * (b6.toNat + 2 * b7.toNat)))))))

/-- The bits of an octet string in transmission order. -/
def bits (o : Octets) : List Bool := o.flatMap octetBits

/-- Whole octets from a bit string in transmission order. -/
def ofBits : List Bool → Octets
  | b0 :: b1 :: b2 :: b3 :: b4 :: b5 :: b6 :: b7 :: rest =>
      ofOctetBits b0 b1 b2 b3 b4 b5 b6 b7 :: ofBits rest
  | _ => []

/-! ## Packing and unpacking undo each other -/

theorem octetBits_ofOctetBits (b0 b1 b2 b3 b4 b5 b6 b7 : Bool) :
    octetBits (ofOctetBits b0 b1 b2 b3 b4 b5 b6 b7) = [b0, b1, b2, b3, b4, b5, b6, b7] := by
  revert b0 b1 b2 b3 b4 b5 b6 b7
  decide +kernel

theorem ofBits_octetBits_append (o : UInt8) (rest : List Bool) :
    ofBits (octetBits o ++ rest) = o :: ofBits rest := by
  have hall : ∀ o : UInt8, ofOctetBits (o.toNat.testBit 0) (o.toNat.testBit 1) (o.toNat.testBit 2)
      (o.toNat.testBit 3) (o.toNat.testBit 4) (o.toNat.testBit 5) (o.toNat.testBit 6)
      (o.toNat.testBit 7) = o := forall_octet (by decide +kernel)
  show ofOctetBits _ _ _ _ _ _ _ _ :: ofBits rest = o :: ofBits rest
  rw [hall]

@[simp] theorem bits_nil : bits [] = [] := rfl

@[simp] theorem bits_cons (o : UInt8) (rest : Octets) :
    bits (o :: rest) = octetBits o ++ bits rest := rfl

@[simp] theorem bits_append (a b : Octets) : bits (a ++ b) = bits a ++ bits b :=
  List.flatMap_append

@[simp] theorem length_bits (o : Octets) : (bits o).length = 8 * o.length := by
  induction o with
  | nil => rfl
  | cons b rest ih =>
    rw [bits_cons, List.length_append, ih, List.length_cons]
    simp [octetBits]
    omega

/-- Unpacking and packing an octet string changes nothing. -/
theorem ofBits_bits (o : Octets) : ofBits (bits o) = o := by
  induction o with
  | nil => rfl
  | cons b rest ih => rw [bits_cons, ofBits_octetBits_append, ih]

/-- Packing and unpacking a bit string drops its incomplete last octet and nothing else. -/
theorem bits_ofBits (b : List Bool) : bits (ofBits b) = b.take (8 * (b.length / 8)) := by
  fun_induction ofBits b with
  | case1 b0 b1 b2 b3 b4 b5 b6 b7 rest ih =>
    have hlen : (b0 :: b1 :: b2 :: b3 :: b4 :: b5 :: b6 :: b7 :: rest).length / 8
        = rest.length / 8 + 1 := by
      simp only [List.length_cons]; omega
    rw [bits_cons, octetBits_ofOctetBits, ih, hlen, Nat.mul_succ]
    simp
  | case2 b h =>
    have hshort : b.length < 8 := by
      match b with
      | b0 :: b1 :: b2 :: b3 :: b4 :: b5 :: b6 :: b7 :: rest =>
          exact (h b0 b1 b2 b3 b4 b5 b6 b7 rest rfl).elim
      | [] | [_] | [_, _] | [_, _, _] | [_, _, _, _] | [_, _, _, _, _] | [_, _, _, _, _, _]
      | [_, _, _, _, _, _, _] => simp
    simp [Nat.div_eq_of_lt hshort]

/-! ## Bit strings that fill whole octets -/

@[simp] theorem length_ofBits (b : List Bool) : (ofBits b).length = b.length / 8 := by
  have h := congrArg List.length (bits_ofBits b)
  rw [length_bits, List.length_take] at h
  omega

theorem bits_ofBits_of_dvd {b : List Bool} (h : 8 ∣ b.length) : bits (ofBits b) = b := by
  rw [bits_ofBits, Nat.mul_div_cancel' h, List.take_length]

/-- Packing the bits of some octets and more bits gives the octets first. -/
theorem ofBits_bits_append (o : Octets) (rest : List Bool) :
    ofBits (bits o ++ rest) = o ++ ofBits rest := by
  induction o with
  | nil => rfl
  | cons b o ih => rw [bits_cons, List.append_assoc, ofBits_octetBits_append, ih, List.cons_append]

theorem ofBits_append {a : List Bool} (h : 8 ∣ a.length) (b : List Bool) :
    ofBits (a ++ b) = ofBits a ++ ofBits b := by
  have hsplit := ofBits_bits_append (ofBits a) b
  rwa [bits_ofBits_of_dvd h] at hsplit

/-! ## Numbers as bits -/

/-- The octets of a number show its lowest bits, in order. -/
theorem bits_ofNat (n v : Nat) : bits (ofNat n v) = (List.range (8 * n)).map v.testBit := by
  induction n generalizing v with
  | zero => rfl
  | succ n ih =>
    have hfirst : octetBits (UInt8.ofNat v) = (List.range 8).map v.testBit := by
      have hmod : ∀ i < 8, (UInt8.ofNat v).toNat.testBit i = v.testBit i := by
        intro i hi
        rw [UInt8.toNat_ofNat', Nat.testBit_mod_two_pow, decide_eq_true hi, Bool.true_and]
      exact List.map_congr_left (l := List.range 8) fun i hi => hmod i (List.mem_range.mp hi)
    have hrest : ∀ i, (v / 256).testBit i = v.testBit (8 + i) := by
      intro i
      rw [show (256 : Nat) = 2 ^ 8 from rfl, Nat.testBit_div_two_pow, Nat.add_comm]
    rw [ofNat, bits_cons, ih, hfirst, Nat.mul_succ, Nat.add_comm, List.range_add, List.map_append,
      List.map_map]
    congr 1
    exact List.map_congr_left fun i _ => hrest i

end AirTrace.Octets

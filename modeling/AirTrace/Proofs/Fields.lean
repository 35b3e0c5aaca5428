import AirTrace.Octets.Number
import AirTrace.Pdu

/-!
# Fields written as they were read

A field that is read from a string and written again gives the octets it was read from, except that
the bits which the format reserves come out as zero.  `Octets.maskAt` says which bits of which octet
are kept.

There are five groups: the parts of a number, as quotients and remainders; words and vectors, which
lose nothing; reserved bits; the fields that several packets share, with the two kinds of header;
and the parameters of a connection, whose fields are joined again one after the other.
-/

namespace AirTrace

/-! ## Parts of a number -/

theorem bitVec_ofNat_eq {w v : Nat} {b : BitVec w} (h : v % 2 ^ w = b.toNat) :
    BitVec.ofNat w v = b := by
  rw [← BitVec.toNat_inj, BitVec.toNat_ofNat, h]

theorem testBit_eq_of_div {v i : Nat} {b : Bool} (h : v / 2 ^ i % 2 = b.toNat) :
    v.testBit i = b := by
  rw [Nat.testBit_eq_decide_div_mod_eq, h]
  cases b <;> rfl

/-! ## Words and vectors -/

namespace Octets

variable {o a b : Octets} {i j k n m : Nat}

theorem length_slice (h : i + n ≤ o.length) : (o.slice i n).length = n := by
  rw [slice, List.length_take, List.length_drop]
  omega

theorem slice_all (h : o.length = n) : o.slice 0 n = o := by
  rw [slice, List.drop_zero, List.take_of_length_le (le_of_eq h)]

theorem slice_append_slice (h : i + n = j) : o.slice i n ++ o.slice j m = o.slice i (n + m) := by
  subst h
  rw [slice, slice, slice, List.take_add, List.drop_drop]

theorem slice_append_drop (h : i + n = j) : o.slice i n ++ o.drop j = o.drop i := by
  subst h
  rw [slice, ← List.drop_drop, List.take_append_drop]

theorem ofNat_slice (h : i + n ≤ o.length) : ofNat n (o.slice i n).toNat = o.slice i n := by
  have hwrite := ofNat_toNat (o.slice i n)
  rwa [length_slice h] at hwrite

/-- A word that is as wide as its octets holds them all. -/
theorem ofNat_slice_mod {w : Nat} (h : i + n ≤ o.length) (hw : w = 8 * n) :
    ofNat n ((o.slice i n).toNat % 2 ^ w) = o.slice i n := by
  have hlt := toNat_lt (o.slice i n)
  have hpow : (2 : Nat) ^ w = 256 ^ n := by rw [hw, Nat.pow_mul]
  rw [length_slice h] at hlt
  rw [hpow, Nat.mod_eq_of_lt hlt, ofNat_slice h]

theorem ofWord16_word16 (h : i + 2 ≤ o.length) : ofWord16 (o.word16 i) = o.slice i 2 := by
  rw [ofWord16, word16, UInt16.toNat_ofNat', ofNat_slice_mod h rfl]

theorem word16_ofWord16 (w : UInt16) : word16 (ofWord16 w) 0 = w := by
  have hslice : slice (ofWord16 w) 0 2 = ofNat 2 w.toNat := slice_all (length_ofNat _ _)
  rw [word16_of_slice hslice, UInt16.ofNat_toNat]

theorem ofWord24_word24 (h : i + 3 ≤ o.length) : ofWord24 (o.word24 i) = o.slice i 3 := by
  rw [ofWord24, word24, field, BitVec.toNat_ofNat, ofNat_slice_mod h rfl]

theorem ofWord32_word32 (h : i + 4 ≤ o.length) : ofWord32 (o.word32 i) = o.slice i 4 := by
  rw [ofWord32, word32, UInt32.toNat_ofNat', ofNat_slice_mod h rfl]

theorem ofWord64_word64 (h : i + 8 ≤ o.length) : ofWord64 (o.word64 i) = o.slice i 8 := by
  rw [ofWord64, word64, UInt64.toNat_ofNat', ofNat_slice_mod h rfl]

theorem slice_one (h : i < o.length) : o.slice i 1 = [o.octet i] := by
  rw [slice, octet, List.drop_eq_getElem_cons h, List.getD_eq_getElem _ _ h]
  rfl

theorem octet_slice (h : k < n) : (o.slice i n).octet k = o.octet (i + k) := by
  simp only [octet, slice, List.getD_eq_getElem?_getD, List.getElem?_take_of_lt h,
    List.getElem?_drop]

theorem slice_two (h : i + 2 ≤ o.length) (hj : i + 1 = j) :
    o.slice i 2 = [o.octet i, o.octet j] := by
  rw [← slice_append_slice (n := 1) (m := 1) hj, slice_one (by omega), slice_one (by omega)]
  rfl

theorem octet_cons (rest : Octets) (h : i < o.length) :
    o.octet i :: rest = o.slice i 1 ++ rest := by
  rw [slice_one h]
  rfl

theorem toList_vector (h : i + n ≤ o.length) : (o.vector n i).toList = o.slice i n := by
  apply List.ext_getElem
  · rw [Vector.length_toList, length_slice h]
  · intro k hk _
    rw [Vector.length_toList] at hk
    simp only [vector, Vector.toList_ofFn, List.getElem_ofFn, slice, List.getElem_take,
      List.getElem_drop, octet]
    rw [List.getD_eq_getElem _ _ (by omega)]

/-- Consecutive 16-bit words. -/
theorem flatMap_word16 (h : i + 2 * n ≤ o.length) :
    (Vector.ofFn fun k : Fin n => o.word16 (i + 2 * k)).toList.flatMap ofWord16 =
      o.slice i (2 * n) := by
  rw [Vector.toList_ofFn]
  induction n generalizing i with
  | zero => rfl
  | succ n ih =>
    have hrest := ih (i := i + 2) (by omega)
    have hshift : ∀ k : Fin n, i + 2 * (k.succ : Nat) = i + 2 + 2 * k := by
      intro k
      rw [Fin.val_succ]
      omega
    simp only [List.ofFn_succ, List.flatMap_cons, hshift, hrest, Fin.val_zero, Nat.mul_zero,
      Nat.add_zero, ofWord16_word16 (by omega : i + 2 ≤ o.length)]
    rw [slice_append_slice rfl, Nat.mul_succ, Nat.add_comm]

/-! ## Reserved bits -/

/-- The string with only the bits of a mask left in the octet at an offset. -/
def maskAt (o : Octets) (i : Nat) (mask : UInt8) : Octets := o.modify i (· &&& mask)

variable {mask : UInt8}

theorem maskAt_append_right (h : a.length + k = i) :
    maskAt (a ++ b) i mask = a ++ maskAt b k mask := by
  subst h
  induction a with
  | nil => rw [List.length_nil, Nat.zero_add, List.nil_append, List.nil_append]
  | cons c a ih =>
    rw [List.cons_append, List.length_cons, Nat.add_right_comm, maskAt, List.modify_succ_cons]
    exact congrArg (c :: ·) ih

theorem maskAt_append_left (h : i < a.length) :
    maskAt (a ++ b) i mask = maskAt a i mask ++ b := by
  induction a generalizing i with
  | nil => simp at h
  | cons c a ih =>
    cases i with
    | zero => rfl
    | succ i => exact congrArg (c :: ·) (ih (Nat.lt_of_succ_lt_succ h))

/-- Cutting a number down inside its last octet clears the upper bits of that octet. -/
theorem ofNat_mod_mask {v : Nat} (hk : k ≤ 8) :
    ofNat (n + 1) (v % (256 ^ n * 2 ^ k)) =
      (ofNat (n + 1) v).maskAt n (UInt8.ofNat (2 ^ k - 1)) := by
  -- The octets before the last one do not change; the last is reached by quotients.
  induction n generalizing v with
  | zero =>
    have hlast : UInt8.ofNat (v % 2 ^ k) = UInt8.ofNat v &&& UInt8.ofNat (2 ^ k - 1) := by
      have hpow : 2 ^ k ∣ 2 ^ 8 := Nat.pow_dvd_pow 2 hk
      have hle : 2 ^ k ≤ 2 ^ 8 := Nat.le_of_dvd (by decide) hpow
      have hmask : (2 ^ k - 1) % 2 ^ 8 = 2 ^ k - 1 := Nat.mod_eq_of_lt (by omega)
      rw [← UInt8.toNat_inj, UInt8.toNat_and, UInt8.toNat_ofNat', UInt8.toNat_ofNat',
        UInt8.toNat_ofNat', hmask, Nat.and_two_pow_sub_one_eq_mod, Nat.mod_mod_of_dvd _ hpow,
        Nat.mod_eq_of_lt]
      exact (Nat.mod_lt _ (by positivity)).trans_le hle
    rw [Nat.pow_zero, Nat.one_mul]
    exact congrArg (fun c => [c]) hlast
  | succ n ih =>
    have hfirst : UInt8.ofNat (v % (256 ^ (n + 1) * 2 ^ k)) = UInt8.ofNat v := by
      rw [← UInt8.toNat_inj, UInt8.toNat_ofNat', UInt8.toNat_ofNat']
      exact Nat.mod_mod_of_dvd _ ⟨256 ^ n * 2 ^ k, by ring⟩
    have hrest : v % (256 ^ (n + 1) * 2 ^ k) / 256 = v / 256 % (256 ^ n * 2 ^ k) := by
      rw [show 256 ^ (n + 1) * 2 ^ k = 256 * (256 ^ n * 2 ^ k) by ring,
        Nat.mod_mul_right_div_self]
    rw [ofNat, hfirst, hrest, ih]
    rfl

end Octets

/-! ## Shared fields -/

section Shared

variable {o : Octets} {i : Nat}

theorem Address.toOctets_read {random : Bool} (h : i + 6 ≤ o.length) :
    (read o i random).toOctets = o.slice i 6 := Octets.toList_vector h

theorem Address.read_toList (octets : Vector UInt8 6) (random : Bool) :
    read octets.toList 0 random = ⟨octets, random⟩ := by
  have hvector : Octets.vector 6 octets.toList 0 = octets := by
    apply Vector.toList_inj.mp
    rw [Octets.toList_vector (by simp), Octets.slice_all (by simp)]
  rw [read, hvector]

theorem ChannelMap.toOctets_read (h : i + 5 ≤ o.length) :
    (read o i).toOctets = (o.slice i 5).maskAt 4 0x1F := by
  have hwidth : (2 : Nat) ^ 37 = 256 ^ 4 * 2 ^ 5 := by norm_num
  rw [toOctets, read, Octets.field, BitVec.toNat_ofNat, hwidth, Octets.ofNat_mod_mask (by decide),
    Octets.ofNat_slice h]
  rfl

theorem CteInfo.toOctet_ofOctet (b : UInt8) : (ofOctet b).toOctet = b &&& 0xDF := by
  revert b
  exact Octets.forall_octet (by decide +kernel)

theorem CteInfo.ofOctet_toOctet (c : CteInfo) : ofOctet c.toOctet = c := by
  have hall : ∀ (time : BitVec 5) (kind : BitVec 2),
      ofOctet (toOctet ⟨time, kind⟩) = ⟨time, kind⟩ := by decide +kernel
  exact hall c.time c.kind

theorem Adi.toWord_ofWord (w : UInt16) : (ofWord w).toWord = w := by
  have hlt := w.toNat_lt
  have hnumber : w.toNat % 2 ^ 12 + 0x1000 * (w.toNat / 0x1000 % 2 ^ 4) = w.toNat := by omega
  rw [toWord, ofWord, BitVec.toNat_ofNat, BitVec.toNat_ofNat, hnumber, UInt16.ofNat_toNat]

theorem Adi.ofWord_toWord (a : Adi) : ofWord a.toWord = a := by
  have hdid := a.did.isLt
  have hsid := a.sid.isLt
  unfold ofWord toWord
  rw [UInt16.toNat_ofNat', bitVec_ofNat_eq (b := a.did) (by omega),
    bitVec_ofNat_eq (b := a.sid) (by omega)]

theorem AdvHeader.toOctets_ofOctets (first length : UInt8) :
    (ofOctets first length).toOctets = [first &&& 0xEF, length] := by
  have hfirst : ∀ b, (ofOctets b 0).toOctets = [b &&& 0xEF, 0] :=
    Octets.forall_octet (by decide +kernel)
  exact congrArg (· :: [length]) (List.cons.inj (hfirst first)).1

theorem AdvHeader.ofBody_toOctets_append (h : AdvHeader) (rest : Octets) :
    ofBody (h.toOctets ++ rest) = .ok h := by
  have hall : ∀ (type : BitVec 4) (chSel txAdd rxAdd : Bool),
      let h : AdvHeader := ⟨type, chSel, txAdd, rxAdd, 0⟩
      ofOctets (h.toOctets.octet 0) 0 = h := by decide +kernel
  obtain ⟨type, chSel, txAdd, rxAdd, length⟩ := h
  exact congrArg (fun h => Except.ok { h with length := length }) (hall type chSel txAdd rxAdd)

theorem DataHeader.toOctets_ofOctets (first length : UInt8) :
    (ofOctets first length).toOctets = [first &&& 0x3F, length] := by
  have hfirst : ∀ b, (ofOctets b 0).toOctets = [b &&& 0x3F, 0] :=
    Octets.forall_octet (by decide +kernel)
  exact congrArg (· :: [length]) (List.cons.inj (hfirst first)).1

theorem Opcode.code_ofCode (c : UInt8) : (ofCode c).code = c := by
  revert c
  exact Octets.forall_octet (by decide +kernel)

end Shared

/-! ## Connection parameters -/

/-- The parameters of a connection come back but for the upper bits of their channel map. -/
theorem LinkParameters.toOctets_read {o : Octets} {i : Nat} (h : i + 22 ≤ o.length) :
    (read o i).toOctets = (o.slice i 22).maskAt 20 0x1F := by
  have hlast : ∀ b : UInt8, UInt8.ofNat ((BitVec.ofNat 5 b.toNat).toNat +
      32 * (BitVec.ofNat 3 (b.toNat / 32)).toNat) = b :=
    Octets.forall_octet (by decide +kernel)
  have hmap : (o.slice i 22).maskAt 20 0x1F =
      o.slice i 16 ++ (o.slice (i + 16) 5).maskAt 4 0x1F ++ o.slice (i + 21) 1 := by
    rw [← Octets.slice_append_slice (n := 16 + 5) (m := 1) rfl,
      Octets.maskAt_append_left (by rw [Octets.length_slice (by omega)]; decide),
      ← Octets.slice_append_slice (n := 16) rfl,
      Octets.maskAt_append_right (k := 4) (by rw [Octets.length_slice (by omega)])]
  rw [hmap]
  simp (disch := omega) only [toOctets, read, hlast, Octets.ofWord32_word32,
    Octets.ofWord24_word24, Octets.ofWord16_word16, ChannelMap.toOctets_read, Octets.octet_cons,
    List.append_nil, Octets.slice_append_slice]

end AirTrace

import AirTrace.Crc.ShiftRegister
import AirTrace.Crc.Word
import AirTrace.Proofs.Detection

/-!
# The check register and its mirror image

The register of the radio specification shifts to the left, and the one that is kept here shifts to
the right.  They are mirror images at every bit: `feed_reverse` is the step, and `run_reverse` says
it of bit strings of any length.

A step loses nothing (`feed_injective`), so a body maps the seeds one to one onto the values that
the register can end with.

Words of 32 bits hold the register in their lowest 24 bits throughout (`Word.checksum_eq`), and
reversing these bits one by one is reversing the register (`Word.reverse_ofRegister`).

`checksum_mirrors` puts this together.
-/

namespace AirTrace.Crc

/-! ## One bit -/

theorem reverse_xor (r s : Register) : (r ^^^ s).reverse = r.reverse ^^^ s.reverse := by
  apply BitVec.eq_of_getLsbD_eq
  intro i hi
  simp only [BitVec.getLsbD_reverse, BitVec.getLsbD_xor, BitVec.getMsbD_xor]

/-- What moves down in the register moves up in its mirror image. -/
theorem reverse_ushiftRight_one (r : Register) : (r >>> 1).reverse = r.reverse <<< 1 := by
  apply BitVec.eq_of_getLsbD_eq
  intro i hi
  rw [BitVec.getLsbD_reverse, BitVec.getMsbD_eq_getLsbD, BitVec.getLsbD_ushiftRight,
    BitVec.getLsbD_shiftLeft, BitVec.getLsbD_reverse, BitVec.getMsbD_eq_getLsbD]
  cases i with
  | zero => exact BitVec.getLsbD_of_ge r _ (by decide)
  | succ i =>
    have hplace : 1 + (24 - 1 - (i + 1)) = 24 - 1 - (i + 1 - 1) := by omega
    rw [hplace, decide_eq_true hi, decide_eq_true (by omega : i + 1 - 1 < 24)]
    simp

/-- A step adds the polynomial if the bit that leaves differs from the one that comes. -/
theorem feed_eq (r : Register) (b : Bool) :
    feed r b = (r >>> 1) ^^^ (if r.getLsbD 0 != b then polynomial else 0#24) := by
  have hgone : ((BitVec.ofBool b).setWidth 24) >>> 1 = 0#24 := by
    cases b <;> rfl
  have hlow : (r ^^^ (BitVec.ofBool b).setWidth 24).getLsbD 0 = (r.getLsbD 0 != b) := by
    rw [BitVec.getLsbD_xor]
    cases b <;> cases r.getLsbD 0 <;> rfl
  rw [feed, shift_eq, BitVec.ushiftRight_xor_distrib, hgone, BitVec.xor_zero, hlow]

/-- The mirror image of the register takes the same bit in the mirrored way. -/
theorem feed_reverse (r : Register) (b : Bool) :
    ShiftRegister.feed r.reverse b = (feed r b).reverse := by
  have hpolynomial : polynomial.reverse = ShiftRegister.polynomial := by decide
  have hzero : (0#24).reverse = 0#24 := by decide
  rw [feed_eq, reverse_xor, reverse_ushiftRight_one, ShiftRegister.feed, BitVec.msb_reverse]
  cases r.getLsbD 0 != b with
  | false => simp [hzero]
  | true => simp [hpolynomial]

theorem shift_injective : Function.Injective shift := by
  intro r s h
  have hzero : shift (r ^^^ s) = 0#24 := by
    rw [shift_xor, h, BitVec.xor_self]
  exact BitVec.xor_eq_zero_iff.mp (shift_eq_zero hzero)

theorem feed_injective (b : Bool) : Function.Injective (feed · b) := by
  intro r s h
  exact (BitVec.xor_left_inj _).mp (shift_injective h)

/-! ## Bit strings and bodies -/

/-- The mirror image of the register stays its mirror image. -/
theorem run_reverse (r : Register) (bs : List Bool) :
    ShiftRegister.run r.reverse bs = (run r bs).reverse := by
  induction bs generalizing r with
  | nil => rfl
  | cons b bs ih =>
    rw [run_cons, ← ih, ← feed_reverse]
    rfl

/-- The register ends as the mirror image of the one in the radio specification. -/
theorem checksum_reverse (r : Register) (body : Octets) :
    (checksum r body).reverse = ShiftRegister.remainder r.reverse body := by
  rw [checksum_eq_run, ← run_reverse, ShiftRegister.remainder]

theorem checksum_injective (body : Octets) : Function.Injective (checksum · body) := by
  have hrun : ∀ bs : List Bool, Function.Injective (run · bs) := by
    intro bs
    induction bs with
    | nil => exact Function.injective_id
    | cons b bs ih => exact ih.comp (feed_injective b)
  intro r s h
  simp only [checksum_eq_run] at h
  exact hrun body.bits h

/-! ## Machine words -/

namespace Word

theorem toBitVec_ofRegister (r : Register) : (ofRegister r).toBitVec = r.setWidth 32 := rfl

theorem toBitVec_shiftRight_one (w : UInt32) : (w >>> 1).toBitVec = w.toBitVec >>> 1 := by
  rw [UInt32.toBitVec_shiftRight]
  rfl

theorem toBitVec_shiftLeft_one (w : UInt32) : (w <<< 1).toBitVec = w.toBitVec <<< 1 := by
  rw [UInt32.toBitVec_shiftLeft]
  rfl

/-- The lowest bit of a word, cut out. -/
theorem toBitVec_and_one (w : UInt32) :
    (w &&& 1).toBitVec = (BitVec.ofBool (w.toBitVec.getLsbD 0)).setWidth 32 := by
  rw [UInt32.toBitVec_and]
  exact BitVec.and_one_eq_setWidth_ofBool_getLsbD

theorem ofRegister_xor (r s : Register) : ofRegister (r ^^^ s) = ofRegister r ^^^ ofRegister s := by
  apply UInt32.toBitVec_inj.mp
  rw [UInt32.toBitVec_xor, toBitVec_ofRegister, toBitVec_ofRegister, toBitVec_ofRegister,
    BitVec.setWidth_xor]

theorem register_ofRegister (r : Register) : register (ofRegister r) = r := by
  rw [register, toBitVec_ofRegister, BitVec.setWidth_setWidth (by decide), BitVec.setWidth_eq]

/-- Cutting a word to 24 bits leaves the register that it holds. -/
theorem and_mask (w : UInt32) : w &&& mask = ofRegister (register w) := by
  have hmask : ∀ i < 32, mask.toBitVec.getLsbD i = decide (i < 24) := by
    intro i hi
    show (BitVec.ofNat 32 (2 ^ 24 - 1)).getLsbD i = _
    rw [BitVec.getLsbD_ofNat, Nat.testBit_two_pow_sub_one, decide_eq_true hi, Bool.true_and]
  apply UInt32.toBitVec_inj.mp
  apply BitVec.eq_of_getLsbD_eq
  intro i hi
  rw [UInt32.toBitVec_and, BitVec.getLsbD_and, hmask i hi, toBitVec_ofRegister, register,
    BitVec.getLsbD_setWidth, BitVec.getLsbD_setWidth, decide_eq_true hi, Bool.true_and,
    Bool.and_comm]

theorem shift_ofRegister (r : Register) : shift (ofRegister r) = ofRegister (Crc.shift r) := by
  have hdown : ofRegister r >>> 1 = ofRegister (r >>> 1) := by
    apply UInt32.toBitVec_inj.mp
    rw [toBitVec_shiftRight_one, toBitVec_ofRegister, toBitVec_ofRegister,
      BitVec.setWidth_ushiftRight (by decide)]
  have hlow : ofRegister r &&& 1 = if r.getLsbD 0 then 1 else 0 := by
    apply UInt32.toBitVec_inj.mp
    rw [toBitVec_and_one, toBitVec_ofRegister, BitVec.getLsbD_setWidth]
    cases r.getLsbD 0 <;> rfl
  have hpolynomial : polynomial = ofRegister Crc.polynomial := by decide
  rw [shift, Crc.shift, hdown, hpolynomial, hlow, ← ofRegister_xor]
  cases r.getLsbD 0 with
  | false => exact if_neg (by decide)
  | true => exact if_pos (by decide)

theorem shifts_ofRegister (n : Nat) (r : Register) :
    shifts n (ofRegister r) = ofRegister (Crc.shifts n r) := by
  induction n generalizing r with
  | zero => rfl
  | succ n ih => rw [shifts, shift_ofRegister, ih, Crc.shifts]

theorem absorb_ofRegister (r : Register) (o : UInt8) :
    absorb (ofRegister r) o = ofRegister (Crc.absorb r o) := by
  have hoctet : o.toUInt32 = ofRegister (o.toBitVec.setWidth 24) := by
    apply UInt32.toBitVec_inj.mp
    rw [UInt8.toBitVec_toUInt32, toBitVec_ofRegister, BitVec.setWidth_setWidth (by decide)]
  rw [absorb, hoctet, ← ofRegister_xor, shifts_ofRegister, Crc.absorb]

/-- The check of a body in words is its check, in a word. -/
theorem checksum_eq (w : UInt32) (body : Octets) :
    checksum w body = ofRegister (Crc.checksum (register w) body) := by
  have hfold : ∀ r : Register, body.foldl absorb (ofRegister r) =
      ofRegister (Crc.checksum r body) := by
    induction body with
    | nil => exact fun _ => rfl
    | cons o body ih =>
      intro r
      rw [List.foldl_cons, absorb_ofRegister, ih, checksum_cons]
  rw [checksum, and_mask w, hfold, and_mask, register_ofRegister]

/-- A pushed bit is the lowest one, and the others move up. -/
theorem getLsbD_push (result value : UInt32) {i : Nat} (hi : i < 32) :
    ((result <<< 1) ||| (value &&& 1)).toBitVec.getLsbD i =
      if i = 0 then value.toBitVec.getLsbD 0 else result.toBitVec.getLsbD (i - 1) := by
  rw [UInt32.toBitVec_or, BitVec.getLsbD_or, toBitVec_shiftLeft_one, toBitVec_and_one,
    BitVec.getLsbD_shiftLeft, BitVec.getLsbD_setWidth, BitVec.getLsbD_ofBool, decide_eq_true hi]
  cases i with
  | zero => simp
  | succ i => simp

/-- The bits that are taken end in reverse order, and above them are those of the result. -/
theorem getLsbD_pushBits (n : Nat) (result value : UInt32) {i : Nat} (hi : i < 32) :
    (pushBits n result value).toBitVec.getLsbD i =
      if i < n then value.toBitVec.getLsbD (n - 1 - i) else result.toBitVec.getLsbD (i - n) := by
  induction n generalizing result value with
  | zero => rfl
  | succ n ih =>
    rw [pushBits, ih, getLsbD_push result value (by omega), toBitVec_shiftRight_one,
      BitVec.getLsbD_ushiftRight]
    rcases Nat.lt_trichotomy i n with hbelow | hlast | habove
    · rw [if_pos hbelow, if_pos (by omega)]
      exact congrArg _ (by omega)
    · rw [if_neg (by omega), if_pos (by omega), if_pos (by omega)]
      exact congrArg _ (by omega)
    · rw [if_neg (by omega), if_neg (by omega), if_neg (by omega), Nat.sub_sub]

/-- Reversing the bits one by one is reversing the register. -/
theorem reverse_ofRegister (r : Register) : reverse (ofRegister r) = ofRegister r.reverse := by
  apply UInt32.toBitVec_inj.mp
  apply BitVec.eq_of_getLsbD_eq
  intro i hi
  rw [reverse, getLsbD_pushBits 24 0 _ hi, toBitVec_ofRegister, toBitVec_ofRegister,
    BitVec.getLsbD_setWidth, BitVec.getLsbD_setWidth, BitVec.getLsbD_reverse,
    BitVec.getMsbD_eq_getLsbD, decide_eq_true hi, Bool.true_and]
  by_cases hlow : i < 24
  · rw [if_pos hlow, decide_eq_true hlow, decide_eq_true (by omega : 24 - 1 - i < 32)]
  · rw [if_neg hlow, decide_eq_false hlow]
    exact BitVec.getLsbD_zero

/-- The check from the value that a connection request carries. -/
theorem check_eq (w : UInt32) (body : Octets) :
    check w body = ofRegister (Crc.checksum (seed (register w)) body) := by
  rw [check, and_mask, reverse_ofRegister, checksum_eq, register_ofRegister, seed]

theorem remainder_eq (w : UInt32) (body : Octets) :
    remainder w body = ofRegister (Crc.remainder (register w) body) := by
  rw [remainder, check_eq, reverse_ofRegister, Crc.remainder]

end Word

/-! ## The check -/

/-- The remainder of a body is what the register of the radio specification holds after it, and its
check is the mirror image of that.  A body may be checked in parts, and no two seeds end at one
check.  In words of 32 bits it is the same, for an initial value modulo 2 ^ 24. -/
theorem checksum_mirrors :
    (∀ (initial : BitVec 24) (body : Octets),
      remainder initial body = ShiftRegister.remainder initial body ∧
        checksum (seed initial) body = (ShiftRegister.remainder initial body).reverse) ∧
      (∀ (s : Register) (a b : Octets), checksum s (a ++ b) = checksum (checksum s a) b) ∧
      (∀ body : Octets, Function.Bijective (checksum · body)) ∧
      ∀ (w : UInt32) (body : Octets),
        Word.remainder w body =
            Word.ofRegister (ShiftRegister.remainder (Word.register w) body) ∧
          Word.check w body =
            Word.ofRegister (ShiftRegister.remainder (Word.register w) body).reverse ∧
          Word.checksum w body = Word.ofRegister (checksum (Word.register w) body) := by
  have hremainder : ∀ (initial : BitVec 24) (body : Octets),
      remainder initial body = ShiftRegister.remainder initial body := by
    intro initial body
    rw [remainder, checksum_reverse, seed, BitVec.reverse_reverse_eq]
  have hcheck : ∀ (initial : BitVec 24) (body : Octets),
      checksum (seed initial) body = (ShiftRegister.remainder initial body).reverse := by
    intro initial body
    rw [← hremainder, remainder, BitVec.reverse_reverse_eq]
  refine ⟨fun initial body => ⟨hremainder initial body, hcheck initial body⟩, checksum_append,
    fun body => Finite.injective_iff_bijective.mp (checksum_injective body), fun w body => ?_⟩
  refine ⟨?_, ?_, Word.checksum_eq w body⟩
  · rw [Word.remainder_eq, hremainder]
  · rw [Word.check_eq, hcheck]

end AirTrace.Crc

import AirTrace.Proofs.OnAir
import AirTrace.Time.Exact

/-!
# Which damage the check finds

Bits that are flipped on the air change the register by what the flips alone would leave in it.  So
damage goes unnoticed only if the register, started from zero and fed the flips, ends at zero.
`Tracker.damage_found` says that this does not happen if all flips lie within 24 consecutive bits of
the body and its check, or if their number is odd.

There are four groups.

* One bit.  The register takes an octet bit by bit (`checksum_eq_run`), and a step is linear and
  loses nothing (`shift_xor`, `shift_eq_zero`).
* Bit strings.  A register that holds more than the coming bits can cancel does not become zero
  (`run_ne_zero_of_le`); this is the case after the first flip of a burst.  The register keeps the
  parity of the bits it was fed (`oddOnes_run`), since the polynomial without its leading term has
  an odd number of terms.
* The residue.  Body and check of an undamaged packet leave zero (`checksum_append_toWire`).
* Frames.  `Frame.flip` is the damaged frame.
-/

namespace AirTrace

namespace Crc

/-! ## One bit -/

/-- Takes one bit into the register. -/
def feed (r : Register) (b : Bool) : Register := shift (r ^^^ (BitVec.ofBool b).setWidth 24)

/-- Takes a bit string into the register. -/
def run (r : Register) (bs : List Bool) : Register := bs.foldl feed r

@[simp] theorem run_nil (r : Register) : run r [] = r := rfl

@[simp] theorem run_cons (r : Register) (b : Bool) (bs : List Bool) :
    run r (b :: bs) = run (feed r b) bs := rfl

theorem run_append (r : Register) (as bs : List Bool) : run r (as ++ bs) = run (run r as) bs :=
  List.foldl_append

theorem feed_false (r : Register) : feed r false = shift r := by
  unfold feed
  rw [show (BitVec.ofBool false).setWidth 24 = 0#24 from rfl, BitVec.xor_zero]

theorem shift_eq (r : Register) :
    shift r = (r >>> 1) ^^^ (if r.getLsbD 0 then polynomial else 0#24) := by
  unfold shift
  split
  · rfl
  · rw [BitVec.xor_zero]

theorem shift_xor (r s : Register) : shift (r ^^^ s) = shift r ^^^ shift s := by
  have hswap : ∀ a b c d : Register, (a ^^^ b) ^^^ (c ^^^ d) = (a ^^^ c) ^^^ (b ^^^ d) := by
    intro a b c d
    ac_rfl
  rw [shift_eq, shift_eq r, shift_eq s, BitVec.getLsbD_xor, BitVec.ushiftRight_xor_distrib, hswap]
  congr 1
  cases r.getLsbD 0 <;> cases s.getLsbD 0 <;> simp

theorem shifts_xor (n : Nat) (r s : Register) :
    shifts n (r ^^^ s) = shifts n r ^^^ shifts n s := by
  induction n generalizing r s with
  | zero => rfl
  | succ n ih => rw [shifts, shift_xor, ih, shifts, shifts]

theorem feed_xor (r s : Register) (a b : Bool) :
    feed (r ^^^ s) (a ^^ b) = feed r a ^^^ feed s b := by
  have hbit : (BitVec.ofBool (a ^^ b)).setWidth 24 =
      (BitVec.ofBool a).setWidth 24 ^^^ (BitVec.ofBool b).setWidth 24 := by
    cases a <;> cases b <;> rfl
  unfold feed
  rw [← shift_xor, hbit]
  congr 1
  ac_rfl

/-- Nothing is lost: the bit that is divided out shows in the highest place. -/
theorem toNat_shift (r : Register) :
    (shift r).toNat = r.toNat / 2 ∧ r.toNat % 2 = 0 ∨ 2 ^ 23 ≤ (shift r).toNat := by
  have hlow : r.getLsbD 0 = decide (r.toNat % 2 = 1) := by simp [BitVec.getLsbD]
  have hhalf : (r >>> 1).toNat = r.toNat / 2 := by
    rw [BitVec.toNat_ushiftRight, Nat.shiftRight_one]
  unfold shift
  rw [hlow]
  by_cases hodd : r.toNat % 2 = 1
  · right
    rw [if_pos (decide_eq_true hodd)]
    have htop : ((r >>> 1) ^^^ polynomial).getLsbD 23 = true := by
      rw [BitVec.getLsbD_xor, BitVec.getLsbD_ushiftRight, BitVec.getLsbD_of_ge r _ (by decide)]
      rfl
    exact Nat.ge_two_pow_of_testBit htop
  · left
    rw [if_neg (by simpa using hodd), hhalf]
    exact ⟨rfl, by omega⟩

theorem shift_eq_zero {r : Register} (h : shift r = 0#24) : r = 0#24 := by
  have hzero : (shift r).toNat = 0 := by rw [h]; rfl
  apply BitVec.eq_of_toNat_eq
  rcases toNat_shift r with ⟨hhalf, heven⟩ | htop
  · rw [BitVec.toNat_ofNat]
    omega
  · omega

/-! ## Bit strings -/

theorem run_xor {as bs : List Bool} (h : as.length = bs.length) (r s : Register) :
    run (r ^^^ s) (List.zipWith xor as bs) = run r as ^^^ run s bs := by
  induction as generalizing bs r s with
  | nil =>
    obtain rfl := List.length_eq_zero_iff.mp h.symm
    rfl
  | cons a as ih =>
    cases bs with
    | nil => simp at h
    | cons b bs =>
      rw [List.zipWith_cons_cons, run_cons, run_cons, run_cons, feed_xor]
      exact ih (Nat.succ.inj h) _ _

/-- An octet goes into the register bit by bit. -/
theorem absorb_eq_run (r : Register) (o : UInt8) : absorb r o = run r (Octets.octetBits o) := by
  -- By linearity the octet can be looked at apart from the register.
  have hoctet : ∀ o : UInt8, shifts 8 (o.toBitVec.setWidth 24) = run 0#24 (Octets.octetBits o) :=
    Octets.forall_octet (by decide +kernel)
  have hempty : run r [false, false, false, false, false, false, false, false] = shifts 8 r := by
    simp only [run_cons, run_nil, feed_false, shifts]
  unfold absorb
  rw [shifts_xor, hoctet, ← hempty, ← run_xor (by rfl), BitVec.xor_zero]
  simp [Octets.octetBits]

theorem checksum_eq_run (r : Register) (body : Octets) : checksum r body = run r body.bits := by
  induction body generalizing r with
  | nil => rfl
  | cons o body ih => rw [checksum_cons, ih, absorb_eq_run, Octets.bits_cons, run_append]

/-- A register that is not zero stays so while no bit comes. -/
theorem run_ne_zero_of_forall_false {bs : List Bool} (hbs : ∀ b ∈ bs, b = false) {r : Register}
    (hr : r ≠ 0#24) : run r bs ≠ 0#24 := by
  induction bs generalizing r with
  | nil => exact hr
  | cons b bs ih =>
    rw [List.forall_mem_cons] at hbs
    rw [run_cons, hbs.1, feed_false]
    exact ih hbs.2 fun h => hr (shift_eq_zero h)

/-- A register with a one above the places that the coming bits reach does not become zero. -/
theorem run_ne_zero_of_le {bs : List Bool} (hbs : bs.length ≤ 23) {r : Register}
    (hr : 2 ^ bs.length ≤ r.toNat) : run r bs ≠ 0#24 := by
  induction bs generalizing r with
  | nil =>
    intro h
    rw [run_nil] at h
    rw [h] at hr
    exact absurd hr (by decide)
  | cons b bs ih =>
    rw [List.length_cons] at hbs hr
    have hpow : 2 ^ (bs.length + 1) = 2 * 2 ^ bs.length := by rw [Nat.pow_succ, Nat.mul_comm]
    have hsmall : 2 ^ bs.length ≤ 2 ^ 23 := Nat.pow_le_pow_right (by decide) (by omega)
    -- The bit changes the lowest place only.
    have hbit : (r ^^^ (BitVec.ofBool b).setWidth 24).toNat / 2 = r.toNat / 2 := by
      have hnone : ((BitVec.ofBool b).setWidth 24).toNat >>> 1 = 0 := by cases b <;> rfl
      rw [BitVec.toNat_xor, ← Nat.shiftRight_one, Nat.shiftRight_xor_distrib, hnone, Nat.xor_zero,
        Nat.shiftRight_one]
    apply ih (by omega)
    unfold feed
    rcases toNat_shift (r ^^^ (BitVec.ofBool b).setWidth 24) with ⟨hhalf, _⟩ | htop
    · omega
    · omega

/-- Whether a bit string has an odd number of ones. -/
def oddOnes (bs : List Bool) : Bool := bs.foldr xor false

@[simp] theorem oddOnes_cons (b : Bool) (bs : List Bool) :
    oddOnes (b :: bs) = (b ^^ oddOnes bs) := rfl

theorem oddOnes_append (as bs : List Bool) : oddOnes (as ++ bs) = (oddOnes as ^^ oddOnes bs) := by
  induction as with
  | nil => simp [oddOnes]
  | cons a as ih => rw [List.cons_append, oddOnes_cons, ih, oddOnes_cons, Bool.xor_assoc]

theorem oddOnes_map_xor (f g : Nat → Bool) (is : List Nat) :
    oddOnes (is.map fun i => f i ^^ g i) = (oddOnes (is.map f) ^^ oddOnes (is.map g)) := by
  induction is with
  | nil => rfl
  | cons i is ih =>
    rw [List.map_cons, oddOnes_cons, ih, List.map_cons, oddOnes_cons, List.map_cons, oddOnes_cons,
      Bool.xor_assoc, Bool.xor_assoc, Bool.xor_left_comm (g i)]

theorem oddOnes_iff (bs : List Bool) : oddOnes bs = true ↔ Odd (bs.count true) := by
  induction bs with
  | nil => decide
  | cons b bs ih =>
    cases b
    · simpa using ih
    · rw [oddOnes_cons, List.count_cons_self, Nat.odd_add_one, ← ih, Bool.true_xor]
      simp

/-- The bits of the register, the one that leaves first in front. -/
def contents (r : Register) : List Bool := (List.range 24).map r.getLsbD

theorem oddOnes_contents_xor (r s : Register) :
    oddOnes (contents (r ^^^ s)) = (oddOnes (contents r) ^^ oddOnes (contents s)) := by
  unfold contents
  rw [← oddOnes_map_xor]
  congr 2
  funext i
  exact BitVec.getLsbD_xor

/-- What is divided out is added again by the polynomial, which has an odd number of terms without
its leading one. -/
theorem oddOnes_contents_shift (r : Register) :
    oddOnes (contents (shift r)) = oddOnes (contents r) := by
  have hdown : oddOnes (contents r) = (r.getLsbD 0 ^^ oddOnes (contents (r >>> 1))) := by
    have hbits : contents (r >>> 1) =
        ((List.range 23).map fun i => r.getLsbD (i + 1)) ++ [false] := by
      unfold contents
      rw [List.range_succ, List.map_append]
      simp [BitVec.getLsbD_ushiftRight, Nat.add_comm]
    have hrest : contents r = r.getLsbD 0 :: (List.range 23).map fun i => r.getLsbD (i + 1) := by
      unfold contents
      rw [List.range_succ_eq_map, List.map_cons, List.map_map]
      rfl
    rw [hbits, hrest, oddOnes_append, oddOnes_cons]
    simp [oddOnes]
  rw [shift_eq, oddOnes_contents_xor, hdown, Bool.xor_comm]
  congr 1
  cases r.getLsbD 0 <;> decide

/-- The register keeps the parity of what it was fed. -/
theorem oddOnes_run (r : Register) (bs : List Bool) :
    oddOnes (contents (run r bs)) = (oddOnes (contents r) ^^ oddOnes bs) := by
  induction bs generalizing r with
  | nil => simp [oddOnes]
  | cons b bs ih =>
    have hbit : oddOnes (contents ((BitVec.ofBool b).setWidth 24)) = b := by
      cases b <;> decide
    rw [run_cons, ih, feed, oddOnes_contents_shift, oddOnes_contents_xor, hbit, oddOnes_cons,
      Bool.xor_assoc]

/-! ## Flips that do not cancel -/

/-- All ones of a bit string lie within some number of consecutive places. -/
def Within (n : Nat) (bs : List Bool) : Prop :=
  ∃ start, ∀ i, bs[i]? = some true → start ≤ i ∧ i < start + n

theorem run_ne_zero_of_odd {flips : List Bool} (h : Odd (flips.count true)) :
    run 0#24 flips ≠ 0#24 := by
  intro hzero
  have hparity := oddOnes_run 0#24 flips
  rw [hzero, (oddOnes_iff flips).mpr h] at hparity
  exact absurd hparity (by decide)

theorem run_ne_zero_of_within {flips : List Bool} (hflips : true ∈ flips) (h : Within 24 flips) :
    run 0#24 flips ≠ 0#24 := by
  obtain ⟨before, after, rfl, hfirst⟩ := List.eq_append_cons_of_mem hflips
  obtain ⟨start, hwithin⟩ := h
  -- Up to the first flip the register is zero, and the first flip fills it.
  have hquiet : run 0#24 before = 0#24 := by
    have hfalse : before = List.replicate before.length false := by
      apply List.eq_replicate_of_mem
      intro b hb
      cases b
      · rfl
      · exact absurd hb hfirst
    rw [hfalse]
    generalize before.length = n
    induction n with
    | zero => rfl
    | succ n ih => exact ih
  have hfull : 2 ^ 23 ≤ (feed 0#24 true).toNat := by decide
  rw [run_append, hquiet, run_cons, ← List.take_append_drop 23 after, run_append]
  apply run_ne_zero_of_forall_false
  · -- Beyond the next 23 places there is no flip.
    intro b hb
    obtain ⟨i, hi⟩ := List.mem_iff_getElem?.mp hb
    rw [List.getElem?_drop] at hi
    cases b
    · rfl
    · have hhead := hwithin before.length (by simp)
      have hlate := hwithin (before.length + (i + 23 + 1)) (by
        rw [List.getElem?_append_right (by omega), Nat.add_sub_cancel_left, List.getElem?_cons_succ,
          Nat.add_comm i]
        exact hi)
      omega
  · apply run_ne_zero_of_le
    · exact List.length_take_le 23 after
    · exact (Nat.pow_le_pow_right (by decide) (List.length_take_le 23 after)).trans hfull

/-! ## The residue -/

/-- The register, fed its own lowest bits, moves down. -/
theorem run_contents (r : Register) (n : Nat) :
    run r ((List.range n).map r.getLsbD) = r >>> n := by
  induction n with
  | zero => simp
  | succ n ih =>
    have hlow : ((r >>> n) ^^^ (BitVec.ofBool (r.getLsbD n)).setWidth 24).getLsbD 0 = false := by
      rw [BitVec.getLsbD_xor, BitVec.getLsbD_ushiftRight, Nat.add_zero]
      cases r.getLsbD n <;> rfl
    have hgone : ((BitVec.ofBool (r.getLsbD n)).setWidth 24) >>> 1 = 0#24 := by
      cases r.getLsbD n <;> rfl
    rw [List.range_succ, List.map_append, run_append, ih, List.map_singleton, run_cons, run_nil,
      feed, shift_eq, hlow, if_neg Bool.false_ne_true, BitVec.xor_zero,
      BitVec.ushiftRight_xor_distrib, hgone, BitVec.xor_zero, BitVec.shiftRight_add]

theorem bits_toWire (r : Register) : (toWire r).bits = contents r :=
  Octets.bits_ofNat 3 r.toNat

/-- A body with its check leaves zero. -/
theorem checksum_append_toWire (seed : Register) (body : Octets) :
    checksum seed (body ++ toWire (checksum seed body)) = 0#24 := by
  rw [checksum_append, checksum_eq_run _ (toWire _), bits_toWire, contents, run_contents]
  exact BitVec.ushiftRight_eq_zero (le_refl 24)

/-- Every three octets are the check that is read from them. -/
theorem toWire_ofWire {o : Octets} (h : o.length = 3) : toWire (ofWire o) = o := by
  have hslice : o.slice 0 3 = o := by
    rw [Octets.slice, List.drop_zero, List.take_of_length_le (le_of_eq h)]
  have hlt := Octets.toNat_lt o
  rw [h] at hlt
  have hvalue : (ofWire o).toNat = o.toNat := by
    rw [ofWire, Octets.word24, Octets.field, hslice, BitVec.toNat_ofNat]
    exact Nat.mod_eq_of_lt hlt
  rw [toWire, Octets.ofWord24, hvalue, ← h, Octets.ofNat_toNat]

end Crc

/-! ## Frames -/

namespace Octets

/-- Octets with some of their bits flipped, those where `flips` has a one. -/
def flip (flips : List Bool) (o : Octets) : Octets := ofBits (List.zipWith xor o.bits flips)

theorem bits_flip {flips : List Bool} {o : Octets} (h : flips.length = 8 * o.length) :
    (flip flips o).bits = List.zipWith xor o.bits flips := by
  apply bits_ofBits_of_dvd
  rw [List.length_zipWith, length_bits, h, Nat.min_self]
  exact Nat.dvd_mul_right 8 o.length

theorem length_flip {flips : List Bool} {o : Octets} (h : flips.length = 8 * o.length) :
    (flip flips o).length = o.length := by
  have hbits := congrArg List.length (bits_flip h)
  rw [length_bits, List.length_zipWith, length_bits, h, Nat.min_self] at hbits
  omega

end Octets

namespace Frame

/-- What is sent of a frame after its access address: the body and the three octets of the check. -/
def sent (f : Frame) : Octets := f.body ++ Octets.ofNat 3 (f.crc.getD 0).toNat

/-- The frame that arrives in the place of `f` if bits of its body and its check are flipped, in the
order in which they are sent. -/
def flip (flips : List Bool) (f : Frame) : Frame :=
  let o := Octets.flip flips f.sent
  { f with
    body := o.take f.body.length
    crc := f.crc.map fun _ => UInt32.ofNat (Crc.ofWire (o.drop f.body.length)).toNat }

theorem length_sent (f : Frame) : f.sent.length = f.body.length + 3 := by
  rw [sent, List.length_append, Octets.length_ofNat]

/-- What is sent of the damaged frame has the length of the frame and the flipped bits. -/
theorem sent_flip {flips : List Bool} {f : Frame} {c : UInt32}
    (hlength : flips.length = 8 * (f.body.length + 3)) (hcrc : f.crc = some c) :
    (f.flip flips).body.length = f.body.length ∧
      (f.flip flips).sent.bits = List.zipWith xor f.sent.bits flips := by
  have hflips : flips.length = 8 * f.sent.length := by rw [length_sent, hlength]
  have hwhole : (Octets.flip flips f.sent).length = f.body.length + 3 := by
    rw [Octets.length_flip hflips, length_sent]
  have hcheck : ((Octets.flip flips f.sent).drop f.body.length).length = 3 := by
    rw [List.length_drop, hwhole, Nat.add_sub_cancel_left]
  have hword : Octets.ofNat 3 ((f.flip flips).crc.getD 0).toNat =
      (Octets.flip flips f.sent).drop f.body.length := by
    simp only [flip, hcrc, Option.map_some, Option.getD_some, Crc.toNat_word]
    exact Crc.toWire_ofWire hcheck
  constructor
  · rw [flip, List.length_take, hwhole]
    omega
  · rw [sent, hword, flip, List.take_append_drop, Octets.bits_flip hflips]

end Frame

namespace Tracker

variable {τ : Type} [TimeScale τ]

/-- A decoded frame has a verdict on its check if it carries one and the seed is known. -/
theorem decode_crcValid_eq_some {t : Tracker τ} {f : StampedFrame τ} {b : Bool} :
    (t.decode f).1.crcValid = some b ↔
      ∃ c seed, f.frame.crc = some c ∧ t.link.seedFor? f.accessAddress = some seed ∧
        checks seed f.frame.body c = b := by
  have hlink : (t.expire f.time).link = t.link := rfl
  simp only [decode, hlink]
  cases f.frame.crc with
  | none => simp
  | some c =>
    cases t.link.seedFor? f.accessAddress with
    | none => simp
    | some seed => simp

omit [TimeScale τ] in
/-- If the check of a frame is right, the frame leaves zero in the register. -/
theorem checksum_sent {f : Frame} {c : UInt32} {seed : Crc.Register} (hcrc : f.crc = some c)
    (h : checks seed f.body c = true) : Crc.checksum seed f.sent = 0#24 := by
  have hword : Octets.ofNat 3 (f.crc.getD 0).toNat = Crc.toWire (Crc.checksum seed f.body) := by
    rw [hcrc, Option.getD_some, ← beq_iff_eq.mp h]
    rfl
  rw [Frame.sent, hword, Crc.checksum_append_toWire]

/-- A frame whose check is right is found damaged, in the same state of the tracker, if bits of its
body and its check are flipped and all of them lie within 24 consecutive places or their number is
odd. -/
theorem damage_found (t : Tracker τ) (f : StampedFrame τ) (flips : List Bool)
    (hlength : flips.length = 8 * (f.frame.body.length + 3))
    (hvalid : (t.decode f).1.crcValid = some true) (hflips : true ∈ flips)
    (hkind : Crc.Within 24 flips ∨ Odd (flips.count true)) :
    (t.decode { f with frame := f.frame.flip flips }).1.crcValid = some false := by
  obtain ⟨c, seed, hcrc, hseed, hright⟩ := decode_crcValid_eq_some.mp hvalid
  obtain ⟨_, hbits⟩ := Frame.sent_flip hlength hcrc
  have hremains : Crc.run 0#24 flips ≠ 0#24 := by
    rcases hkind with hwithin | hodd
    · exact Crc.run_ne_zero_of_within hflips hwithin
    · exact Crc.run_ne_zero_of_odd hodd
  -- The damaged frame leaves in the register what its flips leave.
  have hresidue : Crc.checksum seed (f.frame.flip flips).sent = Crc.run 0#24 flips := by
    have hsame : f.frame.sent.bits.length = flips.length := by
      rw [Octets.length_bits, Frame.length_sent, hlength]
    have hzero := checksum_sent hcrc hright
    rw [Crc.checksum_eq_run] at hzero
    have hlinear := Crc.run_xor hsame seed 0#24
    rw [BitVec.xor_zero, hzero, BitVec.zero_xor] at hlinear
    rw [Crc.checksum_eq_run, hbits, hlinear]
  have hcrc' : ∃ c', (f.frame.flip flips).crc = some c' := by
    rw [Frame.flip, hcrc]
    exact ⟨_, rfl⟩
  obtain ⟨c', hcrc'⟩ := hcrc'
  refine decode_crcValid_eq_some.mpr ⟨c', seed, hcrc', hseed, ?_⟩
  apply eq_false_of_ne_true
  intro hright'
  exact hremains (hresidue.symm.trans (checksum_sent hcrc' hright'))

/-- An advertising packet with its check. -/
def checkedFrame : Frame :=
  ⟨0, .centralToPeripheral, false, 0, 0, 37, .le1M, [0x42, 2, 0xAA, 0xBB],
    some (UInt32.ofNat (Crc.checksum LinkContext.advertising.seed [0x42, 2, 0xAA, 0xBB]).toNat),
    none⟩

/-- A burst over the end of that packet's body: the last two bits of the body and two of the
check. -/
def burst : List Bool :=
  List.replicate 30 false ++ [true, true, false, true, true] ++ List.replicate 21 false

/-- The burst is found. -/
theorem damage_found_across_body_end :
    let t : Tracker ℚ := .start .standard
    let f : StampedFrame ℚ := ⟨0, 0, advertisingAddress, checkedFrame⟩
    (t.decode f).1.crcValid = some true ∧
      (t.decode { f with frame := checkedFrame.flip burst }).1.crcValid = some false := by
  intro t f
  have hvalid : (t.decode f).1.crcValid = some true := by decide +kernel
  refine ⟨hvalid, t.damage_found f burst rfl hvalid (by decide) (.inl ⟨30, ?_⟩)⟩
  intro i hi
  have hplaces : ∀ i < 56, burst[i]? = some true → 30 ≤ i ∧ i < 30 + 24 := by decide
  apply hplaces i _ hi
  exact (List.getElem?_eq_some_iff.mp hi).1

end Tracker

end AirTrace

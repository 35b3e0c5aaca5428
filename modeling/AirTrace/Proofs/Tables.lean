import Mathlib
import AirTrace.Coding.Table
import AirTrace.Octets.Number
import AirTrace.Proofs.Convolution
import AirTrace.Proofs.Pattern

/-!
# The tables code as the codes say

Coding by tables and coding bit by bit come to the same.

There are three groups.

* Words.  A word that is filled part by part holds the bits of its parts one after the other
  (`holds_fill`).
* The convolutional code.  A state of the table is the memory of the code (`memory`), and one step
  of building an entry adds the coded pair of one bit and shifts that bit into the memory
  (`Entry.codes_extend`).  So an entry holds the coded octets of its octet (`lookUp_codes`), and a
  string is coded octet by octet from the state that the octets before it left (`encode_eq`).
* The pattern mapping.  A nibble holds the symbols of a bit, and it is read by the same rule
  (`map_eq`, `unmap_eq`).
-/

namespace AirTrace.Coding.Table

variable {n k : Nat}

/-! ## Words -/

/-- The bits of a word, lowest first. -/
def wordBits (w : BitVec n) : List Bool := (List.range n).map w.getLsbD

@[simp] theorem length_wordBits (w : BitVec n) : (wordBits w).length = n := by
  rw [wordBits, List.length_map, List.length_range]

theorem getD_wordBits (w : BitVec n) (i : Nat) : (wordBits w).getD i false = w.getLsbD i := by
  rcases Nat.lt_or_ge i n with hi | hi
  · rw [List.getD_eq_getElem _ _ (by rwa [length_wordBits])]
    simp [wordBits]
  · rw [List.getD_eq_default _ _ (by rwa [length_wordBits]), BitVec.getLsbD_of_ge w i hi]

theorem bits_ofNat_toNat (w : BitVec (8 * n)) : (Octets.ofNat n w.toNat).bits = wordBits w :=
  Octets.bits_ofNat n w.toNat

/-- The lowest bits of a word are those of a bit string, and above them there are zeros. -/
def Holds (w : BitVec n) (bs : List Bool) : Prop := ∀ i < n, w.getLsbD i = bs.getD i false

theorem holds_zero : Holds 0#n [] := fun _ _ => BitVec.getLsbD_zero

/-- A word that a bit string fills has the bits of the string. -/
theorem Holds.wordBits_eq {w : BitVec n} {bs : List Bool} (h : Holds w bs) (hlen : bs.length = n) :
    wordBits w = bs := by
  apply List.ext_getElem (by rw [length_wordBits, hlen])
  intro i hi hi'
  have hbit := h i (by rwa [length_wordBits] at hi)
  rw [List.getD_eq_getElem _ _ hi'] at hbit
  simpa [wordBits] using hbit

/-- The next part comes above the bits that the word holds. -/
theorem Holds.place {w : BitVec n} {bs : List Bool} {j : Nat} (h : Holds w bs)
    (hlen : bs.length = k * j) (part : BitVec k) :
    Holds (place w j part) (bs ++ wordBits part) := by
  intro i hi
  rw [Table.place, BitVec.getLsbD_or, BitVec.getLsbD_shiftLeft, BitVec.getLsbD_setWidth, h i hi,
    decide_eq_true hi, Bool.true_and]
  rcases Nat.lt_or_ge i bs.length with hlow | hhigh
  · rw [List.getD_append _ _ _ _ hlow, decide_eq_true (by omega : i < k * j)]
    simp
  · rw [List.getD_append_right _ _ _ _ hhigh, List.getD_eq_default _ _ hhigh, getD_wordBits,
      decide_eq_false (by omega : ¬i < k * j), decide_eq_true (by omega : i - k * j < n), hlen]
    simp

/-- A word holds its parts one after the other. -/
theorem holds_fill (m : Nat) (part : Nat → BitVec k) :
    Holds (fill n m part) ((List.range m).flatMap fun j => wordBits (part j)) := by
  induction m with
  | zero => exact holds_zero
  | succ m ih =>
    have hlen : ((List.range m).flatMap fun j => wordBits (part j)).length = k * m := by
      simp [List.length_flatMap, Nat.mul_comm]
    rw [fill, List.range_succ, List.foldl_append, List.flatMap_append, List.flatMap_singleton]
    exact ih.place hlen (part m)

theorem wordBits_fill {m : Nat} (h : k * m = n) (part : Nat → BitVec k) :
    wordBits (fill n m part) = (List.range m).flatMap fun j => wordBits (part j) := by
  apply (holds_fill m part).wordBits_eq
  simp [List.length_flatMap, Nat.mul_comm, h]

/-! ## The convolutional code -/

/-- The memory that a state stands for. -/
def memory (s : State) : Memory := ⟨s.getLsbD 2, s.getLsbD 1, s.getLsbD 0⟩

theorem memory_next (s : State) (b : Bool) : memory (next s b) = (memory s).push b := by
  revert s b
  decide

theorem parity_firstTaps (s : State) (b : Bool) :
    parity (register s b &&& firstTaps) = (b ^^ (memory s).first) := by
  revert s b
  decide

theorem parity_secondTaps (s : State) (b : Bool) :
    parity (register s b &&& secondTaps) = (b ^^ (memory s).second) := by
  revert s b
  decide

theorem wordBits_ofBool (b : Bool) : wordBits (BitVec.ofBool b) = [b] := by
  cases b <;> rfl

/-- What an entry is after some of the bits of its octet: it holds their coded pairs, and the
state is the memory that they leave. -/
structure Entry.Codes (s : State) (bs : List Bool) (e : Entry) : Prop where
  word : Holds e.word (encodeBits (memory s) bs)
  state : memory e.state = (memory s).after bs

/-- One step of building an entry codes one bit. -/
theorem Entry.codes_extend {s : State} {bs : List Bool} {e : Entry} (h : e.Codes s bs) (o : UInt8) :
    (e.extend o bs.length).Codes s (bs ++ [o.toNat.testBit bs.length]) := by
  have hlen : (encodeBits (memory s) bs).length = 2 * bs.length := length_encodeBits _ bs
  have hword : (e.extend o bs.length).word =
      place (place e.word (2 * bs.length)
        (BitVec.ofBool (o.toNat.testBit bs.length ^^ (memory e.state).first))) (2 * bs.length + 1)
        (BitVec.ofBool (o.toNat.testBit bs.length ^^ (memory e.state).second)) := by
    rw [← parity_firstTaps, ← parity_secondTaps]
    rfl
  -- The pair is read before the bit is shifted in, from the memory that the bits below it left.
  constructor
  · rw [hword, encodeBits_append, ← h.state]
    have hpair := (h.word.place (j := 2 * bs.length) (by omega)
      (BitVec.ofBool (o.toNat.testBit bs.length ^^ (memory e.state).first))).place
        (j := 2 * bs.length + 1) (by simp [hlen])
        (BitVec.ofBool (o.toNat.testBit bs.length ^^ (memory e.state).second))
    rw [wordBits_ofBool, wordBits_ofBool, List.append_assoc] at hpair
    exact hpair
  · show memory (next e.state _) = _
    rw [memory_next, h.state, Memory.after, Memory.after, List.foldl_append]
    rfl

theorem Entry.codes_build (s : State) (o : UInt8) (m : Nat) :
    (Entry.build s o m).Codes s ((List.range m).map o.toNat.testBit) := by
  induction m with
  | zero => exact ⟨holds_zero, rfl⟩
  | succ m ih =>
    have hstep := codes_extend ih o
    rw [List.length_map, List.length_range] at hstep
    rw [build, List.range_succ, List.foldl_append, List.map_append]
    exact hstep

/-- The entry of an octet has its coded octets and the state after it. -/
theorem lookUp_codes (s : State) (o : UInt8) :
    (Octets.ofNat 2 (lookUp s o).word.toNat).bits = encodeBits (memory s) (Octets.octetBits o) ∧
      memory (lookUp s o).state = (memory s).after (Octets.octetBits o) := by
  have hentry : lookUp s o = Entry.build s o 8 := by
    rw [lookUp, entries, Vector.get_ofFn, Vector.get_ofFn, UInt8.ofNat_toNat]
    rfl
  have hcodes : (lookUp s o).Codes s (Octets.octetBits o) := by
    rw [hentry]
    exact Entry.codes_build s o 8
  refine ⟨?_, hcodes.state⟩
  rw [bits_ofNat_toNat (n := 2)]
  apply hcodes.word.wordBits_eq
  rw [length_encodeBits]
  rfl

/-- The coded octets of data that come in some state are those of the code with its memory. -/
theorem bits_encodeFrom (s : State) (data : Octets) :
    (encodeFrom s data).bits = encodeBits (memory s) data.bits := by
  induction data generalizing s with
  | nil => rfl
  | cons o data ih =>
    obtain ⟨hword, hstate⟩ := lookUp_codes s o
    rw [encodeFrom, Octets.bits_append, hword, ih, hstate, Octets.bits_cons, encodeBits_append]

/-- Coding octet by octet is coding bit by bit. -/
theorem encode_eq (data : Octets) : encode data = Coding.encode data := by
  rw [← Octets.ofBits_bits (encode data), encode, bits_encodeFrom]
  rfl

/-! ## The pattern mapping -/

theorem wordBits_nibble (b : Bool) : wordBits (nibble b) = Pattern.symbols b := by
  cases b <;> rfl

/-- Mapping word by word is mapping bit by bit. -/
theorem map_eq (coded : Octets) : map coded = Pattern.map coded := by
  have hword : ∀ o : UInt8, (Octets.ofNat 4 (symbolWord o).toNat).bits =
      (Octets.octetBits o).flatMap Pattern.symbols := by
    intro o
    rw [bits_ofNat_toNat (n := 4), symbolWord, wordBits_fill (by decide : 4 * 8 = 32)]
    simp only [wordBits_nibble]
    exact (List.flatMap_map (l := List.range 8) _ _).symm
  have hbits : (map coded).bits = coded.bits.flatMap Pattern.symbols := by
    induction coded with
    | nil => rfl
    | cons o coded ih =>
      rw [map, List.flatMap_cons, Octets.bits_append, hword, ← map, ih, Octets.bits_cons,
        List.flatMap_append]
  rw [← Octets.ofBits_bits (map coded), hbits, Pattern.map]

theorem nearest_eq (x : BitVec 4) :
    nearest x = Pattern.nearest (x.getLsbD 0) (x.getLsbD 1) (x.getLsbD 2) (x.getLsbD 3) := by
  revert x
  decide

/-- The coded bit that part `j` of a word of symbols stands for. -/
theorem nibbleBits_get (w : BitVec 32) (j : Nat) :
    nibbleBits.get ((w >>> (4 * j)).setWidth 4).toFin =
      Pattern.nearest (w.getLsbD (4 * j)) (w.getLsbD (4 * j + 1)) (w.getLsbD (4 * j + 2))
        (w.getLsbD (4 * j + 3)) := by
  rw [nibbleBits, Vector.get_ofFn]
  show nearest ((w >>> (4 * j)).setWidth 4) = _
  rw [nearest_eq]
  simp

/-- A word is read nibble by nibble. -/
theorem octetBits_codedOctet (w : BitVec 32) :
    Octets.octetBits (codedOctet w) = Pattern.unmapBits (wordBits w) := by
  have hparts : Octets.octetBits (codedOctet w) =
      wordBits (fill 8 8 fun j => BitVec.ofBool
        (nibbleBits.get ((w >>> (4 * j)).setWidth 4).toFin)) := rfl
  rw [hparts, wordBits_fill (by decide : 1 * 8 = 8)]
  simp only [wordBits_ofBool, nibbleBits_get]
  rfl

/-- A word of symbols is read as the coded octet that its octets stand for. -/
theorem unmap_word (s0 s1 s2 s3 : UInt8) :
    Pattern.unmap [s0, s1, s2, s3] =
      [codedOctet (BitVec.ofNat 32 (Octets.toNat [s0, s1, s2, s3]))] := by
  have hlt : Octets.toNat [s0, s1, s2, s3] < 2 ^ 32 :=
    (Octets.toNat_lt [s0, s1, s2, s3]).trans_eq (by norm_num)
  have hword : wordBits (BitVec.ofNat 32 (Octets.toNat [s0, s1, s2, s3])) =
      Octets.bits [s0, s1, s2, s3] := by
    rw [← bits_ofNat_toNat (n := 4), BitVec.toNat_ofNat, Nat.mod_eq_of_lt hlt]
    exact congrArg Octets.bits (Octets.ofNat_toNat [s0, s1, s2, s3])
  rw [Pattern.unmap, ← hword, ← octetBits_codedOctet,
    ← List.append_nil (Octets.octetBits _), Octets.ofBits_octetBits_append]
  rfl

/-- Reading word by word is reading bit by bit. -/
theorem unmap_eq (received : Octets) : unmap received = Pattern.unmap received := by
  fun_induction unmap received with
  | case1 s0 s1 s2 s3 rest ih =>
    have hfirst := Pattern.unmap_append (a := [s0, s1, s2, s3]) (dvd_refl 4) rest
    rw [unmap_word, ← ih] at hfirst
    exact hfirst.symm
  | case2 received hshort =>
    have hlen : received.length < 4 := by
      match received with
      | [] | [_] | [_, _] | [_, _, _] => simp
      | s0 :: s1 :: s2 :: s3 :: rest => exact (hshort s0 s1 s2 s3 rest rfl).elim
    exact (Pattern.unmap_of_length_lt hlen).symm

end AirTrace.Coding.Table

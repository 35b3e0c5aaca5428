import Mathlib
import AirTrace.Coding.Convolution

/-!
# The convolutional code gives back what was sent

Of the three votes on a bit, two come from its own coded pair.  A pair that arrives clean therefore
decides its bit by itself, whatever comes after it (`decodeBit_clean`), and a clean string decodes
to its data also where other symbols follow it: `decode_encode_append` says so for octets, with what
the decoder makes of the rest.

The coder does not look ahead either, so the code of some data starts with the code of their front
(`encode_append`).
-/

namespace AirTrace.Coding

/-! ## Bits -/

/-- A clean pair outvotes the pair after it. -/
theorem decodeBit_clean (m : Memory) (b : Bool) (following : List Bool) :
    decodeBit m (b ^^ m.first) (b ^^ m.second) following = b := by
  have hfirst : (b ^^ m.first ^^ m.first) = b := by
    rw [Bool.xor_assoc, Bool.xor_self, Bool.xor_false]
  have hsecond : (b ^^ m.second ^^ m.second) = b := by
    rw [Bool.xor_assoc, Bool.xor_self, Bool.xor_false]
  unfold decodeBit
  split
  · rw [hfirst, hsecond]
    cases b <;> simp [majority]
  · exact hsecond

/-- The memory after a bit string. -/
def Memory.after (m : Memory) (bs : List Bool) : Memory := bs.foldl push m

@[simp] theorem length_encodeBits (m : Memory) (bs : List Bool) :
    (encodeBits m bs).length = 2 * bs.length := by
  induction bs generalizing m with
  | nil => rfl
  | cons b bs ih =>
    rw [encodeBits, List.length_cons, List.length_cons, ih, List.length_cons]
    omega

/-- Coding a bit string in two parts is coding it as a whole, if the memory is kept. -/
theorem encodeBits_append (m : Memory) (as bs : List Bool) :
    encodeBits m (as ++ bs) = encodeBits m as ++ encodeBits (m.after as) bs := by
  induction as generalizing m with
  | nil => rfl
  | cons a as ih =>
    rw [List.cons_append, encodeBits, ih, encodeBits, List.cons_append, List.cons_append]
    rfl

/-- A clean string decodes to its bits, and what follows it is decoded from the memory they
leave. -/
theorem decodeBits_encodeBits_append (m : Memory) (bs rest : List Bool) :
    decodeBits m (encodeBits m bs ++ rest) = bs ++ decodeBits (m.after bs) rest := by
  induction bs generalizing m with
  | nil => rfl
  | cons b bs ih =>
    rw [encodeBits, List.cons_append, List.cons_append, decodeBits]
    simp only [decodeBit_clean]
    rw [ih, List.cons_append]
    rfl

/-! ## Octets -/

/-- The coded bits of some data fill the coded octets. -/
theorem bits_encode (data : Octets) : (encode data).bits = encodeBits .empty data.bits := by
  apply Octets.bits_ofBits_of_dvd
  rw [length_encodeBits, Octets.length_bits]
  omega

@[simp] theorem length_encode (data : Octets) : (encode data).length = 2 * data.length := by
  rw [encode, Octets.length_ofBits, length_encodeBits, Octets.length_bits]
  omega

/-- The code of some data starts with the code of their front. -/
theorem encode_append (front rest : Octets) :
    encode (front ++ rest) = encode front ++
      Octets.ofBits (encodeBits (Memory.empty.after front.bits) rest.bits) := by
  have hwhole : 8 ∣ (encodeBits .empty front.bits).length := by
    rw [length_encodeBits, Octets.length_bits]
    omega
  rw [encode, Octets.bits_append, encodeBits_append, Octets.ofBits_append hwhole, encode]

/-- Clean coded octets decode to their data, whatever was received after them. -/
theorem decode_encode_append (data noise : Octets) :
    decode (encode data ++ noise) = data ++ Octets.ofBits (decodeBits (Memory.empty.after data.bits)
      (Octets.bits (noise.take (2 * (noise.length / 2))))) := by
  have heven : 2 * ((encode data ++ noise).length / 2) =
      (encode data).length + 2 * (noise.length / 2) := by
    rw [List.length_append, length_encode]
    omega
  rw [decode, heven, List.take_length_add_append, Octets.bits_append, bits_encode,
    decodeBits_encodeBits_append, Octets.ofBits_bits_append]

/-- An octet that has no other with it adds nothing. -/
theorem decode_encode_append_of_length_lt (data : Octets) {noise : Octets}
    (h : noise.length < 2) : decode (encode data ++ noise) = data := by
  have hpairs : 2 * (noise.length / 2) = 0 := by omega
  rw [decode_encode_append, hpairs, List.take_zero, Octets.bits_nil]
  exact List.append_nil data

end AirTrace.Coding

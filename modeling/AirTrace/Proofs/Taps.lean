import Mathlib
import AirTrace.Proofs.Tables

/-!
# The coded bits as sums of data bits

The radio specification gives the code by two polynomials, 1 + D + D² + D³ for the first bit of a
coded pair and 1 + D² + D³ for the second, where D is a delay by one data bit and the data are
preceded by zeros.  `Coding.encode_taps` says that the coder, bit by bit or by tables, is that code:
each coded bit is the sum of the data bits that its polynomial names, also where these lie in the
octets before.

The induction carries the memory as the three bits that came before the data
(`Memory.history`).
-/

namespace AirTrace.Coding

/-! ## Bit strings -/

/-- The bits of the memory, the oldest first, and the bits that come after them. -/
def Memory.history (m : Memory) (bs : List Bool) : Nat → Bool
  | 0 => m.three
  | 1 => m.two
  | 2 => m.one
  | j + 3 => bs.getD j false

/-- When a bit is pushed into the memory, the history loses its oldest bit. -/
theorem Memory.history_push (m : Memory) (b : Bool) (bs : List Bool) (j : Nat) :
    (m.push b).history bs j = m.history (b :: bs) (j + 1) := by
  match j with
  | 0 | 1 | 2 | _ + 3 => rfl

/-- The coded pair of a bit sums the bit and the three that came before it. -/
theorem encodeBits_taps (m : Memory) (bs : List Bool) {i : Nat} (hi : i < bs.length) :
    (encodeBits m bs)[2 * i]? = some (m.history bs (i + 3) ^^ m.history bs (i + 2) ^^
        m.history bs (i + 1) ^^ m.history bs i) ∧
      (encodeBits m bs)[2 * i + 1]? = some (m.history bs (i + 3) ^^ m.history bs (i + 1) ^^
        m.history bs i) := by
  induction bs generalizing m i with
  | nil => exact absurd hi (Nat.not_lt_zero i)
  | cons b bs ih =>
    cases i with
    | zero =>
      constructor
      · show some (b ^^ m.first) = some (b ^^ m.one ^^ m.two ^^ m.three)
        simp only [Memory.first, Bool.xor_assoc]
      · show some (b ^^ m.second) = some (b ^^ m.two ^^ m.three)
        simp only [Memory.second, Bool.xor_assoc]
    | succ i =>
      have hnext := ih (m.push b) (Nat.lt_of_succ_lt_succ hi)
      simp only [Memory.history_push] at hnext
      have hpair : 2 * (i + 1) = 2 * i + 1 + 1 := by omega
      rw [encodeBits, hpair, List.getElem?_cons_succ, List.getElem?_cons_succ,
        List.getElem?_cons_succ, List.getElem?_cons_succ]
      exact hnext

/-! ## Octets -/

/-- Bit `j` of some data in transmission order; before the first bit there are zeros. -/
def bitAt (data : Octets) : ℤ → Bool
  | .ofNat j => data.bits.getD j false
  | .negSucc _ => false

/-- Before the data the memory holds zeros. -/
theorem history_empty (data : Octets) (j : Nat) :
    Memory.empty.history data.bits j = bitAt data ((j : ℤ) - 3) := by
  match j with
  | 0 | 1 | 2 => rfl
  | j + 3 =>
    have hplace : ((j + 3 : ℕ) : ℤ) - 3 = Int.ofNat j := by
      simp
    rw [hplace]
    rfl

/-- The coder, also the one that works by tables, gives two octets for each octet of data.  Bits
`2 * i` and `2 * i + 1` of what it gives are the sums of the data bits that the two polynomials
name, counted back from data bit `i`. -/
theorem encode_taps (data : Octets) :
    Table.encode data = encode data ∧ (encode data).length = 2 * data.length ∧
      ∀ i : Nat, i < 8 * data.length →
        (encode data).bits[2 * i]? = some (bitAt data i ^^ bitAt data (i - 1) ^^
          bitAt data (i - 2) ^^ bitAt data (i - 3)) ∧
        (encode data).bits[2 * i + 1]? = some (bitAt data i ^^ bitAt data (i - 2) ^^
          bitAt data (i - 3)) := by
  refine ⟨Table.encode_eq data, length_encode data, fun i hi => ?_⟩
  have htaps := encodeBits_taps .empty data.bits (i := i) (by rwa [Octets.length_bits])
  simp only [history_empty] at htaps
  have hnow : ((i + 3 : ℕ) : ℤ) - 3 = i := by omega
  have hone : ((i + 2 : ℕ) : ℤ) - 3 = i - 1 := by omega
  have htwo : ((i + 1 : ℕ) : ℤ) - 3 = i - 2 := by omega
  rw [hnow, hone, htwo, ← bits_encode] at htaps
  exact htaps

/-- The first bit of a second octet sums bits of the first one: after 0xE0 it is coded to the pair
one and zero, at the start of the data it would be two zeros. -/
theorem encode_taps_across_octets :
    8 < 8 * ([0xE0, 0x00] : Octets).length ∧
      (encode [0xE0, 0x00]).bits[16]? = some true ∧
      (encode [0xE0, 0x00]).bits[17]? = some false := by
  have hbound : 8 < 8 * ([0xE0, 0x00] : Octets).length := by decide
  obtain ⟨-, -, htaps⟩ := encode_taps [0xE0, 0x00]
  exact ⟨hbound, (htaps 8 hbound).1, (htaps 8 hbound).2⟩

end AirTrace.Coding

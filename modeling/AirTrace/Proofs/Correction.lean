import AirTrace.Proofs.Detection

/-!
# Which damage the convolutional code repairs

A data bit is decided by three votes: the two coded bits of its own pair, and the sum of the next
pair.  A flipped coded bit turns its own vote, and it turns the vote of its pair on the bit before.
The last bit has no next pair, and there the second coded bit decides alone.  So the data come back
if and only if no bit has two votes turned and the last bit keeps the vote that decides it:
`Coding.decode_flip_eq_iff`.

`majority_xor` counts the turned votes, and `decodeBit_flip` reads them off the flips of a pair and
of the next one.  `decodeBits_flip` is the induction.  It goes along the data with the memory that
the right bits leave: up to the first wrong bit the decoder has that memory, and a wrong bit settles
the matter, whatever comes after it.
-/

namespace AirTrace.Coding

/-! ## Flips by pairs -/

/-- Whether the first coded bit of pair `i` is flipped. -/
def firstFlip (flips : List Bool) (i : Nat) : Bool := flips.getD (2 * i) false

/-- Whether the second coded bit of pair `i` is flipped. -/
def secondFlip (flips : List Bool) (i : Nat) : Bool := flips.getD (2 * i + 1) false

/-- Whether the flips of pair `i` turn its sum, which is its vote on the bit before it. -/
def sumFlip (flips : List Bool) (i : Nat) : Bool := firstFlip flips i ^^ secondFlip flips i

/-- How many coded bits of pair `i` are flipped. -/
def pairFlips (flips : List Bool) (i : Nat) : Nat :=
  (firstFlip flips i).toNat + (secondFlip flips i).toNat

/-- No coded bit is flipped past the end of the flips. -/
theorem pairFlips_of_length_le {flips : List Bool} {i : Nat} (h : flips.length ≤ 2 * i) :
    pairFlips flips i = 0 := by
  rw [pairFlips, firstFlip, secondFlip, List.getD_eq_default _ _ h,
    List.getD_eq_default _ _ (Nat.le_succ_of_le h)]
  rfl

/-- The flips of `n` coded pairs turn too few votes to change a data bit. -/
structure Outvoted (n : Nat) (flips : List Bool) : Prop where
  /-- Of the three votes on a bit with a pair after its own, at most one is turned. -/
  votes : ∀ i, i + 1 < n →
    (firstFlip flips i).toNat + (secondFlip flips i).toNat + (sumFlip flips (i + 1)).toNat ≤ 1
  /-- The vote that decides the last bit is not turned. -/
  last : ∀ i, i + 1 = n → secondFlip flips i = false

variable {e0 e1 f0 f1 : Bool} {flips : List Bool}

theorem outvoted_zero (flips : List Bool) : Outvoted 0 flips :=
  ⟨fun _ hi => absurd hi (Nat.not_lt_zero _), fun i hi => absurd hi (Nat.succ_ne_zero i)⟩

theorem outvoted_one : Outvoted 1 (e0 :: e1 :: flips) ↔ e1 = false := by
  constructor
  · intro h
    exact h.last 0 rfl
  · intro h
    refine ⟨fun i hi => absurd hi (by omega), fun i hi => ?_⟩
    obtain rfl : i = 0 := by omega
    exact h

/-- With a pair after it, the first pair counts for itself, and the others are one place further. -/
theorem outvoted_succ {n : Nat} :
    Outvoted (n + 2) (e0 :: e1 :: f0 :: f1 :: flips) ↔
      e0.toNat + e1.toNat + (f0 ^^ f1).toNat ≤ 1 ∧ Outvoted (n + 1) (f0 :: f1 :: flips) := by
  constructor
  · intro h
    refine ⟨h.votes 0 (by omega), fun i hi => ?_, fun i hi => ?_⟩
    · exact h.votes (i + 1) (by omega)
    · exact h.last (i + 1) (by omega)
  · rintro ⟨hfirst, hrest⟩
    constructor
    · intro i hi
      cases i with
      | zero => exact hfirst
      | succ i => exact hrest.votes i (by omega)
    · intro i hi
      cases i with
      | zero => omega
      | succ i => exact hrest.last i (by omega)

/-- Single flips with a clean pair between them turn no two votes on one bit. -/
theorem outvoted_of_scattered {n : Nat} (hsingle : ∀ i, pairFlips flips i ≤ 1)
    (hscattered : ∀ i, pairFlips flips i = 0 ∨ pairFlips flips (i + 1) = 0)
    (hlast : ∀ i, i + 1 = n → secondFlip flips i = false) : Outvoted n flips := by
  refine ⟨fun i _ => ?_, hlast⟩
  have hsum : (sumFlip flips (i + 1)).toNat ≤ pairFlips flips (i + 1) := by
    unfold sumFlip pairFlips
    cases firstFlip flips (i + 1) <;> cases secondFlip flips (i + 1) <;> decide
  have hown := hsingle i
  have hnext := hsingle (i + 1)
  rcases hscattered i with h | h <;> (unfold pairFlips at *; omega)

/-! ## Bits -/

/-- Three votes of which some are turned come out right if at most one of them is. -/
theorem majority_xor (b v0 v1 v2 : Bool) :
    majority (b ^^ v0) (b ^^ v1) (b ^^ v2) = b ↔ v0.toNat + v1.toNat + v2.toNat ≤ 1 := by
  revert b v0 v1 v2
  decide

/-- The sum of a pair is the bit before it, the most recent one in the memory. -/
theorem Memory.first_xor_second (m : Memory) : (m.first ^^ m.second) = m.one := by
  obtain ⟨one, two, three⟩ := m
  revert one two three
  decide

/-- A bit with a pair after its own is decoded right if at most one of the votes is turned. -/
theorem decodeBit_flip (m : Memory) (b b' e0 e1 f0 f1 : Bool) (following : List Bool) :
    decodeBit m ((b ^^ m.first) ^^ e0) ((b ^^ m.second) ^^ e1)
        (((b' ^^ (m.push b).first) ^^ f0) :: ((b' ^^ (m.push b).second) ^^ f1) :: following) = b ↔
      e0.toNat + e1.toNat + (f0 ^^ f1).toNat ≤ 1 := by
  have hown : ∀ s e : Bool, ((b ^^ s) ^^ e ^^ s) = (b ^^ e) := by
    intro s e
    rw [Bool.xor_right_comm, Bool.xor_assoc b s s, Bool.xor_self, Bool.xor_false]
  have hsum : ∀ c s t f g : Bool,
      (((c ^^ s) ^^ f) ^^ ((c ^^ t) ^^ g)) = ((s ^^ t) ^^ (f ^^ g)) := by decide
  have hnext : (m.push b).one = b := rfl
  rw [decodeBit, hown, hown, hsum, Memory.first_xor_second, hnext, majority_xor]
  omega

/-- The last bit is decoded right if its second coded bit is not flipped. -/
theorem decodeBit_flip_last (m : Memory) (b c0 : Bool) :
    decodeBit m c0 ((b ^^ m.second) ^^ e1) [] = b ↔ e1 = false := by
  show ((b ^^ m.second) ^^ e1 ^^ m.second) = b ↔ _
  cases b <;> cases m.second <;> cases e1 <;> decide

@[simp] theorem length_decodeBits (m : Memory) (coded : List Bool) :
    (decodeBits m coded).length = coded.length / 2 := by
  fun_induction decodeBits m coded with
  | case1 m c0 c1 rest b ih =>
    rw [List.length_cons, ih, List.length_cons, List.length_cons]
    omega
  | case2 coded m hshort =>
    match coded with
    | [] | [_] => simp
    | c0 :: c1 :: rest => exact (hshort c0 c1 rest rfl).elim

/-- Flips of at least one pair start with a pair. -/
theorem exists_pair {n : Nat} (h : flips.length = 2 * (n + 1)) :
    ∃ e0 e1 rest, flips = e0 :: e1 :: rest := by
  rcases flips with _ | ⟨e0, _ | ⟨e1, rest⟩⟩
  · exact absurd h (by simp)
  · rw [List.length_singleton] at h
    omega
  · exact ⟨e0, e1, rest, rfl⟩

/-- The bits come back if and only if the flips are outvoted everywhere. -/
theorem decodeBits_flip (m : Memory) (bs flips : List Bool) (h : flips.length = 2 * bs.length) :
    decodeBits m (List.zipWith xor (encodeBits m bs) flips) = bs ↔ Outvoted bs.length flips := by
  induction bs generalizing m flips with
  | nil => exact iff_of_true rfl (outvoted_zero flips)
  | cons b bs ih =>
    obtain ⟨e0, e1, flips, rfl⟩ := exists_pair h
    have hrest : flips.length = 2 * bs.length := by
      simp only [List.length_cons] at h
      omega
    rw [encodeBits, List.zipWith_cons_cons, List.zipWith_cons_cons, decodeBits, List.cons.injEq]
    cases bs with
    | nil =>
      rw [List.length_singleton, outvoted_one]
      exact (and_iff_left rfl).trans (decodeBit_flip_last m b _)
    | cons b' bs =>
      obtain ⟨f0, f1, flips, rfl⟩ := exists_pair hrest
      have hbit := decodeBit_flip m b b' e0 e1 f0 f1
        (List.zipWith xor (encodeBits ((m.push b).push b') bs) flips)
      have htail := ih (m.push b) (f0 :: f1 :: flips) hrest
      rw [List.length_cons, List.length_cons, outvoted_succ, ← hbit, ← List.length_cons, ← htail]
      -- The rest is decoded from the right memory as soon as the first bit is right.
      exact and_congr_right fun hright => by rw [hright]

/-! ## Octets -/

/-- Coded octets that come in pairs are decoded bit by bit. -/
theorem bits_decode {coded : Octets} (h : Even coded.length) :
    (decode coded).bits = decodeBits .empty coded.bits := by
  obtain ⟨n, hn⟩ := h
  have hall : coded.take (2 * (coded.length / 2)) = coded := List.take_of_length_le (by omega)
  rw [decode, hall]
  apply Octets.bits_ofBits_of_dvd
  rw [length_decodeBits, Octets.length_bits]
  omega

/-- An odd octet at the end changes nothing. -/
theorem decode_append_singleton {coded : Octets} (h : Even coded.length) (last : UInt8) :
    decode (coded ++ [last]) = decode coded := by
  obtain ⟨n, hn⟩ := h
  have hodd : 2 * ((coded ++ [last]).length / 2) = coded.length := by
    rw [List.length_append, List.length_singleton]
    omega
  have heven : 2 * (coded.length / 2) = coded.length := by omega
  rw [decode, decode, hodd, heven, List.take_left, List.take_length]

/-- Coded octets with flipped bits decode to their data if and only if of the three votes on every
bit at most one is turned, and the one that decides the last bit is not.  In particular clean octets
decode to their data, and so do octets with any number of single flips that have a clean pair
between them and spare the second bit of the last pair.  A trailing odd octet changes nothing. -/
theorem decode_flip_eq_iff (data : Octets) (flips : List Bool)
    (hlength : flips.length = 16 * data.length) :
    (decode (Octets.flip flips (encode data)) = data ↔ Outvoted (8 * data.length) flips) ∧
      decode (encode data) = data ∧
      ((∀ i, pairFlips flips i ≤ 1) →
        (∀ i, pairFlips flips i = 0 ∨ pairFlips flips (i + 1) = 0) →
        (∀ i, i + 1 = 8 * data.length → secondFlip flips i = false) →
        decode (Octets.flip flips (encode data)) = data) ∧
      ∀ (received : Octets) (last : UInt8), Even received.length →
        decode (received ++ [last]) = decode received := by
  have hiff : decode (Octets.flip flips (encode data)) = data ↔
      Outvoted (8 * data.length) flips := by
    have hflips : flips.length = 8 * (encode data).length := by
      rw [length_encode, hlength]
      omega
    have heven : Even (Octets.flip flips (encode data)).length := by
      rw [Octets.length_flip hflips, length_encode]
      exact even_two_mul data.length
    have hbits := decodeBits_flip .empty data.bits flips
      (by rw [Octets.length_bits, hlength]; omega)
    rw [Octets.length_bits, ← bits_encode, ← Octets.bits_flip hflips, ← bits_decode heven] at hbits
    rw [← hbits]
    constructor
    · exact congrArg Octets.bits
    · intro h
      rw [← Octets.ofBits_bits (decode _), h, Octets.ofBits_bits]
  refine ⟨hiff, ?_, ?_, fun received last h => decode_append_singleton h last⟩
  · have hclean := decode_encode_append data []
    rwa [List.append_nil, List.length_nil, List.take_nil, Octets.bits_nil, decodeBits,
      Octets.ofBits, List.append_nil] at hclean
    all_goals simp
  · intro hsingle hscattered hlast
    exact hiff.mpr (outvoted_of_scattered hsingle hscattered hlast)

/-- Flips of a coded string of two octets: one bit of the pairs 0, 2 and 15. -/
def scattered : List Bool := (List.range 32).map fun i => i = 0 || i = 5 || i = 30

/-- Flips of both bits of pair 7, at the end of the first octet. -/
def doubled : List Bool := (List.range 32).map fun i => i = 14 || i = 15

/-- The scattered flips are repaired, also with an odd octet at the end; those of a whole pair are
not. -/
theorem decode_flip_scattered :
    scattered.length = 16 * 2 ∧ doubled.length = 16 * 2 ∧
      decode (Octets.flip scattered (encode [0xA5, 0x5A])) = [0xA5, 0x5A] ∧
      decode (Octets.flip scattered (encode [0xA5, 0x5A]) ++ [0xFF]) = [0xA5, 0x5A] ∧
      decode (Octets.flip doubled (encode [0xA5, 0x5A])) ≠ [0xA5, 0x5A] := by
  obtain ⟨-, -, hrepaired, hodd⟩ := decode_flip_eq_iff [0xA5, 0x5A] scattered rfl
  have hsingle : ∀ i, pairFlips scattered i ≤ 1 := by
    intro i
    rcases Nat.lt_or_ge i 16 with hi | hi
    · have hall : ∀ i < 16, pairFlips scattered i ≤ 1 := by decide
      exact hall i hi
    · rw [pairFlips_of_length_le (Nat.mul_le_mul_left 2 hi)]
      exact Nat.zero_le 1
  have hapart : ∀ i, pairFlips scattered i = 0 ∨ pairFlips scattered (i + 1) = 0 := by
    intro i
    rcases Nat.lt_or_ge i 16 with hi | hi
    · have hall : ∀ i < 16, pairFlips scattered i = 0 ∨ pairFlips scattered (i + 1) = 0 := by
        decide
      exact hall i hi
    · exact .inl (pairFlips_of_length_le (Nat.mul_le_mul_left 2 hi))
  have hlast : ∀ i, i + 1 = 16 → secondFlip scattered i = false := by
    intro i hi
    obtain rfl : i = 15 := Nat.succ.inj hi
    decide
  have hdata := hrepaired hsingle hapart hlast
  refine ⟨rfl, rfl, hdata, (hodd _ 0xFF (by decide)).trans hdata, ?_⟩
  intro h
  have hvotes := ((decode_flip_eq_iff [0xA5, 0x5A] doubled rfl).1.mp h).votes 7 (by decide)
  exact absurd hvotes (by decide)

end AirTrace.Coding

import AirTrace.Proofs.Detection
import AirTrace.Proofs.Tables

/-!
# Which flipped symbols change a coded bit

A received group of four symbols is as far from the pattern of the bit that was sent as symbols of
it were flipped, and the rest of the four from the other pattern (`distance_flip`,
`distance_flip_not`).  So up to one flip leaves the bit, three or more turn it, and of two flips the
first symbol decides: `nearest_flip`.  Groups are read by themselves, so the flips of one group
change no other bit.  `unmap_flip` says this for octet strings of any length, with flips anywhere,
and says that a few octets after them add nothing.
-/

namespace AirTrace.Coding.Pattern

/-! ## One group -/

section

variable {b s0 s1 s2 s3 : Bool}

/-- A group stands for the bit whose pattern is nearer. -/
theorem nearest_of_lt (h : distance b s0 s1 s2 s3 < distance (!b) s0 s1 s2 s3) :
    nearest s0 s1 s2 s3 = b := by
  unfold nearest
  cases b with
  | false => exact if_pos h
  | true => exact (if_neg (Nat.lt_asymm h)).trans (if_pos h)

/-- Between the two patterns the first symbol decides. -/
theorem nearest_of_eq (h : distance b s0 s1 s2 s3 = distance (!b) s0 s1 s2 s3) :
    nearest s0 s1 s2 s3 = s0 := by
  unfold nearest
  cases b with
  | false => exact (if_neg (Nat.not_lt_of_ge h.ge)).trans (if_neg (Nat.not_lt_of_ge h.le))
  | true => exact (if_neg (Nat.not_lt_of_ge h.le)).trans (if_neg (Nat.not_lt_of_ge h.ge))

end

/-- How many of four symbols are flipped. -/
def flipCount (e0 e1 e2 e3 : Bool) : Nat := e0.toNat + e1.toNat + e2.toNat + e3.toNat

section

variable (b e0 e1 e2 e3 : Bool)

theorem flipCount_le : flipCount e0 e1 e2 e3 ≤ 4 := by
  have h0 := e0.toNat_le
  have h1 := e1.toNat_le
  have h2 := e2.toNat_le
  have h3 := e3.toNat_le
  unfold flipCount
  omega

/-- A group is as far from the pattern that was sent as symbols of it are flipped. -/
theorem distance_flip :
    distance b (b ^^ e0) (b ^^ e1) (!b ^^ e2) (!b ^^ e3) = flipCount e0 e1 e2 e3 := by
  have hcancel : ∀ a e : Bool, (a ^^ e ^^ a) = e := by decide
  simp only [distance, hcancel, flipCount]

/-- It is as far from the other pattern as symbols of it are not flipped. -/
theorem distance_flip_not :
    distance (!b) (b ^^ e0) (b ^^ e1) (!b ^^ e2) (!b ^^ e3) = 4 - flipCount e0 e1 e2 e3 := by
  have hturn : ∀ a e : Bool, (a ^^ e ^^ !a) = !e := by decide
  have hturn' : ∀ a e : Bool, (!a ^^ e ^^ a) = !e := by decide
  have hrest : ∀ e : Bool, (!e).toNat = 1 - e.toNat := by decide
  have h0 := e0.toNat_le
  have h1 := e1.toNat_le
  have h2 := e2.toNat_le
  have h3 := e3.toNat_le
  simp only [distance, hturn, hturn', Bool.not_not, hrest, flipCount]
  omega

/-- A group is read right if at most one symbol is flipped, or two of them without the first. -/
theorem nearest_flip :
    nearest (b ^^ e0) (b ^^ e1) (!b ^^ e2) (!b ^^ e3) = b ↔
      flipCount e0 e1 e2 e3 ≤ 1 ∨ flipCount e0 e1 e2 e3 = 2 ∧ e0 = false := by
  have hown := distance_flip b e0 e1 e2 e3
  have hother := distance_flip_not b e0 e1 e2 e3
  have hcount := flipCount_le e0 e1 e2 e3
  rcases Nat.lt_trichotomy (flipCount e0 e1 e2 e3) 2 with hfew | htwo | hmany
  · have hright := nearest_of_lt (by rw [hown, hother]; omega :
      distance b (b ^^ e0) (b ^^ e1) (!b ^^ e2) (!b ^^ e3) < _)
    exact iff_of_true hright (.inl (by omega))
  · have hfirst := nearest_of_eq (by rw [hown, hother]; omega :
      distance b (b ^^ e0) (b ^^ e1) (!b ^^ e2) (!b ^^ e3) = _)
    rw [hfirst, htwo]
    cases b <;> cases e0 <;> decide
  · have hwrong := nearest_of_lt (by rw [Bool.not_not, hown, hother]; omega :
      distance (!b) (b ^^ e0) (b ^^ e1) (!b ^^ e2) (!b ^^ e3) < _)
    rw [hwrong]
    exact iff_of_false (Bool.not_ne_self b) (by omega)

end

/-! ## Symbol strings -/

/-- Whether symbol `s` of the group of coded bit `i` is flipped. -/
def symbolFlip (flips : List Bool) (i s : Nat) : Bool := flips.getD (4 * i + s) false

/-- How many symbols of the group of coded bit `i` are flipped. -/
def groupFlips (flips : List Bool) (i : Nat) : Nat :=
  flipCount (symbolFlip flips i 0) (symbolFlip flips i 1) (symbolFlip flips i 2)
    (symbolFlip flips i 3)

/-- Few enough symbols of the group of coded bit `i` are flipped to leave the bit as it was sent. -/
def Spares (flips : List Bool) (i : Nat) : Prop :=
  groupFlips flips i ≤ 1 ∨ groupFlips flips i = 2 ∧ symbolFlip flips i 0 = false

/-- Flips of at least one group start with a group. -/
theorem exists_group {flips : List Bool} {n : Nat} (h : flips.length = 4 * (n + 1)) :
    ∃ e0 e1 e2 e3 rest, flips = e0 :: e1 :: e2 :: e3 :: rest := by
  match flips with
  | e0 :: e1 :: e2 :: e3 :: rest => exact ⟨e0, e1, e2, e3, rest, rfl⟩
  | [] | [_] | [_, _] | [_, _, _] =>
    simp only [List.length_cons, List.length_nil] at h
    omega

/-- After the first group the others are one place nearer. -/
theorem spares_cons (e0 e1 e2 e3 : Bool) (flips : List Bool) (i : Nat) :
    Spares (e0 :: e1 :: e2 :: e3 :: flips) (i + 1) ↔ Spares flips i := by
  have hflip : ∀ s,
      symbolFlip (e0 :: e1 :: e2 :: e3 :: flips) (i + 1) s = symbolFlip flips i s := by
    intro s
    have hplace : 4 * (i + 1) + s = 4 * i + s + 1 + 1 + 1 + 1 := by omega
    rw [symbolFlip, hplace]
    rfl
  unfold Spares groupFlips
  rw [hflip, hflip, hflip, hflip]

/-- A coded bit is read right if and only if the flips of its own group spare it. -/
theorem unmapBits_flip (bs : List Bool) {flips : List Bool} (h : flips.length = 4 * bs.length)
    {i : Nat} (hi : i < bs.length) :
    (unmapBits (List.zipWith xor (bs.flatMap symbols) flips))[i]? = bs[i]? ↔ Spares flips i := by
  induction bs generalizing flips i with
  | nil => exact absurd hi (Nat.not_lt_zero i)
  | cons b bs ih =>
    obtain ⟨e0, e1, e2, e3, flips, rfl⟩ := exists_group h
    have hread : unmapBits (List.zipWith xor ((b :: bs).flatMap symbols)
        (e0 :: e1 :: e2 :: e3 :: flips)) =
          nearest (b ^^ e0) (b ^^ e1) (!b ^^ e2) (!b ^^ e3) ::
            unmapBits (List.zipWith xor (bs.flatMap symbols) flips) := rfl
    rw [hread]
    cases i with
    | zero =>
      rw [List.getElem?_cons_zero, List.getElem?_cons_zero, Option.some.injEq]
      exact nearest_flip b e0 e1 e2 e3
    | succ i =>
      rw [List.getElem?_cons_succ, List.getElem?_cons_succ, spares_cons]
      have hrest : flips.length = 4 * bs.length := by
        simp only [List.length_cons] at h
        omega
      exact ih hrest (Nat.lt_of_succ_lt_succ hi)

/-! ## Octets -/

/-- The bits of the octets that are read are those of the groups. -/
theorem bits_unmap {received : Octets} (h : 4 ∣ received.length) :
    (unmap received).bits = unmapBits received.bits := by
  apply Octets.bits_ofBits_of_dvd
  rw [length_unmapBits, Octets.length_bits]
  omega

/-- However the symbols of some coded octets are flipped, and with up to three octets after them,
as many octets are read as were sent, and a coded bit is right if and only if at most one symbol of
its group was flipped, or two of them but not the first.  Without flips all are right.  Mapping and
reading word by word gives the same. -/
theorem unmap_flip (coded : Octets) (flips : List Bool) (tail : Octets)
    (hflips : flips.length = 8 * (map coded).length) (htail : tail.length < 4) :
    let received := Octets.flip flips (map coded) ++ tail
    (unmap received).length = coded.length ∧
      (∀ i < 8 * coded.length, (unmap received).bits[i]? = coded.bits[i]? ↔
        groupFlips flips i ≤ 1 ∨ groupFlips flips i = 2 ∧ symbolFlip flips i 0 = false) ∧
      unmap (map coded) = coded ∧
      Table.map coded = map coded ∧ Table.unmap received = unmap received := by
  intro received
  have hlength : (Octets.flip flips (map coded)).length = 4 * coded.length := by
    rw [Octets.length_flip hflips, length_map]
  have hwhole : 4 ∣ (Octets.flip flips (map coded)).length := Dvd.intro _ hlength.symm
  have hread : unmap received = unmap (Octets.flip flips (map coded)) := by
    rw [unmap_append hwhole, unmap_of_length_lt htail, List.append_nil]
  have hclean : unmap (map coded) = coded := by
    have h := unmap_map_append coded []
    rwa [List.append_nil, unmap_of_length_lt (by decide : ([] : Octets).length < 4),
      List.append_nil] at h
  refine ⟨?_, fun i hi => ?_, hclean, Table.map_eq coded, Table.unmap_eq received⟩
  · rw [hread, length_unmap, hlength]
    omega
  · rw [hread, bits_unmap hwhole, Octets.bits_flip hflips, bits_map]
    apply unmapBits_flip
    · rw [hflips, length_map, Octets.length_bits]
      omega
    · rwa [Octets.length_bits]

/-- Flips of two mapped octets: one in the group of bit 0, two in that of bit 3 without its first
symbol, two in that of bit 9 with its first symbol, three in that of bit 12. -/
def mixedFlips : List Bool :=
  (List.range 64).map fun i =>
    i = 0 || i = 13 || i = 15 || i = 36 || i = 38 || i = 49 || i = 50 || i = 51

/-- Bits 0 and 3 come back, bits 9 and 12 do not, and three octets more make no difference. -/
theorem unmap_flip_mixed :
    mixedFlips.length = 8 * (map [0xA5, 0x5A]).length ∧ ([0xFF, 0, 0xFF] : Octets).length < 4 ∧
      let received := Octets.flip mixedFlips (map [0xA5, 0x5A]) ++ [0xFF, 0, 0xFF]
      (unmap received).length = 2 ∧
        (unmap received).bits[0]? = (Octets.bits [0xA5, 0x5A])[0]? ∧
        (unmap received).bits[3]? = (Octets.bits [0xA5, 0x5A])[3]? ∧
        (unmap received).bits[9]? ≠ (Octets.bits [0xA5, 0x5A])[9]? ∧
        (unmap received).bits[12]? ≠ (Octets.bits [0xA5, 0x5A])[12]? := by
  have hlength : mixedFlips.length = 8 * (map [0xA5, 0x5A]).length := by decide
  have htail : ([0xFF, 0, 0xFF] : Octets).length < 4 := by decide
  obtain ⟨hsize, hbit, -⟩ := unmap_flip [0xA5, 0x5A] mixedFlips [0xFF, 0, 0xFF] hlength htail
  refine ⟨hlength, htail, hsize, ?_, ?_, ?_, ?_⟩
  · exact (hbit 0 (by decide)).mpr (by decide)
  · exact (hbit 3 (by decide)).mpr (by decide)
  · exact fun h => absurd ((hbit 9 (by decide)).mp h) (by decide)
  · exact fun h => absurd ((hbit 12 (by decide)).mp h) (by decide)

end AirTrace.Coding.Pattern

import Mathlib
import AirTrace.Coding.Pattern

/-!
# The pattern mapper gives back what was sent

A clean group of symbols differs nowhere from the pattern of its bit, so it is read as that bit.
`unmap_map_append` says for octets that clean symbols are read as they were sent and that what
follows them is read by itself.  The latter holds of any symbols that fill coded octets
(`unmap_append`), and of fewer than four octets nothing is read (`unmap_of_length_lt`).
-/

namespace AirTrace.Coding.Pattern

/-- A clean group stands for its bit. -/
theorem nearest_clean (b : Bool) : nearest b b (!b) (!b) = b := by
  cases b <;> rfl

theorem length_flatMap_symbols (bs : List Bool) : (bs.flatMap symbols).length = 4 * bs.length := by
  induction bs with
  | nil => rfl
  | cons b bs ih =>
    rw [List.flatMap_cons, List.length_append, ih, List.length_cons]
    show 4 + 4 * bs.length = _
    omega

/-- Clean groups are read one by one, and then what follows them. -/
theorem unmapBits_symbols_append (bs rest : List Bool) :
    unmapBits (bs.flatMap symbols ++ rest) = bs ++ unmapBits rest := by
  induction bs with
  | nil => rfl
  | cons b bs ih =>
    rw [List.flatMap_cons, List.append_assoc]
    show nearest b b (!b) (!b) :: unmapBits (bs.flatMap symbols ++ rest) = _
    rw [nearest_clean, ih, List.cons_append]

/-- The symbols of some coded octets fill the symbol octets. -/
theorem bits_map (coded : Octets) : (map coded).bits = coded.bits.flatMap symbols := by
  apply Octets.bits_ofBits_of_dvd
  rw [length_flatMap_symbols, Octets.length_bits]
  omega

@[simp] theorem length_map (coded : Octets) : (map coded).length = 4 * coded.length := by
  rw [map, Octets.length_ofBits, length_flatMap_symbols, Octets.length_bits]
  omega

/-- Coded octets are mapped one by one. -/
theorem map_append (a b : Octets) : map (a ++ b) = map a ++ map b := by
  have hwhole : 8 ∣ (a.bits.flatMap symbols).length := by
    rw [length_flatMap_symbols, Octets.length_bits]
    omega
  rw [map, Octets.bits_append, List.flatMap_append, Octets.ofBits_append hwhole, map, map]

@[simp] theorem length_unmapBits (symbols : List Bool) :
    (unmapBits symbols).length = symbols.length / 4 := by
  fun_induction unmapBits symbols with
  | case1 s0 s1 s2 s3 rest ih =>
    simp only [List.length_cons, ih]
    omega
  | case2 symbols hshort =>
    match symbols with
    | [] | [_] | [_, _] | [_, _, _] => simp
    | s0 :: s1 :: s2 :: s3 :: rest => exact (hshort s0 s1 s2 s3 rest rfl).elim

/-- Whole groups are read by themselves. -/
theorem unmapBits_append {a : List Bool} (h : 4 ∣ a.length) (b : List Bool) :
    unmapBits (a ++ b) = unmapBits a ++ unmapBits b := by
  fun_induction unmapBits a with
  | case1 s0 s1 s2 s3 rest ih =>
    have hrest : 4 ∣ rest.length := by
      simp only [List.length_cons] at h
      omega
    exact congrArg (nearest s0 s1 s2 s3 :: ·) (ih hrest)
  | case2 a hshort =>
    match a with
    | [] => rfl
    | [_] | [_, _] | [_, _, _] => simp at h
    | s0 :: s1 :: s2 :: s3 :: rest => exact (hshort s0 s1 s2 s3 rest rfl).elim

@[simp] theorem length_unmap (received : Octets) :
    (unmap received).length = received.length / 4 := by
  rw [unmap, Octets.length_ofBits, length_unmapBits, Octets.length_bits]
  omega

/-- Symbols that fill coded octets are read by themselves. -/
theorem unmap_append {a : Octets} (h : 4 ∣ a.length) (b : Octets) :
    unmap (a ++ b) = unmap a ++ unmap b := by
  have hgroups : 4 ∣ a.bits.length := by
    rw [Octets.length_bits]
    omega
  have hwhole : 8 ∣ (unmapBits a.bits).length := by
    rw [length_unmapBits, Octets.length_bits]
    omega
  rw [unmap, Octets.bits_append, unmapBits_append hgroups, Octets.ofBits_append hwhole, unmap,
    unmap]

/-- Symbols that fill no coded octet are not read. -/
theorem unmap_of_length_lt {received : Octets} (h : received.length < 4) : unmap received = [] := by
  apply List.length_eq_zero_iff.mp
  rw [length_unmap, Nat.div_eq_of_lt h]

/-- Clean symbol octets are read as the coded octets they were made of, and then what follows. -/
theorem unmap_map_append (coded noise : Octets) :
    unmap (map coded ++ noise) = coded ++ unmap noise := by
  rw [unmap, Octets.bits_append, bits_map, unmapBits_symbols_append, Octets.ofBits_bits_append,
    unmap]

end AirTrace.Coding.Pattern

import AirTrace.Octets

/-!
# Reading UTF-8 that may be damaged

`Utf8.lossy` reads an octet string as text.  Octets that form no character are replaced by one
U+FFFD for each maximal subpart: the longest run of octets that starts some well-formed character
without completing it, or a single octet that starts none.  `Utf8.strict` reads only text that is
well formed throughout.
-/

namespace AirTrace.Utf8

/-- What a lead octet announces: how many octets follow it, which values the first of them may
take, and the bits the lead octet itself contributes. -/
structure Lead where
  following : Nat
  low : Nat
  high : Nat
  value : Nat

/-- The table of lead octets of well-formed text; `none` for an octet that starts no character. -/
def lead? (b : Nat) : Option Lead :=
  if b < 0x80 then some ⟨0, 0x80, 0xBF, b⟩
  else if b < 0xC2 then none
  else if b < 0xE0 then some ⟨1, 0x80, 0xBF, b - 0xC0⟩
  else if b = 0xE0 then some ⟨2, 0xA0, 0xBF, 0⟩
  else if b = 0xED then some ⟨2, 0x80, 0x9F, 0xD⟩
  else if b < 0xF0 then some ⟨2, 0x80, 0xBF, b - 0xE0⟩
  else if b = 0xF0 then some ⟨3, 0x90, 0xBF, 0⟩
  else if b < 0xF4 then some ⟨3, 0x80, 0xBF, b - 0xF0⟩
  else if b = 0xF4 then some ⟨3, 0x80, 0x8F, 4⟩
  else none

/-- Reads `following` continuation octets onto `value`, the first of them between `low` and `high`.
Gives the finished number, or `none` where the next octet does not fit, and how many were read. -/
def continuation : (following low high value : Nat) → Octets → Option Nat × Nat
  | 0, _, _, value, _ => (some value, 0)
  | n + 1, low, high, value, b :: rest =>
      if low ≤ b.toNat ∧ b.toNat ≤ high then
        let (result, read) := continuation n 0x80 0xBF (64 * value + b.toNat % 64) rest
        (result, read + 1)
      else (none, 0)
  | _ + 1, _, _, _, [] => (none, 0)

/-- The characters of an octet string, `none` for each maximal subpart that forms none. -/
def characters (o : Octets) : List (Option Char) :=
  match o with
  | [] => []
  | b :: rest =>
      match lead? b.toNat with
      | none => none :: characters rest
      | some l =>
          let (result, read) := continuation l.following l.low l.high l.value rest
          result.map Char.ofNat :: characters (rest.drop read)
termination_by o.length
decreasing_by all_goals (simp only [List.length_drop, List.length_cons]; omega)

/-- Text from octets, with U+FFFD for each maximal subpart that forms no character. -/
def lossy (o : Octets) : String :=
  String.ofList ((characters o).map fun c => c.getD (Char.ofNat 0xFFFD))

/-- Text from octets that are well formed throughout. -/
def strict (o : Octets) : Option String :=
  ((characters o).mapM id).map String.ofList

end AirTrace.Utf8

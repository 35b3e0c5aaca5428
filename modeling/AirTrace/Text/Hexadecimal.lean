import AirTrace.Octets

/-!
# Hexadecimal text

Numbers are written in a fixed number of digits, filled with zeros on the left and never cut;
octet strings as two lower-case digits an octet with blanks between, or as a dump of numbered rows.
-/

namespace AirTrace.Text

/-- Fills a digit string with zeros on the left up to a width. -/
def zeroFill (width : Nat) (digits : List Char) : String :=
  String.ofList (List.replicate (width - digits.length) '0' ++ digits)

/-- A number in lower-case hexadecimal, at least `width` digits. -/
def hexLower (width n : Nat) : String := zeroFill width (Nat.toDigits 16 n)

/-- A number in upper-case hexadecimal, at least `width` digits. -/
def hexUpper (width n : Nat) : String := zeroFill width ((Nat.toDigits 16 n).map Char.toUpper)

/-- Octets as pairs of digits with blanks between. -/
def octets (o : Octets) : String := " ".intercalate (o.map fun b => hexLower 2 b.toNat)

/-- Octets cut into rows of sixteen. -/
def rows (o : Octets) : List Octets :=
  match o with
  | [] => []
  | b :: rest => (b :: rest.take 15) :: rows (rest.drop 15)
termination_by o.length
decreasing_by simp only [List.length_drop, List.length_cons]; omega

/-- Rows of sixteen octets, each after the offset of its first octet. -/
def dump (o : Octets) : String :=
  "\n".intercalate ((rows o).zipIdx.map fun (row, i) => hexLower 4 (16 * i) ++ ": " ++ octets row)

end AirTrace.Text

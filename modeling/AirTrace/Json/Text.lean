import AirTrace.Json.Value
import AirTrace.Text.Utf8

/-!
# The text of JSON strings

What is written between the quotes of a string stands for text: an escape with four hexadecimal
digits is a UTF-16 unit, and two such units that form a surrogate pair are one character.  A unit of
a pair that stands alone, and octets that are not well-formed UTF-8, make the string no text.
-/

namespace AirTrace.Json

/-- The value of a hexadecimal digit. -/
def hexValue (b : UInt8) : Nat :=
  if isDigit b then b.toNat - 48 else (b.toNat ||| 0x20) - 87

/-- The UTF-16 unit of four hexadecimal digits. -/
def unit (h1 h2 h3 h4 : UInt8) : Nat :=
  4096 * hexValue h1 + 256 * hexValue h2 + 16 * hexValue h3 + hexValue h4

/-- The octet that a short escape stands for. -/
def shortEscape (e : UInt8) : UInt8 :=
  if e == code 'b' then 8
  else if e == code 'f' then 12
  else if e == code 'n' then 10
  else if e == code 'r' then 13
  else if e == code 't' then 9
  else e

/-- Replaces the escapes of a written string by the octets they stand for. -/
def unescape (o : Octets) : Option Octets :=
  match o with
  | [] => some []
  | b :: rest =>
      if b == backslash then
        match rest with
        | [] => none
        | e :: rest =>
            if e == code 'u' then
              match rest with
              | h1 :: h2 :: h3 :: h4 :: rest =>
                  let u := unit h1 h2 h3 h4
                  if 0xDC00 ≤ u ∧ u ≤ 0xDFFF then none
                  else if 0xD800 ≤ u ∧ u ≤ 0xDBFF then
                    match rest with
                    | s :: v :: l1 :: l2 :: l3 :: l4 :: rest =>
                        let low := unit l1 l2 l3 l4
                        if s == backslash && v == code 'u' && 0xDC00 ≤ low && low ≤ 0xDFFF then
                          let c := Char.ofNat (0x10000 + 1024 * (u - 0xD800) + (low - 0xDC00))
                          (unescape rest).map (String.utf8EncodeChar c ++ ·)
                        else none
                    | _ => none
                  else (unescape rest).map (String.utf8EncodeChar (Char.ofNat u) ++ ·)
              | _ => none
            else (unescape rest).map (shortEscape e :: ·)
      else (unescape rest).map (b :: ·)
termination_by o.length
decreasing_by all_goals (simp only [List.length_cons]; omega)

/-- The text that a written string stands for. -/
def text? (written : Octets) : Option String := (unescape written).bind Utf8.strict

end AirTrace.Json

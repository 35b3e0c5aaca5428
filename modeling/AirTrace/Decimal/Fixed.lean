/-!
# Fixed-point decimal text of binary floating-point numbers

A finite binary64 number is `m · 2 ^ q` for whole numbers `m` and `q`, read off its bits.  `fixed`
writes it with a given number of places: the exact value is rounded to the nearest multiple of
the last place, a half to the even neighbour, and the sign bit is shown even where the digits
are all zero.
-/

namespace AirTrace.Decimal

/-- What the bits of a binary64 number say. -/
inductive Binary64 where
  | nan
  | infinite (negative : Bool)
  /-- The number `± mantissa · 2 ^ exponent`. -/
  | finite (negative : Bool) (mantissa : Nat) (exponent : Int)

/-- Reads the sign, exponent and fraction fields of a binary64 number. -/
def Binary64.ofBits (bits : UInt64) : Binary64 :=
  let negative := bits.toBitVec.msb
  let exponent := (bits.toBitVec.extractLsb' 52 11).toNat
  let fraction := (bits.toBitVec.extractLsb' 0 52).toNat
  if exponent = 0x7FF then
    if fraction = 0 then .infinite negative else .nan
  else if exponent = 0 then .finite negative fraction (-1074)
  else .finite negative (0x10000000000000 + fraction) ((exponent : Int) - 1075)

/-- The whole number nearest to `num / den`, a half to the even neighbour. -/
def roundHalfEven (num den : Nat) : Nat :=
  let q := num / den
  let r := num % den
  if 2 * r < den then q
  else if den < 2 * r then q + 1
  else if q % 2 = 0 then q else q + 1

/-- The multiple of `10 ^ -places` nearest to `m · 2 ^ q`, in units of the last place. -/
def scaled (places m : Nat) (q : Int) : Nat :=
  match q with
  | .ofNat up => m * Nat.pow 10 places * Nat.pow 2 up
  | .negSucc down => roundHalfEven (m * Nat.pow 10 places) (Nat.pow 2 (down + 1))

/-- A whole number of last places written with a decimal point. -/
def pointed (places n : Nat) : String :=
  let digits := Nat.toDigits 10 n
  let filled := List.replicate (places + 1 - digits.length) '0' ++ digits
  let whole := filled.take (filled.length - places)
  let fraction := filled.drop (filled.length - places)
  if places = 0 then String.ofList whole
  else String.ofList (whole ++ '.' :: fraction)

/-- A number with a fixed number of places after the decimal point. -/
def fixed (places : Nat) (x : Float) : String :=
  match Binary64.ofBits x.toBits with
  | .nan => "NaN"
  | .infinite negative => if negative then "-inf" else "inf"
  | .finite negative m q => (if negative then "-" else "") ++ pointed places (scaled places m q)

end AirTrace.Decimal

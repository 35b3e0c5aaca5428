import AirTrace.Decimal.Literal
import AirTrace.Octets

/-!
# JSON documents

`Json.ofOctets?` reads a JSON document.  Numbers are kept as literals and strings as the octets
between their quotes, since what they stand for matters only where they are used; escapes are
checked for their form.
-/

namespace AirTrace

/-- A JSON value. -/
inductive Json where
  | null
  | boolean (b : Bool)
  | number (l : Decimal.Literal)
  /-- A string as it is written between its quotes. -/
  | string (written : Octets)
  | array (items : List Json)
  | object (members : List (Octets × Json))

namespace Json

/-- What a reader gives: a value and the octets after it. -/
abbrev Reader (α : Type) := Octets → Option (α × Octets)

/-- The octet of an ASCII character. -/
def code (c : Char) : UInt8 := UInt8.ofNat c.toNat

/-- The octet of a quotation mark. -/
def quote : UInt8 := 0x22

/-- The octet of a backslash. -/
def backslash : UInt8 := 0x5C

/-- Whether an octet is a blank between tokens. -/
def isBlank (b : UInt8) : Bool :=
  b == code ' ' || b == code '\n' || b == code '\t' || b == code '\r'

/-- Drops the blanks at the front. -/
def skipBlanks (o : Octets) : Octets := o.dropWhile isBlank

/-- Whether an octet is a decimal digit. -/
def isDigit (b : UInt8) : Bool := code '0' ≤ b && b ≤ code '9'

/-- Whether an octet is a hexadecimal digit. -/
def isHexDigit (b : UInt8) : Bool :=
  isDigit b || (code 'a' ≤ b && b ≤ code 'f') || (code 'A' ≤ b && b ≤ code 'F')

/-! ## Numbers -/

/-- Reads decimal digits, at least one. -/
def digits : Reader (List Nat) := fun o =>
  let ds := o.takeWhile isDigit
  if ds.isEmpty then none else some (ds.map fun b => b.toNat - 48, o.dropWhile isDigit)

/-- Reads the whole part of a number, which has no needless zero in front. -/
def wholePart : Reader (List Nat) := fun o =>
  match digits o with
  | some (0 :: _ :: _, _) => none
  | r => r

/-- Reads the fraction of a number, if there is a point. -/
def fractionPart : Reader (List Nat)
  | [] => some ([], [])
  | b :: rest => if b == code '.' then digits rest else some ([], b :: rest)

/-- Reads a sign: whether the number is negative. -/
def sign : Octets → Bool × Octets
  | [] => (false, [])
  | b :: rest =>
      if b == code '-' then (true, rest)
      else if b == code '+' then (false, rest)
      else (false, b :: rest)

/-- Reads a power of ten, if there is one. -/
def powerPart : Reader (Bool × Nat)
  | [] => some ((false, 0), [])
  | b :: rest =>
      if b == code 'e' || b == code 'E' then
        let (negative, rest) := sign rest
        (digits rest).map fun (ds, rest) => ((negative, ds.foldl (fun n d => 10 * n + d) 0), rest)
      else some ((false, 0), b :: rest)

/-- Reads a number without its sign. -/
def unsignedNumber (negative : Bool) : Reader Json := fun o => do
  let (whole, o) ← wholePart o
  let (fraction, o) ← fractionPart o
  let ((powerNegative, power), o) ← powerPart o
  return (number ⟨negative, whole, fraction, power, powerNegative⟩, o)

/-! ## Strings -/

/-- Reads what is written of a string after its opening quote, and its closing quote. -/
def stringTail : Reader Octets
  | [] => none
  | b :: rest =>
      if b == quote then some ([], rest)
      else if b < 0x20 then none
      else if b == backslash then
        match rest with
        | [] => none
        | e :: rest =>
            if e == code 'u' then
              match rest with
              | h1 :: h2 :: h3 :: h4 :: rest =>
                  if isHexDigit h1 && isHexDigit h2 && isHexDigit h3 && isHexDigit h4 then
                    (stringTail rest).map fun (w, r) => (b :: e :: h1 :: h2 :: h3 :: h4 :: w, r)
                  else none
              | _ => none
            else if e ∈ [quote, backslash, code '/', code 'b', code 'f', code 'n', code 'r',
                code 't'] then
              (stringTail rest).map fun (w, r) => (b :: e :: w, r)
            else none
      else (stringTail rest).map fun (w, r) => (b :: w, r)

/-- Reads a string. -/
def quoted : Reader Octets
  | b :: rest => if b == quote then stringTail rest else none
  | [] => none

/-! ## Documents -/

/-- Reads one octet that must come next, blanks before it left out. -/
def expect (c : Char) (o : Octets) : Option Octets :=
  match skipBlanks o with
  | b :: rest => if b == code c then some rest else none
  | [] => none

/-- Reads a list of things with commas between them up to its closing octet, at least one thing. -/
def listTail {α : Type} (item : Reader α) (close : Char) : Nat → Reader (List α)
  | 0, _ => none
  | n + 1, o => do
      let (x, o) ← item o
      match expect close o with
      | some o => return ([x], o)
      | none =>
          let o ← expect ',' o
          let (xs, o) ← listTail item close n o
          return (x :: xs, o)

/-- Reads a list of things with commas between them up to its closing octet. -/
def list {α : Type} (item : Reader α) (close : Char) (n : Nat) : Reader (List α) := fun o =>
  match expect close o with
  | some o => some ([], o)
  | none => listTail item close n o

/-- Reads one member of an object with a reader for its value. -/
def member (value : Reader Json) : Reader (Octets × Json) := fun o => do
  let (key, o) ← quoted (skipBlanks o)
  let o ← expect ':' o
  let (v, o) ← value o
  return ((key, v), o)

/-- Reads a word and gives the value that it stands for. -/
def word (text : String) (v : Json) : Reader Json := fun o =>
  let w := text.toList.map code
  if w.isPrefixOf o then some (v, o.drop w.length) else none

/-- Reads a value nested at most `n` deep. -/
def value : Nat → Reader Json
  | 0, _ => none
  | n + 1, o =>
      match skipBlanks o with
      | [] => none
      | b :: rest =>
          if b == code '\x7b' then
            (list (member (value n)) '\x7d' n rest).map fun (ms, r) => (object ms, r)
          else if b == code '[' then
            (list (value n) ']' n rest).map fun (vs, r) => (array vs, r)
          else if b == quote then (stringTail rest).map fun (w, r) => (string w, r)
          else if b == code '-' then unsignedNumber true rest
          else if isDigit b then unsignedNumber false (b :: rest)
          else if b == code 't' then word "true" (boolean true) (b :: rest)
          else if b == code 'f' then word "false" (boolean false) (b :: rest)
          else word "null" null (b :: rest)

/-- Reads a document: one value with nothing but blanks around it. -/
def ofOctets? (o : Octets) : Option Json :=
  match value (o.length + 1) o with
  | some (v, rest) => if (skipBlanks rest).isEmpty then some v else none
  | none => none

end Json

end AirTrace

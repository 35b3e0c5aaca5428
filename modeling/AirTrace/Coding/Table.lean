import AirTrace.Octets.Bits

/-!
# Coding by tables

A coder need not go bit by bit.  What an octet is coded to depends on the octet and on the three
bits before it, so a table with a row for each state of the memory and a column for each octet can
hold the coded word and the state that the octet leaves; the data are then coded octet by octet.  At
eight symbols a bit each coded octet becomes a word of eight nibbles, and on the way back a table
says which coded bit a nibble stands for.

All of these words are filled from the low end, one part after the other (`place`).
-/

namespace AirTrace.Coding.Table

/-! ## Words filled part by part -/

/-- Puts a part of `k` bits into a word, as its part `j` from the low end. -/
def place {n k : Nat} (w : BitVec n) (j : Nat) (part : BitVec k) : BitVec n :=
  w ||| (part.setWidth n <<< (k * j))

/-- A word of `m` parts. -/
def fill {k : Nat} (n m : Nat) (part : Nat → BitVec k) : BitVec n :=
  (List.range m).foldl (fun w j => place w j (part j)) 0#n

/-! ## The convolutional code -/

/-- The last three data bits as a number, the most recent one highest. -/
abbrev State := BitVec 3

/-- The state after one more bit. -/
def next (s : State) (b : Bool) : State := place (s >>> 1) 2 (BitVec.ofBool b)

/-- A state with the bit that is being coded above it. -/
def register (s : State) (b : Bool) : BitVec 4 := place (s.setWidth 4) 3 (BitVec.ofBool b)

/-- The bits of the register that the first coded bit sums: the bit itself and all three before
it. -/
def firstTaps : BitVec 4 := 0b1111#4

/-- The bits of the register that the second coded bit sums: the bit itself and the second and
third before it. -/
def secondTaps : BitVec 4 := 0b1011#4

/-- The sum of all bits, by adding one half of them to the other. -/
def parity (x : BitVec 4) : Bool :=
  let halves := x ^^^ (x >>> 2)
  (halves ^^^ (halves >>> 1)).getLsbD 0

/-- What an octet is coded to. -/
structure Entry where
  word : BitVec 16
  /-- The state that the octet leaves. -/
  state : State

/-- Codes bit `j` of an octet after the bits below it. -/
def Entry.extend (o : UInt8) (e : Entry) (j : Nat) : Entry :=
  let b := o.toNat.testBit j
  let r := register e.state b
  let first := BitVec.ofBool (parity (r &&& firstTaps))
  let second := BitVec.ofBool (parity (r &&& secondTaps))
  { word := place (place e.word (2 * j) first) (2 * j + 1) second
    state := next e.state b }

/-- The entry of an octet that comes in some state, after its lowest `n` bits. -/
def Entry.build (s : State) (o : UInt8) (n : Nat) : Entry :=
  (List.range n).foldl (Entry.extend o) ⟨0#16, s⟩

/-- The entries of all octets in all states. -/
def entries : Vector (Vector Entry 256) 8 :=
  .ofFn fun s => .ofFn fun o => Entry.build (BitVec.ofFin s) (UInt8.ofNat o.val) 8

/-- The entry of an octet in a state. -/
def lookUp (s : State) (o : UInt8) : Entry :=
  (entries.get ⟨s.toNat, s.isLt⟩).get ⟨o.toNat, o.toNat_lt⟩

/-- The coded octets of data that come in some state. -/
def encodeFrom : State → Octets → Octets
  | _, [] => []
  | s, o :: rest =>
      let e := lookUp s o
      Octets.ofNat 2 e.word.toNat ++ encodeFrom e.state rest

/-- The coded octets of some data. -/
def encode (data : Octets) : Octets := encodeFrom 0#3 data

/-! ## The pattern mapping -/

/-- The symbols of a zero, the first one in the lowest bit. -/
def zeroNibble : BitVec 4 := 0b1100#4

/-- The symbols of a one. -/
def oneNibble : BitVec 4 := 0b0011#4

/-- The symbols of a coded bit. -/
def nibble (b : Bool) : BitVec 4 := if b then oneNibble else zeroNibble

/-- The symbols of a coded octet, those of its lowest bit lowest. -/
def symbolWord (o : UInt8) : BitVec 32 := fill 32 8 fun j => nibble (o.toNat.testBit j)

/-- The symbol octets of some coded octets. -/
def map (coded : Octets) : Octets := coded.flatMap fun o => Octets.ofNat 4 (symbolWord o).toNat

/-- How many bits of a nibble are one. -/
def ones (x : BitVec 4) : Nat := (List.range 4).countP x.getLsbD

/-- The coded bit whose symbols a nibble differs from in fewer places; of two at the same distance
the lowest bit decides. -/
def nearest (x : BitVec 4) : Bool :=
  if ones (x ^^^ zeroNibble) < ones (x ^^^ oneNibble) then false
  else if ones (x ^^^ oneNibble) < ones (x ^^^ zeroNibble) then true
  else x.getLsbD 0

/-- The coded bits that all nibbles stand for. -/
def nibbleBits : Vector Bool 16 := .ofFn fun x => nearest (BitVec.ofFin x)

/-- The coded octet that a word of symbols stands for. -/
def codedOctet (w : BitVec 32) : UInt8 :=
  ⟨fill 8 8 fun j => BitVec.ofBool (nibbleBits.get ((w >>> (4 * j)).setWidth 4).toFin)⟩

/-- The coded octets of some symbol octets; symbols that fill no word are ignored. -/
def unmap : Octets → Octets
  | s0 :: s1 :: s2 :: s3 :: rest =>
      codedOctet (BitVec.ofNat 32 (Octets.toNat [s0, s1, s2, s3])) :: unmap rest
  | _ => []

end AirTrace.Coding.Table

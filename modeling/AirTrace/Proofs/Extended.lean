import AirTrace.Octets.Bits
import AirTrace.Proofs.Grammar

/-!
# The format of extended packets

An extended packet is put together from two headers and data, and its extended header from up to
seven fields, whose places depend on which of them are there.  `ExtAdvertisement.ofBody_layout` says
that reading and putting together match: every body that is read has the layout of the format, and
every choice of values is read from the body that is put together from it, which is also the body
that `toBody` writes for them.  Two bits of the fields are not kept (`ExtField.kept`).

There are four groups.

* Pointers and the parameters of periodic trains, which pack values across octets.  Each is written
  as it was read and read as it was written.
* The fields of a header.  `ExtField.cut_eq_ok` says that cutting off a field is undone by putting
  it back in front, and `ExtHeader.ofOctets_eq_ok` says it of the seven fields together: a header is
  read if and only if it is its flags, the fields that these announce, and controller data.
* Values.  `ExtValues` is a choice of values for the fields.  Their octets are read as the same
  values (`ofParts_part`), and the values that are read from octets give these octets but for the
  bits that are not kept (`part_ofParts`).
* Packets: the place octet, which holds a length and the mode, and the two directions for a whole
  body.
-/

namespace AirTrace

/-! ## Pointers to auxiliary packets -/

namespace AuxPhy

/-- A number is used only if it has no meaning assigned. -/
def InRange : AuxPhy → Prop
  | reserved number => 3 ≤ number
  | _ => True

theorem bits_ofBits (b : BitVec 3) : (ofBits b).bits = b := by
  revert b
  decide

theorem ofBits_bits {phy : AuxPhy} (h : phy.InRange) : ofBits phy.bits = phy := by
  cases phy with
  | reserved number =>
    have hreserved : ∀ b : BitVec 3, 3 ≤ b → ofBits b = reserved b := by decide
    exact hreserved number h
  | _ => rfl

end AuxPhy

namespace AuxPtr

/-- The parts of a pointer fit its three octets. -/
theorem number_lt (p : AuxPtr) :
    p.channel.toNat + 0x40 * p.accurate.toNat + 0x80 * p.coarse.toNat + 0x100 * p.offset.toNat +
      0x200000 * p.phy.bits.toNat < 256 ^ 3 := by
  have hchannel := p.channel.isLt
  have hoffset := p.offset.isLt
  have hphy := p.phy.bits.isLt
  have haccurate := p.accurate.toNat_lt
  have hcoarse := p.coarse.toNat_lt
  omega

theorem toOctets_ofOctets {o : Octets} (h : o.length = 3) : (ofOctets o).toOctets = o := by
  have hlt := o.toNat_lt
  rw [h] at hlt
  have hnumber : o.toNat % 64 + 0x40 * (o.toNat / 2 ^ 6 % 2) + 0x80 * (o.toNat / 2 ^ 7 % 2) +
      0x100 * (o.toNat / 0x100 % 2 ^ 13) + 0x200000 * (o.toNat / 0x200000 % 2 ^ 3) = o.toNat := by
    omega
  simp only [toOctets, ofOctets, BitVec.toNat_ofNat, Nat.toNat_testBit, AuxPhy.bits_ofBits]
  rw [hnumber, ← h, Octets.ofNat_toNat]

theorem ofOctets_toOctets {p : AuxPtr} (h : p.phy.InRange) : ofOctets p.toOctets = p := by
  obtain ⟨channel, accurate, coarse, offset, phy⟩ := p
  have hnumber := number_lt ⟨channel, accurate, coarse, offset, phy⟩
  have hchannel := channel.isLt
  have hoffset := offset.isLt
  have hphy := phy.bits.isLt
  have haccurate := accurate.toNat_lt
  have hcoarse := coarse.toNat_lt
  unfold toOctets ofOctets
  rw [Octets.toNat_ofNat, Nat.mod_eq_of_lt hnumber]
  dsimp only
  rw [bitVec_ofNat_eq (b := channel) (by omega), testBit_eq_of_div (b := accurate) (by omega),
    testBit_eq_of_div (b := coarse) (by omega), bitVec_ofNat_eq (b := offset) (by omega),
    bitVec_ofNat_eq (b := phy.bits) (by omega), AuxPhy.ofBits_bits h]

end AuxPtr

/-! ## Periodic advertising -/

namespace SyncInfo

/-- The first word without its last bit. -/
theorem ofNat_first {o : Octets} (h : o.length = 18) :
    Octets.ofNat 2 ((ofOctets o).offset.toNat + 0x2000 * (ofOctets o).coarse.toNat +
      0x4000 * (ofOctets o).adjusted.toNat) = (o.slice 0 2).maskAt 1 0x7F := by
  have hword : (o.word16 0).toNat % (256 ^ 1 * 2 ^ 7) =
      (o.slice 0 2).toNat % (256 ^ 1 * 2 ^ 7) := by
    rw [Octets.word16, UInt16.toNat_ofNat']
    exact Nat.mod_mod_of_dvd _ (by decide)
  have hnumber : (o.word16 0).toNat % 2 ^ 13 + 0x2000 * ((o.word16 0).toNat / 2 ^ 13 % 2) +
      0x4000 * ((o.word16 0).toNat / 2 ^ 14 % 2) = (o.word16 0).toNat % (256 ^ 1 * 2 ^ 7) := by
    omega
  simp only [ofOctets, BitVec.toNat_ofNat, Nat.toNat_testBit]
  rw [hnumber, hword, Octets.ofNat_mod_mask (by decide), Octets.ofNat_slice (by omega)]
  rfl

/-- The channel map and the clock accuracy share the last of their five octets. -/
theorem ofNat_channelMap {o : Octets} (h : o.length = 18) :
    Octets.ofNat 5 ((ofOctets o).channelMap.toNat + 0x2000000000 * (ofOctets o).sca.toNat) =
      o.slice 4 5 := by
  have hsplit : (o.slice 4 5).toNat = (o.slice 4 4).toNat + 256 ^ 4 * (o.octet 8).toNat := by
    rw [← Octets.slice_append_slice (n := 4) (m := 1) rfl, Octets.toNat_append,
      Octets.length_slice (by omega), Octets.slice_one (by omega)]
    rfl
  have hlow := (o.slice 4 4).toNat_lt
  have hlast := (o.octet 8).toNat_lt
  rw [Octets.length_slice (by omega)] at hlow
  have hnumber : (o.slice 4 5).toNat % 2 ^ 37 + 0x2000000000 * ((o.octet 8).toNat / 32 % 2 ^ 3) =
      (o.slice 4 5).toNat := by
    omega
  simp only [ofOctets, ChannelMap.read, Octets.field, BitVec.toNat_ofNat]
  rw [hnumber, Octets.ofNat_slice (by omega)]

theorem toOctets_ofOctets {o : Octets} (h : o.length = 18) :
    (ofOctets o).toOctets = o.maskAt 1 0x7F := by
  have hinterval : Octets.ofWord16 (ofOctets o).interval = o.slice 2 2 :=
    Octets.ofWord16_word16 (by omega)
  have haddress : Octets.ofWord32 (ofOctets o).accessAddress = o.slice 9 4 :=
    Octets.ofWord32_word32 (by omega)
  have hcrc : Octets.ofWord24 (ofOctets o).crcInit = o.slice 13 3 :=
    Octets.ofWord24_word24 (by omega)
  have hevent : Octets.ofWord16 (ofOctets o).event = o.slice 16 2 :=
    Octets.ofWord16_word16 (by omega)
  have hmask : o.maskAt 1 0x7F = (o.slice 0 2).maskAt 1 0x7F ++ o.slice 2 16 := by
    rw [← Octets.maskAt_append_left (by rw [Octets.length_slice (by omega)]; decide),
      Octets.slice_append_slice rfl, Octets.slice_all h]
  unfold toOctets
  rw [ofNat_first h, ofNat_channelMap h, hinterval, haddress, hcrc, hevent, hmask]
  simp only [List.append_assoc]
  rw [Octets.slice_append_slice rfl, Octets.slice_append_slice rfl, Octets.slice_append_slice rfl,
    Octets.slice_append_slice rfl]

theorem length_toOctets (s : SyncInfo) : s.toOctets.length = 18 := by
  simp [toOctets, Octets.ofWord16, Octets.ofWord24, Octets.ofWord32]

/-- The parts of the written parameters. -/
theorem slices_toOctets (s : SyncInfo) :
    s.toOctets.slice 0 2 = Octets.ofNat 2 (s.offset.toNat + 0x2000 * s.coarse.toNat +
        0x4000 * s.adjusted.toNat) ∧
      s.toOctets.slice 2 2 = Octets.ofWord16 s.interval ∧
      s.toOctets.slice 4 5 =
        Octets.ofNat 5 (s.channelMap.toNat + 0x2000000000 * s.sca.toNat) ∧
      s.toOctets.slice 9 4 = Octets.ofWord32 s.accessAddress ∧
      s.toOctets.slice 13 3 = Octets.ofWord24 s.crcInit ∧
      s.toOctets.slice 16 2 = Octets.ofWord16 s.event := by
  refine ⟨?_, ?_, ?_, ?_, ?_, ?_⟩ <;>
    simp [toOctets, Octets.ofWord16, Octets.ofWord24, Octets.ofWord32, Octets.slice,
      List.drop_append, List.drop_of_length_le, List.take_of_length_le]

theorem ofOctets_toOctets (s : SyncInfo) : ofOctets s.toOctets = s := by
  obtain ⟨hfirst, hinterval, hmap, haddress, hcrc, hevent⟩ := s.slices_toOctets
  -- The last octet of the channel map is found through the slice that it is in.
  have hlast : s.toOctets.octet 8 =
      UInt8.ofNat ((s.channelMap.toNat + 0x2000000000 * s.sca.toNat) / 256 / 256 / 256 / 256) := by
    have hslice : (s.toOctets.slice 4 5).octet 4 = s.toOctets.octet 8 :=
      Octets.octet_slice (by decide)
    rw [← hslice, hmap]
    rfl
  obtain ⟨offset, coarse, adjusted, interval, channelMap, sca, accessAddress, crcInit, event⟩ := s
  have hoffset := offset.isLt
  have hcoarse := coarse.toNat_lt
  have hadjusted := adjusted.toNat_lt
  have hchannelMap := channelMap.isLt
  have hsca := sca.isLt
  unfold ofOctets ChannelMap.read Octets.field
  rw [Octets.word16_of_slice hfirst, Octets.word16_of_slice hinterval, hmap,
    Octets.word32_of_slice haddress, Octets.word24_of_slice hcrc, Octets.word16_of_slice hevent,
    hlast]
  dsimp only
  rw [UInt16.toNat_ofNat', UInt8.toNat_ofNat', Octets.toNat_ofNat, UInt16.ofNat_toNat,
    UInt16.ofNat_toNat, UInt32.ofNat_toNat, BitVec.ofNat_toNat, BitVec.setWidth_eq,
    bitVec_ofNat_eq (b := offset) (by omega), testBit_eq_of_div (b := coarse) (by omega),
    testBit_eq_of_div (b := adjusted) (by omega), bitVec_ofNat_eq (b := channelMap) (by omega),
    bitVec_ofNat_eq (b := sca) (by omega)]

end SyncInfo

/-! ## The fields of a header -/

namespace ExtField

/-- The fields in the order in which they are sent. -/
def all : List ExtField := [advA, targetA, cteInfo, adi, auxPtr, syncInfo, txPower]

/-- What is kept of the octets of a field: all bits but one in the description of a constant tone
extension, and all but one in the first word of the parameters of a periodic train. -/
def kept (f : ExtField) (o : Octets) : Octets :=
  match f with
  | cteInfo => o.maskAt 0 0xDF
  | syncInfo => o.maskAt 1 0x7F
  | _ => o

/-- The octets of every field, given one by one. -/
def parts (advA targetA cteInfo adi auxPtr syncInfo txPower : Option Octets) :
    ExtField → Option Octets
  | .advA => advA
  | .targetA => targetA
  | .cteInfo => cteInfo
  | .adi => adi
  | .auxPtr => auxPtr
  | .syncInfo => syncInfo
  | .txPower => txPower

/-- The octets of the fields that are there, in order. -/
def join (parts : ExtField → Option Octets) : Octets := all.flatMap fun f => (parts f).getD []

/-- The fields that are there are the ones that the flags announce, and each has its length. -/
def Fit (flags : UInt8) (parts : ExtField → Option Octets) : Prop :=
  ∀ f, (parts f).isSome = flags.toNat.testBit f.flag ∧ ∀ o ∈ parts f, o.length = f.size

theorem join_append (parts : ExtField → Option Octets) (acad : Octets) :
    join parts ++ acad = (parts advA).getD [] ++ ((parts targetA).getD [] ++
      ((parts cteInfo).getD [] ++ ((parts adi).getD [] ++ ((parts auxPtr).getD [] ++
        ((parts syncInfo).getD [] ++ ((parts txPower).getD [] ++ acad)))))) := by
  simp only [join, all, List.flatMap_cons, List.flatMap_nil, List.append_nil, List.append_assoc]

variable {flags : UInt8}

/-- Cutting off a field is undone by putting it back in front. -/
theorem cut_eq_ok {f : ExtField} {rest left : Octets} {part : Option Octets} :
    f.cut flags rest = .ok (part, left) ↔
      (part.isSome = flags.toNat.testBit f.flag ∧ ∀ o ∈ part, o.length = f.size) ∧
        rest = part.getD [] ++ left := by
  unfold cut
  cases flags.toNat.testBit f.flag with
  | false =>
    simp only [Bool.false_eq_true, if_false, Except.ok.injEq, Prod.mk.injEq]
    constructor
    · rintro ⟨rfl, rfl⟩
      exact ⟨⟨rfl, fun _ ho => nomatch ho⟩, rfl⟩
    · rintro ⟨⟨hnone, -⟩, rfl⟩
      obtain rfl := Option.not_isSome_iff_eq_none.mp (Bool.eq_false_iff.mp hnone)
      exact ⟨rfl, rfl⟩
  | true =>
    simp only [if_true]
    constructor
    · intro h
      split at h
      · cases h
      next hsize =>
        obtain ⟨rfl, rfl⟩ := Prod.mk.inj (Except.ok.inj h)
        refine ⟨⟨rfl, ?_⟩, (List.take_append_drop _ _).symm⟩
        rintro _ ⟨⟩
        exact List.length_take_of_le (Nat.not_lt.mp hsize)
    · rintro ⟨⟨hsome, hsize⟩, rfl⟩
      obtain ⟨o, rfl⟩ := Option.isSome_iff_exists.mp hsome
      have ho := hsize o rfl
      rw [Option.getD_some, if_neg (by rw [List.length_append]; omega), List.take_left' ho,
        List.drop_left' ho]

end ExtField

namespace ExtHeader

/-- The header whose fields are read from the given octets. -/
def ofParts (mode : AdvMode) (txAdd rxAdd : Bool) (flags : UInt8)
    (parts : ExtField → Option Octets) (acad : Octets) : ExtHeader where
  mode := mode
  length := BitVec.ofNat 6 (1 + (ExtField.join parts).length + acad.length)
  flags := flags
  advA := (parts .advA).map fun o => .read o 0 txAdd
  targetA := (parts .targetA).map fun o => .read o 0 rxAdd
  cteInfo := (parts .cteInfo).map fun o => .ofOctet (o.octet 0)
  adi := (parts .adi).map fun o => .ofWord (o.word16 0)
  auxPtr := (parts .auxPtr).map AuxPtr.ofOctets
  syncInfo := (parts .syncInfo).map SyncInfo.ofOctets
  txPower := (parts .txPower).map fun o => (o.octet 0).toInt8
  acad := acad

/-- A header that is not empty consists of the flags, the fields that they announce, and the
controller data. -/
theorem ofOctets_eq_ok {mode : AdvMode} {txAdd rxAdd : Bool} {flags : UInt8} {fields : Octets}
    {h : ExtHeader} :
    ofOctets mode txAdd rxAdd (flags :: fields) = .ok h ↔
      ∃ parts acad, ExtField.Fit flags parts ∧ fields = ExtField.join parts ++ acad ∧
        h = ofParts mode txAdd rxAdd flags parts acad := by
  have hlength : ∀ parts acad, (ExtField.join parts ++ acad).length + 1 =
      1 + (ExtField.join parts).length + acad.length := by
    intro parts acad
    rw [List.length_append]
    omega
  constructor
  · intro hread
    -- Seven cuts, each of what the one before it left; the last leaves the controller data.
    simp only [ofOctets, bind_eq_ok, Prod.exists, ExtField.cut_eq_ok] at hread
    obtain ⟨advA, _, ⟨hadvA, hfields⟩, targetA, _, ⟨htargetA, rfl⟩, cteInfo, _, ⟨hcteInfo, rfl⟩,
      adi, _, ⟨hadi, rfl⟩, auxPtr, _, ⟨hauxPtr, rfl⟩, syncInfo, _, ⟨hsyncInfo, rfl⟩,
      txPower, acad, ⟨htxPower, rfl⟩, hheader⟩ := hread
    let given := ExtField.parts advA targetA cteInfo adi auxPtr syncInfo txPower
    have hjoin : fields = ExtField.join given ++ acad := by
      rw [hfields, ExtField.join_append]
      rfl
    refine ⟨given, acad, ?_, hjoin, ?_⟩
    · intro f
      cases f with
      | advA => exact hadvA
      | targetA => exact htargetA
      | cteInfo => exact hcteInfo
      | adi => exact hadi
      | auxPtr => exact hauxPtr
      | syncInfo => exact hsyncInfo
      | txPower => exact htxPower
    · rw [hjoin, hlength] at hheader
      exact (Except.ok.inj hheader).symm
  · rintro ⟨parts, acad, hfit, rfl, rfl⟩
    have hcut : ∀ f rest, ExtField.cut f flags ((parts f).getD [] ++ rest) = .ok (parts f, rest) :=
      fun f rest => ExtField.cut_eq_ok.mpr ⟨hfit f, rfl⟩
    -- Whatever stands after a field, cutting it off leaves just that.
    rw [ofOctets, hlength, ExtField.join_append]
    simp only [hcut, bind, Except.bind]
    rfl

end ExtHeader

/-! ## Values of the fields -/

/-- Values for the fields of an extended header, and what a header has besides them. -/
structure ExtValues where
  advA : Option (Vector UInt8 6)
  targetA : Option (Vector UInt8 6)
  cteInfo : Option CteInfo
  adi : Option Adi
  auxPtr : Option AuxPtr
  syncInfo : Option SyncInfo
  txPower : Option Int8
  /-- The last bit of the flags, which announces no field. -/
  spare : Bool
  acad : Octets

/-- The values in a header. -/
def ExtHeader.values (h : ExtHeader) : ExtValues where
  advA := h.advA.map Address.octets
  targetA := h.targetA.map Address.octets
  cteInfo := h.cteInfo
  adi := h.adi
  auxPtr := h.auxPtr
  syncInfo := h.syncInfo
  txPower := h.txPower
  spare := h.flags.toNat.testBit 7
  acad := h.acad

namespace ExtValues

/-- A pointer names its physical layer where the number has a meaning. -/
def InRange (v : ExtValues) : Prop := ∀ p ∈ v.auxPtr, p.phy.InRange

/-- The octets of a field, if it has a value. -/
def part (v : ExtValues) : ExtField → Option Octets
  | .advA => v.advA.map Vector.toList
  | .targetA => v.targetA.map Vector.toList
  | .cteInfo => v.cteInfo.map fun c => [c.toOctet]
  | .adi => v.adi.map fun a => Octets.ofWord16 a.toWord
  | .auxPtr => v.auxPtr.map AuxPtr.toOctets
  | .syncInfo => v.syncInfo.map SyncInfo.toOctets
  | .txPower => v.txPower.map fun p => [p.toUInt8]

/-- The flags octet that announces the fields with a value. -/
def flags (v : ExtValues) : UInt8 :=
  Octets.ofOctetBits v.advA.isSome v.targetA.isSome v.cteInfo.isSome v.adi.isSome v.auxPtr.isSome
    v.syncInfo.isSome v.txPower.isSome v.spare

/-- The octets of the fields and the controller data. -/
def octets (v : ExtValues) : Octets := ExtField.join v.part ++ v.acad

/-- The header with the values, in a packet whose own header says how addresses are to be read. -/
def header (v : ExtValues) (mode : AdvMode) (h : AdvHeader) : ExtHeader where
  mode := mode
  length := BitVec.ofNat 6 (1 + v.octets.length)
  flags := v.flags
  advA := v.advA.map fun a => ⟨a, h.txAdd⟩
  targetA := v.targetA.map fun a => ⟨a, h.rxAdd⟩
  cteInfo := v.cteInfo
  adi := v.adi
  auxPtr := v.auxPtr
  syncInfo := v.syncInfo
  txPower := v.txPower
  acad := v.acad

theorem fieldOctets_header (v : ExtValues) (mode : AdvMode) (h : AdvHeader) :
    (v.header mode h).fieldOctets = v.octets := by
  rw [octets, ExtField.join_append]
  simp only [ExtHeader.fieldOctets, header, Option.map_map, List.append_assoc]
  rfl

/-- The octets of the values fit the flags that announce them. -/
theorem fit (v : ExtValues) : ExtField.Fit v.flags v.part := by
  have hbits := Octets.octetBits_ofOctetBits v.advA.isSome v.targetA.isSome v.cteInfo.isSome
    v.adi.isSome v.auxPtr.isSome v.syncInfo.isSome v.txPower.isSome v.spare
  simp only [Octets.octetBits, List.cons.injEq] at hbits
  obtain ⟨hadvA, htargetA, hcteInfo, hadi, hauxPtr, hsyncInfo, htxPower, -⟩ := hbits
  have hlength : ∀ {α : Type} {x : Option α} {write : α → Octets} {n : Nat},
      (∀ a, (write a).length = n) → ∀ o ∈ x.map write, o.length = n := by
    intro α x write n hwrite o ho
    obtain ⟨a, -, rfl⟩ := Option.map_eq_some_iff.mp ho
    exact hwrite a
  intro f
  cases f with
  | advA => exact ⟨Option.isSome_map.trans hadvA.symm, hlength fun a => a.length_toList⟩
  | targetA => exact ⟨Option.isSome_map.trans htargetA.symm, hlength fun a => a.length_toList⟩
  | cteInfo => exact ⟨Option.isSome_map.trans hcteInfo.symm, hlength fun _ => rfl⟩
  | adi => exact ⟨Option.isSome_map.trans hadi.symm, hlength fun _ => Octets.length_ofNat _ _⟩
  | auxPtr => exact ⟨Option.isSome_map.trans hauxPtr.symm, hlength fun _ => Octets.length_ofNat _ _⟩
  | syncInfo => exact ⟨Option.isSome_map.trans hsyncInfo.symm, hlength SyncInfo.length_toOctets⟩
  | txPower => exact ⟨Option.isSome_map.trans htxPower.symm, hlength fun _ => rfl⟩

/-- The header that is read from the octets of the values has these values. -/
theorem ofParts_part {v : ExtValues} (hrange : v.InRange) (mode : AdvMode) (h : AdvHeader) :
    ExtHeader.ofParts mode h.txAdd h.rxAdd v.flags v.part v.acad = v.header mode h := by
  have hadi : ∀ a : Adi, Adi.ofWord (Octets.word16 (Octets.ofWord16 a.toWord) 0) = a := by
    intro a
    rw [Octets.word16_ofWord16, Adi.ofWord_toWord]
  have hcte : ∀ c : CteInfo, CteInfo.ofOctet (Octets.octet [c.toOctet] 0) = c :=
    CteInfo.ofOctet_toOctet
  have htx : ∀ p : Int8, (Octets.octet [p.toUInt8] 0).toInt8 = p := Int8.toInt8_toUInt8
  have hsame : ∀ {α : Type} {x : Option α} {write : α → Octets} {read : Octets → α},
      (∀ a ∈ x, read (write a) = a) → (x.map write).map read = x := by
    intro α x write read hread
    rw [Option.map_map]
    exact (Option.map_congr hread).trans Option.map_id_apply
  have haddress : ∀ {x : Option (Vector UInt8 6)} {random : Bool},
      ((x.map Vector.toList).map fun o => Address.read o 0 random) =
        x.map fun a => ⟨a, random⟩ := by
    intro x random
    rw [Option.map_map]
    exact Option.map_congr fun a _ => Address.read_toList a random
  unfold ExtHeader.ofParts header
  rw [octets, List.length_append, Nat.add_assoc]
  simp only [part]
  rw [haddress, haddress, hsame fun c _ => hcte c, hsame fun a _ => hadi a,
    hsame fun p hp => AuxPtr.ofOctets_toOctets (hrange p hp),
    hsame fun s _ => SyncInfo.ofOctets_toOctets s, hsame fun p _ => htx p]

end ExtValues

namespace ExtHeader

/-- The values that are read from octets give what is kept of these octets. -/
theorem part_ofParts {mode : AdvMode} {txAdd rxAdd : Bool} {flags : UInt8}
    {parts : ExtField → Option Octets} {acad : Octets} (hfit : ExtField.Fit flags parts)
    (f : ExtField) :
    (ofParts mode txAdd rxAdd flags parts acad).values.part f = (parts f).map f.kept := by
  have hsize : ∀ o ∈ parts f, o.length = f.size := (hfit f).2
  cases f with
  | advA | targetA =>
    simp only [ofParts, values, ExtValues.part, Option.map_map]
    refine Option.map_congr fun o ho => ?_
    exact (Octets.toList_vector (le_of_eq (hsize o ho).symm)).trans (Octets.slice_all (hsize o ho))
  | cteInfo =>
    simp only [ofParts, values, ExtValues.part, Option.map_map]
    refine Option.map_congr fun o ho => ?_
    obtain ⟨b, rfl⟩ := List.length_eq_one_iff.mp (hsize o ho)
    exact congrArg (fun b => [b]) (CteInfo.toOctet_ofOctet b)
  | adi =>
    simp only [ofParts, values, ExtValues.part, Option.map_map]
    refine Option.map_congr fun o ho => ?_
    have hlength : o.length = 2 := hsize o ho
    rw [Function.comp_apply, Adi.toWord_ofWord, Octets.ofWord16_word16 (by omega),
      Octets.slice_all hlength]
    rfl
  | auxPtr =>
    simp only [ofParts, values, ExtValues.part, Option.map_map]
    exact Option.map_congr fun o ho => AuxPtr.toOctets_ofOctets (hsize o ho)
  | syncInfo =>
    simp only [ofParts, values, ExtValues.part, Option.map_map]
    exact Option.map_congr fun o ho => SyncInfo.toOctets_ofOctets (hsize o ho)
  | txPower =>
    simp only [ofParts, values, ExtValues.part, Option.map_map]
    refine Option.map_congr fun o ho => ?_
    obtain ⟨b, rfl⟩ := List.length_eq_one_iff.mp (hsize o ho)
    exact congrArg (fun b => [b]) (UInt8.toUInt8_toInt8 b)

end ExtHeader

/-! ## Packets -/

namespace AdvMode

theorem bits_ofBits (b : BitVec 2) : (ofBits b).bits = b := by
  revert b
  decide

theorem ofBits_bits (mode : AdvMode) : ofBits mode.bits = mode := by
  cases mode <;> rfl

end AdvMode

namespace ExtHeader

/-- The octets that a header was read from: none, or the flags, the fields and the controller
data. -/
theorem layout {mode : AdvMode} {txAdd rxAdd : Bool} {o : Octets} {h : ExtHeader}
    (hlength : o.length < 64) (hread : ofOctets mode txAdd rxAdd o = .ok h) :
    h.mode = mode ∧ h.length.toNat = o.length ∧ (h.length = 0 → h = empty mode) ∧
      ∃ parts, ExtField.Fit h.flags parts ∧ (∀ f, h.values.part f = (parts f).map f.kept) ∧
      o = if h.length = 0 then [] else h.flags :: (ExtField.join parts ++ h.acad) := by
  cases o with
  | nil =>
    obtain rfl := Except.ok.inj hread
    refine ⟨rfl, rfl, fun _ => rfl, fun _ => none, ?_, ?_, rfl⟩
    · intro f
      exact ⟨(Nat.zero_testBit f.flag).symm, fun _ ho => nomatch ho⟩
    · intro f
      cases f <;> rfl
  | cons flags fields =>
    obtain ⟨parts, acad, hfit, rfl, rfl⟩ := ofOctets_eq_ok.mp hread
    rw [List.length_cons, List.length_append] at hlength
    have hnumber : (ofParts mode txAdd rxAdd flags parts acad).length.toNat =
        (flags :: (ExtField.join parts ++ acad)).length := by
      rw [ofParts, BitVec.toNat_ofNat, List.length_cons, List.length_append]
      omega
    have hpos : (ofParts mode txAdd rxAdd flags parts acad).length ≠ 0 := by
      intro hzero
      rw [hzero] at hnumber
      simp at hnumber
    refine ⟨rfl, hnumber, fun hzero => absurd hzero hpos, parts, hfit, part_ofParts hfit, ?_⟩
    rw [if_neg hpos]
    rfl

end ExtHeader

namespace ExtAdvertisement

/-- The body of a packet: two octets of header, the length of the extended header with the mode,
and, unless that length is zero, the flags, the fields that they announce in order, and the
controller data; then the data.  The octets of a field are those of its value but for the bits that
are not kept. -/
def Layout (p : ExtAdvertisement) (body : Octets) : Prop :=
  (p.ext.length = 0 → p.ext = .empty p.ext.mode) ∧ ∃ parts, ExtField.Fit p.ext.flags parts ∧
    (∀ f, p.ext.values.part f = (parts f).map f.kept) ∧
    (p.ext.length ≠ 0 →
      p.ext.length.toNat = 1 + (ExtField.join parts).length + p.ext.acad.length) ∧
    body = body.slice 0 2 ++
      [UInt8.ofNat (p.ext.length.toNat + 64 * p.ext.mode.bits.toNat)] ++
      (if p.ext.length = 0 then [] else p.ext.flags :: (ExtField.join parts ++ p.ext.acad)) ++
      p.data

theorem ofBody_eq_ok {h : AdvHeader} {body : Octets} {p : ExtAdvertisement} :
    ofBody h body = .ok p ↔
      let place := (body.octet 2).toNat
      3 + place % 64 ≤ body.length ∧ ∃ ext,
        ExtHeader.ofOctets (.ofBits (BitVec.ofNat 2 (place / 64))) h.txAdd h.rxAdd
          (body.slice 3 (place % 64)) = .ok ext ∧ p = ⟨h, ext, body.drop (3 + place % 64)⟩ := by
  unfold ofBody
  rw [need_bind_eq_ok]
  dsimp only
  split
  next hoverrun =>
    refine iff_of_false (fun hok => throw_bind_ne_ok hok.2) fun hok => ?_
    omega
  next hfits =>
    simp only [bind_eq_ok, pure, Except.pure, Except.ok.injEq, eq_comm (b := p)]
    exact and_congr_left fun _ => by omega

/-- The place octet holds the length of the extended header and the mode. -/
theorem place_eq (length : BitVec 6) (mode : AdvMode) (place : UInt8) :
    place = UInt8.ofNat (length.toNat + 64 * mode.bits.toNat) ↔
      place.toNat % 64 = length.toNat ∧ .ofBits (BitVec.ofNat 2 (place.toNat / 64)) = mode := by
  constructor
  · rintro rfl
    have hlength := length.isLt
    have hmode := mode.bits.isLt
    rw [UInt8.toNat_ofNat']
    refine ⟨by omega, ?_⟩
    rw [bitVec_ofNat_eq (b := mode.bits) (by omega), AdvMode.ofBits_bits]
  · rintro ⟨hlength, rfl⟩
    have hplace := place.toNat_lt
    rw [← hlength, AdvMode.bits_ofBits, BitVec.toNat_ofNat, ← UInt8.toNat_inj, UInt8.toNat_ofNat']
    omega

/-- A body that is put together from a header, a place octet, an extended header and data is taken
apart again. -/
theorem ofBody_append {h : AdvHeader} {mode : AdvMode} {o : Octets} {ext : ExtHeader}
    (hlength : o.length ≤ 63) (hread : ExtHeader.ofOctets mode h.txAdd h.rxAdd o = .ok ext)
    (data : Octets) :
    ofBody h (h.toOctets ++ [UInt8.ofNat (o.length + 64 * mode.bits.toNat)] ++ o ++ data) =
      .ok ⟨h, ext, data⟩ := by
  have hnumber : (BitVec.ofNat 6 o.length).toNat = o.length := by
    rw [BitVec.toNat_ofNat]
    omega
  obtain ⟨hplace, hmode⟩ := (place_eq (BitVec.ofNat 6 o.length) mode _).mp rfl
  rw [hnumber] at hplace hmode
  generalize UInt8.ofNat (o.length + 64 * mode.bits.toNat) = place at *
  have hstart : (h.toOctets ++ [place]).length = 3 := rfl
  have hoctet : Octets.octet (h.toOctets ++ [place] ++ o ++ data) 2 = place := by
    rw [List.append_assoc, List.append_assoc]
    exact Octets.octet_append_right _ rfl
  rw [ofBody_eq_ok, hoctet]
  dsimp only
  rw [hplace, hmode, List.append_assoc]
  refine ⟨?_, ext, ?_, ?_⟩
  · rw [List.length_append, hstart, List.length_append]
    omega
  · rw [Octets.slice_append_right _ _ hstart, Octets.slice_append_left _ rfl, hread]
  · rw [← List.append_assoc, List.drop_left' (by rw [List.length_append, hstart])]

/-- A body that is read as an extended packet has the layout of its format. -/
theorem layout_of_ofBody {h : AdvHeader} {body : Octets} {p : ExtAdvertisement}
    (hp : ofBody h body = .ok p) : p.header = h ∧ p.Layout body := by
  obtain ⟨hfits, ext, hext, rfl⟩ := ofBody_eq_ok.mp hp
  have hslice : (body.slice 3 ((body.octet 2).toNat % 64)).length = (body.octet 2).toNat % 64 :=
    Octets.length_slice hfits
  obtain ⟨hmode, hnumber, hempty, parts, hfit, hkept, hparts⟩ :=
    ExtHeader.layout (by rw [hslice]; exact Nat.mod_lt _ (by decide)) hext
  rw [← hmode] at hempty
  refine ⟨rfl, hempty, parts, hfit, hkept, ?_, ?_⟩
  · dsimp only
    intro hlength
    rw [hnumber, hparts, if_neg hlength, List.length_cons, List.length_append]
    omega
  · rw [hslice] at hnumber
    rw [← hparts, ← (place_eq _ _ (body.octet 2)).mpr ⟨hnumber.symm, hmode.symm⟩,
      ← Octets.slice_one (by omega), Octets.slice_append_slice rfl,
      Octets.slice_append_slice rfl, Octets.slice_append_drop (by omega), List.drop_zero]

/-- The packet with the values is written in this layout. -/
theorem toBody_header {h : AdvHeader} {v : ExtValues} (hlength : 1 + v.octets.length ≤ 63)
    (mode : AdvMode) (data : Octets) :
    toBody ⟨h, v.header mode h, data⟩ =
      h.toOctets ++ [UInt8.ofNat (1 + v.octets.length + 64 * mode.bits.toNat)] ++
        (v.flags :: v.octets) ++ data := by
  have hnumber : (v.header mode h).length.toNat = 1 + v.octets.length := by
    rw [ExtValues.header, BitVec.toNat_ofNat]
    omega
  have hpos : (v.header mode h).length ≠ 0 := by
    intro hzero
    have hnone : (v.header mode h).length.toNat = 0 := congrArg BitVec.toNat hzero
    omega
  rw [toBody, ExtHeader.toOctets, if_neg hpos, hnumber, ExtValues.fieldOctets_header]
  rfl

/-- A packet whose extended header is empty is written without flags. -/
theorem toBody_empty (h : AdvHeader) (mode : AdvMode) (data : Octets) :
    toBody ⟨h, .empty mode, data⟩ =
      h.toOctets ++ [UInt8.ofNat (64 * mode.bits.toNat)] ++ data := by
  have hempty : (ExtHeader.empty mode).toOctets = [] := rfl
  have hplace : (ExtHeader.empty mode).length.toNat + 64 * (ExtHeader.empty mode).mode.bits.toNat =
      64 * mode.bits.toNat := Nat.zero_add _
  rw [toBody, hempty, hplace, List.append_nil]

/-- Every body that is read as an extended packet has the layout of its format.  Every choice of
values is read from the body that is put together from them, and the packet that is read is written
as this body. -/
theorem ofBody_layout (h : AdvHeader) :
    (∀ body p, ofBody h body = .ok p → p.header = h ∧ p.Layout body) ∧
    (∀ (mode : AdvMode) (v : ExtValues) (data : Octets), v.InRange → 1 + v.octets.length ≤ 63 →
      let body := h.toOctets ++ [UInt8.ofNat (1 + v.octets.length + 64 * mode.bits.toNat)] ++
        (v.flags :: v.octets) ++ data
      AdvHeader.ofBody body = .ok h ∧ ofBody h body = .ok ⟨h, v.header mode h, data⟩ ∧
        toBody ⟨h, v.header mode h, data⟩ = body) ∧
    ∀ (mode : AdvMode) (data : Octets),
      let body := h.toOctets ++ [UInt8.ofNat (64 * mode.bits.toNat)] ++ data
      AdvHeader.ofBody body = .ok h ∧ ofBody h body = .ok ⟨h, .empty mode, data⟩ ∧
        toBody ⟨h, .empty mode, data⟩ = body := by
  refine ⟨fun body p hp => layout_of_ofBody hp, ?_, ?_⟩
  · intro mode v data hrange hlength
    have hread : ExtHeader.ofOctets mode h.txAdd h.rxAdd (v.flags :: v.octets) =
        .ok (v.header mode h) :=
      ExtHeader.ofOctets_eq_ok.mpr
        ⟨v.part, v.acad, v.fit, rfl, (ExtValues.ofParts_part hrange mode h).symm⟩
    have hsize : (v.flags :: v.octets).length = 1 + v.octets.length := by
      rw [List.length_cons, Nat.add_comm]
    have hbody := ofBody_append (by rw [hsize]; exact hlength) hread data
    rw [hsize] at hbody
    refine ⟨?_, hbody, toBody_header hlength mode data⟩
    rw [List.append_assoc, List.append_assoc]
    exact AdvHeader.ofBody_toOctets_append h _
  · intro mode data
    have hread : ExtHeader.ofOctets mode h.txAdd h.rxAdd [] = .ok (.empty mode) := rfl
    have hbody := ofBody_append (Nat.zero_le _) hread data
    rw [List.length_nil, Nat.zero_add, List.append_nil] at hbody
    refine ⟨?_, hbody, toBody_empty h mode data⟩
    rw [List.append_assoc]
    exact AdvHeader.ofBody_toOctets_append h _

/-- Values for all fields. -/
def everyField : ExtValues where
  advA := some #v[0xC1, 0xC2, 0xC3, 0xC4, 0xC5, 0xC6]
  targetA := some #v[0xD1, 0xD2, 0xD3, 0xD4, 0xD5, 0xD6]
  cteInfo := some ⟨5, 1⟩
  adi := some ⟨0x123, 4⟩
  auxPtr := some ⟨8, true, false, 0x100, .le2M⟩
  syncInfo := some ⟨0x234, true, false, 0x50, 0x1FFFFFFFFF, 3, 0x50656741, 0x555555, 7⟩
  txPower := some (-4)
  spare := true
  acad := [0x99]

/-- A body with all fields, every reserved bit set. -/
def everyFieldBody : Octets :=
  [0x57, 41, 0x67, 0xFF, 0xC1, 0xC2, 0xC3, 0xC4, 0xC5, 0xC6, 0xD1, 0xD2, 0xD3, 0xD4, 0xD5, 0xD6,
    0x65, 0x23, 0x41, 0x48, 0x00, 0x21, 0x34, 0xA2, 0x50, 0x00, 0xFF, 0xFF, 0xFF, 0xFF, 0x7F, 0x41,
    0x67, 0x65, 0x50, 0x55, 0x55, 0x55, 0x07, 0x00, 0xFC, 0x99, 0xAA]

/-- The body is read as the values, and so is the body that is put together from them and that they
are written as. -/
theorem ofBody_layout_everyField :
    let h : AdvHeader := ⟨7, false, true, false, 41⟩
    let p : ExtAdvertisement := ⟨h, everyField.header .connectable h, [0xAA]⟩
    let written := h.toOctets ++ [UInt8.ofNat (1 + 38 + 64 * 1)] ++
      (everyField.flags :: everyField.octets) ++ [0xAA]
    ofBody h everyFieldBody = .ok p ∧ p.Layout everyFieldBody ∧
      ofBody h written = .ok p ∧ p.toBody = written := by
  intro h p written
  have hp : ofBody h everyFieldBody = .ok p := by decide +kernel
  have hrange : everyField.InRange := by
    rintro _ ⟨⟩
    exact trivial
  obtain ⟨hlayout, hwritten, -⟩ := ofBody_layout h
  exact ⟨hp, (hlayout _ _ hp).2, (hwritten .connectable everyField [0xAA] hrange (by decide)).2⟩

end ExtAdvertisement

end AirTrace

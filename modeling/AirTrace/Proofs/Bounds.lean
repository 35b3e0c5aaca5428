import AirTrace.Proofs.Decoding
import AirTrace.Proofs.Fields

/-!
# Decoding stays within the body

The readers of the library give a value for every offset: past the end of a string an octet is zero
and a slice is short.  A receiver has no octets there, and a reader that looked for one would stop
it.  So this module reads a body once more, offset by offset as the decoder does, with reads that
are refused where the string does not reach.  `Pdu.ofBody?_eq` says that no read is ever refused,
and that what is read is what the decoder gives.

There are four groups.

* Reads.  `octet?`, `slice?` and `drop?` are the only ways to look at a string, and wider fields are
  made of slices.  Each gives what its unguarded twin gives if the string is long enough.
* Fixed layouts: every field of a group at its own offset.
* Packets.  `Guarded` holds both ways in which a reading can end early: refused, or with an error
  about the body.  `run_check_bind` is the step that all fixed bodies share: the length is checked,
  and then the offsets below it may be read.
* The extended header, whose fields are found by a position that moves on.  It never passes the end
  of the header (`ExtField.run_take?_bind`).
-/

namespace AirTrace

/-! ## Reads that can be refused -/

namespace Octets

/-- The octet at offset `i`, if the string reaches that far. -/
def octet? (o : Octets) (i : Nat) : Option UInt8 := o[i]?

/-- The `n` octets from offset `i`, if the string reaches that far. -/
def slice? (o : Octets) (i n : Nat) : Option Octets :=
  if i + n ≤ o.length then some (o.slice i n) else none

/-- The octets from offset `n` on, if the string reaches that far. -/
def drop? (o : Octets) (n : Nat) : Option Octets := if n ≤ o.length then some (o.drop n) else none

/-- The 16-bit word at offset `i`. -/
def word16? (o : Octets) (i : Nat) : Option UInt16 :=
  (o.slice? i 2).map fun s => UInt16.ofNat s.toNat

/-- The 24-bit word at offset `i`. -/
def word24? (o : Octets) (i : Nat) : Option (BitVec 24) :=
  (o.slice? i 3).map fun s => BitVec.ofNat 24 s.toNat

/-- The 32-bit word at offset `i`. -/
def word32? (o : Octets) (i : Nat) : Option UInt32 :=
  (o.slice? i 4).map fun s => UInt32.ofNat s.toNat

/-- The 64-bit word at offset `i`. -/
def word64? (o : Octets) (i : Nat) : Option UInt64 :=
  (o.slice? i 8).map fun s => UInt64.ofNat s.toNat

/-- The `n` octets from offset `i` as a vector. -/
def vector? (n : Nat) (o : Octets) (i : Nat) : Option (Vector UInt8 n) :=
  (o.slice? i n).map fun s => s.vector n 0

variable {o : Octets} {i n : Nat}

theorem octet?_eq (h : i < o.length) : o.octet? i = some (o.octet i) := by
  rw [octet?, octet, List.getElem?_eq_getElem h, List.getD_eq_getElem _ _ h]

theorem slice?_eq (h : i + n ≤ o.length) : o.slice? i n = some (o.slice i n) := if_pos h

theorem slice?_all (h : o.length = n) : o.slice? 0 n = some o := by
  rw [slice?_eq (by omega), slice_all h]

theorem drop?_eq (h : n ≤ o.length) : o.drop? n = some (o.drop n) := if_pos h

theorem word16?_eq (h : i + 2 ≤ o.length) : o.word16? i = some (o.word16 i) := by
  rw [word16?, slice?_eq h]
  rfl

theorem word24?_eq (h : i + 3 ≤ o.length) : o.word24? i = some (o.word24 i) := by
  rw [word24?, slice?_eq h]
  rfl

theorem word32?_eq (h : i + 4 ≤ o.length) : o.word32? i = some (o.word32 i) := by
  rw [word32?, slice?_eq h]
  rfl

theorem word64?_eq (h : i + 8 ≤ o.length) : o.word64? i = some (o.word64 i) := by
  rw [word64?, slice?_eq h]
  rfl

theorem vector?_eq (h : i + n ≤ o.length) : o.vector? n i = some (o.vector n i) := by
  have hsame : (o.slice i n).vector n 0 = o.vector n i := by
    unfold vector
    congr 1
    funext k
    rw [Nat.zero_add, octet_slice k.isLt]
  rw [vector?, slice?_eq h, Option.map_some, hsame]

end Octets

/-! ## Fixed layouts -/

/-- The address in the six octets from an offset. -/
def Address.read? (o : Octets) (i : Nat) (random : Bool) : Option Address := do
  let octets ← o.vector? 6 i
  return ⟨octets, random⟩

/-- The channel map in the five octets from an offset. -/
def ChannelMap.read? (o : Octets) (i : Nat) : Option ChannelMap :=
  (o.slice? i 5).map fun s => BitVec.ofNat 37 s.toNat

/-- The parameters of a connection from an offset. -/
def LinkParameters.read? (o : Octets) (i : Nat) : Option LinkParameters := do
  let accessAddress ← o.word32? i
  let crcInit ← o.word24? (i + 4)
  let winSize ← o.octet? (i + 7)
  let winOffset ← o.word16? (i + 8)
  let interval ← o.word16? (i + 10)
  let latency ← o.word16? (i + 12)
  let timeout ← o.word16? (i + 14)
  let channelMap ← ChannelMap.read? o (i + 16)
  let last ← o.octet? (i + 21)
  return {
    accessAddress := accessAddress
    crcInit := crcInit
    winSize := winSize
    winOffset := winOffset
    interval := interval
    latency := latency
    timeout := timeout
    channelMap := channelMap
    hop := BitVec.ofNat 5 last.toNat
    sca := BitVec.ofNat 3 (last.toNat / 32) }

/-- The parameters of a periodic advertising train. -/
def SyncInfo.read? (o : Octets) : Option SyncInfo := do
  let w ← o.word16? 0
  let interval ← o.word16? 2
  let channelMap ← ChannelMap.read? o 4
  let shared ← o.octet? 8
  let accessAddress ← o.word32? 9
  let crcInit ← o.word24? 13
  let event ← o.word16? 16
  return {
    offset := BitVec.ofNat 13 w.toNat
    coarse := w.toNat.testBit 13
    adjusted := w.toNat.testBit 14
    interval := interval
    channelMap := channelMap
    sca := BitVec.ofNat 3 (shared.toNat / 32)
    accessAddress := accessAddress
    crcInit := crcInit
    event := event }

/-- The data of a control procedure. -/
def ControlFields.read? (op : Opcode) (d : Octets) : Option ControlFields :=
  match op with
  | .connectionUpdateInd => do
      return connectionUpdate (← d.octet? 0) (← d.word16? 1) (← d.word16? 3) (← d.word16? 5)
        (← d.word16? 7) (← d.word16? 9)
  | .channelMapInd => do return channelMap (← ChannelMap.read? d 0) (← d.word16? 5)
  | .terminateInd | .rejectInd => do return errorCode (← d.octet? 0)
  | .encReq => do
      return encReq (← d.vector? 8 0) (← d.word16? 8) (← d.vector? 8 10) (← d.vector? 4 18)
  | .encRsp => do return encRsp (← d.vector? 8 0) (← d.vector? 4 8)
  | .unknownRsp => do return unknownRsp (← d.octet? 0)
  | .featureReq | .featureRsp | .peripheralFeatureReq => do return features (← d.word64? 0)
  | .versionInd => do return version (← d.octet? 0) (← d.word16? 1) (← d.word16? 3)
  | .connectionParamReq | .connectionParamRsp => do
      let o0 ← d.word16? 11
      let o1 ← d.word16? 13
      let o2 ← d.word16? 15
      let o3 ← d.word16? 17
      let o4 ← d.word16? 19
      let o5 ← d.word16? 21
      return connectionParam (← d.word16? 0) (← d.word16? 2) (← d.word16? 4) (← d.word16? 6)
        (← d.octet? 8) (← d.word16? 9) #v[o0, o1, o2, o3, o4, o5]
  | .rejectExtInd => do return rejectExt (← d.octet? 0) (← d.octet? 1)
  | .lengthReq | .lengthRsp => do
      return length (← d.word16? 0) (← d.word16? 2) (← d.word16? 4) (← d.word16? 6)
  | .phyReq | .phyRsp => do return phys (← d.octet? 0) (← d.octet? 1)
  | .phyUpdateInd => do return phyUpdate (← d.octet? 0) (← d.octet? 1) (← d.word16? 2)
  | .minUsedChannelsInd => do return minUsedChannels (← d.octet? 0) (← d.octet? 1)
  | .startEncReq | .startEncRsp | .pauseEncReq | .pauseEncRsp | .pingReq | .pingRsp => some empty
  | _ => some raw

section Layouts

variable {o : Octets} {i : Nat}

open Octets

theorem Address.read?_eq (random : Bool) (h : i + 6 ≤ o.length) :
    read? o i random = some (read o i random) := by
  rw [read?, vector?_eq h]
  rfl

theorem ChannelMap.read?_eq (h : i + 5 ≤ o.length) : read? o i = some (read o i) := by
  rw [read?, slice?_eq h]
  rfl

theorem LinkParameters.read?_eq (h : i + 22 ≤ o.length) : read? o i = some (read o i) := by
  unfold read?
  rw [word32?_eq (by omega), word24?_eq (by omega), octet?_eq (by omega), word16?_eq (by omega),
    word16?_eq (by omega), word16?_eq (by omega), word16?_eq (by omega),
    ChannelMap.read?_eq (by omega), octet?_eq (by omega)]
  rfl

theorem SyncInfo.read?_eq (h : o.length = 18) : read? o = some (ofOctets o) := by
  unfold read?
  rw [word16?_eq (by omega), word16?_eq (by omega), ChannelMap.read?_eq (by omega),
    octet?_eq (by omega), word32?_eq (by omega), word24?_eq (by omega), word16?_eq (by omega)]
  rfl

/-- The data of a procedure lie within the length that the procedure requires. -/
theorem ControlFields.read?_eq {op : Opcode} {d : Octets} (h : op.dataLength ≤ d.length) :
    read? op d = some (read op d) := by
  cases op <;> simp only [Opcode.dataLength] at h <;> unfold read? <;>
    simp (disch := omega) only [octet?_eq, word16?_eq, word64?_eq, vector?_eq,
      ChannelMap.read?_eq] <;>
    rfl

end Layouts

/-! ## Packets -/

/-- A reading that is refused as soon as it looks past the end, and that otherwise gives a result or
says why there is none. -/
abbrev Guarded (α : Type) := ExceptT DecodeError Option α

namespace Guarded

variable {α β : Type}

/-- A look at some octets. -/
def look (x : Option α) : Guarded α := ExceptT.lift x

/-- A check of the length, which looks at no octet. -/
def check (part : String) (needed : Nat) (o : Octets) : Guarded Unit :=
  ExceptT.mk (some (need part needed o))

theorem run_bind {x : Guarded α} {y : Except DecodeError α} {f : α → Guarded β}
    {g : α → Except DecodeError β} (hx : x.run = some y)
    (hf : ∀ a, y = .ok a → (f a).run = some (g a)) : (x >>= f).run = some (y >>= g) := by
  rw [ExceptT.run_bind, hx]
  cases y with
  | error e => rfl
  | ok a => exact hf a rfl

theorem run_map {x : Guarded α} {y : Except DecodeError α} (hx : x.run = some y) (f : α → β) :
    (f <$> x).run = some (f <$> y) := by
  rw [ExceptT.run_map, hx]
  rfl

/-- A look that is not refused. -/
theorem run_look_bind {x : Option α} {a : α} (hx : x = some a) (f : α → Guarded β) :
    (look x >>= f).run = (f a).run := by
  subst hx
  rfl

/-- After a check of the length, the octets up to that length may be read. -/
theorem run_check_bind {part : String} {n : Nat} {o : Octets} {f : Unit → Guarded β}
    {g : Unit → Except DecodeError β} (h : n ≤ o.length → (f ()).run = some (g ())) :
    (check part n o >>= f).run = some (need part n o >>= g) := by
  apply run_bind rfl
  intro _ hneed
  apply h
  unfold need at hneed
  split at hneed
  · cases hneed
  · omega

end Guarded

open Guarded (look check run_bind run_map run_look_bind run_check_bind)

/-! ### Advertising packets -/

/-- Reads the header at the start of a body. -/
def AdvHeader.ofBody? (body : Octets) : Guarded AdvHeader := do
  if body.isEmpty then throw .empty
  else
    check "advertising header" 2 body
    let first ← look (body.octet? 0)
    let length ← look (body.octet? 1)
    return ofOctets first length

/-- Reads an advertisement. -/
def Advertisement.ofBody? (name : String) (h : AdvHeader) (body : Octets) :
    Guarded Advertisement := do
  check name 8 body
  let advA ← look (Address.read? body 2 h.txAdd)
  let data ← look (body.drop? 8)
  return ⟨h, advA, data⟩

/-- Reads a directed advertisement. -/
def DirectedAdvertisement.ofBody? (name : String) (h : AdvHeader) (body : Octets) :
    Guarded DirectedAdvertisement := do
  check name 14 body
  let advA ← look (Address.read? body 2 h.txAdd)
  let targetA ← look (Address.read? body 8 h.rxAdd)
  return ⟨h, advA, targetA⟩

/-- Reads a scan request. -/
def ScanRequest.ofBody? (name : String) (h : AdvHeader) (body : Octets) :
    Guarded ScanRequest := do
  check name 14 body
  let scanA ← look (Address.read? body 2 h.txAdd)
  let advA ← look (Address.read? body 8 h.rxAdd)
  return ⟨h, scanA, advA⟩

/-- Reads a connection request. -/
def ConnectRequest.ofBody? (name : String) (h : AdvHeader) (body : Octets) :
    Guarded ConnectRequest := do
  check name bodyLength body
  let initA ← look (Address.read? body 2 h.txAdd)
  let advA ← look (Address.read? body 8 h.rxAdd)
  let parameters ← look (LinkParameters.read? body 14)
  return ⟨h, initA, advA, parameters⟩

/-- Reads a packet of unknown type. -/
def UnknownAdvertising.ofBody? (h : AdvHeader) (body : Octets) : Guarded UnknownAdvertising := do
  let payload ← look (body.drop? 2)
  return ⟨h, payload⟩

section Advertising

variable (name : String) (h : AdvHeader) (body : Octets)

theorem AdvHeader.ofBody?_eq : (ofBody? body).run = some (ofBody body) := by
  match body with
  | [] => rfl
  | [_] => rfl
  | first :: length :: rest =>
    have hlong : need "advertising header" 2 (first :: length :: rest) = .ok () :=
      if_neg (by simp)
    show (check _ _ _ >>= _).run = _
    unfold check
    rw [hlong]
    rfl

theorem Advertisement.ofBody?_eq : (ofBody? name h body).run = some (ofBody name h body) := by
  apply run_check_bind
  intro hlength
  rw [run_look_bind (Address.read?_eq h.txAdd hlength),
    run_look_bind (Octets.drop?_eq hlength)]
  rfl

theorem DirectedAdvertisement.ofBody?_eq :
    (ofBody? name h body).run = some (ofBody name h body) := by
  apply run_check_bind
  intro hlength
  rw [run_look_bind (Address.read?_eq h.txAdd (by omega)),
    run_look_bind (Address.read?_eq h.rxAdd hlength)]
  rfl

theorem ScanRequest.ofBody?_eq : (ofBody? name h body).run = some (ofBody name h body) := by
  apply run_check_bind
  intro hlength
  rw [run_look_bind (Address.read?_eq h.txAdd (by omega)),
    run_look_bind (Address.read?_eq h.rxAdd hlength)]
  rfl

theorem ConnectRequest.ofBody?_eq : (ofBody? name h body).run = some (ofBody name h body) := by
  apply run_check_bind
  intro hlength
  unfold bodyLength at hlength
  rw [run_look_bind (Address.read?_eq h.txAdd (by omega)),
    run_look_bind (Address.read?_eq h.rxAdd (by omega)),
    run_look_bind (LinkParameters.read?_eq hlength)]
  rfl

variable {body}

theorem UnknownAdvertising.ofBody?_eq (hbody : 2 ≤ body.length) :
    (ofBody? h body).run = some (.ok (ofBody h body)) :=
  run_look_bind (Octets.drop?_eq hbody) _

end Advertising

/-! ### Extended advertising packets -/

/-- Takes a field at a position of a header, if the flags announce it, and moves the position on. -/
def ExtField.take? {α : Type} (f : ExtField) (value : Octets → Option α) (flags : UInt8)
    (header : Octets) (position : Nat) : Guarded (Option α × Nat) :=
  if flags.toNat.testBit f.flag then
    if header.length < position + f.size then throw (.fieldOverrun f)
    else do
      let part ← look (header.slice? position f.size)
      let field ← look (value part)
      return (some field, position + f.size)
  else return (none, position)

/-- Reads a header from its declared octets. -/
def ExtHeader.ofOctets? (mode : AdvMode) (txAdd rxAdd : Bool) (header : Octets) :
    Guarded ExtHeader :=
  if header.isEmpty then return empty mode
  else do
    let flags ← look (header.octet? 0)
    let (advA, position) ← ExtField.advA.take? (Address.read? · 0 txAdd) flags header 1
    let (targetA, position) ← ExtField.targetA.take? (Address.read? · 0 rxAdd) flags header position
    let (cteInfo, position) ←
      ExtField.cteInfo.take? (fun o => (o.octet? 0).map CteInfo.ofOctet) flags header position
    let (adi, position) ←
      ExtField.adi.take? (fun o => (o.word16? 0).map Adi.ofWord) flags header position
    let (auxPtr, position) ←
      ExtField.auxPtr.take? (fun o => (o.slice? 0 3).map AuxPtr.ofOctets) flags header position
    let (syncInfo, position) ← ExtField.syncInfo.take? SyncInfo.read? flags header position
    let (txPower, position) ←
      ExtField.txPower.take? (fun o => (o.octet? 0).map UInt8.toInt8) flags header position
    let acad ← look (header.drop? position)
    return {
      mode := mode
      length := BitVec.ofNat 6 header.length
      flags := flags
      advA := advA
      targetA := targetA
      cteInfo := cteInfo
      adi := adi
      auxPtr := auxPtr
      syncInfo := syncInfo
      txPower := txPower
      acad := acad }

/-- Reads an extended packet. -/
def ExtAdvertisement.ofBody? (h : AdvHeader) (body : Octets) : Guarded ExtAdvertisement := do
  check "extended advertising PDU" 3 body
  let place ← look (body.octet? 2)
  let declared := place.toNat % 64
  if body.length - 3 < declared then throw (.headerOverrun declared (body.length - 3))
  else
    let octets ← look (body.slice? 3 declared)
    let ext ← ExtHeader.ofOctets? (.ofBits (BitVec.ofNat 2 (place.toNat / 64))) h.txAdd h.rxAdd
      octets
    let data ← look (body.drop? (3 + declared))
    return ⟨h, ext, data⟩

section Extended

variable {α β : Type} {value : Octets → Option α} {value' : Octets → α} {flags : UInt8}
  {header : Octets} {position : Nat}

/-- Taking a field at a position is cutting it off what the position leaves.  The position does not
pass the end of the header. -/
theorem ExtField.run_take?_bind {f : ExtField} {k : Option α × Nat → Guarded β}
    {k' : Option Octets × Octets → Except DecodeError β}
    (hvalue : ∀ o : Octets, o.length = f.size → value o = some (value' o))
    (hposition : position ≤ header.length)
    (hk : ∀ (part : Option Octets) (next : Nat), next ≤ header.length →
      (k (part.map value', next)).run = some (k' (part, header.drop next))) :
    (f.take? value flags header position >>= k).run =
      some (f.cut flags (header.drop position) >>= k') := by
  unfold take? cut
  have hleft : (header.drop position).length = header.length - position := List.length_drop
  split
  · by_cases hshort : header.length < position + f.size
    · rw [if_pos hshort, if_pos (by omega)]
      rfl
    · have hpart : (header.slice position f.size).length = f.size := by
        rw [Octets.slice, List.length_take]
        omega
      have hnext := hk (some (header.slice position f.size)) (position + f.size) (by omega)
      rw [if_neg hshort, if_neg (by omega), Octets.slice?_eq (by omega), List.drop_drop]
      show ((look (value (header.slice position f.size)) >>= _) >>= k).run = _
      rw [hvalue _ hpart]
      exact hnext
  · exact hk none position hposition

theorem ExtHeader.ofOctets?_eq (mode : AdvMode) (txAdd rxAdd : Bool) (header : Octets) :
    (ofOctets? mode txAdd rxAdd header).run = some (ofOctets mode txAdd rxAdd header) := by
  match header with
  | [] => rfl
  | flags :: fields =>
    have hoctet : ∀ o : Octets, o.length = 1 → o.octet? 0 = some (o.octet 0) := by
      intro o ho
      exact Octets.octet?_eq (by omega)
    show (look (some flags) >>= _).run = _
    rw [run_look_bind rfl]
    have hstart : 1 ≤ (flags :: fields).length := by simp
    refine ExtField.run_take?_bind (fun o ho => Address.read?_eq txAdd (le_of_eq ho.symm))
      hstart ?_
    intro advA position hposition
    refine ExtField.run_take?_bind (fun o ho => Address.read?_eq rxAdd (le_of_eq ho.symm))
      hposition ?_
    intro targetA position hposition
    refine ExtField.run_take?_bind (fun o ho => by rw [hoctet o ho, Option.map_some]) hposition ?_
    intro cteInfo position hposition
    refine ExtField.run_take?_bind
      (fun o ho => by rw [Octets.word16?_eq (le_of_eq ho.symm), Option.map_some]) hposition ?_
    intro adi position hposition
    refine ExtField.run_take?_bind
      (fun o ho => congrArg (Option.map AuxPtr.ofOctets) (Octets.slice?_all ho)) hposition ?_
    intro auxPtr position hposition
    refine ExtField.run_take?_bind (fun o ho => SyncInfo.read?_eq ho) hposition ?_
    intro syncInfo position hposition
    refine ExtField.run_take?_bind (fun o ho => by rw [hoctet o ho, Option.map_some]) hposition ?_
    intro txPower position hposition
    exact run_look_bind (Octets.drop?_eq hposition) _

theorem ExtAdvertisement.ofBody?_eq (h : AdvHeader) (body : Octets) :
    (ofBody? h body).run = some (ofBody h body) := by
  apply run_check_bind
  intro hlength
  rw [run_look_bind (Octets.octet?_eq hlength)]
  dsimp only
  split
  · rfl
  · rw [run_look_bind (Octets.slice?_eq (by omega))]
    apply run_bind (ExtHeader.ofOctets?_eq _ _ _ _)
    intro ext _
    exact run_look_bind (Octets.drop?_eq (by omega)) _

end Extended

/-! ### Data channel packets -/

/-- Reads the header at the start of a body. -/
def DataHeader.ofBody? (body : Octets) : Guarded DataHeader :=
  if body.isEmpty then throw .empty
  else do
    check "data header" 2 body
    let first ← look (body.octet? 0)
    let length ← look (body.octet? 1)
    return ofOctets first length

/-- Reads what comes before the payload, and gives the payload with it. -/
def DataPreamble.ofBody? (body : Octets) : Guarded (DataPreamble × Octets) := do
  let header ← DataHeader.ofBody? body
  if header.cp then
    check "data CTEInfo" 3 body
    let cte ← look (body.octet? 2)
    let payload ← look (body.drop? 3)
    return (⟨header, some (.ofOctet cte)⟩, payload)
  else
    let payload ← look (body.drop? 2)
    return (⟨header, none⟩, payload)

/-- Reads a control packet from its payload. -/
def ControlPacket.ofPayload? (p : DataPreamble) (payload : Octets) : Guarded ControlPacket := do
  check "LL control opcode" 1 payload
  let code ← look (payload.octet? 0)
  let data ← look (payload.drop? 1)
  check (Opcode.ofCode code).name (Opcode.ofCode code).dataLength data
  let fields ← look (ControlFields.read? (.ofCode code) data)
  return ⟨p, .ofCode code, data, fields⟩

theorem DataHeader.ofBody?_eq (body : Octets) : (ofBody? body).run = some (ofBody body) := by
  match body with
  | [] => rfl
  | [_] => rfl
  | first :: length :: rest =>
    have hlong : need "data header" 2 (first :: length :: rest) = .ok () := if_neg (by simp)
    show (check _ _ _ >>= _).run = _
    unfold check
    rw [hlong]
    rfl

theorem DataHeader.two_le_of_ofBody {body : Octets} {h : DataHeader} (hh : ofBody body = .ok h) :
    2 ≤ body.length := by
  match body with
  | [] | [_] => cases hh
  | first :: length :: rest => simp

theorem DataPreamble.ofBody?_eq (body : Octets) : (ofBody? body).run = some (ofBody body) := by
  apply run_bind (DataHeader.ofBody?_eq body)
  intro header hheader
  split
  · apply run_check_bind
    intro hlength
    rw [run_look_bind (Octets.octet?_eq hlength), run_look_bind (Octets.drop?_eq hlength)]
    rfl
  · exact run_look_bind (Octets.drop?_eq (DataHeader.two_le_of_ofBody hheader)) _

theorem ControlPacket.ofPayload?_eq (p : DataPreamble) (payload : Octets) :
    (ofPayload? p payload).run = some (ofPayload p payload) := by
  apply run_check_bind
  intro hlength
  rw [run_look_bind (Octets.octet?_eq hlength), run_look_bind (Octets.drop?_eq hlength)]
  apply run_check_bind
  intro hdata
  exact run_look_bind (ControlFields.read?_eq hdata) _

/-! ### Bodies -/

namespace Pdu

/-- Decodes a body from a primary channel, its header given. -/
def ofPrimaryBody? (h : AdvHeader) (body : Octets) : Guarded Pdu :=
  match h.pduType.toNat with
  | 0 => advertisement .advInd <$> Advertisement.ofBody? "ADV_IND" h body
  | 1 => directed <$> DirectedAdvertisement.ofBody? "ADV_DIRECT_IND" h body
  | 2 => advertisement .advNonconnInd <$> Advertisement.ofBody? "ADV_NONCONN_IND" h body
  | 3 => scanRequest .primary <$> ScanRequest.ofBody? "SCAN_REQ" h body
  | 4 => advertisement .scanRsp <$> Advertisement.ofBody? "SCAN_RSP" h body
  | 5 => connectRequest .primary <$> ConnectRequest.ofBody? "CONNECT_IND" h body
  | 6 => advertisement .advScanInd <$> Advertisement.ofBody? "ADV_SCAN_IND" h body
  | 7 => extended .advExtInd <$> ExtAdvertisement.ofBody? h body
  | _ => unknown <$> UnknownAdvertising.ofBody? h body

/-- Decodes a body from a secondary channel, its header given. -/
def ofSecondaryBody? (h : AdvHeader) (body : Octets) : Guarded Pdu :=
  match h.pduType.toNat with
  | 3 => scanRequest .secondary <$> ScanRequest.ofBody? "AUX_SCAN_REQ" h body
  | 5 => connectRequest .secondary <$> ConnectRequest.ofBody? "AUX_CONNECT_REQ" h body
  | 7 => extended .auxAdvInd <$> ExtAdvertisement.ofBody? h body
  | 8 => extended .auxConnectRsp <$> ExtAdvertisement.ofBody? h body
  | _ => unknown <$> UnknownAdvertising.ofBody? h body

/-- Decodes a body of the advertising family. -/
def ofAdvertisingBody? (tier : Tier) (body : Octets) : Guarded Pdu := do
  let h ← AdvHeader.ofBody? body
  match tier with
  | .primary => ofPrimaryBody? h body
  | .secondary => ofSecondaryBody? h body

/-- Decodes a body of the data family. -/
def ofDataBody? (body : Octets) : Guarded Pdu := do
  let (preamble, payload) ← DataPreamble.ofBody? body
  match preamble.header.llid with
  | .control => control <$> ControlPacket.ofPayload? preamble payload
  | _ => return data ⟨preamble, payload⟩

/-- Decodes a body with reads that are refused past its end. -/
def ofBody? (family : Family) (tier : Tier) (body : Octets) : Guarded Pdu :=
  match family with
  | .advertising => ofAdvertisingBody? tier body
  | .data => ofDataBody? body

theorem ofPrimaryBody?_eq {h : AdvHeader} {body : Octets} (hbody : 2 ≤ body.length) :
    (ofPrimaryBody? h body).run = some (ofPrimaryBody h body) := by
  unfold ofPrimaryBody? ofPrimaryBody
  generalize h.pduType.toNat = type
  match type with
  | 0 | 2 | 4 | 6 => exact run_map (Advertisement.ofBody?_eq _ h body) _
  | 1 => exact run_map (DirectedAdvertisement.ofBody?_eq _ h body) _
  | 3 => exact run_map (ScanRequest.ofBody?_eq _ h body) _
  | 5 => exact run_map (ConnectRequest.ofBody?_eq _ h body) _
  | 7 => exact run_map (ExtAdvertisement.ofBody?_eq h body) _
  | _ + 8 => exact run_map (UnknownAdvertising.ofBody?_eq h hbody) _

theorem ofSecondaryBody?_eq {h : AdvHeader} {body : Octets} (hbody : 2 ≤ body.length) :
    (ofSecondaryBody? h body).run = some (ofSecondaryBody h body) := by
  unfold ofSecondaryBody? ofSecondaryBody
  generalize h.pduType.toNat = type
  match type with
  | 3 => exact run_map (ScanRequest.ofBody?_eq _ h body) _
  | 5 => exact run_map (ConnectRequest.ofBody?_eq _ h body) _
  | 7 | 8 => exact run_map (ExtAdvertisement.ofBody?_eq h body) _
  | 0 | 1 | 2 | 4 | 6 | _ + 9 => exact run_map (UnknownAdvertising.ofBody?_eq h hbody) _

/-- No read is refused, and the guarded reading gives what the decoder gives. -/
theorem ofBody?_eq (family : Family) (tier : Tier) (body : Octets) :
    (ofBody? family tier body).run = some (ofBody family tier body) := by
  cases family with
  | advertising =>
    apply run_bind (AdvHeader.ofBody?_eq body)
    intro h hh
    have hbody : 2 ≤ body.length := by
      match body with
      | [] | [_] => cases hh
      | _ :: _ :: _ => simp
    cases tier with
    | primary => exact ofPrimaryBody?_eq hbody
    | secondary => exact ofSecondaryBody?_eq hbody
  | data =>
    apply run_bind (DataPreamble.ofBody?_eq body)
    intro p _
    obtain ⟨preamble, payload⟩ := p
    cases hllid : preamble.header.llid with
    | control =>
      simp only [hllid]
      exact run_map (ControlPacket.ofPayload?_eq preamble payload) _
    | reserved | continuation | start =>
      simp only [hllid]
      rfl

end Pdu

end AirTrace

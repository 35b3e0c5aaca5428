import AirTrace.Proofs.Grammar
import AirTrace.Time.Exact

/-!
# Nothing is lost in decoding

A packet that is not an extended one can be written again from what was decoded, and the octets are
those of its body.  Two things are not kept: the bits that the format reserves, and the octets after
a packet of fixed length.  `Pdu.kept` is what is left of a body without them.  It looks at the
family, the kind of channel and the type in the first octet only, and not at what was decoded.

The layouts are taken one at a time: the fields of a packet are written one after the other, and the
slices of the body that they were read from join to the whole (`Octets.slice_append_slice`).  The
data of a control procedure is kept twice, as octets and in its fields;
`ControlFields.toOctets_read` says that the fields alone give the octets that they were read from.
-/

namespace AirTrace

/-! ## What is kept -/

namespace Pdu

/-- What an advertising packet keeps of its body: bit 4 of the first octet is reserved, and so are
the upper bits of the channel map in a connection request. -/
def keptAdvertising (tier : Tier) (body : Octets) : Octets :=
  let fields := match tier, (body.octet 0).toNat % 16 with
    | .primary, 1 | _, 3 => body.slice 0 14
    | _, 5 => (body.slice 0 36).maskAt 34 0x1F
    | _, _ => body
  fields.maskAt 0 0xEF

/-- What a data channel packet keeps of its body: bits 6 and 7 of the first octet are reserved, and
so is bit 5 in the description of a constant tone extension. -/
def keptData (body : Octets) : Octets :=
  let fields := if (body.octet 0).toNat.testBit 5 then body.maskAt 2 0xDF else body
  fields.maskAt 0 0x3F

/-- What a packet keeps of its body. -/
def kept (family : Family) (tier : Tier) (body : Octets) : Octets :=
  match family with
  | .advertising => keptAdvertising tier body
  | .data => keptData body

end Pdu

/-- What the fields of a control procedure keep of its data: the octets that they are read from,
without the upper bits of a channel map. -/
def Opcode.kept (op : Opcode) (d : Octets) : Octets :=
  match op with
  | .channelMapInd => (d.slice 0 7).maskAt 4 0x1F
  | op => d.slice 0 op.dataLength

/-! ## Advertising packets -/

section Advertising

variable {body : Octets}

/-- The header of a packet and what follows it. -/
theorem AdvHeader.toOctets_append (hbody : 2 ≤ body.length) (rest : Octets) :
    (ofOctets (body.octet 0) (body.octet 1)).toOctets ++ rest =
      (body.slice 0 2 ++ rest).maskAt 0 0xEF := by
  have hslice : body.slice 0 2 = [body.octet 0, body.octet 1] := Octets.slice_two hbody rfl
  rw [toOctets_ofOctets, hslice]
  rfl

/-- The header of a packet and the two addresses after it. -/
theorem AdvHeader.toOctets_append_addresses (hbody : 14 ≤ body.length) (txAdd rxAdd : Bool) :
    (ofOctets (body.octet 0) (body.octet 1)).toOctets ++ (Address.read body 2 txAdd).toOctets ++
      (Address.read body 8 rxAdd).toOctets = (body.slice 0 14).maskAt 0 0xEF := by
  rw [List.append_assoc, toOctets_append (by omega), Address.toOctets_read (by omega),
    Address.toOctets_read (by omega), Octets.slice_append_slice rfl, Octets.slice_append_slice rfl]

variable {name : String}

theorem Advertisement.toBody_ofBody {p : Advertisement}
    (h : ofBody name (.ofOctets (body.octet 0) (body.octet 1)) body = .ok p) :
    p.toBody = body.maskAt 0 0xEF := by
  obtain ⟨hlength, rfl⟩ := ofBody_eq_ok.mp h
  rw [toBody, List.append_assoc, AdvHeader.toOctets_append (by omega),
    Address.toOctets_read (by omega), Octets.slice_append_drop rfl, Octets.slice_append_drop rfl,
    List.drop_zero]

theorem DirectedAdvertisement.toBody_ofBody {p : DirectedAdvertisement}
    (h : ofBody name (.ofOctets (body.octet 0) (body.octet 1)) body = .ok p) :
    p.toBody = (body.slice 0 14).maskAt 0 0xEF := by
  obtain ⟨hlength, rfl⟩ := ofBody_eq_ok.mp h
  exact AdvHeader.toOctets_append_addresses hlength _ _

theorem ScanRequest.toBody_ofBody {p : ScanRequest}
    (h : ofBody name (.ofOctets (body.octet 0) (body.octet 1)) body = .ok p) :
    p.toBody = (body.slice 0 14).maskAt 0 0xEF := by
  obtain ⟨hlength, rfl⟩ := ofBody_eq_ok.mp h
  exact AdvHeader.toOctets_append_addresses hlength _ _

theorem ConnectRequest.toBody_ofBody {p : ConnectRequest}
    (h : ofBody name (.ofOctets (body.octet 0) (body.octet 1)) body = .ok p) :
    p.toBody = ((body.slice 0 36).maskAt 34 0x1F).maskAt 0 0xEF := by
  obtain ⟨hlength, rfl⟩ := ofBody_eq_ok.mp h
  have hstart : (body.slice 0 14).length = 14 := Octets.length_slice (by omega)
  have hjoin : body.slice 0 14 ++ (body.slice 14 22).maskAt 20 0x1F =
      (body.slice 0 36).maskAt 34 0x1F := by
    rw [← Octets.maskAt_append_right (i := 34) (by rw [hstart]), Octets.slice_append_slice rfl]
  rw [toBody, AdvHeader.toOctets_append_addresses (by omega),
    LinkParameters.toOctets_read (by omega),
    ← Octets.maskAt_append_left (by rw [hstart]; decide), hjoin]

theorem UnknownAdvertising.toBody_ofBody (hbody : 2 ≤ body.length) :
    (ofBody (.ofOctets (body.octet 0) (body.octet 1)) body).toBody = body.maskAt 0 0xEF := by
  rw [toBody, ofBody, AdvHeader.toOctets_append hbody, Octets.slice_append_drop rfl,
    List.drop_zero]

end Advertising

/-! ## Data channel packets -/

section Data

variable {body : Octets}

/-- The header of a packet and what follows it. -/
theorem DataHeader.toOctets_append (hbody : 2 ≤ body.length) (rest : Octets) :
    (ofOctets (body.octet 0) (body.octet 1)).toOctets ++ rest =
      (body.slice 0 2 ++ rest).maskAt 0 0x3F := by
  have hslice : body.slice 0 2 = [body.octet 0, body.octet 1] := Octets.slice_two hbody rfl
  rw [toOctets_ofOctets, hslice]
  rfl

/-- What comes before the payload, and the payload. -/
theorem DataPreamble.toOctets_append {preamble : DataPreamble} {payload : Octets}
    (h : ofBody body = .ok (preamble, payload)) :
    preamble.toOctets ++ payload = Pdu.keptData body := by
  obtain ⟨hlength, hx⟩ := ofBody_eq_ok.mp h
  obtain ⟨rfl, rfl⟩ := Prod.mk.inj hx
  have hcp : (DataHeader.ofOctets (body.octet 0) (body.octet 1)).cp =
      (body.octet 0).toNat.testBit 5 := rfl
  unfold DataHeader.payloadStart at *
  unfold toOctets Pdu.keptData
  rw [hcp] at hlength ⊢
  dsimp only
  -- The flag CP decides whether a third octet stands before the payload.
  cases hbit : (body.octet 0).toNat.testBit 5 with
  | false =>
    rw [hbit] at hlength
    simp only [Bool.false_eq_true, if_false] at hlength ⊢
    rw [Option.map_none, Option.getD_none, List.append_assoc,
      DataHeader.toOctets_append hlength, List.nil_append, Octets.slice_append_drop rfl,
      List.drop_zero]
  | true =>
    rw [hbit] at hlength
    simp only [if_true] at hlength ⊢
    have hcte : [(CteInfo.ofOctet (body.octet 2)).toOctet] = (body.slice 2 1).maskAt 0 0xDF := by
      rw [CteInfo.toOctet_ofOctet, Octets.slice_one (by omega)]
      rfl
    have hjoin : body.slice 0 2 ++ ((body.slice 2 1).maskAt 0 0xDF ++ body.drop 3) =
        body.maskAt 2 0xDF := by
      rw [← Octets.maskAt_append_left (by rw [Octets.length_slice (by omega)]; decide),
        Octets.slice_append_drop rfl,
        ← Octets.maskAt_append_right (by rw [Octets.length_slice (by omega)]),
        Octets.slice_append_drop rfl, List.drop_zero]
    rw [Option.map_some, Option.getD_some, List.append_assoc,
      DataHeader.toOctets_append (by omega), hcte, hjoin]

theorem ControlPacket.toBody_ofPayload {preamble : DataPreamble} {payload : Octets}
    {p : ControlPacket} (h : ofPayload preamble payload = .ok p) :
    p.toBody = preamble.toOctets ++ payload := by
  obtain ⟨hlength, rfl⟩ := ofPayload_eq_ok.mp h
  rw [toBody, Opcode.code_ofCode, List.append_assoc, ← Octets.slice_one (by omega),
    Octets.slice_append_drop rfl, List.drop_zero]

end Data

/-! ## Control procedures -/

/-- The fields of a procedure give the octets that they were read from. -/
theorem ControlFields.toOctets_read {op : Opcode} {d : Octets} (h : op.dataLength ≤ d.length) :
    (read op d).toOctets = op.kept d := by
  cases op with
  | channelMapInd =>
    have hlength : 7 ≤ d.length := h
    have hjoin : (d.slice 0 5).maskAt 4 0x1F ++ d.slice 5 2 = (d.slice 0 7).maskAt 4 0x1F := by
      rw [← Octets.maskAt_append_left (by rw [Octets.length_slice (by omega)]; decide),
        Octets.slice_append_slice rfl]
    rw [read, toOctets, ChannelMap.toOctets_read (by omega), Octets.ofWord16_word16 (by omega)]
    exact hjoin
  | connectionParamReq | connectionParamRsp =>
    have hlength : 23 ≤ d.length := h
    simp (disch := omega) only [read, toOctets, Octets.ofWord16_word16, Octets.flatMap_word16,
      Octets.octet_cons, List.append_nil, Octets.slice_append_slice]
    rfl
  | connectionUpdateInd | terminateInd | encReq | encRsp | unknownRsp | featureReq | featureRsp
  | versionInd | rejectInd | peripheralFeatureReq | rejectExtInd | lengthReq | lengthRsp | phyReq
  | phyRsp | phyUpdateInd | minUsedChannelsInd =>
    -- The fields are octets, words and vectors, one after the other.
    simp only [Opcode.dataLength] at h
    simp (disch := omega) only [read, toOctets, Octets.ofWord16_word16, Octets.ofWord64_word64,
      Octets.toList_vector, Octets.octet_cons, List.append_nil, Octets.slice_append_slice]
    rfl
  | _ => rfl

/-! ## Bodies -/

namespace Pdu

/-- The type in the header of a body. -/
theorem pduType_ofOctets (body : Octets) :
    (AdvHeader.ofOctets (body.octet 0) (body.octet 1)).pduType.toNat =
      (body.octet 0).toNat % 16 := BitVec.toNat_ofNat _ _

variable {body : Octets} {p : Pdu}

theorem toBody_ofPrimaryBody (hbody : 2 ≤ body.length)
    (h : ofPrimaryBody (.ofOctets (body.octet 0) (body.octet 1)) body = .ok p)
    (hext : ∀ role e, p ≠ extended role e) : p.toBody = keptAdvertising .primary body := by
  unfold ofPrimaryBody at h
  unfold keptAdvertising
  rw [pduType_ofOctets] at h
  generalize (body.octet 0).toNat % 16 = type at h ⊢
  match type with
  | 0 | 2 | 4 | 6 =>
    obtain ⟨_, hp, rfl⟩ := map_eq_ok.mp h
    exact Advertisement.toBody_ofBody hp
  | 1 =>
    obtain ⟨_, hp, rfl⟩ := map_eq_ok.mp h
    exact DirectedAdvertisement.toBody_ofBody hp
  | 3 =>
    obtain ⟨_, hp, rfl⟩ := map_eq_ok.mp h
    exact ScanRequest.toBody_ofBody hp
  | 5 =>
    obtain ⟨_, hp, rfl⟩ := map_eq_ok.mp h
    exact ConnectRequest.toBody_ofBody hp
  | 7 =>
    obtain ⟨_, _, rfl⟩ := map_eq_ok.mp h
    exact absurd rfl (hext _ _)
  | _ + 8 =>
    obtain rfl := Except.ok.inj h
    exact UnknownAdvertising.toBody_ofBody hbody

theorem toBody_ofSecondaryBody (hbody : 2 ≤ body.length)
    (h : ofSecondaryBody (.ofOctets (body.octet 0) (body.octet 1)) body = .ok p)
    (hext : ∀ role e, p ≠ extended role e) : p.toBody = keptAdvertising .secondary body := by
  unfold ofSecondaryBody at h
  unfold keptAdvertising
  rw [pduType_ofOctets] at h
  generalize (body.octet 0).toNat % 16 = type at h ⊢
  match type with
  | 3 =>
    obtain ⟨_, hp, rfl⟩ := map_eq_ok.mp h
    exact ScanRequest.toBody_ofBody hp
  | 5 =>
    obtain ⟨_, hp, rfl⟩ := map_eq_ok.mp h
    exact ConnectRequest.toBody_ofBody hp
  | 7 | 8 =>
    obtain ⟨_, _, rfl⟩ := map_eq_ok.mp h
    exact absurd rfl (hext _ _)
  | 0 | 1 | 2 | 4 | 6 | _ + 9 =>
    obtain rfl := Except.ok.inj h
    exact UnknownAdvertising.toBody_ofBody hbody

theorem toBody_ofDataBody (h : ofDataBody body = .ok p) : p.toBody = keptData body := by
  unfold ofDataBody at h
  obtain ⟨⟨preamble, payload⟩, hpreamble, h⟩ := bind_eq_ok.mp h
  rw [← DataPreamble.toOctets_append hpreamble]
  dsimp only at h
  split at h
  · obtain ⟨c, hc, rfl⟩ := map_eq_ok.mp h
    exact ControlPacket.toBody_ofPayload hc
  · obtain rfl := Except.ok.inj h
    rfl

/-- A packet that is not an extended one gives back what is kept of its body. -/
theorem toBody_ofBody {family : Family} {tier : Tier} (h : ofBody family tier body = .ok p)
    (hext : ∀ role e, p ≠ extended role e) : p.toBody = kept family tier body := by
  cases family with
  | data => exact toBody_ofDataBody h
  | advertising =>
    obtain ⟨a, ha, h⟩ := bind_eq_ok.mp h
    obtain ⟨hbody, rfl⟩ := AdvHeader.ofBody_eq_ok.mp ha
    cases tier with
    | primary => exact toBody_ofPrimaryBody hbody h hext
    | secondary => exact toBody_ofSecondaryBody hbody h hext

/-- No body of the advertising family decodes to a control packet. -/
theorem ofAdvertisingBody_ne_control {tier : Tier} {c : ControlPacket} :
    ofAdvertisingBody tier body ≠ .ok (control c) := by
  intro h
  obtain ⟨a, -, h⟩ := bind_eq_ok.mp h
  cases tier with
  | primary =>
    unfold ofPrimaryBody at h
    dsimp only at h
    split at h <;> simp [map_eq_ok] at h
  | secondary =>
    unfold ofSecondaryBody at h
    dsimp only at h
    split at h <;> simp [map_eq_ok] at h

/-- A control packet has the data that its opcode needs, and its fields are read from that. -/
theorem fields_of_ofBody {family : Family} {tier : Tier} {c : ControlPacket}
    (h : ofBody family tier body = .ok (control c)) :
    c.opcode.dataLength ≤ c.data.length ∧ c.fields = .read c.opcode c.data := by
  cases family with
  | advertising => exact absurd h ofAdvertisingBody_ne_control
  | data =>
    unfold ofBody ofDataBody at h
    obtain ⟨⟨preamble, payload⟩, -, h⟩ := bind_eq_ok.mp h
    dsimp only at h
    split at h
    · obtain ⟨_, hc, hcontrol⟩ := map_eq_ok.mp h
      obtain rfl := control.inj hcontrol
      obtain ⟨hlength, rfl⟩ := ControlPacket.ofPayload_eq_ok.mp hc
      refine ⟨?_, rfl⟩
      show _ ≤ (payload.drop 1).length
      rw [List.length_drop]
      exact Nat.le_sub_of_add_le' hlength
    · cases h

/-- Putting in the part in an exchange changes no packet that is not an extended one. -/
theorem eq_of_withRole_eq {role : ExtRole} {q : Pdu} (h : withRole role q = p)
    (hext : ∀ role e, p ≠ extended role e) : q = p := by
  cases q with
  | extended role' e => exact absurd h.symm (hext role e)
  | _ => exact h

end Pdu

namespace Tracker

variable {τ : Type} [TimeScale τ]

theorem ofBody_of_decode {t : Tracker τ} {f : StampedFrame τ} {p : Pdu}
    (hp : (t.decode f).1.pdu = .ok p) (hext : ∀ role e, p ≠ .extended role e) :
    Pdu.ofBody (Family.ofAddress f.accessAddress) f.frame.channel.tier f.frame.body = .ok p := by
  obtain ⟨role, hpdu⟩ := t.decode_pdu f
  obtain ⟨q, hq, hrole⟩ := map_eq_ok.mp (hpdu.symm.trans hp)
  rwa [Pdu.eq_of_withRole_eq hrole hext] at hq

/-- A packet that is not an extended one decides all that is kept of the body it was decoded from:
it can be written again, and the fields of a control packet give the data that they were read
from. -/
theorem decode_lossless (t : Tracker τ) (f : StampedFrame τ) (p : Pdu)
    (hp : (t.decode f).1.pdu = .ok p) (hext : ∀ role e, p ≠ .extended role e) :
    p.toBody = Pdu.kept (Family.ofAddress f.accessAddress) f.frame.channel.tier f.frame.body ∧
      (∀ (t' : Tracker τ) (f' : StampedFrame τ), (t'.decode f').1.pdu = .ok p →
        Pdu.kept (Family.ofAddress f'.accessAddress) f'.frame.channel.tier f'.frame.body =
          Pdu.kept (Family.ofAddress f.accessAddress) f.frame.channel.tier f.frame.body) ∧
      (∀ c, p = .control c →
        c.opcode.dataLength ≤ c.data.length ∧ c.fields.toOctets = c.opcode.kept c.data) := by
  have hbody := ofBody_of_decode hp hext
  have hwritten := Pdu.toBody_ofBody hbody hext
  refine ⟨hwritten, ?_, ?_⟩
  · intro t' f' hp'
    exact (Pdu.toBody_ofBody (ofBody_of_decode hp' hext) hext).symm.trans hwritten
  · rintro c rfl
    obtain ⟨hlength, hfields⟩ := Pdu.fields_of_ofBody hbody
    rw [hfields]
    exact ⟨hlength, ControlFields.toOctets_read hlength⟩

/-- A new channel map, every reserved bit of its packet set and one octet after its fields. -/
def channelMapFrame : Frame where
  tick := 0
  direction := .centralToPeripheral
  crcError := false
  event := 0
  rssi := 0
  channel := 5
  phy := .le1M
  body := [0xE3, 10, 0x65, 1, 0xFF, 0xFF, 0xFF, 0xFF, 0xFF, 0x34, 0x12, 0xAA]
  crc := none
  accessAddress := none

/-- What it decodes to. -/
def channelMapPacket : ControlPacket where
  preamble := ⟨⟨.control, false, false, false, true, 10⟩, some ⟨5, 1⟩⟩
  opcode := .channelMapInd
  data := [0xFF, 0xFF, 0xFF, 0xFF, 0xFF, 0x34, 0x12, 0xAA]
  fields := .channelMap 0x1FFFFFFFFF 0x1234

theorem decode_lossless_channelMap :
    let t : Tracker ℚ := .start .standard
    let f : StampedFrame ℚ := ⟨0, 0, 0x50656741, channelMapFrame⟩
    (t.decode f).1.pdu = .ok (.control channelMapPacket) ∧
      (Pdu.control channelMapPacket).toBody =
        [0x23, 10, 0x45, 1, 0xFF, 0xFF, 0xFF, 0xFF, 0xFF, 0x34, 0x12, 0xAA] ∧
      channelMapPacket.fields.toOctets = [0xFF, 0xFF, 0xFF, 0xFF, 0x1F, 0x34, 0x12] := by
  intro t f
  have hp : (t.decode f).1.pdu = .ok (.control channelMapPacket) := by
    obtain ⟨role, hpdu⟩ := t.decode_pdu f
    have hbody : Pdu.ofBody (Family.ofAddress f.accessAddress) f.frame.channel.tier
        f.frame.body = .ok (.control channelMapPacket) := by decide +kernel
    rw [hpdu, hbody]
    rfl
  obtain ⟨hwritten, -, hfields⟩ := t.decode_lossless f _ hp fun _ _ h => nomatch h
  exact ⟨hp, hwritten.trans (by decide +kernel), (hfields _ rfl).2.trans (by decide +kernel)⟩

end Tracker

end AirTrace

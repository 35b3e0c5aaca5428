import AirTrace.Proofs.Bounds

/-!
# Which bodies decode

A body decodes if and only if it has the octets that its type needs.  `Pdu.Meets` lists them: a
number for each fixed layout, the sizes of the announced fields for an extended header, and a number
for each opcode of a control packet.  `Tracker.decode_accepts` says that the decoder accepts exactly
these bodies, and that it never looks past the end of one.

The list is written down by numbers of types and opcodes, apart from the decoder's own tables;
`dataLength_ofCode` compares the two for the opcodes.

Every reader that checks a length and then reads has a lemma `ofBody_eq_ok` that says when it
succeeds and what it gives then.  The readers of extended headers go on from field to field, and
each step needs the field's span in what is left (`ExtField.exists_cut_bind`).
-/

namespace AirTrace

/-! ## What a body needs -/

/-- The number of octets that an advertising packet of a type needs on a kind of channel. -/
def Tier.minimum : Tier → Nat → Nat
  | .primary, 0 | .primary, 2 | .primary, 4 | .primary, 6 => 8
  | .primary, 1 | .primary, 3 | .secondary, 3 => 14
  | .primary, 5 | .secondary, 5 => 36
  | _, _ => 2

/-- A type that has an extended header on a kind of channel. -/
def Tier.IsExtended (tier : Tier) (type : Nat) : Prop :=
  type = 7 ∨ tier = .secondary ∧ type = 8

namespace Pdu

/-- The octets that the fields of an extended header take if the flags say which there are. -/
def announced (flags : UInt8) : Nat :=
  let present i := (flags.toNat.testBit i).toNat
  6 * present 0 + 6 * present 1 + 1 * present 2 + 2 * present 3 + 3 * present 4 +
    18 * present 5 + 1 * present 6

/-- The number of octets that a control packet needs after its opcode, by the number of that. -/
def controlMinimum (code : Nat) : Nat :=
  [11, 7, 1, 22, 12, 0, 0, 1, 8, 8, 0, 0, 5, 1, 8, 23, 23, 2, 0, 0, 8, 8, 2, 2, 4, 2].getD code 0

/-- The body holds the extended header that it declares, and the header its announced fields. -/
def MeetsExtended (body : Octets) : Prop :=
  let declared := (body.octet 2).toNat % 64
  3 ≤ body.length ∧ declared ≤ body.length - 3 ∧
    (declared = 0 ∨ 1 + announced (body.octet 3) ≤ declared)

/-- The body has the octets that its type needs in the advertising family. -/
def MeetsAdvertising (tier : Tier) (body : Octets) : Prop :=
  let type := (body.octet 0).toNat % 16
  tier.minimum type ≤ body.length ∧ (tier.IsExtended type → MeetsExtended body)

/-- The body has the octets that its class needs in the data family. -/
def MeetsData (body : Octets) : Prop :=
  let first := (body.octet 0).toNat
  let start := if first.testBit 5 then 3 else 2
  start ≤ body.length ∧
    (first % 4 = 3 → start + 1 + controlMinimum (body.octet start).toNat ≤ body.length)

/-- The body has the octets that its type needs. -/
def Meets (family : Family) (tier : Tier) (body : Octets) : Prop :=
  match family with
  | .advertising => MeetsAdvertising tier body
  | .data => MeetsData body

end Pdu

section Decidable

variable {tier : Tier} {body : Octets}

instance {type : Nat} : Decidable (tier.IsExtended type) := inferInstanceAs (Decidable (_ ∨ _))

instance : Decidable (Pdu.MeetsExtended body) := inferInstanceAs (Decidable (_ ∧ _ ∧ _))

instance : Decidable (Pdu.MeetsAdvertising tier body) := inferInstanceAs (Decidable (_ ∧ (_ → _)))

instance : Decidable (Pdu.MeetsData body) := inferInstanceAs (Decidable (_ ∧ (_ → _)))

instance : ∀ family, Decidable (Pdu.Meets family tier body)
  | .advertising => inferInstanceAs (Decidable (Pdu.MeetsAdvertising tier body))
  | .data => inferInstanceAs (Decidable (Pdu.MeetsData body))

end Decidable

/-! ## Steps of a reading -/

section Steps

variable {α β : Type} {part : String} {n : Nat} {o : Octets}

theorem need_bind_eq_ok {k : Unit → Except DecodeError β} {b : β} :
    (need part n o >>= k) = .ok b ↔ n ≤ o.length ∧ k () = .ok b := by
  unfold need
  split
  · simp only [bind, Except.bind, reduceCtorEq, false_iff, not_and]
    omega
  · exact (and_iff_right (by omega)).symm

theorem exists_map_eq_ok {f : α → β} {x : Except DecodeError α} :
    (∃ b, f <$> x = .ok b) ↔ ∃ a, x = .ok a := by
  simp only [map_eq_ok]
  exact ⟨fun ⟨_, a, ha, _⟩ => ⟨a, ha⟩, fun ⟨a, ha⟩ => ⟨f a, a, ha, rfl⟩⟩

theorem exists_bind_eq_ok {x : Except DecodeError α} {k : α → Except DecodeError β} :
    (∃ b, (x >>= k) = .ok b) ↔ ∃ a, x = .ok a ∧ ∃ b, k a = .ok b := by
  simp only [bind_eq_ok]
  exact ⟨fun ⟨b, a, ha, hb⟩ => ⟨a, ha, b, hb⟩, fun ⟨a, ha, b, hb⟩ => ⟨b, a, ha, hb⟩⟩

end Steps

/-! ## Fixed layouts -/

section Fixed

variable {name : String} {h : AdvHeader} {body : Octets}

theorem AdvHeader.ofBody_eq_ok :
    ofBody body = .ok h ↔ 2 ≤ body.length ∧ h = ofOctets (body.octet 0) (body.octet 1) := by
  match body with
  | [] => simp [ofBody]
  | [_] => simp [ofBody]
  | first :: length :: rest => simp [ofBody, Octets.octet, eq_comm]

theorem Advertisement.ofBody_eq_ok {p : Advertisement} :
    ofBody name h body = .ok p ↔
      8 ≤ body.length ∧ p = ⟨h, .read body 2 h.txAdd, body.drop 8⟩ := by
  unfold ofBody
  rw [need_bind_eq_ok]
  simp [pure, Except.pure, eq_comm]

theorem DirectedAdvertisement.ofBody_eq_ok {p : DirectedAdvertisement} :
    ofBody name h body = .ok p ↔
      14 ≤ body.length ∧ p = ⟨h, .read body 2 h.txAdd, .read body 8 h.rxAdd⟩ := by
  unfold ofBody
  rw [need_bind_eq_ok]
  simp [pure, Except.pure, eq_comm]

theorem ScanRequest.ofBody_eq_ok {p : ScanRequest} :
    ofBody name h body = .ok p ↔
      14 ≤ body.length ∧ p = ⟨h, .read body 2 h.txAdd, .read body 8 h.rxAdd⟩ := by
  unfold ofBody
  rw [need_bind_eq_ok]
  simp [pure, Except.pure, eq_comm]

theorem ConnectRequest.ofBody_eq_ok {p : ConnectRequest} :
    ofBody name h body = .ok p ↔
      36 ≤ body.length ∧
        p = ⟨h, .read body 2 h.txAdd, .read body 8 h.rxAdd, .read body 14⟩ := by
  unfold ofBody
  rw [need_bind_eq_ok]
  simp [pure, Except.pure, bodyLength, eq_comm]

theorem DataHeader.ofBody_eq_ok {h : DataHeader} :
    ofBody body = .ok h ↔ 2 ≤ body.length ∧ h = ofOctets (body.octet 0) (body.octet 1) := by
  match body with
  | [] => simp [ofBody]
  | [_] => simp [ofBody]
  | first :: length :: rest => simp [ofBody, Octets.octet, eq_comm]

/-- Where the payload of a data channel packet starts. -/
def DataHeader.payloadStart (h : DataHeader) : Nat := if h.cp then 3 else 2

theorem DataPreamble.ofBody_eq_ok {x : DataPreamble × Octets} :
    ofBody body = .ok x ↔
      let header := DataHeader.ofOctets (body.octet 0) (body.octet 1)
      header.payloadStart ≤ body.length ∧
        x = (⟨header, if header.cp then some (.ofOctet (body.octet 2)) else none⟩,
          body.drop header.payloadStart) := by
  unfold ofBody DataHeader.payloadStart
  simp only [bind_eq_ok, DataHeader.ofBody_eq_ok, and_assoc, exists_and_left, exists_eq_left]
  generalize DataHeader.ofOctets (body.octet 0) (body.octet 1) = header
  cases header.cp with
  | false => simp [pure, Except.pure, eq_comm]
  | true =>
    simp only [if_true, need_bind_eq_ok, pure, Except.pure, Except.ok.injEq, eq_comm (b := x)]
    exact and_iff_right_of_imp fun h => Nat.le_of_succ_le h.1

theorem ControlPacket.ofPayload_eq_ok {preamble : DataPreamble} {payload : Octets}
    {p : ControlPacket} :
    ofPayload preamble payload = .ok p ↔
      1 + (Opcode.ofCode (payload.octet 0)).dataLength ≤ payload.length ∧
        p = ⟨preamble, .ofCode (payload.octet 0), payload.drop 1,
          .read (.ofCode (payload.octet 0)) (payload.drop 1)⟩ := by
  unfold ofPayload
  rw [need_bind_eq_ok]
  dsimp only
  rw [need_bind_eq_ok, List.length_drop]
  simp only [pure, Except.pure, Except.ok.injEq, eq_comm, ← and_assoc]
  exact and_congr_left fun _ => by omega

end Fixed

/-! ## Extended headers -/

/-- The octets that a field takes in a header with these flags. -/
def ExtField.span (f : ExtField) (flags : UInt8) : Nat :=
  f.size * (flags.toNat.testBit f.flag).toNat

theorem ExtField.exists_cut_bind {f : ExtField} {flags : UInt8} {rest : Octets} {β : Type}
    {k : Option Octets × Octets → Except DecodeError β} :
    (∃ b, (f.cut flags rest >>= k) = .ok b) ↔
      f.span flags ≤ rest.length ∧
        ∃ b, k (if flags.toNat.testBit f.flag then some (rest.take f.size) else none,
          rest.drop (f.span flags)) = .ok b := by
  unfold cut span
  cases flags.toNat.testBit f.flag with
  | false => simp [bind, Except.bind]
  | true =>
    simp only [if_true, Bool.toNat_true, Nat.mul_one]
    split
    · simp only [bind, Except.bind, reduceCtorEq, exists_false, false_iff, not_and]
      omega
    · exact (and_iff_right (by omega)).symm

/-- A header is read if it is empty or holds its flags and the fields that these announce. -/
theorem ExtHeader.exists_ofOctets {mode : AdvMode} {txAdd rxAdd : Bool} {o : Octets} :
    (∃ h, ofOctets mode txAdd rxAdd o = .ok h) ↔
      o.length = 0 ∨ 1 + Pdu.announced (o.octet 0) ≤ o.length := by
  cases o with
  | nil => exact iff_of_true ⟨_, rfl⟩ (.inl rfl)
  | cons flags fields =>
    have hflags : Octets.octet (flags :: fields) 0 = flags := rfl
    simp only [ofOctets, ExtField.exists_cut_bind, List.length_drop, pure, Except.pure,
      Except.ok.injEq, exists_eq', and_true, ExtField.span, ExtField.size, ExtField.flag, hflags,
      Pdu.announced, List.length_cons]
    omega

theorem ExtAdvertisement.exists_ofBody {h : AdvHeader} {body : Octets} :
    (∃ p, ofBody h body = .ok p) ↔ Pdu.MeetsExtended body := by
  unfold ofBody Pdu.MeetsExtended
  simp only [need_bind_eq_ok, exists_and_left]
  apply and_congr_right
  intro hlength
  split
  next hoverrun =>
    refine iff_of_false ?_ fun hmeets => absurd hmeets.1 (by omega)
    rintro ⟨p, hp⟩
    exact throw_bind_ne_ok hp
  next hfits =>
    have hslice : (body.slice 3 ((body.octet 2).toNat % 64)).length =
        (body.octet 2).toNat % 64 := by
      rw [Octets.slice, List.length_take, List.length_drop]
      omega
    rw [and_iff_right (by omega), exists_bind_eq_ok]
    simp only [pure, Except.pure, Except.ok.injEq, exists_eq', and_true,
      ExtHeader.exists_ofOctets, hslice]
    rcases Nat.eq_zero_or_pos ((body.octet 2).toNat % 64) with hzero | hpos
    · exact iff_of_true (.inl hzero) (.inl hzero)
    · rw [Octets.octet_slice hpos]

/-! ## Bodies -/

namespace Pdu

/-- The number of octets is the same by opcode and by the opcode's number. -/
theorem dataLength_ofCode (code : UInt8) :
    (Opcode.ofCode code).dataLength = controlMinimum code.toNat := by
  revert code
  exact Octets.forall_octet (by decide +kernel)

theorem exists_ofPrimaryBody {h : AdvHeader} {body : Octets} (hbody : 2 ≤ body.length) :
    (∃ p, ofPrimaryBody h body = .ok p) ↔
      Tier.minimum .primary h.pduType.toNat ≤ body.length ∧
        (Tier.IsExtended .primary h.pduType.toNat → MeetsExtended body) := by
  unfold ofPrimaryBody Tier.IsExtended
  generalize h.pduType.toNat = type
  match type with
  | 0 | 2 | 4 | 6 => simp [exists_map_eq_ok, Advertisement.ofBody_eq_ok, Tier.minimum]
  | 1 => simp [exists_map_eq_ok, DirectedAdvertisement.ofBody_eq_ok, Tier.minimum]
  | 3 => simp [exists_map_eq_ok, ScanRequest.ofBody_eq_ok, Tier.minimum]
  | 5 => simp [exists_map_eq_ok, ConnectRequest.ofBody_eq_ok, Tier.minimum]
  | 7 => simp [exists_map_eq_ok, ExtAdvertisement.exists_ofBody, Tier.minimum, hbody]
  | _ + 8 => simp [Tier.minimum, hbody]

theorem exists_ofSecondaryBody {h : AdvHeader} {body : Octets} (hbody : 2 ≤ body.length) :
    (∃ p, ofSecondaryBody h body = .ok p) ↔
      Tier.minimum .secondary h.pduType.toNat ≤ body.length ∧
        (Tier.IsExtended .secondary h.pduType.toNat → MeetsExtended body) := by
  unfold ofSecondaryBody Tier.IsExtended
  generalize h.pduType.toNat = type
  match type with
  | 3 => simp [exists_map_eq_ok, ScanRequest.ofBody_eq_ok, Tier.minimum]
  | 5 => simp [exists_map_eq_ok, ConnectRequest.ofBody_eq_ok, Tier.minimum]
  | 7 | 8 => simp [exists_map_eq_ok, ExtAdvertisement.exists_ofBody, Tier.minimum, hbody]
  | 0 | 1 | 2 | 4 | 6 | _ + 9 => simp [Tier.minimum, hbody]

theorem exists_ofAdvertisingBody {tier : Tier} {body : Octets} :
    (∃ p, ofAdvertisingBody tier body = .ok p) ↔ MeetsAdvertising tier body := by
  have htype : (AdvHeader.ofOctets (body.octet 0) (body.octet 1)).pduType.toNat =
      (body.octet 0).toNat % 16 := BitVec.toNat_ofNat _ _
  -- Every type needs at least the header.
  have hminimum : 2 ≤ tier.minimum ((body.octet 0).toNat % 16) := by
    unfold Tier.minimum
    split <;> decide
  unfold ofAdvertisingBody MeetsAdvertising
  simp only [exists_bind_eq_ok, AdvHeader.ofBody_eq_ok, and_assoc, exists_and_left, exists_eq_left]
  refine Iff.trans ?_ (and_iff_right_of_imp fun h => hminimum.trans h.1)
  apply and_congr_right
  intro hbody
  rw [← htype]
  cases tier with
  | primary => exact exists_ofPrimaryBody hbody
  | secondary => exact exists_ofSecondaryBody hbody

theorem llid_eq_control (first length : UInt8) :
    (DataHeader.ofOctets first length).llid = .control ↔ first.toNat % 4 = 3 := by
  have hbits : ∀ b : BitVec 2, Llid.ofBits b = .control ↔ b.toNat = 3 := by decide
  exact (hbits _).trans (by rw [BitVec.toNat_ofNat])

theorem exists_ofDataBody {body : Octets} : (∃ p, ofDataBody body = .ok p) ↔ MeetsData body := by
  have hstart : (if (body.octet 0).toNat.testBit 5 then 3 else 2) =
      (DataHeader.ofOctets (body.octet 0) (body.octet 1)).payloadStart := rfl
  unfold ofDataBody MeetsData
  simp only [exists_bind_eq_ok, DataPreamble.ofBody_eq_ok, and_assoc, exists_and_left,
    exists_eq_left, hstart, ← llid_eq_control _ (body.octet 1)]
  generalize DataHeader.ofOctets (body.octet 0) (body.octet 1) = header
  apply and_congr_right
  intro hlength
  cases header.llid with
  | control =>
    have hopcode : Octets.octet (body.drop header.payloadStart) 0 =
        body.octet header.payloadStart := by
      simp [Octets.octet, List.getD_eq_getElem?_getD]
    simp only [exists_map_eq_ok, ControlPacket.ofPayload_eq_ok, exists_and_left, exists_eq,
      and_true, hopcode, dataLength_ofCode, List.length_drop, true_imp_iff]
    omega
  | _ => simp [pure, Except.pure]

/-- A body decodes if and only if it has the octets that its type needs. -/
theorem exists_ofBody {family : Family} {tier : Tier} {body : Octets} :
    (∃ p, ofBody family tier body = .ok p) ↔ Meets family tier body := by
  cases family with
  | advertising => exact exists_ofAdvertisingBody
  | data => exact exists_ofDataBody

/-- A connection is ended with a reason, and not without one. -/
example : Meets .data .secondary [0x03, 2, 0x02, 0x13] ∧
    ¬Meets .data .secondary [0x03, 1, 0x02] := by
  decide

end Pdu

namespace Tracker

variable {τ : Type} [TimeScale τ]

/-- In every state of the tracker, the body of a frame is decoded without a look past its end, and
it decodes if and only if it has the octets that its type needs. -/
theorem decode_accepts (t : Tracker τ) (f : StampedFrame τ) :
    (∃ x role, (Pdu.ofBody? (Family.ofAddress f.accessAddress) f.frame.channel.tier
        f.frame.body).run = some x ∧ (t.decode f).1.pdu = Pdu.withRole role <$> x) ∧
      ((∃ p, (t.decode f).1.pdu = .ok p) ↔
        Pdu.Meets (Family.ofAddress f.accessAddress) f.frame.channel.tier f.frame.body) := by
  obtain ⟨role, hpdu⟩ := t.decode_pdu f
  refine ⟨⟨_, role, Pdu.ofBody?_eq _ _ _, hpdu⟩, ?_⟩
  rw [hpdu, exists_map_eq_ok, Pdu.exists_ofBody]

end Tracker

end AirTrace

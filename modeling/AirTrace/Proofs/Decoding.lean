import AirTrace.Proofs.Run

/-!
# What decoding does to a tracker

The body of a frame decides what it decodes to, and the tracker decides what an auxiliary packet is
in its exchange.  `Tracker.Decoded` lists the four things that a decoded frame can do to the
tracker: note a connection request, answer and open windows, confirm a connection, or nothing.
`Tracker.decoded` says that decoding always does one of them.  It is the only place where the
decoder's branches are taken apart: what is claimed of links and windows is read off the four cases.

The first group, `ofBody_connectRequest` and `ofBody_extended`, says which bodies can decode to the
packets that matter here.  The last group says which part of the record each operation on trackers
changes, and `decode_keeps` which parts no packet changes.
-/

namespace AirTrace

/-! ## What a body can decode to -/

theorem map_eq_ok {ε α β : Type} {f : α → β} {x : Except ε α} {b : β} :
    f <$> x = .ok b ↔ ∃ a, x = .ok a ∧ f a = b := by
  cases x with
  | error e => simp [Functor.map, Except.map]
  | ok a => simp [Functor.map, Except.map]

theorem bind_eq_ok {ε α β : Type} {x : Except ε α} {f : α → Except ε β} {b : β} :
    x >>= f = .ok b ↔ ∃ a, x = .ok a ∧ f a = .ok b := by
  cases x with
  | error e => simp [bind, Except.bind]
  | ok a => simp [bind, Except.bind]

theorem throw_bind_ne_ok {ε α β : Type} {e : ε} {f : α → Except ε β} {b : β} :
    (throw e >>= f) ≠ .ok b := by
  intro h
  cases h

namespace Pdu

theorem header_of_ofBody {h : AdvHeader} {body : Octets} {e : ExtAdvertisement}
    (he : ExtAdvertisement.ofBody h body = .ok e) : e.header = h := by
  unfold ExtAdvertisement.ofBody at he
  obtain ⟨_, _, he⟩ := bind_eq_ok.mp he
  dsimp only at he
  split at he
  · simp [throw, throwThe, MonadExceptOf.throw, bind, Except.bind] at he
  · obtain ⟨ext, _, he⟩ := bind_eq_ok.mp he
    simp only [pure, Except.pure, Except.ok.injEq] at he
    rw [← he]

/-- A body of the data family decodes to a packet of the data family. -/
theorem isData_of_ofDataBody {body : Octets} {p : Pdu} (h : ofDataBody body = .ok p) :
    p.isData = true := by
  unfold ofDataBody at h
  obtain ⟨⟨preamble, payload⟩, _, h⟩ := bind_eq_ok.mp h
  dsimp only at h
  split at h
  · obtain ⟨c, _, rfl⟩ := map_eq_ok.mp h
    rfl
  · simp only [pure, Except.pure, Except.ok.injEq] at h
    rw [← h]
    rfl

/-- A decoded packet that is not of the data family starts with an advertising header, and is read
by the rules for the kind of its channel. -/
theorem ofBody_advertising {family : Family} {tier : Tier} {body : Octets} {p : Pdu}
    (h : ofBody family tier body = .ok p) (hp : p.isData = false) :
    family = .advertising ∧ ∃ a, AdvHeader.ofBody body = .ok a ∧
      match tier with
      | .primary => ofPrimaryBody a body = .ok p
      | .secondary => ofSecondaryBody a body = .ok p := by
  cases family with
  | data =>
    have := isData_of_ofDataBody h
    rw [hp] at this
    exact absurd this Bool.false_ne_true
  | advertising =>
    obtain ⟨a, ha, h⟩ := bind_eq_ok.mp h
    refine ⟨rfl, a, ha, ?_⟩
    cases tier <;> exact h

private theorem pduType_eq {a : AdvHeader} {n : Nat} (h : a.pduType.toNat = n) :
    a.pduType = BitVec.ofNat 4 n := by
  rw [← h, BitVec.ofNat_toNat, BitVec.setWidth_eq]

/-- A decoded connection request has type 5 and names the kind of its channel. -/
theorem ofBody_connectRequest {family : Family} {tier tier' : Tier} {body : Octets}
    {r : ConnectRequest} (h : ofBody family tier body = .ok (.connectRequest tier' r)) :
    tier' = tier ∧ ∃ a, AdvHeader.ofBody body = .ok a ∧ a.pduType = 5 := by
  obtain ⟨_, a, ha, h⟩ := ofBody_advertising h rfl
  cases tier with
  | primary =>
    simp only [ofPrimaryBody] at h
    split at h <;>
      simp only [map_eq_ok, reduceCtorEq, and_false, exists_false, Except.ok.injEq] at h
    next htype =>
      obtain ⟨_, _, h⟩ := h
      exact ⟨(Pdu.connectRequest.inj h).1.symm, a, ha, pduType_eq htype⟩
  | secondary =>
    simp only [ofSecondaryBody] at h
    split at h <;>
      simp only [map_eq_ok, reduceCtorEq, and_false, exists_false, Except.ok.injEq] at h
    next htype =>
      obtain ⟨_, _, h⟩ := h
      exact ⟨(Pdu.connectRequest.inj h).1.symm, a, ha, pduType_eq htype⟩

/-- A decoded extended packet keeps the header of its body, and its type and the kind of its channel
say which of the three readings it got. -/
theorem ofBody_extended {family : Family} {tier : Tier} {body : Octets} {role : ExtRole}
    {e : ExtAdvertisement} (h : ofBody family tier body = .ok (.extended role e)) :
    family = .advertising ∧ AdvHeader.ofBody body = .ok e.header ∧
      (tier = .primary ∧ role = .advExtInd ∨
        tier = .secondary ∧ role = .auxAdvInd ∧ e.header.pduType = 7 ∨
        tier = .secondary ∧ role = .auxConnectRsp ∧ e.header.pduType = 8) := by
  obtain ⟨hfamily, a, ha, h⟩ := ofBody_advertising h rfl
  cases tier with
  | primary =>
    simp only [ofPrimaryBody] at h
    split at h <;>
      simp only [map_eq_ok, reduceCtorEq, and_false, exists_false, Except.ok.injEq] at h
    next htype =>
      obtain ⟨e', he', h⟩ := h
      obtain ⟨rfl, rfl⟩ := Pdu.extended.inj h
      rw [header_of_ofBody he']
      exact ⟨hfamily, ha, .inl ⟨rfl, rfl⟩⟩
  | secondary =>
    simp only [ofSecondaryBody] at h
    split at h <;>
      simp only [map_eq_ok, reduceCtorEq, and_false, exists_false, Except.ok.injEq] at h
    next htype =>
      obtain ⟨e', he', h⟩ := h
      obtain ⟨rfl, rfl⟩ := Pdu.extended.inj h
      rw [header_of_ofBody he']
      exact ⟨hfamily, ha, .inr (.inl ⟨rfl, rfl, pduType_eq htype⟩)⟩
    next htype =>
      obtain ⟨e', he', h⟩ := h
      obtain ⟨rfl, rfl⟩ := Pdu.extended.inj h
      rw [header_of_ofBody he']
      exact ⟨hfamily, ha, .inr (.inr ⟨rfl, rfl, pduType_eq htype⟩)⟩

end Pdu

/-! ## Packets that move the tracker -/

namespace Packet

variable {τ : Type}

/-- The packet is a connection request that could be decoded. -/
def IsConnectRequest (p : Packet τ) : Prop := ∃ tier r, p.pdu = .ok (.connectRequest tier r)

/-- The packet is of the type that answers a connection request on a secondary channel, be the rest
of its body well formed or not. -/
def IsConnectResponse (p : Packet τ) : Prop :=
  p.stamped.accessAddress = advertisingAddress ∧ p.frame.channel.isPrimary = false ∧
    ∃ first length rest, p.frame.body = first :: length :: rest ∧ first.toNat % 16 = 8

/-- The packet is an extended one of type 7 on a secondary channel, and `role` is the part that it
was found to take. -/
structure IsAuxiliary (p : Packet τ) (role : ExtRole) (e : ExtAdvertisement) : Prop where
  secondary : p.frame.channel.isPrimary = false
  pdu : p.pdu = .ok (.extended role e)
  pduType : e.header.pduType = 7

end Packet

theorem Channel.tier_eq_primary {c : Channel} : c.tier = .primary ↔ c.isPrimary = true := by
  unfold Channel.tier
  cases c.isPrimary <;> simp

theorem Channel.tier_eq_secondary {c : Channel} : c.tier = .secondary ↔ c.isPrimary = false := by
  unfold Channel.tier
  cases c.isPrimary <;> simp

theorem Family.ofAddress_eq_advertising {a : UInt32} :
    Family.ofAddress a = .advertising ↔ a = advertisingAddress := by
  unfold Family.ofAddress
  by_cases h : a = advertisingAddress <;> simp [h]

namespace Tracker

variable {τ : Type} [TimeScale τ]

omit [TimeScale τ] in
theorem answersRequest_iff (family : Family) (tier : Tier) (body : Octets) :
    answersRequest family tier body = true ↔
      family = .advertising ∧ tier = .secondary ∧
        ∃ h, AdvHeader.ofBody body = .ok h ∧ h.pduType = 8 := by
  unfold answersRequest
  split
  next h hh => simp [hh]
  next hno =>
    simp only [Bool.false_eq_true, false_iff, not_and, not_exists]
    intro hfamily htier h hh
    exact absurd hh (hno h hfamily htier)

/-- A body of the type that answers a request decodes to an answer or not at all. -/
theorem ofBody_of_answersRequest {family : Family} {tier : Tier} {body : Octets}
    (h : answersRequest family tier body = true) :
    ∃ a, a.pduType = 8 ∧ Pdu.ofBody family tier body =
      Pdu.extended .auxConnectRsp <$> ExtAdvertisement.ofBody a body := by
  obtain ⟨rfl, rfl, a, ha, htype⟩ := (answersRequest_iff family tier body).mp h
  refine ⟨a, htype, ?_⟩
  simp [Pdu.ofBody, Pdu.ofAdvertisingBody, ha, bind, Except.bind, Pdu.ofSecondaryBody, htype]

omit [TimeScale τ] in
/-- The type of a body is the low half of its first octet. -/
theorem exists_header_iff {body : Octets} {type : BitVec 4} :
    (∃ h, AdvHeader.ofBody body = .ok h ∧ h.pduType = type) ↔
      ∃ first length rest, body = first :: length :: rest ∧ first.toNat % 16 = type.toNat := by
  match body with
  | [] => simp [AdvHeader.ofBody]
  | [_] => simp [AdvHeader.ofBody]
  | first :: length :: rest =>
    simp only [AdvHeader.ofBody, Except.ok.injEq, exists_eq_left', AdvHeader.ofOctets,
      ← BitVec.toNat_inj, BitVec.toNat_ofNat, List.cons.injEq]
    constructor
    · intro h
      exact ⟨first, length, rest, ⟨rfl, rfl, rfl⟩, h⟩
    · intro h
      obtain ⟨_, _, _, ⟨rfl, rfl, rfl⟩, h⟩ := h
      exact h

omit [TimeScale τ] in
theorem answersRequest_packet (p : Packet τ) :
    answersRequest (Family.ofAddress p.stamped.accessAddress) p.frame.channel.tier p.frame.body =
      true ↔ p.IsConnectResponse := by
  rw [answersRequest_iff, Family.ofAddress_eq_advertising, Channel.tier_eq_secondary,
    exists_header_iff]
  rfl

/-- What a decoded frame can do to a tracker whose stale windows are closed. -/
inductive Decoded (t : Tracker τ) (p : Packet τ) : Tracker τ → Prop
  /-- A connection request is noted. -/
  | request (r : ConnectRequest) (hpdu : p.pdu = .ok (.connectRequest p.frame.channel.tier r))
      (hresponse : ¬ p.IsConnectResponse) :
      Decoded t p (t.request r.parameters.context p.frame.channel.tier)
  /-- An auxiliary packet takes its part, and opens the windows that it implies. -/
  | auxiliary (e : ExtAdvertisement) (role : ExtRole) (t' : Tracker τ)
      (hclassify : t.classify p.stamped.time p.frame.channel e.ext.adi = (role, t'))
      (haux : p.IsAuxiliary role e) (hresponse : ¬ p.IsConnectResponse) :
      Decoded t p (t'.expect p.stamped.time p.frame.channel p.frame.phy p.frame.body.length
        e.ext.adi (role == .auxAdvInd && e.ext.mode == .scannable)
        (e.ext.auxPtr.map fun a => (UInt8.ofNat a.channel.toNat, a.offsetMicros)))
  /-- An answer to a connection request confirms the connection. -/
  | response (hresponse : p.IsConnectResponse) (hrequest : ¬ p.IsConnectRequest)
      (haux : ∀ role e, ¬ p.IsAuxiliary role e) : Decoded t p t.confirm
  /-- Every other packet, and every other body that cannot be decoded, tells nothing. -/
  | quiet (hrequest : ¬ p.IsConnectRequest) (haux : ∀ role e, ¬ p.IsAuxiliary role e)
      (hresponse : ¬ p.IsConnectResponse) : Decoded t p t

@[simp] theorem decode_stamped (t : Tracker τ) (f : StampedFrame τ) :
    (t.decode f).1.stamped = f := rfl

/-- The tracker in which a body is read: an answer to a connection request has had its effect. -/
private def heard (t : Tracker τ) (f : StampedFrame τ) : Tracker τ :=
  if answersRequest (Family.ofAddress f.accessAddress) f.frame.channel.tier f.frame.body then
    (t.expire f.time).confirm
  else t.expire f.time

private theorem decode_error {t : Tracker τ} {f : StampedFrame τ} {e : DecodeError}
    (h : Pdu.ofBody (Family.ofAddress f.accessAddress) f.frame.channel.tier f.frame.body =
      .error e) :
    (t.decode f).1.pdu = .error e ∧ (t.decode f).2 = t.heard f := by
  have hread : (t.expire f.time).decodeBody f = (.error e, t.heard f) := by
    simp only [decodeBody, h]
    rfl
  exact ⟨congrArg Prod.fst hread, congrArg Prod.snd hread⟩

private theorem decode_ok {t : Tracker τ} {f : StampedFrame τ} {p : Pdu}
    (h : Pdu.ofBody (Family.ofAddress f.accessAddress) f.frame.channel.tier f.frame.body =
      .ok p) :
    (t.decode f).1.pdu = .ok ((t.heard f).observe f p).1 ∧
      (t.decode f).2 = ((t.heard f).observe f p).2 := by
  have hread : (t.expire f.time).decodeBody f =
      (.ok ((t.heard f).observe f p).1, ((t.heard f).observe f p).2) := by
    simp only [decodeBody, h]
    rfl
  exact ⟨congrArg Prod.fst hread, congrArg Prod.snd hread⟩

omit [TimeScale τ] in
/-- A packet that decoded to neither kind is no request and takes no part in an exchange. -/
private theorem not_kinds {p : Packet τ} {x : Except DecodeError Pdu} (hpdu : p.pdu = x)
    (hrequest : ∀ tier r, x ≠ .ok (.connectRequest tier r))
    (hextended : ∀ role e, x ≠ .ok (.extended role e)) :
    ¬ p.IsConnectRequest ∧ ∀ role e, ¬ p.IsAuxiliary role e := by
  subst hpdu
  exact ⟨fun ⟨tier, r, h⟩ => hrequest tier r h, fun role e h => hextended role e h.pdu⟩

omit [TimeScale τ] in
/-- Nor does an extended packet on a primary channel or of another type. -/
private theorem not_kinds_of_extended {p : Packet τ} {role : ExtRole} {e : ExtAdvertisement}
    (hpdu : p.pdu = .ok (.extended role e))
    (hother : p.frame.channel.isPrimary = true ∨ e.header.pduType = 8) :
    ¬ p.IsConnectRequest ∧ ∀ role e, ¬ p.IsAuxiliary role e := by
  constructor
  · intro h
    obtain ⟨tier, r, h⟩ := h
    rw [hpdu] at h
    simp at h
  · intro role' e' haux
    obtain ⟨rfl, rfl⟩ := Pdu.extended.inj (Except.ok.inj (hpdu.symm.trans haux.pdu))
    rcases hother with hprimary | htype
    · rw [haux.secondary] at hprimary
      exact Bool.false_ne_true hprimary
    · rw [haux.pduType] at htype
      exact absurd htype (by decide)

/-- A frame decodes to what its body decodes to, but for the part of an extended packet in its
exchange. -/
theorem decode_pdu (t : Tracker τ) (f : StampedFrame τ) :
    ∃ role, (t.decode f).1.pdu = Pdu.withRole role <$>
      Pdu.ofBody (Family.ofAddress f.accessAddress) f.frame.channel.tier f.frame.body := by
  cases hbody : Pdu.ofBody (Family.ofAddress f.accessAddress) f.frame.channel.tier
    f.frame.body with
  | error e => exact ⟨.advExtInd, (decode_error hbody).1⟩
  | ok p =>
    rw [(decode_ok hbody).1]
    cases p with
    | extended role e =>
      cases role with
      | auxAdvInd => exact ⟨((t.heard f).classify f.time f.frame.channel e.ext.adi).1, rfl⟩
      | advExtInd => exact ⟨.advExtInd, rfl⟩
      | auxScanRsp => exact ⟨.auxScanRsp, rfl⟩
      | auxChainInd => exact ⟨.auxChainInd, rfl⟩
      | auxConnectRsp => exact ⟨.auxConnectRsp, rfl⟩
    | _ => exact ⟨.advExtInd, rfl⟩

/-- A decoded frame does one of four things to the tracker. -/
theorem decoded (t : Tracker τ) (f : StampedFrame τ) :
    Decoded (t.expire f.time) (t.decode f).1 (t.decode f).2 := by
  have hiff := answersRequest_packet (t.decode f).1
  simp only [decode_stamped, Packet.frame] at hiff
  cases hbody : Pdu.ofBody (Family.ofAddress f.accessAddress) f.frame.channel.tier
    f.frame.body with
  | error e =>
    obtain ⟨hpdu, hnext⟩ := decode_error (t := t) hbody
    obtain ⟨hrequest, haux⟩ := not_kinds hpdu (by simp) (by simp)
    rw [hnext]
    unfold heard
    split
    next hanswer => exact .response (hiff.mp hanswer) hrequest haux
    next hanswer => exact .quiet hrequest haux (mt hiff.mpr hanswer)
  | ok p =>
    obtain ⟨hpdu, hnext⟩ := decode_ok (t := t) hbody
    rw [hnext]
    unfold heard at hpdu ⊢
    split at hpdu
    next hanswer =>
      -- The body is of type 8, so it can only have been read as an answer.
      obtain ⟨a, htype, hread⟩ := ofBody_of_answersRequest hanswer
      obtain ⟨e, he, rfl⟩ := map_eq_ok.mp (hread.symm.trans hbody)
      rw [if_pos hanswer]
      have htype' : e.header.pduType = 8 := by rw [Pdu.header_of_ofBody he, htype]
      obtain ⟨hrequest, haux⟩ := not_kinds_of_extended hpdu (.inr htype')
      exact .response (hiff.mp hanswer) hrequest haux
    next hanswer =>
      have hresponse := mt hiff.mpr hanswer
      rw [if_neg hanswer]
      cases p with
      | connectRequest tier r =>
        obtain ⟨rfl, _⟩ := Pdu.ofBody_connectRequest hbody
        exact .request r hpdu hresponse
      | extended role e =>
        obtain ⟨_, _, hread⟩ := Pdu.ofBody_extended hbody
        rcases hread with ⟨htier, rfl⟩ | ⟨htier, rfl, htype⟩ | ⟨htier, rfl, htype⟩
        · obtain ⟨hrequest, haux⟩ :=
            not_kinds_of_extended hpdu (.inl (Channel.tier_eq_primary.mp htier))
          exact .quiet hrequest haux hresponse
        · exact .auxiliary e _ _ rfl ⟨Channel.tier_eq_secondary.mp htier, hpdu, htype⟩ hresponse
        · obtain ⟨hrequest, haux⟩ := not_kinds_of_extended hpdu (.inr htype)
          exact .quiet hrequest haux hresponse
      | _ =>
        obtain ⟨hrequest, haux⟩ := not_kinds hpdu (by simp [observe]) (by simp [observe])
        exact .quiet hrequest haux hresponse

/-- A scan response and the next of a chain are packets of type 7 on a secondary channel. -/
theorem decode_isAuxiliary {t : Tracker τ} {f : StampedFrame τ} {role : ExtRole}
    {e : ExtAdvertisement} (hpdu : (t.decode f).1.pdu = .ok (.extended role e))
    (hrole : role = .auxScanRsp ∨ role = .auxChainInd) : (t.decode f).1.IsAuxiliary role e := by
  cases hbody : Pdu.ofBody (Family.ofAddress f.accessAddress) f.frame.channel.tier
    f.frame.body with
  | error e' =>
    have herror := (decode_error (t := t) hbody).1
    exact absurd (herror.symm.trans hpdu) (by simp)
  | ok p =>
    have hobserved := Except.ok.inj ((decode_ok (t := t) hbody).1.symm.trans hpdu)
    cases p with
    | extended role' e' =>
      obtain ⟨_, _, hread⟩ := Pdu.ofBody_extended hbody
      rcases hread with ⟨_, rfl⟩ | ⟨htier, rfl, htype⟩ | ⟨_, rfl, _⟩
      · obtain ⟨rfl, _⟩ := Pdu.extended.inj hobserved
        exact absurd hrole (by simp)
      · obtain ⟨_, rfl⟩ := Pdu.extended.inj hobserved
        exact ⟨Channel.tier_eq_secondary.mp htier, hpdu, htype⟩
      · obtain ⟨rfl, _⟩ := Pdu.extended.inj hobserved
        exact absurd hrole (by simp)
    | _ => exact absurd hobserved (by simp [observe])

/-! ## Which part of a tracker an operation changes -/

omit [TimeScale τ] in
theorem request_eq (t : Tracker τ) (c : LinkContext) (tier : Tier) :
    t.request c tier = { t with
      link := if tier = .secondary ∧ t.mode = some .advertisingExt then .connected c
        else .pending c } := by
  unfold request
  split <;> rfl

omit [TimeScale τ] in
theorem report_eq (t : Tracker τ) (m : Mode) :
    t.report m = { t with
      mode := some m
      link := if m.isConnected then t.link.confirm else t.link } := by
  unfold report
  cases m.isConnected <;> rfl

omit [TimeScale τ] in
theorem notice_eq (t : Tracker τ) (c : Channel) :
    t.notice c = { t with
      link := if c.isPrimary && !t.link.isAdvertising then .advertising else t.link } := by
  unfold notice
  split <;> rfl

theorem attach_eq (t : Tracker τ) (now : τ) (f : Frame) :
    (t.attach now f).2 = { t with
      clock := (t.stamp now f.tick).2.clock
      link := if f.channel.isPrimary && !t.link.isAdvertising then .advertising else t.link } :=
  notice_eq _ _

/-- Once the clock is fixed, the present time does not matter. -/
theorem stamp_of_clock {t : Tracker τ} {c : Clock τ} (hclock : t.clock = some c) (now now' : τ)
    (k : UInt32) : t.stamp now k = t.stamp now' k := by
  unfold stamp
  rw [hclock]
  rfl

theorem receive_of_clock {t : Tracker τ} {c : Clock τ} (hclock : t.clock = some c) (now now' : τ)
    (f : Frame) : t.receive now f = t.receive now' f := by
  unfold receive attach
  rw [stamp_of_clock hclock now now']

theorem fixClock_eq (t : Tracker τ) (k : UInt32) (epoch : τ) :
    t.fixClock k epoch = { t with
      clock := some (t.clock.getD (.fixAt t.settings k epoch)) } := by
  obtain ⟨settings, clock, link, scanWindow, chainWindow, mode⟩ := t
  cases clock <;> rfl

/-- The answer that a packet gives uses up its window, and the other one stays. -/
theorem classify_eq {t t' : Tracker τ} {time : τ} {channel : Channel} {adi : Option Adi}
    {role : ExtRole} (h : t.classify time channel adi = (role, t')) :
    t' = { t with
      scanWindow := if role = .auxScanRsp then none else t.scanWindow
      chainWindow := if role = .auxChainInd then none else t.chainWindow } := by
  unfold classify at h
  split at h
  · obtain ⟨rfl, rfl⟩ := Prod.mk.inj h
    rfl
  · split at h
    · obtain ⟨rfl, rfl⟩ := Prod.mk.inj h
      rfl
    · obtain ⟨rfl, rfl⟩ := Prod.mk.inj h
      rfl

/-- The windows that a packet opens take the place of those that were open. -/
theorem expect_eq (t : Tracker τ) (time : τ) (channel : Channel) (phy : Phy) (bodyLength : Nat)
    (adi : Option Adi) (scannable : Bool) (pointer : Option (Channel × Nat)) :
    t.expect time channel phy bodyLength adi scannable pointer = { t with
      scanWindow := (if scannable then some ⟨adi, channel, time +
        scanSpan t.settings phy bodyLength * TimeScale.micro⟩ else none).or t.scanWindow
      chainWindow := (pointer.map fun a => ⟨adi, a.1, time +
        (TimeScale.ofNat a.2 + t.settings.chainMargin) * TimeScale.micro⟩).or t.chainWindow } := by
  cases pointer <;> cases scannable <;> rfl

/-- Decoding leaves the clock, the mode and the settings as they were. -/
theorem decode_keeps (t : Tracker τ) (f : StampedFrame τ) :
    (t.decode f).2.clock = t.clock ∧ (t.decode f).2.mode = t.mode ∧
      (t.decode f).2.settings = t.settings := by
  have h := t.decoded f
  generalize (t.decode f).1 = p at h
  generalize (t.decode f).2 = t' at h
  cases h with
  | request r =>
    rw [request_eq]
    exact ⟨rfl, rfl, rfl⟩
  | auxiliary e role t₁ hclassify =>
    rw [expect_eq, classify_eq hclassify]
    exact ⟨rfl, rfl, rfl⟩
  | response => exact ⟨rfl, rfl, rfl⟩
  | quiet => exact ⟨rfl, rfl, rfl⟩

end Tracker

end AirTrace

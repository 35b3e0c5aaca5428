import AirTrace.Proofs.Decoding
import AirTrace.Time.Exact

/-!
# Frames that change nothing

Time alone closes windows, so every frame lets the tracker drop those that are stale
(`Tracker.expire`).  This module says of which frames that is all.

* A frame that cannot be decoded.  One kind is excepted: the type of an answer to a connection
  request confirms the connection that waits, whatever follows it in the body.
* A packet of another link than advertising, and an advertising packet that is neither a connection
  request, nor an answer to one, nor of type 7 on a secondary channel (`Pdu.IsNoted`).

Both are read off the four things that a decoded frame can do, `Tracker.Decoded`.
`Tracker.decode_effect` puts them together.
-/

namespace AirTrace

variable {τ : Type}

/-! ## Packets that are noted -/

/-- The packet, heard on a channel, is one that the tracker takes note of: a connection request on
either kind of channel, an answer to one, or a packet of type 7 on a secondary channel. -/
def Pdu.IsNoted (channel : Channel) : Pdu → Prop
  | .connectRequest _ _ | .extended .auxConnectRsp _ => True
  | .extended _ e => channel.isPrimary = false ∧ e.header.pduType = 7
  | _ => False

theorem Pdu.isNoted_extended {channel : Channel} (role : ExtRole) {e : ExtAdvertisement}
    (hchannel : channel.isPrimary = false) (htype : e.header.pduType = 7) :
    (extended role e).IsNoted channel := by
  cases role with
  | auxConnectRsp => trivial
  | _ => exact ⟨hchannel, htype⟩

@[simp] theorem Pdu.isData_withRole (role : ExtRole) (p : Pdu) :
    (p.withRole role).isData = p.isData := by
  cases p <;> rfl

/-- A packet of the data family is never noted. -/
theorem Pdu.not_isNoted_of_isData {channel : Channel} {p : Pdu} (h : p.isData = true) :
    ¬ p.IsNoted channel := by
  cases p with
  | data | control => exact id
  | _ => exact absurd h Bool.false_ne_true

namespace Tracker

/-! ## Confirming -/

/-- A connection that waits is followed. -/
theorem confirm_of_pending {t : Tracker τ} {c : LinkContext} (h : t.link = .pending c) :
    t.confirm = { t with link := .connected c } := by
  unfold confirm
  rw [h]
  rfl

/-- Where none waits there is nothing to confirm. -/
theorem confirm_of_not_pending {t : Tracker τ} (h : ∀ c, t.link ≠ .pending c) :
    t.confirm = t := by
  have hlink : t.link.confirm = t.link := by
    cases hstate : t.link with
    | pending c => exact absurd hstate (h c)
    | advertising | connected c => rfl
  unfold confirm
  rw [hlink]

/-! ## One frame -/

section Cases

variable [TimeScale τ] {t t' : Tracker τ} {p : Packet τ}

/-- A frame that cannot be decoded confirms a connection, or it changes nothing. -/
theorem Decoded.of_error (h : Decoded t p t') {e : DecodeError} (hpdu : p.pdu = .error e) :
    p.IsConnectResponse ∧ t' = t.confirm ∨ ¬ p.IsConnectResponse ∧ t' = t := by
  cases h with
  | request r hrequest => exact absurd (hrequest.symm.trans hpdu) (by simp)
  | auxiliary e' role t₁ _ haux => exact absurd (haux.pdu.symm.trans hpdu) (by simp)
  | response hresponse => exact .inl ⟨hresponse, rfl⟩
  | quiet _ _ hresponse => exact .inr ⟨hresponse, rfl⟩

/-- A packet that is not noted, and not of the type that answers a request, changes nothing. -/
theorem Decoded.of_not_noted (h : Decoded t p t') {q : Pdu} (hpdu : p.pdu = .ok q)
    (hnoted : ¬ q.IsNoted p.frame.channel) (hresponse : ¬ p.IsConnectResponse) : t' = t := by
  cases h with
  | request r hrequest =>
    obtain rfl := Except.ok.inj (hrequest.symm.trans hpdu)
    exact absurd trivial hnoted
  | auxiliary e role t₁ _ haux =>
    obtain rfl := Except.ok.inj (haux.pdu.symm.trans hpdu)
    exact absurd (Pdu.isNoted_extended role haux.secondary haux.pduType) hnoted
  | response h' => exact absurd h' hresponse
  | quiet => rfl

end Cases

variable [TimeScale τ] {t : Tracker τ} {f : StampedFrame τ} {p : Pdu}

/-- A frame of the type that answers a connection request decodes to an answer, if it can be
decoded. -/
theorem decode_of_response (hpdu : (t.decode f).1.pdu = .ok p)
    (hresponse : (t.decode f).1.IsConnectResponse) : ∃ e, p = .extended .auxConnectRsp e := by
  obtain ⟨a, _, hread⟩ := ofBody_of_answersRequest ((answersRequest_packet _).mpr hresponse)
  simp only [Packet.frame, decode_stamped] at hread
  -- An answer passes through `observe` as it is.
  change ((t.expire f.time).decodeBody f).1 = .ok p at hpdu
  unfold decodeBody at hpdu
  simp only [hread] at hpdu
  cases hext : ExtAdvertisement.ofBody a f.frame.body with
  | error e =>
    rw [hext] at hpdu
    cases hpdu
  | ok e =>
    rw [hext] at hpdu
    exact ⟨e, (Except.ok.inj hpdu).symm⟩

/-- A frame of another link than advertising decodes to a packet of the data family. -/
theorem decode_isData (hpdu : (t.decode f).1.pdu = .ok p)
    (haddress : f.accessAddress ≠ advertisingAddress) : p.isData = true := by
  obtain ⟨role, hread⟩ := t.decode_pdu f
  obtain ⟨q, hq, rfl⟩ := map_eq_ok.mp (hread.symm.trans hpdu)
  rw [Family.ofAddress, if_neg haddress] at hq
  rw [Pdu.isData_withRole]
  exact Pdu.isData_of_ofDataBody hq

/-- Of a frame that cannot be decoded the tracker keeps its time alone, except that the type of an
answer to a connection request confirms the connection that waits.  It also keeps the time alone of
every packet of another link than advertising, and of every advertising packet but connection
requests, answers to them, and packets of type 7 on secondary channels. -/
theorem decode_effect (t : Tracker τ) (f : StampedFrame τ) :
    (∀ e, (t.decode f).1.pdu = .error e →
      (∀ c, t.link = .pending c → (t.decode f).1.IsConnectResponse →
        (t.decode f).2 = { t.expire f.time with link := .connected c }) ∧
      ((∀ c, t.link ≠ .pending c) ∨ ¬ (t.decode f).1.IsConnectResponse →
        (t.decode f).2 = t.expire f.time)) ∧
    ∀ p, (t.decode f).1.pdu = .ok p →
      f.accessAddress ≠ advertisingAddress ∨ ¬ p.IsNoted f.frame.channel →
      (t.decode f).2 = t.expire f.time := by
  have hdecoded := t.decoded f
  constructor
  · intro e hpdu
    rcases hdecoded.of_error hpdu with ⟨hresponse, hnext⟩ | ⟨hresponse, hnext⟩
    · rw [hnext]
      refine ⟨fun c hlink _ => confirm_of_pending hlink, fun h => ?_⟩
      rcases h with hlink | hno
      · exact confirm_of_not_pending hlink
      · exact absurd hresponse hno
    · exact ⟨fun c _ h => absurd h hresponse, fun _ => hnext⟩
  · intro p hpdu hquiet
    have hnoted : ¬ p.IsNoted f.frame.channel := by
      rcases hquiet with haddress | hnoted
      · exact Pdu.not_isNoted_of_isData (decode_isData hpdu haddress)
      · exact hnoted
    refine hdecoded.of_not_noted hpdu hnoted fun hresponse => ?_
    obtain ⟨e, rfl⟩ := decode_of_response hpdu hresponse
    exact hnoted trivial

/-- A tracker with a connection that waits, a window for a scan response that closes after one
second, and one for the next of a chain that closes after three. -/
def expectant : Tracker ℚ where
  settings := .standard
  clock := none
  link := .pending ⟨0x12345678, 0x123456⟩
  scanWindow := some ⟨none, 5, 1⟩
  chainWindow := some ⟨none, 9, 3⟩
  mode := some .scanning

/-- An advertising frame heard after two seconds. -/
def heardLate (channel : Channel) (body : Octets) : StampedFrame ℚ :=
  ⟨2, 2, advertisingAddress,
    ⟨0, .centralToPeripheral, false, 0, 0, channel, .le1M, body, none, none⟩⟩

/-- A connection request that breaks off changes nothing, an answer that breaks off confirms the
connection, and a scan request changes nothing. -/
theorem decode_effect_broken_answer :
    let c : LinkContext := ⟨0x12345678, 0x123456⟩
    (expectant.decode (heardLate 37 [5, 34, 1])).2 = { expectant with scanWindow := none } ∧
      (expectant.decode (heardLate 5 [8, 0])).2 =
        { expectant with scanWindow := none, link := .connected c } ∧
      (expectant.decode (heardLate 5 [3, 12, 1, 2, 3, 4, 5, 6, 7, 8, 9, 10, 11, 12])).2 =
        { expectant with scanWindow := none } := by
  intro c
  have hscan : (⟨none, 5, 1⟩ : Window ℚ).isStale 2 = true := by decide +kernel
  have hchain : (⟨none, 9, 3⟩ : Window ℚ).isStale 2 = false := by decide +kernel
  have hexpire : expectant.expire 2 = { expectant with scanWindow := none } := by
    simp only [expire, expectant, Option.filter_some, hscan, hchain]
    rfl
  have hrequest : ¬ (expectant.decode (heardLate 37 [5, 34, 1])).1.IsConnectResponse := by
    rintro ⟨_, hsecondary, _⟩
    exact absurd hsecondary (by decide)
  have hbroken := ((decode_effect expectant (heardLate 37 [5, 34, 1])).1
    (.truncated "CONNECT_IND" 36 3) (by decide +kernel)).2 (.inr hrequest)
  have hanswer := ((decode_effect expectant (heardLate 5 [8, 0])).1
    (.truncated "extended advertising PDU" 3 2) (by decide +kernel)).1 c rfl
    ⟨rfl, rfl, 8, 0, [], rfl, rfl⟩
  have hscanned := (decode_effect expectant
    (heardLate 5 [3, 12, 1, 2, 3, 4, 5, 6, 7, 8, 9, 10, 11, 12])).2 (.scanRequest .secondary
      ⟨.ofOctets 3 12, ⟨#v[1, 2, 3, 4, 5, 6], false⟩, ⟨#v[7, 8, 9, 10, 11, 12], false⟩⟩)
    (by decide +kernel) (.inr id)
  refine ⟨hbroken.trans hexpire, ?_, hscanned.trans hexpire⟩
  rw [hanswer]
  change { expectant.expire 2 with link := LinkState.connected c } = _
  rw [hexpire]

end Tracker

end AirTrace

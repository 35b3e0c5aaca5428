import AirTrace.Proofs.Confirmation

/-!
# The packets of a followed connection

A frame reaches the decoder with the access address of the current link, unless its receiver knew
another.  The address alone then decides the family by which the body is read, and it is looked up
once more to find the seed for the check.  `Tracker.receive_current` says what the two look-ups give
for the current link: the family of its address, and the seed that goes with the address.  These are
the link's own, with one exception: the advertising address always stands for advertising, also if a
connection asks for it.

So the frames of a followed connection are read as its packets, whatever request brought it about,
unless the request asked for the advertising address (`Log.read_as_connected`).
-/

namespace AirTrace

variable {τ : Type} [TimeScale τ]

/-! ## The seed for a check -/

omit [TimeScale τ] in
/-- The check of a packet is held against a seed if one was received, and made with it if none
was. -/
structure Packet.CheckedWith (p : Packet τ) (seed : Crc.Register) : Prop where
  known : p.seed = some seed
  received : ∀ c, p.frame.crc = some c → p.crcValid = some (Tracker.checks seed p.frame.body c)
  missing : p.frame.crc = none →
    p.wireCrc = some (UInt32.ofNat (Crc.checksum seed p.frame.body).toNat)

/-- A check is held against the seed that the tracker knows for the address of the frame. -/
theorem Tracker.decode_checkedWith {t : Tracker τ} {f : StampedFrame τ} {seed : Crc.Register}
    (hseed : t.link.seedFor? f.accessAddress = some seed) : (t.decode f).1.CheckedWith seed := by
  have hexpired : (t.expire f.time).link.seedFor? f.accessAddress = some seed := hseed
  have hknown : (t.decode f).1.seed = some seed := hexpired
  refine ⟨hknown, ?_, ?_⟩
  · intro c hc
    have hcrc : f.frame.crc = some c := hc
    simp only [decode, hcrc, hexpired]
    rfl
  · intro hc
    unfold Packet.wireCrc
    rw [hc, hknown]
    rfl

/-- The seed that goes with the address of a link: the link's own, except that the advertising
address always stands for advertising. -/
def LinkContext.addressSeed (c : LinkContext) : Crc.Register :=
  if c.accessAddress = advertisingAddress then advertising.seed else c.seed

/-- The address of the current link leads to the seed that goes with it. -/
theorem LinkState.seedFor?_current (l : LinkState) :
    l.seedFor? l.current.accessAddress = some l.current.addressSeed := by
  unfold seedFor? LinkContext.addressSeed
  by_cases h : l.current.accessAddress = advertisingAddress
  · rw [if_pos h, if_pos h]
  · rw [if_neg h, if_neg h, if_pos rfl]

/-! ## A frame on the current link -/

/-- On a secondary channel a frame whose address is not known gets that of the current link, and the
link stays. -/
theorem Tracker.attach_current (t : Tracker τ) (now : τ) {f : Frame}
    (hsecondary : f.channel.isPrimary = false) (hunknown : f.accessAddress = none) :
    (t.attach now f).1.accessAddress = t.link.current.accessAddress ∧
      (t.attach now f).2.link = t.link := by
  have hlink : (t.attach now f).2.link = t.link := by
    rw [attach_eq, hsecondary]
    rfl
  refine ⟨?_, hlink⟩
  show f.accessAddress.getD (t.attach now f).2.link.current.accessAddress = _
  rw [hunknown, hlink]
  rfl

/-- Such a frame is read by the family of the link's address and checked with the seed that goes
with the address. -/
theorem Tracker.receive_current (t : Tracker τ) (now : τ) {f : Frame}
    (hsecondary : f.channel.isPrimary = false) (hunknown : f.accessAddress = none) :
    let p := (t.receive now f).1
    p.stamped.accessAddress = t.link.current.accessAddress ∧
      p.CheckedWith t.link.current.addressSeed ∧
      ∃ role, p.pdu = Pdu.withRole role <$>
        Pdu.ofBody (Family.ofAddress t.link.current.accessAddress) .secondary f.body := by
  intro p
  obtain ⟨haddress, hlink⟩ := t.attach_current now hsecondary hunknown
  have hseed : (t.attach now f).2.link.seedFor? (t.attach now f).1.accessAddress =
      some t.link.current.addressSeed := by
    rw [haddress, hlink]
    exact t.link.seedFor?_current
  refine ⟨haddress, decode_checkedWith hseed, ?_⟩
  obtain ⟨role, hpdu⟩ := (t.attach now f).2.decode_pdu (t.attach now f).1
  have htier : f.channel.tier = .secondary := Channel.tier_eq_secondary.mpr hsecondary
  rw [haddress] at hpdu
  rw [← htier]
  exact ⟨role, hpdu⟩

/-- A packet of the data family takes no part in an exchange of advertising. -/
theorem Pdu.withRole_ofDataBody (role : ExtRole) (body : Octets) :
    withRole role <$> ofDataBody body = ofDataBody body := by
  cases hbody : ofDataBody body with
  | error e => rfl
  | ok p =>
    have hdata := isData_of_ofDataBody hbody
    cases p with
    | extended => cases hdata
    | _ => rfl

/-! ## The run -/

namespace Log

open Session (Step)

/-- Whatever a session has seen, if it follows a connection, every frame on a secondary channel
whose address is not known becomes a packet with the connection's address.  The packet is of the
data family and checked with the connection's seed, unless the connection has the address of
advertising: then it is of the advertising family and checked with the seed of advertising. -/
theorem read_as_connected (s : Settings τ) (xs : List (Step τ)) (x : Step τ) {c : LinkContext}
    {f : Frame} (hconnected : ((start s).run xs).tracker.link = .connected c)
    (hframe : x.input.frame? = some f) (hsecondary : f.channel.isPrimary = false)
    (hunknown : f.accessAddress = none) :
    ∃ p, (((start s).run xs).session.step x).1 = some p ∧ p.frame = f ∧
      p.stamped.accessAddress = c.accessAddress ∧
      (c.accessAddress ≠ advertisingAddress →
        p.pdu = Pdu.ofBody .data .secondary f.body ∧ p.CheckedWith c.seed) ∧
      (c.accessAddress = advertisingAddress →
        (∃ role, p.pdu = Pdu.withRole role <$> Pdu.ofBody .advertising .secondary f.body) ∧
          p.CheckedWith LinkContext.advertising.seed) := by
  let t := ((start s).run xs).tracker
  obtain ⟨now, hinput⟩ := Tracker.Input.frame?_eq_some.mp hframe
  have hpacket : (((start s).run xs).session.step x).1 = some (t.receive now f).1 := by
    rw [Session.step_packet, hinput]
    rfl
  have hcurrent : t.link.current = c := by
    show ((start s).run xs).tracker.link.current = c
    rw [hconnected]
    rfl
  obtain ⟨haddress, hchecked, role, hpdu⟩ := t.receive_current now hsecondary hunknown
  rw [hcurrent] at haddress hchecked hpdu
  refine ⟨(t.receive now f).1, hpacket, rfl, haddress, ?_, ?_⟩
  · intro hother
    rw [Family.ofAddress, if_neg hother] at hpdu
    rw [LinkContext.addressSeed, if_neg hother] at hchecked
    exact ⟨hpdu.trans (Pdu.withRole_ofDataBody role f.body), hchecked⟩
  · intro hadvertising
    rw [Family.ofAddress, if_pos hadvertising] at hpdu
    rw [LinkContext.addressSeed, if_pos hadvertising] at hchecked
    exact ⟨⟨role, hpdu⟩, hchecked⟩

/-- A connection with some access address is requested, and the sniffer reports that it follows
it. -/
def followedSteps (accessAddress : UInt32) : List (Step ℚ) :=
  let request : ConnectRequest := { legacyRequest with
    parameters := { legacyRequest.parameters with accessAddress := accessAddress } }
  [.fixClock 0 0, .frame 0 { legacyRequestFrame with body := request.toBody },
    .message 0 [0, 0x13, Mode.data.code]]

/-- The initial value in that request, reflected. -/
def followedSeed : Crc.Register := (0x123456#24).reverse

/-- An empty data packet on channel 5 with the check that the connection's seed gives. -/
def followedFrame : Frame :=
  { secondaryFrame [1, 0] with
    crc := some (UInt32.ofNat (Crc.checksum followedSeed [1, 0]).toNat) }

/-- On a connection with an address of its own the packet is read as data, and its check is
right. -/
theorem read_as_connected_dataPacket :
    ∃ p, (((start .standard).run (followedSteps 0x12345678)).session.step
        (.frame 0 followedFrame)).1 = some p ∧
      p.stamped.accessAddress = 0x12345678 ∧
      p.pdu = .ok (.data ⟨⟨.ofOctets 1 0, none⟩, []⟩) ∧ p.crcValid = some true := by
  obtain ⟨p, hp, hframe, haddress, hdata, _⟩ := @read_as_connected ℚ _ .standard
    (followedSteps 0x12345678) (.frame 0 followedFrame) ⟨0x12345678, followedSeed⟩
    followedFrame (by decide +kernel) rfl rfl rfl
  obtain ⟨hpdu, hchecked⟩ := hdata (by decide)
  have hvalid := hchecked.received _ (congrArg Frame.crc hframe)
  rw [hframe] at hvalid
  refine ⟨p, hp, haddress, hpdu.trans (by decide +kernel), hvalid.trans (by decide +kernel)⟩

/-- On a connection with the advertising address it is read as advertising, with a check that the
seed of advertising finds wrong. -/
theorem read_as_advertising_when_connected :
    let l := (start .standard).run (followedSteps advertisingAddress)
    let c : LinkContext := ⟨advertisingAddress, followedSeed⟩
    l.tracker.link = .connected c ∧ followedFrame.channel.isPrimary = false ∧
      followedFrame.accessAddress = none ∧
      ∃ p, (l.session.step (.frame 0 followedFrame)).1 = some p ∧
        p.pdu = .ok (.unknown (.ofBody (.ofOctets 1 0) [1, 0])) ∧ p.seed ≠ some c.seed ∧
        p.crcValid = some false := by
  intro l c
  refine ⟨by decide +kernel, rfl, rfl, _, Session.step_packet _ _, ?_⟩
  decide +kernel

end Log

end AirTrace

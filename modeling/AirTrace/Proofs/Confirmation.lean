import AirTrace.Proofs.Links
import AirTrace.Time.Exact

/-!
# What a requested connection waits for

A connection request on a primary channel does not take effect at once.  `Log.legacy_request_waits`
says what it waits for, and that nothing else brings it about, whatever frames and messages come in
between.  Two things do: the sniffer reports a mode in which it follows a connection, or a packet
comes that has the type of an answer on a secondary channel.  The tracker does not keep on which
channel the request came, so the second confirms a request to which no such answer belongs
(`Log.legacy_request_confirmed_by_frame`).

The proof follows the rules for the link.  `LinkRules.keeps` is one step, and `Log.link_run` any
number of them.
-/

namespace AirTrace

variable {τ : Type} [TimeScale τ]

/-! ## One step -/

/-- In a state, a step neither asks for a connection nor confirms one. -/
structure Log.Idle (l : Log τ) (x : Session.Step τ) : Prop where
  noReport : ¬ x.ReportsConnection
  noRequest : ∀ p, (l.session.step x).1 = some p → ¬ p.IsConnectRequest
  noResponse : ∀ p, (l.session.step x).1 = some p → ¬ p.IsConnectResponse

omit [TimeScale τ] in
/-- Without a request, an answer or a report, a link on which no connection is followed stays. -/
theorem LinkRules.keeps {mode : Option Mode} {x : Session.Step τ} {packet : Option (Packet τ)}
    {link link' : LinkState} (h : LinkRules mode x packet link link') (hreset : x ≠ .reset)
    (hreport : ¬ x.ReportsConnection) (hrequest : ∀ p, packet = some p → ¬ p.IsConnectRequest)
    (hresponse : ∀ p, packet = some p → ¬ p.IsConnectResponse)
    (hlink : link.isAdvertising = true) : link' = link := by
  by_cases hprimary : ∃ p, packet = some p ∧ p.frame.channel.isPrimary = true
  · obtain ⟨p, hp, hprimary⟩ := hprimary
    rw [h.primary p hp hprimary (hrequest p hp), if_pos hlink]
  · refine h.otherwise hreset hreport fun p hp => ⟨hrequest p hp, hresponse p hp, ?_⟩
    exact eq_false_of_ne_true fun h' => hprimary ⟨p, hp, h'⟩

namespace Log

open Session (Step)

omit [TimeScale τ] in
theorem not_reportsConnection_frame (now : τ) (f : Frame) :
    ¬ (Step.frame now f).ReportsConnection := by
  rintro ⟨_, _, _, h, _⟩
  cases h

/-- A frame is idle if its packet neither asks for a connection nor is of the type of an answer. -/
theorem idle_frame {l : Log τ} {now : τ} {f : Frame}
    (hrequest : ¬ (l.tracker.receive now f).1.IsConnectRequest)
    (hresponse : ¬ (l.tracker.receive now f).1.IsConnectResponse) : l.Idle (.frame now f) := by
  have hpacket : ∀ p, (l.session.step (.frame now f)).1 = some p →
      p = (l.tracker.receive now f).1 := by
    intro p hp
    rw [Session.step_packet] at hp
    exact (Option.some.inj hp).symm
  refine ⟨not_reportsConnection_frame now f, ?_, ?_⟩
  · intro p hp
    rwa [hpacket p hp]
  · intro p hp
    rwa [hpacket p hp]

theorem link_step {l : Log τ} {x : Step τ} (h : l.Idle x)
    (hlink : l.tracker.link.isAdvertising = true) :
    (x ≠ .reset → (l.step x).tracker.link = l.tracker.link) ∧
      (x = .reset → (l.step x).tracker.link = .advertising) := by
  have hrules := l.linkRules_step x
  refine ⟨?_, hrules.reset⟩
  intro hreset
  exact hrules.keeps hreset h.noReport h.noRequest h.noResponse hlink

/-! ## Any number of steps -/

/-- None of the steps asks for a connection or confirms one. -/
def Uneventful (l : Log τ) : List (Step τ) → Prop
  | [] => True
  | x :: xs => l.Idle x ∧ (l.step x).Uneventful xs

/-- Through such steps the link stays, or a reset drops what waits. -/
theorem link_run {l : Log τ} {xs : List (Step τ)} (h : l.Uneventful xs)
    (hlink : l.tracker.link.isAdvertising = true) :
    (.reset ∉ xs → (l.run xs).tracker.link = l.tracker.link) ∧
      (.reset ∈ xs → (l.run xs).tracker.link = .advertising) := by
  induction xs generalizing l with
  | nil => exact ⟨fun _ => rfl, fun hmem => absurd hmem List.not_mem_nil⟩
  | cons x xs ih =>
    obtain ⟨hidle, hrest⟩ := h
    obtain ⟨hstays, hdrops⟩ := link_step hidle hlink
    rw [run_cons]
    by_cases hreset : x = .reset
    · -- Advertising is a link that stays as well, so it makes no difference if a reset follows.
      have hdropped := hdrops hreset
      have hnext := ih hrest (by rw [hdropped]; rfl)
      refine ⟨fun hno => absurd (hreset ▸ List.mem_cons_self) hno, fun _ => ?_⟩
      by_cases hagain : .reset ∈ xs
      · exact hnext.2 hagain
      · exact (hnext.1 hagain).trans hdropped
    · have hstayed := hstays hreset
      have hnext := ih hrest (by rw [hstayed]; exact hlink)
      refine ⟨fun hno => ?_, fun hmem => ?_⟩
      · exact (hnext.1 fun hmem => hno (List.mem_cons_of_mem x hmem)).trans hstayed
      · exact hnext.2 ((List.mem_cons.mp hmem).resolve_left fun heq => hreset heq.symm)

/-- A session decodes a connection request on a primary channel, and from there on neither decodes
another request, nor a packet of the type that answers one on a secondary channel, nor is told of a
mode in which the sniffer follows a connection.  Then packets are still received on the link of
advertising, whatever else came.  The connection waits unless there was a reset, and it takes effect
with the next such report and with the next such packet. -/
theorem legacy_request_waits (s : Settings τ) (before : List (Step τ)) (x : Step τ)
    (after : List (Step τ)) {p : Packet τ} {r : ConnectRequest}
    (hp : (((start s).run before).session.step x).1 = some p)
    (hpdu : p.pdu = .ok (.connectRequest .primary r))
    (hafter : ((start s).run (before ++ [x])).Uneventful after) :
    let c : LinkContext := ⟨r.parameters.accessAddress, r.parameters.crcInit.reverse⟩
    let l := (start s).run (before ++ x :: after)
    l.tracker.link.current = .advertising ∧
      (.reset ∈ after → l.tracker.link = .advertising) ∧
      (.reset ∉ after → l.tracker.link = .pending c ∧
        ∀ y, (y.ReportsConnection ∨
          ∃ q, (l.session.step y).1 = some q ∧ q.IsConnectResponse) →
          (l.step y).tracker.link = .connected c) := by
  intro c l
  have hl : l = (((start s).run before).step x).run after := by
    show (start s).run (before ++ x :: after) = _
    rw [run_append, run_cons]
  have hrequested : (((start s).run before).step x).tracker.link = .pending c :=
    (((start s).run before).linkRules_step x).connectInd p r hp hpdu
  rw [run_snoc] at hafter
  obtain ⟨hstays, hdrops⟩ := link_run hafter (by rw [hrequested]; rfl)
  rw [← hl] at hstays hdrops
  by_cases hreset : .reset ∈ after
  · have hdropped := hdrops hreset
    refine ⟨?_, fun _ => hdropped, fun hno => absurd hreset hno⟩
    rw [hdropped]
    rfl
  · have hwaits := (hstays hreset).trans hrequested
    refine ⟨by rw [hwaits]; rfl, fun h => absurd h hreset, fun _ => ⟨hwaits, ?_⟩⟩
    intro y hy
    have hrules := l.linkRules_step y
    rcases hy with hreport | ⟨q, hq, hresponse⟩
    · rw [hrules.reported hreport, hwaits]
      rfl
    · rw [hrules.auxConnectRsp q hq hresponse, hwaits]
      rfl

/-- A connection request. -/
def legacyRequest : ConnectRequest where
  header := .ofOctets 5 34
  initA := ⟨#v[1, 2, 3, 4, 5, 6], false⟩
  advA := ⟨#v[7, 8, 9, 10, 11, 12], false⟩
  parameters := {
    accessAddress := 0x12345678
    crcInit := 0x123456
    winSize := 1
    winOffset := 0
    interval := 24
    latency := 0
    timeout := 72
    channelMap := 0x1FFFFFFFFF
    hop := 7
    sca := 0 }

/-- The frame that brings it on channel 37. -/
def legacyRequestFrame : Frame :=
  ⟨0, .centralToPeripheral, false, 0, 0, 37, .le1M, legacyRequest.toBody, none, none⟩

/-- A frame on channel 5. -/
def secondaryFrame (body : Octets) : Frame :=
  ⟨1000, .centralToPeripheral, false, 0, 0, 5, .le1M, body, none, none⟩

/-- An answer that breaks off within its header is none: the connection still waits, and takes
effect once the sniffer reports it. -/
theorem legacy_request_waits_past_broken_answer :
    let l := (start (Settings.standard : Settings ℚ)).run
      [.frame 0 legacyRequestFrame, .frame 0 (secondaryFrame [8])]
    let c : LinkContext := ⟨0x12345678, (0x123456#24).reverse⟩
    l.tracker.link = .pending c ∧
      (l.step (.message 0 [0, 0x13, Mode.data.code])).tracker.link = .connected c := by
  intro l c
  let l₁ := (start (Settings.standard : Settings ℚ)).step (.frame 0 legacyRequestFrame)
  have herror : (l₁.tracker.receive 0 (secondaryFrame [8])).1.pdu =
      .error (.truncated "advertising header" 2 1) := by decide +kernel
  have hidle : l₁.Idle (.frame 0 (secondaryFrame [8])) := by
    apply idle_frame
    · rintro ⟨tier, r, hr⟩
      exact absurd (herror.symm.trans hr) (by simp)
    · rintro ⟨_, _, first, length, rest, hbody, _⟩
      have hshort : [(8 : UInt8)] = first :: length :: rest := hbody
      exact absurd (List.tail_eq_of_cons_eq hshort) (by simp)
  obtain ⟨_, _, hwaits⟩ := legacy_request_waits .standard [] (.frame 0 legacyRequestFrame)
    [.frame 0 (secondaryFrame [8])] (Session.step_packet _ _) (r := legacyRequest)
    (by decide +kernel) ⟨hidle, trivial⟩
  obtain ⟨hpending, hconfirmed⟩ := hwaits (by simp)
  exact ⟨hpending, hconfirmed _ (.inl ⟨0, _, .data, rfl, rfl, .inl rfl⟩)⟩

/-- With a whole header it is one, and the connection is followed though the sniffer has not
reported it. -/
theorem legacy_request_confirmed_by_frame :
    let l := start (Settings.standard : Settings ℚ)
    let l₁ := l.step (.frame 0 legacyRequestFrame)
    let answer : Step ℚ := .frame 0 (secondaryFrame [8, 0])
    (∃ p, (l.session.step (.frame 0 legacyRequestFrame)).1 = some p ∧
        p.frame.channel.isPrimary = true ∧
        p.pdu = .ok (.connectRequest .primary legacyRequest)) ∧
      ¬ answer.ReportsConnection ∧
      (∃ q, (l₁.session.step answer).1 = some q ∧ ¬ q.IsConnectRequest) ∧
      (l₁.step answer).tracker.link = .connected ⟨0x12345678, (0x123456#24).reverse⟩ := by
  intro l l₁ answer
  have herror : (l₁.tracker.receive 0 (secondaryFrame [8, 0])).1.pdu =
      .error (.truncated "extended advertising PDU" 3 2) := by decide +kernel
  refine ⟨⟨_, Session.step_packet _ _, rfl, by decide +kernel⟩, not_reportsConnection_frame _ _,
    ⟨_, Session.step_packet _ _, ?_⟩, by decide +kernel⟩
  rintro ⟨tier, r, hr⟩
  exact absurd (herror.symm.trans hr) (by simp)

end Log

end AirTrace

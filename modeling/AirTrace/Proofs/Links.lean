import AirTrace.Proofs.Decoding

/-!
# Where the link comes from

Which link a session follows decides how it reads every later packet.  The link changes in five ways
only (`LinkRules`), each of them seen from outside: in the packet that was decoded, in the mode that
the sniffer reported, or in a reset.

* `Log.linkRules_step`: every step of every session obeys the rules.
* `Provenance`: a link that is pending or connected is the one that the newest connection request
  asked for.
* `ConnectedSince`: while a connection is followed, no frame comes on a primary channel.

The last two follow from the rules alone; `Log.link_provenance` puts the three together.
-/

namespace AirTrace

variable {τ : Type} [TimeScale τ]

/-! ## One packet -/

namespace Tracker.Decoded

variable {t t' : Tracker τ} {p : Packet τ}

theorem link_of_connectRequest (h : Decoded t p t') {tier : Tier} {r : ConnectRequest}
    (hpdu : p.pdu = .ok (.connectRequest tier r)) :
    tier = p.frame.channel.tier ∧ t'.link =
      if tier = .secondary ∧ t.mode = some .advertisingExt then .connected r.parameters.context
      else .pending r.parameters.context := by
  cases h with
  | request r' hpdu' =>
    obtain ⟨rfl, rfl⟩ := Pdu.connectRequest.inj (Except.ok.inj (hpdu.symm.trans hpdu'))
    rw [request_eq]
    exact ⟨rfl, rfl⟩
  | auxiliary e role t₁ hclassify haux =>
    rw [haux.pdu] at hpdu
    simp at hpdu
  | response hresponse hrequest => exact absurd ⟨tier, r, hpdu⟩ hrequest
  | quiet hrequest => exact absurd ⟨tier, r, hpdu⟩ hrequest

theorem link_of_response (h : Decoded t p t') (hresponse : p.IsConnectResponse) :
    t'.link = t.link.confirm := by
  cases h with
  | request r hpdu hno => exact absurd hresponse hno
  | auxiliary e role t₁ hclassify haux hno => exact absurd hresponse hno
  | response => rfl
  | quiet hrequest haux hno => exact absurd hresponse hno

theorem link_of_other (h : Decoded t p t') (hrequest : ¬ p.IsConnectRequest)
    (hresponse : ¬ p.IsConnectResponse) : t'.link = t.link := by
  cases h with
  | request r hpdu => exact absurd ⟨_, r, hpdu⟩ hrequest
  | auxiliary e role t₁ hclassify =>
    rw [expect_eq, classify_eq hclassify]
  | response hresponse' => exact absurd hresponse' hresponse
  | quiet => rfl

end Tracker.Decoded

/-! ## The rules -/

omit [TimeScale τ] in
/-- The step has the sniffer report a mode in which it follows a connection. -/
def Session.Step.ReportsConnection (x : Session.Step τ) : Prop :=
  ∃ now envelope m, x = .message now envelope ∧ Message.ofEnvelope envelope = .ok (.mode m) ∧
    (m = .data ∨ m = .central ∨ m = .peripheral)

omit [TimeScale τ] in
theorem Session.Step.reportsConnection_iff {x : Session.Step τ} :
    x.ReportsConnection ↔ ∃ m, x.input = .mode m ∧ m.isConnected = true := by
  constructor
  · intro h
    obtain ⟨now, envelope, m, rfl, hread, hm⟩ := h
    refine ⟨m, ?_, ?_⟩
    · simp only [input, hread]
    · rcases hm with rfl | rfl | rfl <;> rfl
  · intro h
    obtain ⟨m, hinput, hm⟩ := h
    cases x with
    | message now envelope =>
      refine ⟨now, envelope, m, rfl, ?_, ?_⟩
      · simp only [input] at hinput
        split at hinput <;> simp_all
      · cases m <;> simp_all [Mode.isConnected]
    | _ => exact absurd hinput (by simp [input])

omit [TimeScale τ] in
/-- How a step that decodes `packet` takes the link from `link` to `link'`, where `mode` is the mode
reported last. -/
structure LinkRules (mode : Option Mode) (x : Session.Step τ) (packet : Option (Packet τ))
    (link link' : LinkState) : Prop where
  reset : x = .reset → link' = .advertising
  /-- A request on a primary channel waits for confirmation. -/
  connectInd : ∀ p r, packet = some p → p.pdu = .ok (.connectRequest .primary r) →
    link' = .pending ⟨r.parameters.accessAddress, r.parameters.crcInit.reverse⟩
  /-- A request on a secondary channel does so too, unless the sniffer is the advertiser. -/
  auxConnectReq : ∀ p r, packet = some p → p.pdu = .ok (.connectRequest .secondary r) →
    p.frame.channel.isPrimary = false ∧
      link' = if mode = some .advertisingExt
        then .connected ⟨r.parameters.accessAddress, r.parameters.crcInit.reverse⟩
        else .pending ⟨r.parameters.accessAddress, r.parameters.crcInit.reverse⟩
  /-- An answer to a request confirms it. -/
  auxConnectRsp : ∀ p, packet = some p → p.IsConnectResponse → link' = link.confirm
  /-- On a primary channel no connection is followed. -/
  primary : ∀ p, packet = some p → p.frame.channel.isPrimary = true → ¬ p.IsConnectRequest →
    link' = if link.isAdvertising then link else .advertising
  reported : x.ReportsConnection → link' = link.confirm
  /-- Every other frame, message or error leaves the link as it is. -/
  otherwise : x ≠ .reset → ¬ x.ReportsConnection →
    (∀ p, packet = some p → ¬ p.IsConnectRequest ∧ ¬ p.IsConnectResponse ∧
      p.frame.channel.isPrimary = false) → link' = link

omit [TimeScale τ] in
/-- Without a packet only three of the rules say anything. -/
theorem LinkRules.of_none {mode : Option Mode} {x : Session.Step τ} {link link' : LinkState}
    (hreset : x = .reset → link' = .advertising)
    (hreported : x.ReportsConnection → link' = link.confirm)
    (hother : x ≠ .reset → ¬ x.ReportsConnection → link' = link) :
    LinkRules mode x none link link' where
  reset := hreset
  connectInd _ _ h := absurd h (by simp)
  auxConnectReq _ _ h := absurd h (by simp)
  auxConnectRsp _ h := absurd h (by simp)
  primary _ h := absurd h (by simp)
  reported := hreported
  otherwise hno hno' _ := hother hno hno'

namespace Tracker

/-- A frame obeys the rules. -/
theorem receive_linkRules (t : Tracker τ) (now : τ) (f : Frame) (x : Session.Step τ)
    (hreset : x ≠ .reset) (hreports : ¬ x.ReportsConnection) :
    LinkRules t.mode x (some (t.receive now f).1) t.link (t.receive now f).2.link := by
  have hdecoded : Decoded ((t.attach now f).2.expire (t.attach now f).1.time) (t.receive now f).1
      (t.receive now f).2 := (t.attach now f).2.decoded (t.attach now f).1
  have hchannel : (t.receive now f).1.frame.channel = f.channel := rfl
  have hattach : ((t.attach now f).2.expire (t.attach now f).1.time).link =
      if f.channel.isPrimary && !t.link.isAdvertising then .advertising else t.link := by
    show (t.attach now f).2.link = _
    rw [attach_eq]
  have hmode : ((t.attach now f).2.expire (t.attach now f).1.time).mode = t.mode := by
    show (t.attach now f).2.mode = _
    rw [attach_eq]
  -- A frame on a secondary channel meets the link as it was.
  have hsecondary : f.channel.isPrimary = false →
      ((t.attach now f).2.expire (t.attach now f).1.time).link = t.link := by
    intro hf
    rw [hattach, hf]
    rfl
  generalize (t.receive now f).1 = p at hdecoded hchannel
  refine ⟨fun h => absurd h hreset, ?_, ?_, ?_, ?_, fun h => absurd h hreports, ?_⟩
  · intro q r hq hpdu
    obtain rfl := Option.some.inj hq
    obtain ⟨_, hlink⟩ := hdecoded.link_of_connectRequest hpdu
    rw [hlink]
    rfl
  · intro q r hq hpdu
    obtain rfl := Option.some.inj hq
    obtain ⟨htier, hlink⟩ := hdecoded.link_of_connectRequest hpdu
    refine ⟨Channel.tier_eq_secondary.mp htier.symm, ?_⟩
    rw [hlink, hmode]
    simp only [true_and]
    rfl
  · intro q hq hresponse
    obtain rfl := Option.some.inj hq
    rw [hdecoded.link_of_response hresponse, hsecondary (hchannel ▸ hresponse.2.1)]
  · intro q hq hprimary hrequest
    obtain rfl := Option.some.inj hq
    have hresponse : ¬ p.IsConnectResponse := by
      intro h
      obtain ⟨_, hno, _⟩ := h
      rw [hprimary] at hno
      exact Bool.noConfusion hno
    rw [hchannel] at hprimary
    rw [hdecoded.link_of_other hrequest hresponse, hattach, hprimary]
    cases t.link.isAdvertising <;> rfl
  · intro _ _ hother
    obtain ⟨hrequest, hresponse, hno⟩ := hother p rfl
    rw [hdecoded.link_of_other hrequest hresponse, hsecondary (hchannel ▸ hno)]

end Tracker

namespace Log

open Session (Step Call)

/-- Every step obeys the rules. -/
theorem linkRules_step (l : Log τ) (x : Step τ) :
    LinkRules l.tracker.mode x (l.session.step x).1 l.tracker.link (l.step x).tracker.link := by
  rw [Session.step_packet, step_tracker]
  have hreset : x = .reset ↔ x.input = .reset := Step.input_eq_reset.symm
  have hreports := Step.reportsConnection_iff (x := x)
  cases hinput : x.input with
  | frame now f =>
    rw [hinput] at hreset hreports
    exact l.tracker.receive_linkRules now f x (by simp [hreset]) (by simp [hreports])
  | marker now k =>
    rw [hinput] at hreset hreports
    exact .of_none (by simp [hreset]) (by simp [hreports]) fun _ _ => rfl
  | mode m =>
    rw [hinput] at hreset hreports
    have hlink : (l.tracker.report m).link =
        if m.isConnected then l.tracker.link.confirm else l.tracker.link := by
      rw [Tracker.report_eq]
    refine .of_none (by simp [hreset]) ?_ ?_
    · intro h
      obtain ⟨_, hm, hconnected⟩ := hreports.mp h
      obtain rfl := Tracker.Input.mode.inj hm
      exact hlink.trans (if_pos hconnected)
    · intro _ hno
      refine hlink.trans (if_neg ?_)
      intro hconnected
      exact hno (hreports.mpr ⟨m, rfl, hconnected⟩)
  | fixClock k epoch =>
    rw [hinput] at hreset hreports
    refine .of_none (by simp [hreset]) (by simp [hreports]) fun _ _ => ?_
    show (l.tracker.fixClock k epoch).link = _
    rw [Tracker.fixClock_eq]
  | reset =>
    rw [hinput] at hreset hreports
    exact .of_none (fun _ => rfl) (by simp [hreports]) fun h => absurd (hreset.mpr rfl) h
  | nothing =>
    rw [hinput] at hreset hreports
    exact .of_none (by simp [hreset]) (by simp [hreports]) fun _ _ => rfl

end Log

/-! ## What the rules imply -/

/-- The connection that a link state is about. -/
def LinkState.context? : LinkState → Option LinkContext
  | advertising => none
  | pending c | connected c => some c

theorem LinkState.context?_eq_some {l : LinkState} {c : LinkContext} :
    l.context? = some c ↔ l = .pending c ∨ l = .connected c := by
  cases l <;> simp [context?]

theorem LinkState.context?_confirm (l : LinkState) : l.confirm.context? = l.context? := by
  cases l <;> rfl

namespace LinkRules

variable {mode : Option Mode} {x : Session.Step τ} {packet : Option (Packet τ)}
  {link link' : LinkState} {p : Packet τ}

omit [TimeScale τ] in
/-- A connection request decides which connection the link is about. -/
theorem context_of_request (h : LinkRules mode x packet link link') {tier : Tier}
    {r : ConnectRequest} (hp : packet = some p) (hpdu : p.pdu = .ok (.connectRequest tier r)) :
    link'.context? = some ⟨r.parameters.accessAddress, r.parameters.crcInit.reverse⟩ := by
  cases tier with
  | primary =>
    rw [h.connectInd p r hp hpdu]
    rfl
  | secondary =>
    rw [(h.auxConnectReq p r hp hpdu).2]
    split <;> rfl

omit [TimeScale τ] in
/-- Without a request the link stays with its connection or drops it. -/
theorem context_of_other (h : LinkRules mode x packet link link') (hreset : x ≠ .reset)
    (hno : ∀ p, packet = some p → ¬ p.IsConnectRequest) {c : LinkContext}
    (hc : link'.context? = some c) : link.context? = some c := by
  by_cases hreports : x.ReportsConnection
  · rwa [h.reported hreports, LinkState.context?_confirm] at hc
  by_cases hresponse : ∃ p, packet = some p ∧ p.IsConnectResponse
  · obtain ⟨p, hp, hresponse⟩ := hresponse
    rwa [h.auxConnectRsp p hp hresponse, LinkState.context?_confirm] at hc
  by_cases hprimary : ∃ p, packet = some p ∧ p.frame.channel.isPrimary = true
  · obtain ⟨p, hp, hprimary⟩ := hprimary
    rw [h.primary p hp hprimary (hno p hp)] at hc
    split at hc
    · exact hc
    · exact absurd hc (by simp [LinkState.context?])
  · have hsame : link' = link := by
      refine h.otherwise hreset hreports fun p hp => ⟨hno p hp, ?_, ?_⟩
      · exact fun h' => hresponse ⟨p, hp, h'⟩
      · exact eq_false_of_ne_true fun h' => hprimary ⟨p, hp, h'⟩
    rwa [hsame] at hc

omit [TimeScale τ] in
/-- After a frame on a primary channel no connection is followed. -/
theorem not_connected_of_primary (h : LinkRules mode x packet link link') (hp : packet = some p)
    (hprimary : p.frame.channel.isPrimary = true) (c : LinkContext) : link' ≠ .connected c := by
  by_cases hrequest : p.IsConnectRequest
  · obtain ⟨tier, r, hpdu⟩ := hrequest
    cases tier with
    | primary =>
      rw [h.connectInd p r hp hpdu]
      simp
    | secondary =>
      have hsecondary := (h.auxConnectReq p r hp hpdu).1
      rw [hprimary] at hsecondary
      exact Bool.noConfusion hsecondary
  · rw [h.primary p hp hprimary hrequest]
    cases link <;> simp [LinkState.isAdvertising]

end LinkRules

/-! ## The run -/

omit [TimeScale τ] in
/-- The newest connection request among the packets asks for the connection `c`. -/
def Requested (ps : List (Packet τ)) (c : LinkContext) : Prop :=
  ∃ p newer tier r, IsNewest Packet.IsConnectRequest ps p newer ∧
    p.pdu = .ok (.connectRequest tier r) ∧
    c = ⟨r.parameters.accessAddress, r.parameters.crcInit.reverse⟩

namespace Log

open Session (Step Call)

omit [TimeScale τ] in
/-- The mode after a step, as the messages tell it. -/
def reportedMode (m : Option Mode) : Step τ → Option Mode
  | .reset => none
  | .message _ envelope => match Message.ofEnvelope envelope with
      | .ok (.mode m') => some m'
      | _ => m
  | _ => m

omit [TimeScale τ] in
/-- The mode that the sniffer reported last, since the last reset. -/
def lastMode (xs : List (Step τ)) : Option Mode := xs.foldl reportedMode none

theorem mode_step (l : Log τ) (x : Step τ) :
    (l.step x).tracker.mode = reportedMode l.tracker.mode x := by
  have hreceive : ∀ now f, (l.tracker.receive now f).2.mode = l.tracker.mode := by
    intro now f
    have hdecode := (Tracker.decode_keeps (l.tracker.attach now f).2 (l.tracker.attach now f).1).2.1
    exact hdecode.trans (by rw [Tracker.attach_eq])
  rw [step_tracker]
  cases x with
  | frame now f => exact hreceive now f
  | fixClock k epoch =>
    show (l.tracker.fixClock k epoch).mode = _
    rw [Tracker.fixClock_eq]
    rfl
  | framingError => rfl
  | reset => rfl
  | message now envelope =>
    simp only [Step.input, reportedMode]
    cases Message.ofEnvelope envelope with
    | error e => rfl
    | ok m =>
      cases m with
      | packet f => exact hreceive now f
      | mode m =>
        show (l.tracker.report m).mode = _
        rw [Tracker.report_eq]
      | _ => rfl

theorem mode_run (s : Settings τ) (xs : List (Step τ)) :
    ((start s).run xs).tracker.mode = lastMode xs := by
  induction xs using List.reverseRecOn with
  | nil => rfl
  | append_singleton xs x ih =>
    rw [run_snoc, mode_step, ih]
    unfold lastMode
    rw [List.foldl_concat]

/-- A step keeps the link with the newest request. -/
theorem requested_step (l : Log τ) (x : Step τ)
    (h : ∀ c, l.tracker.link.context? = some c → Requested l.packets c) (c : LinkContext)
    (hc : (l.step x).tracker.link.context? = some c) : Requested (l.step x).packets c := by
  have hrules := l.linkRules_step x
  by_cases hreset : x = .reset
  · rw [hrules.reset hreset] at hc
    exact absurd hc (by simp [LinkState.context?])
  rw [step_packets l hreset, ← Session.step_packet]
  -- A request becomes the newest itself; any other packet leaves the newest one and its connection.
  by_cases hrequest : ∃ p, (l.session.step x).1 = some p ∧ p.IsConnectRequest
  · obtain ⟨p, hp, tier, r, hpdu⟩ := hrequest
    have hcontext := hrules.context_of_request hp hpdu
    rw [hp]
    refine ⟨p, [], tier, r, IsNewest.of_last ⟨tier, r, hpdu⟩, hpdu, ?_⟩
    exact Option.some.inj (hc.symm.trans hcontext)
  · have hno : ∀ p, (l.session.step x).1 = some p → ¬ p.IsConnectRequest :=
      fun p hp h' => hrequest ⟨p, hp, h'⟩
    obtain ⟨p, newer, tier, r, hnewest, hpdu, hcontext⟩ :=
      h c (hrules.context_of_other hreset hno hc)
    cases hpacket : (l.session.step x).1 with
    | none =>
      rw [Option.toList_none, List.append_nil]
      exact ⟨p, newer, tier, r, hnewest, hpdu, hcontext⟩
    | some q => exact ⟨p, newer ++ [q], tier, r, hnewest.snoc (hno q hpacket), hpdu, hcontext⟩

theorem requested_run (s : Settings τ) (xs : List (Step τ)) (c : LinkContext)
    (hc : ((start s).run xs).tracker.link.context? = some c) :
    Requested ((start s).run xs).packets c := by
  induction xs using List.reverseRecOn generalizing c with
  | nil => exact absurd hc (by simp [start, Session.start, Tracker.start, LinkState.context?])
  | append_singleton xs x ih =>
    rw [run_snoc] at hc ⊢
    exact requested_step _ x ih c hc

/-- The step `x` took the link to the connection `c`, the link has stayed there since, and no frame
came on a primary channel from `x` on. -/
def ConnectedSince (s : Settings τ) (xs : List (Step τ)) (c : LinkContext) : Prop :=
  ∃ before x after, xs = before ++ x :: after ∧
    ((start s).run before).tracker.link ≠ .connected c ∧
    (∀ part, part <+: after →
      ((start s).run (before ++ x :: part)).tracker.link = .connected c) ∧
    ∀ y ∈ x :: after, ∀ f, y.input.frame? = some f → f.channel.isPrimary = false

/-- A step after which a connection is followed brings no frame on a primary channel. -/
theorem secondary_of_connected {l : Log τ} {x : Step τ} {c : LinkContext}
    (hc : (l.step x).tracker.link = .connected c) (f : Frame) (hf : x.input.frame? = some f) :
    f.channel.isPrimary = false := by
  obtain ⟨p, hp, rfl⟩ : ∃ p, (l.session.step x).1 = some p ∧ p.frame = f := by
    rw [Session.step_packet]
    cases hinput : x.input with
    | frame now f' =>
      rw [hinput] at hf
      obtain rfl := Option.some.inj hf
      exact ⟨_, rfl, rfl⟩
    | _ =>
      rw [hinput] at hf
      exact absurd hf (by simp [Tracker.Input.frame?])
  apply eq_false_of_ne_true
  intro hprimary
  exact (l.linkRules_step x).not_connected_of_primary hp hprimary c hc

theorem connectedSince_run (s : Settings τ) (xs : List (Step τ)) (c : LinkContext)
    (hc : ((start s).run xs).tracker.link = .connected c) : ConnectedSince s xs c := by
  induction xs using List.reverseRecOn with
  | nil => exact absurd hc (by simp [start, Session.start, Tracker.start])
  | append_singleton xs x ih =>
    have hstep : (((start s).run xs).step x).tracker.link = .connected c := by rwa [run_snoc] at hc
    have hsecondary := secondary_of_connected hstep
    -- If the connection was followed before `x`, the stretch grows by `x`; if not, it starts there.
    by_cases hbefore : ((start s).run xs).tracker.link = .connected c
    · obtain ⟨before, y, after, rfl, hchange, hstays, hframes⟩ := ih hbefore
      refine ⟨before, y, after ++ [x], by simp, hchange, ?_, ?_⟩
      · intro part hpart
        rcases List.prefix_concat_iff.mp hpart with rfl | hpart
        · rwa [← List.cons_append, ← List.append_assoc]
        · exact hstays part hpart
      · intro z hz
        rw [← List.cons_append] at hz
        rcases List.mem_append.mp hz with hz | hz
        · exact hframes z hz
        · rw [List.mem_singleton.mp hz]
          exact hsecondary
    · refine ⟨xs, x, [], rfl, hbefore, ?_, ?_⟩
      · intro part hpart
        rw [List.prefix_nil.mp hpart]
        exact hc
      · intro z hz
        rw [List.mem_singleton.mp hz]
        exact hsecondary

/-- Whatever a fresh session is called with, frames of one or of several receivers, messages and
resets among them, and in whatever order: a link that is pending or connected is the one that the
newest connection request since the last reset asked for; while a connection is followed, no frame
has come on a primary channel; and every further step changes the link as the rules say and in no
other way. -/
theorem link_provenance (s : Settings τ) (cs : List (Call τ)) :
    let xs := cs.flatMap Call.steps
    let l := (start s).run xs
    cs.foldl Session.call (.start s) = l.session ∧
      (∀ c, l.tracker.link = .pending c ∨ l.tracker.link = .connected c →
        Requested l.packets c) ∧
      (∀ c, l.tracker.link = .connected c → ConnectedSince s xs c) ∧
      ∀ x, LinkRules (lastMode xs) x (l.session.step x).1 l.tracker.link
        (l.step x).tracker.link := by
  intro xs l
  refine ⟨run_calls (start s) cs, ?_, ?_, ?_⟩
  · intro c hc
    exact requested_run s xs c (LinkState.context?_eq_some.mpr hc)
  · intro c hc
    exact connectedSince_run s xs c hc
  · intro x
    have hrules := l.linkRules_step x
    rwa [mode_run] at hrules

end Log

end AirTrace

import AirTrace.Proofs.Decoding
import AirTrace.Time.Exact

/-!
# Which packets answer which

A packet of type 7 on a secondary channel does not say what it is.  It is a scan response if one is
expected there and then, else the next of a chain if one is expected, else an advertisement.
`Log.role_iff_newest_opening` says what is expected in terms of the packets heard before, without
the tracker: the newest packet that calls for an answer counts, until it is answered or its time is
over.

The tracker keeps one window of each kind, which four operations open, replace, close and use up.
The proof compares a window with the history in two steps, for both kinds at once.

* `Window.outstanding_snoc` says how one more packet changes which window the history leaves open.
* `Tracker.Decoded.window_eq_some` says the same, in the same words, of the tracker's windows.

So the two agree after every run (`Mirrors`), and the part that a packet takes is read off the
history.
-/

namespace AirTrace

/-- What a packet can call for: the response to a scan request, or the next packet of a chain. -/
inductive WindowKind where
  | scan
  | chain
  deriving DecidableEq

/-- The part of the packet that is called for. -/
def WindowKind.answer : WindowKind → ExtRole
  | scan => .auxScanRsp
  | chain => .auxChainInd

variable {τ : Type} [TimeScale τ]

/-! ## Windows in the history -/

namespace Packet

omit [TimeScale τ] in
/-- A packet takes one part only. -/
theorem IsAuxiliary.unique {p : Packet τ} {role role' : ExtRole} {e e' : ExtAdvertisement}
    (h : p.IsAuxiliary role e) (h' : p.IsAuxiliary role' e') : role = role' ∧ e = e' :=
  Pdu.extended.inj (Except.ok.inj (h.pdu.symm.trans h'.pdu))

omit [TimeScale τ] in
theorem IsAuxiliary.forall_not_iff {p : Packet τ} {role : ExtRole} {e : ExtAdvertisement}
    (h : p.IsAuxiliary role e) (answer : ExtRole) :
    (∀ e', ¬ p.IsAuxiliary answer e') ↔ ¬ role = answer := by
  constructor
  · intro hno heq
    subst heq
    exact hno e h
  · intro hne e' h'
    exact hne (h.unique h').1

/-- The windows that a packet opens.

A scannable advertisement calls for a response of its own set on its own channel, within the time
that it takes itself, a request of fourteen octets, the space after each, and the tolerance.  An
auxiliary packet with a pointer, whatever its own part, calls for the packet that it points to, on
the channel that the pointer names, until the offset and the margin have passed. -/
def Opens (s : Settings τ) (p : Packet τ) : WindowKind → Window τ → Prop
  | .scan, w => ∃ e, p.IsAuxiliary .auxAdvInd e ∧ e.ext.mode = .scannable ∧
      w = { adi := e.ext.adi
            channel := p.frame.channel
            deadline := p.stamped.time + (p.frame.phy.airtime p.frame.body.length +
              s.interFrameSpace + p.frame.phy.airtime 14 + s.interFrameSpace +
                s.scanTolerance) * TimeScale.micro }
  | .chain, w => ∃ role e a, p.IsAuxiliary role e ∧ e.ext.auxPtr = some a ∧
      w = { adi := e.ext.adi
            channel := UInt8.ofNat a.channel.toNat
            deadline := p.stamped.time +
              (TimeScale.ofNat a.offsetMicros + s.chainMargin) * TimeScale.micro }

theorem not_opens {s : Settings τ} {p : Packet τ} (hno : ∀ role e, ¬ p.IsAuxiliary role e)
    (k : WindowKind) (w : Window τ) : ¬ p.Opens s k w := by
  cases k with
  | scan =>
    intro h
    obtain ⟨e, haux, _⟩ := h
    exact hno _ e haux
  | chain =>
    intro h
    obtain ⟨role, e, a, haux, _⟩ := h
    exact hno role e haux

end Packet

namespace Window

/-- The history leaves the window `w` open: the newest packet that calls for such an answer opened
it, and no packet since has given the answer or come after its deadline. -/
def Outstanding (s : Settings τ) (k : WindowKind) (ps : List (Packet τ)) (w : Window τ) : Prop :=
  ∃ p newer, IsNewest (fun q => ∃ w', q.Opens s k w') ps p newer ∧ p.Opens s k w ∧
    ∀ q ∈ newer, (∀ e, ¬ q.IsAuxiliary k.answer e) ∧
      TimeScale.after q.stamped.time w.deadline = false

variable {s : Settings τ} {k : WindowKind} {ps : List (Packet τ)} {p : Packet τ} {w : Window τ}

theorem not_outstanding_nil : ¬ Outstanding s k [] w := by
  intro h
  obtain ⟨p, newer, ⟨⟨older, h⟩, _⟩, _⟩ := h
  simp at h

/-- One more packet: the window that it opens is outstanding; if it opens none, the window that was
stays so, unless this packet answers it or comes too late for it. -/
theorem outstanding_snoc :
    Outstanding s k (ps ++ [p]) w ↔
      p.Opens s k w ∨ (∀ w', ¬ p.Opens s k w') ∧ Outstanding s k ps w ∧
        (∀ e, ¬ p.IsAuxiliary k.answer e) ∧
        TimeScale.after p.stamped.time w.deadline = false := by
  constructor
  · intro h
    obtain ⟨q, newer, hnewest, hopens, hnewer⟩ := h
    -- The newest packet that opens a window is the last one, or it was the newest before.
    rcases hnewest.of_snoc with ⟨rfl, _, _⟩ | ⟨newer', rfl, hno, hnewest'⟩
    · exact .inl hopens
    · have hlast := hnewer p (List.mem_append_right _ List.mem_cons_self)
      refine .inr ⟨fun w' hw' => hno ⟨w', hw'⟩, ⟨q, newer', hnewest', hopens, ?_⟩, hlast⟩
      intro b hb
      exact hnewer b (List.mem_append_left _ hb)
  · intro h
    rcases h with hopens | ⟨hno, ⟨q, newer, hnewest, hopens, hnewer⟩, hlast⟩
    · refine ⟨p, [], IsNewest.of_last ⟨w, hopens⟩, hopens, ?_⟩
      intro b hb
      exact absurd hb List.not_mem_nil
    · refine ⟨q, newer ++ [p], hnewest.snoc fun ⟨w', hw'⟩ => hno w' hw', hopens, ?_⟩
      intro b hb
      rcases List.mem_append.mp hb with hb | hb
      · exact hnewer b hb
      · rw [List.mem_singleton.mp hb]
        exact hlast

theorem compatible_iff {a b : Option Adi} :
    compatible a b = true ↔ a = b ∨ a = none ∨ b = none := by
  cases a <;> cases b <;> simp [compatible]

theorem admits_iff {time : τ} {channel : Channel} {adi : Option Adi} :
    w.admits time channel adi = true ↔
      w.channel = channel ∧ TimeScale.after time w.deadline = false ∧
        (w.adi = adi ∨ w.adi = none ∨ adi = none) := by
  simp [admits, isStale, compatible_iff, and_assoc]

end Window

/-- A packet is awaited: the history leaves a window open, and the packet comes on its channel, of
its advertising set as far as both name one, and not after its deadline. -/
def Packet.Awaited (s : Settings τ) (k : WindowKind) (ps : List (Packet τ)) (p : Packet τ)
    (adi : Option Adi) : Prop :=
  ∃ w, Window.Outstanding s k ps w ∧ w.channel = p.frame.channel ∧
    TimeScale.after p.stamped.time w.deadline = false ∧
    (w.adi = adi ∨ w.adi = none ∨ adi = none)

/-! ## Windows in the tracker -/

namespace Tracker

omit [TimeScale τ] in
/-- The window of a kind. -/
def window (t : Tracker τ) : WindowKind → Option (Window τ)
  | .scan => t.scanWindow
  | .chain => t.chainWindow

theorem expire_window {t : Tracker τ} {now : τ} {k : WindowKind} {w : Window τ} :
    (t.expire now).window k = some w ↔
      t.window k = some w ∧ TimeScale.after now w.deadline = false := by
  cases k <;> simp [window, expire, Option.filter_eq_some_iff, Window.isStale]

/-- The part that a packet takes is decided by the two windows, the scan window first. -/
theorem classify_role (t : Tracker τ) (time : τ) (channel : Channel) (adi : Option Adi) :
    let admitted := fun k => ∃ w, t.window k = some w ∧ w.admits time channel adi = true
    ((t.classify time channel adi).1 = .auxScanRsp ↔ admitted .scan) ∧
      ((t.classify time channel adi).1 = .auxChainInd ↔ ¬ admitted .scan ∧ admitted .chain) ∧
      ((t.classify time channel adi).1 = .auxAdvInd ↔ ¬ admitted .scan ∧ ¬ admitted .chain) := by
  intro admitted
  have hscan : t.scanWindow.any (·.admits time channel adi) = true ↔ admitted .scan :=
    Option.any_eq_true ..
  have hchain : t.chainWindow.any (·.admits time channel adi) = true ↔ admitted .chain :=
    Option.any_eq_true ..
  unfold classify
  by_cases h : admitted .scan
  · rw [if_pos (hscan.mpr h)]
    simp [h]
  · rw [if_neg (mt hscan.mp h)]
    by_cases h' : admitted .chain
    · rw [if_pos (hchain.mpr h')]
      simp [h, h']
    · rw [if_neg (mt hchain.mp h')]
      simp [h, h']

/-- The window of a kind that a packet of a known part opens. -/
private def opened (s : Settings τ) (p : Packet τ) (role : ExtRole) (e : ExtAdvertisement) :
    WindowKind → Option (Window τ)
  | .scan => if role == .auxAdvInd && e.ext.mode == .scannable then
      some ⟨e.ext.adi, p.frame.channel, p.stamped.time +
        scanSpan s p.frame.phy p.frame.body.length * TimeScale.micro⟩
      else none
  | .chain => e.ext.auxPtr.map fun a => ⟨e.ext.adi, UInt8.ofNat a.channel.toNat, p.stamped.time +
      (TimeScale.ofNat a.offsetMicros + s.chainMargin) * TimeScale.micro⟩

private theorem opened_eq_some {p : Packet τ} {role : ExtRole} {e : ExtAdvertisement}
    (haux : p.IsAuxiliary role e) (s : Settings τ) (k : WindowKind) (w : Window τ) :
    opened s p role e k = some w ↔ p.Opens s k w := by
  cases k with
  | scan =>
    constructor
    · intro h
      simp only [opened] at h
      split at h
      next hif =>
        rw [Bool.and_eq_true, beq_iff_eq, beq_iff_eq] at hif
        obtain ⟨rfl, hmode⟩ := hif
        exact ⟨e, haux, hmode, (Option.some.inj h).symm⟩
      next => exact absurd h (by simp)
    · intro h
      obtain ⟨e', haux', hmode, rfl⟩ := h
      obtain ⟨rfl, rfl⟩ := haux.unique haux'
      simp only [opened, hmode]
      rfl
  | chain =>
    constructor
    · intro h
      obtain ⟨a, ha, rfl⟩ := Option.map_eq_some_iff.mp h
      exact ⟨role, e, a, haux, ha, rfl⟩
    · intro h
      obtain ⟨role', e', a, haux', ha, rfl⟩ := h
      obtain ⟨rfl, rfl⟩ := haux.unique haux'
      simp only [opened, ha]
      rfl

namespace Decoded

variable {t t' : Tracker τ} {p : Packet τ} {role : ExtRole} {e : ExtAdvertisement}

/-- An auxiliary packet uses its window up, and then its own windows take the place of those that
are left. -/
theorem of_isAuxiliary (h : Decoded t p t') (haux : p.IsAuxiliary role e) :
    (t.classify p.stamped.time p.frame.channel e.ext.adi).1 = role ∧
      ∀ k, t'.window k =
        (opened t.settings p role e k).or (if role = k.answer then none else t.window k) := by
  cases h with
  | request r hpdu =>
    rw [haux.pdu] at hpdu
    simp at hpdu
  | auxiliary e' role' t₁ hclassify haux' =>
    obtain ⟨rfl, rfl⟩ := haux.unique haux'
    refine ⟨by rw [hclassify], ?_⟩
    intro k
    rw [expect_eq, classify_eq hclassify]
    cases k with
    | scan => rfl
    | chain =>
      show Option.or (Option.map _ (Option.map _ e.ext.auxPtr)) _ = _
      rw [Option.map_map]
      rfl
  | response hresponse hrequest hno => exact absurd haux (hno role e)
  | quiet hrequest hno => exact absurd haux (hno role e)

/-- Every other packet leaves the windows as they are. -/
theorem of_not_isAuxiliary (h : Decoded t p t') (hno : ∀ role e, ¬ p.IsAuxiliary role e)
    (k : WindowKind) : t'.window k = t.window k := by
  cases h with
  | request r =>
    rw [request_eq]
    cases k <;> rfl
  | auxiliary e role t₁ hclassify haux => exact absurd haux (hno role e)
  | response => cases k <;> rfl
  | quiet => rfl

/-- Which window is open after a packet. -/
theorem window_eq_some (h : Decoded (t.expire p.stamped.time) p t') (k : WindowKind)
    (w : Window τ) :
    t'.window k = some w ↔
      p.Opens t.settings k w ∨ (∀ w', ¬ p.Opens t.settings k w') ∧ t.window k = some w ∧
        (∀ e, ¬ p.IsAuxiliary k.answer e) ∧
        TimeScale.after p.stamped.time w.deadline = false := by
  by_cases hkind : ∃ role e, p.IsAuxiliary role e
  · obtain ⟨role, e, haux⟩ := hkind
    have hopened := opened_eq_some haux t.settings k
    have hwindow : t'.window k = (opened t.settings p role e k).or
        (if role = k.answer then none else (t.expire p.stamped.time).window k) :=
      (h.of_isAuxiliary haux).2 k
    rw [hwindow, haux.forall_not_iff]
    cases hopen : opened t.settings p role e k with
    | some v =>
      have hv := (hopened v).mp hopen
      rw [← hopened w, hopen, Option.some_or]
      exact ⟨.inl, fun h' => h'.elim id fun h' => absurd hv (h'.1 v)⟩
    | none =>
      have hno : ∀ w', ¬ p.Opens t.settings k w' := by
        intro w' hw'
        rw [(hopened w').mpr hw'] at hopen
        exact absurd hopen (by simp)
      rw [Option.none_or]
      by_cases hanswer : role = k.answer
      · simp [hanswer, hno]
      · simp [hanswer, hno, expire_window]
  · have hno : ∀ role e, ¬ p.IsAuxiliary role e := fun role e haux => hkind ⟨role, e, haux⟩
    rw [h.of_not_isAuxiliary hno, expire_window]
    simp [Packet.not_opens hno, hno]

end Decoded

end Tracker

/-! ## The run -/

/-- The tracker has those windows open that the history leaves open. -/
structure Mirrors (s : Settings τ) (t : Tracker τ) (ps : List (Packet τ)) : Prop where
  settings : t.settings = s
  window : ∀ k w, t.window k = some w ↔ Window.Outstanding s k ps w

namespace Mirrors

variable {s : Settings τ} {t t' : Tracker τ} {ps : List (Packet τ)} {p : Packet τ}

theorem start (s : Settings τ) : Mirrors s (.start s) [] where
  settings := rfl
  window k w := iff_of_false (by cases k <;> simp [Tracker.window, Tracker.start])
    Window.not_outstanding_nil

/-- What keeps the settings and the windows keeps the agreement. -/
theorem congr (h : Mirrors s t ps) (hsettings : t'.settings = t.settings)
    (hwindow : ∀ k, t'.window k = t.window k) : Mirrors s t' ps where
  settings := hsettings.trans h.settings
  window k w := by rw [hwindow k, h.window k w]

/-- One more packet keeps the agreement. -/
theorem snoc (h : Mirrors s t ps) (hsettings : t'.settings = t.settings)
    (hdecoded : Tracker.Decoded (t.expire p.stamped.time) p t') : Mirrors s t' (ps ++ [p]) where
  settings := hsettings.trans h.settings
  window k w := by
    rw [hdecoded.window_eq_some, Window.outstanding_snoc, h.window k w, h.settings]

/-- Giving a frame its time and its link leaves the windows alone. -/
theorem attach (h : Mirrors s t ps) (now : τ) (f : Frame) : Mirrors s (t.attach now f).2 ps := by
  rw [Tracker.attach_eq]
  exact h.congr rfl fun k => by cases k <;> rfl

/-- Every input but a reset keeps the agreement. -/
theorem feed (h : Mirrors s t ps) (i : Tracker.Input τ) (hreset : i ≠ .reset) :
    Mirrors s (t.feed i).2 (ps ++ (t.feed i).1.toList) := by
  cases i with
  | frame now f =>
    exact (h.attach now f).snoc (Tracker.decode_keeps _ _).2.2 ((t.attach now f).2.decoded _)
  | marker now k =>
    show Mirrors s (t.stamp now k).2 (ps ++ [])
    rw [List.append_nil]
    exact h.congr rfl fun k => by cases k <;> rfl
  | mode m =>
    show Mirrors s (t.report m) (ps ++ [])
    rw [List.append_nil, Tracker.report_eq]
    exact h.congr rfl fun k => by cases k <;> rfl
  | fixClock k epoch =>
    show Mirrors s (t.fixClock k epoch) (ps ++ [])
    rw [List.append_nil, Tracker.fixClock_eq]
    exact h.congr rfl fun k => by cases k <;> rfl
  | reset => exact absurd rfl hreset
  | nothing =>
    show Mirrors s t (ps ++ [])
    rw [List.append_nil]
    exact h

/-- Whether a window that is still open admits a packet shows from the history. -/
theorem admits_iff (h : Mirrors s t ps) (k : WindowKind) (p : Packet τ) (adi : Option Adi) :
    (∃ w, (t.expire p.stamped.time).window k = some w ∧
      w.admits p.stamped.time p.frame.channel adi = true) ↔ p.Awaited s k ps adi := by
  apply exists_congr
  intro w
  rw [Tracker.expire_window, Window.admits_iff, h.window k w]
  tauto

/-- The part of the next auxiliary packet shows from the history. -/
theorem role_iff (h : Mirrors s t ps) {role : ExtRole} {e : ExtAdvertisement}
    (hdecoded : Tracker.Decoded (t.expire p.stamped.time) p t') (haux : p.IsAuxiliary role e) :
    let scan := p.Awaited s .scan ps e.ext.adi
    let chain := p.Awaited s .chain ps e.ext.adi
    (role = .auxScanRsp ↔ scan) ∧ (role = .auxChainInd ↔ ¬ scan ∧ chain) ∧
      (role = .auxAdvInd ↔ ¬ scan ∧ ¬ chain) := by
  have hclassify := (hdecoded.of_isAuxiliary haux).1
  have hrole := (t.expire p.stamped.time).classify_role p.stamped.time p.frame.channel e.ext.adi
  rw [hclassify] at hrole
  simp only [h.admits_iff] at hrole
  exact hrole

end Mirrors

namespace Log

open Session (Step)

/-- The windows agree with the history after every run. -/
theorem mirrors_run (s : Settings τ) (xs : List (Step τ)) :
    Mirrors s ((start s).run xs).tracker ((start s).run xs).packets := by
  apply invariant (Mirrors s)
  · intro t ps h
    rw [h.settings]
    exact Mirrors.start s
  · intro t ps i hreset h
    exact h.feed i hreset
  · exact Mirrors.start s

/-- The part that an auxiliary packet takes, in every run of a session: it is a scan response
exactly if the newest scannable advertisement since the last reset still awaits it, else the next of
a chain exactly if the newest pointer still awaits it, and else an advertisement. -/
theorem role_iff_newest_opening (s : Settings τ) (xs : List (Step τ)) (x : Step τ) {p : Packet τ}
    {role : ExtRole} {e : ExtAdvertisement}
    (hp : (((start s).run xs).session.step x).1 = some p) (haux : p.IsAuxiliary role e) :
    let ps := ((start s).run xs).packets
    let scan := p.Awaited s .scan ps e.ext.adi
    let chain := p.Awaited s .chain ps e.ext.adi
    (role = .auxScanRsp ↔ scan) ∧ (role = .auxChainInd ↔ ¬ scan ∧ chain) ∧
      (role = .auxAdvInd ↔ ¬ scan ∧ ¬ chain) := by
  rw [Session.step_packet] at hp
  cases hx : x.input with
  | frame now f =>
    rw [hx] at hp
    obtain rfl := Option.some.inj hp
    exact ((mirrors_run s xs).attach now f).role_iff (Tracker.decoded _ _) haux
  | _ =>
    rw [hx] at hp
    exact absurd hp (by simp [Tracker.feed])

/-- A frame of the advertising family on channel 5. -/
def auxiliaryFrame (tick : UInt32) (body : Octets) : Frame :=
  ⟨tick, .centralToPeripheral, false, 0, 0, 5, .le1M, body, none, some advertisingAddress⟩

/-- Half a millisecond after a scannable advertisement a packet of type 7 is a scan response. -/
theorem role_iff_newest_opening_after_scannable :
    let l := (start (Settings.standard : Settings ℚ)).run
      [.frame 0 (auxiliaryFrame 0 [7, 1, 0x80])]
    ∃ p e, (l.session.step (.frame 0 (auxiliaryFrame 500 [7, 1, 0]))).1 = some p ∧
      p.IsAuxiliary .auxScanRsp e ∧ p.Awaited .standard .scan l.packets e.ext.adi := by
  intro l
  have haux : (l.tracker.receive 0 (auxiliaryFrame 500 [7, 1, 0])).1.IsAuxiliary .auxScanRsp
      ⟨.ofOctets 7 1, .empty .plain, []⟩ := ⟨by decide, by decide +kernel, by decide⟩
  have hroles := role_iff_newest_opening .standard _
    (.frame 0 (auxiliaryFrame 500 [7, 1, 0])) rfl haux
  exact ⟨_, _, rfl, haux, hroles.1.mp rfl⟩

end Log

end AirTrace

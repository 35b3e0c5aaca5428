import AirTrace.Proofs.Decoding
import AirTrace.Proofs.Replays

/-!
# Decoding looks at time differences only

What a packet decodes to depends on its access address, its channel, its physical layer, its body
and, through the windows, on how long after other packets it comes.  It does not depend on the link,
the mode, the clock, or on when the clock was fixed.

`Tracker.Later` relates two trackers whose windows differ by one amount of time and which may differ
in all else.  Every operation on windows keeps it (`expire`, `classify`, `expect`), so decoding does
(`Tracker.Later.decode`), and two sequences of packets that differ by that amount decode alike
(`Tracker.Later.pdus`).  `Tracker.pdus` is the decoder alone: what a session or a replay decodes is
what it makes of their packets, whatever else happened between them.
-/

namespace AirTrace

/-! ## Windows -/

namespace Window

/-- The window that is open by so much longer. -/
def later (d : ℚ) (w : Window ℚ) : Window ℚ := { w with deadline := w.deadline + d }

theorem isStale_later (d : ℚ) (w : Window ℚ) (now : ℚ) :
    (w.later d).isStale (now + d) = w.isStale now := by
  show decide (w.deadline + d < now + d) = decide (w.deadline < now)
  exact decide_eq_decide.mpr (add_lt_add_iff_right d)

theorem admits_later (d : ℚ) (w : Window ℚ) (time : ℚ) (channel : Channel) (adi : Option Adi) :
    (w.later d).admits (time + d) channel adi = w.admits time channel adi := by
  unfold admits
  rw [isStale_later]
  rfl

theorem filter_map_later (d : ℚ) (w : Option (Window ℚ)) (now : ℚ) :
    (w.map (later d)).filter (fun w => !w.isStale (now + d)) =
      (w.filter fun w => !w.isStale now).map (later d) := by
  cases w with
  | none => rfl
  | some w =>
    rw [Option.map_some, Option.filter_some, Option.filter_some, isStale_later]
    cases w.isStale now <;> rfl

theorem any_map_later (d : ℚ) (w : Option (Window ℚ)) (time : ℚ) (channel : Channel)
    (adi : Option Adi) :
    (w.map (later d)).any (·.admits (time + d) channel adi) =
      w.any (·.admits time channel adi) := by
  cases w with
  | none => rfl
  | some w => exact admits_later d w time channel adi

end Window

/-! ## One packet -/

/-- The same packet on the same link, later by so much.  All that decoding does not read may
differ. -/
structure StampedFrame.Later (d : ℚ) (f f' : StampedFrame ℚ) : Prop where
  time : f'.time = f.time + d
  accessAddress : f'.accessAddress = f.accessAddress
  channel : f'.frame.channel = f.frame.channel
  phy : f'.frame.phy = f.frame.phy
  body : f'.frame.body = f.frame.body

theorem StampedFrame.Later.refl (f : StampedFrame ℚ) : StampedFrame.Later 0 f f :=
  ⟨(add_zero _).symm, rfl, rfl, rfl, rfl⟩

namespace Tracker

/-- The second tracker expects what the first one does, later by so much.  The trackers may know
different links, modes and clocks. -/
structure Later (d : ℚ) (t t' : Tracker ℚ) : Prop where
  settings : t'.settings = t.settings
  scan : t'.scanWindow = t.scanWindow.map (Window.later d)
  chain : t'.chainWindow = t.chainWindow.map (Window.later d)

namespace Later

variable {d : ℚ} {t t' : Tracker ℚ}

/-- Trackers with the same windows expect the same at the same time. -/
theorem of_eq (hsettings : t'.settings = t.settings) (hscan : t'.scanWindow = t.scanWindow)
    (hchain : t'.chainWindow = t.chainWindow) : Later 0 t t' := by
  have hsame : Window.later 0 = id := by
    funext w
    unfold Window.later
    rw [add_zero]
    rfl
  refine ⟨hsettings, ?_, ?_⟩
  · rw [hsame, Option.map_id, hscan, id]
  · rw [hsame, Option.map_id, hchain, id]

theorem start (d : ℚ) (s : Settings ℚ) : Later d (.start s) (.start s) := ⟨rfl, rfl, rfl⟩

theorem expire (h : Later d t t') (now : ℚ) : Later d (t.expire now) (t'.expire (now + d)) := by
  refine ⟨h.settings, ?_, ?_⟩
  · show t'.scanWindow.filter _ = _
    rw [h.scan, Window.filter_map_later]
    rfl
  · show t'.chainWindow.filter _ = _
    rw [h.chain, Window.filter_map_later]
    rfl

theorem classify (h : Later d t t') (time : ℚ) (channel : Channel) (adi : Option Adi) :
    (t'.classify (time + d) channel adi).1 = (t.classify time channel adi).1 ∧
      Later d (t.classify time channel adi).2 (t'.classify (time + d) channel adi).2 := by
  have hscan : t'.scanWindow.any (·.admits (time + d) channel adi) =
      t.scanWindow.any (·.admits time channel adi) := by
    rw [h.scan, Window.any_map_later]
  have hchain : t'.chainWindow.any (·.admits (time + d) channel adi) =
      t.chainWindow.any (·.admits time channel adi) := by
    rw [h.chain, Window.any_map_later]
  unfold Tracker.classify
  rw [hscan, hchain]
  split
  · exact ⟨rfl, h.settings, rfl, h.chain⟩
  · split
    · exact ⟨rfl, h.settings, h.scan, rfl⟩
    · exact ⟨rfl, h⟩

theorem expect (h : Later d t t') (time : ℚ) (channel : Channel) (phy : Phy) (bodyLength : Nat)
    (adi : Option Adi) (scannable : Bool) (pointer : Option (Channel × Nat)) :
    Later d (t.expect time channel phy bodyLength adi scannable pointer)
      (t'.expect (time + d) channel phy bodyLength adi scannable pointer) := by
  have hdeadline : ∀ span : ℚ, time + d + span = time + span + d := fun span => by ring
  rw [expect_eq, expect_eq, h.settings]
  refine ⟨rfl, ?_, ?_⟩
  · cases scannable with
    | false => exact h.scan
    | true => simp [Window.later, hdeadline]
  · cases pointer with
    | none => exact h.chain
    | some a => simp [Window.later, hdeadline]

/-- What a packet tells of the link does not matter to the windows. -/
theorem observe (h : Later d t t') {f f' : StampedFrame ℚ} (hf : StampedFrame.Later d f f')
    (p : Pdu) : (t'.observe f' p).1 = (t.observe f p).1 ∧
      Later d (t.observe f p).2 (t'.observe f' p).2 := by
  cases p with
  | connectRequest tier r =>
    refine ⟨rfl, ?_⟩
    show Later d (t.request r.parameters.context tier) (t'.request r.parameters.context tier)
    rw [request_eq, request_eq]
    exact ⟨h.settings, h.scan, h.chain⟩
  | extended role e =>
    cases role with
    | auxAdvInd =>
      have hclassify := h.classify f.time f.frame.channel e.ext.adi
      unfold Tracker.observe
      rw [hf.time, hf.channel, hf.phy, hf.body]
      cases hrole : t.classify f.time f.frame.channel e.ext.adi with
      | mk role u =>
        cases hrole' : t'.classify (f.time + d) f.frame.channel e.ext.adi with
        | mk role' u' =>
          rw [hrole, hrole'] at hclassify
          obtain ⟨rfl, hnext⟩ := hclassify
          dsimp only
          rw [hrole, hrole']
          exact ⟨rfl, hnext.expect _ _ _ _ _ _ _⟩
    | _ => exact ⟨rfl, h⟩
  | _ => exact ⟨rfl, h⟩

theorem decode (h : Later d t t') {f f' : StampedFrame ℚ} (hf : StampedFrame.Later d f f') :
    (t'.decode f').1.pdu = (t.decode f).1.pdu ∧ Later d (t.decode f).2 (t'.decode f').2 := by
  have hexpired := h.expire f.time
  rw [← hf.time] at hexpired
  show ((t'.expire f'.time).decodeBody f').1 = ((t.expire f.time).decodeBody f).1 ∧
    Later d ((t.expire f.time).decodeBody f).2 ((t'.expire f'.time).decodeBody f').2
  unfold decodeBody
  simp only [hf.accessAddress, hf.channel, hf.body]
  -- An answer to a connection request changes the link alone.
  have hheard : Later d
      (if answersRequest (Family.ofAddress f.accessAddress) f.frame.channel.tier f.frame.body then
        (t.expire f.time).confirm else t.expire f.time)
      (if answersRequest (Family.ofAddress f.accessAddress) f.frame.channel.tier f.frame.body then
        (t'.expire f'.time).confirm else t'.expire f'.time) := by
    split
    · exact ⟨hexpired.settings, hexpired.scan, hexpired.chain⟩
    · exact hexpired
  cases Pdu.ofBody (Family.ofAddress f.accessAddress) f.frame.channel.tier f.frame.body with
  | error e => exact ⟨rfl, hheard⟩
  | ok p =>
    obtain ⟨hpdu, hnext⟩ := hheard.observe hf p
    exact ⟨congrArg Except.ok hpdu, hnext⟩

end Later

/-! ## A sequence of packets -/

/-- What packets with their times and links decode to, one after the other. -/
def pdus {τ : Type} [TimeScale τ] : Tracker τ → List (StampedFrame τ) →
    List (Except DecodeError Pdu)
  | _, [] => []
  | t, f :: rest => (t.decode f).1.pdu :: (t.decode f).2.pdus rest

/-- Packets that all come later by the same time decode to the same. -/
theorem Later.pdus {d : ℚ} {t t' : Tracker ℚ} (h : Later d t t') {fs fs' : List (StampedFrame ℚ)}
    (hfs : List.Forall₂ (StampedFrame.Later d) fs fs') : t'.pdus fs' = t.pdus fs := by
  induction hfs generalizing t t' with
  | nil => rfl
  | cons hf _ ih =>
    obtain ⟨hpdu, hnext⟩ := h.decode hf
    rw [Tracker.pdus, Tracker.pdus, hpdu, ih hnext]

/-- A tracker that has the same windows decodes packets to the same. -/
theorem pdus_congr {t t' : Tracker ℚ} (h : Later 0 t t') (fs : List (StampedFrame ℚ)) :
    t'.pdus fs = t.pdus fs :=
  h.pdus (List.forall₂_same.mpr fun f _ => StampedFrame.Later.refl f)

/-- Receiving a frame is decoding it in a tracker with the same windows. -/
theorem pdus_receive (t : Tracker ℚ) (now : ℚ) (f : Frame) (fs : List (StampedFrame ℚ)) :
    t.pdus ((t.receive now f).1.stamped :: fs) =
      (t.receive now f).1.pdu :: (t.receive now f).2.pdus fs := by
  have hattach : Later 0 t (t.attach now f).2 := by
    rw [attach_eq]
    exact .of_eq rfl rfl rfl
  exact (pdus_congr hattach _).symm

/-- An input without a packet leaves the windows as they are, unless it is a reset. -/
theorem feed_later {t : Tracker ℚ} {i : Input ℚ} (hreset : i ≠ .reset)
    (hpacket : (t.feed i).1 = none) : Later 0 t (t.feed i).2 := by
  cases i with
  | frame now f => exact absurd hpacket (by simp [feed])
  | reset => exact absurd rfl hreset
  | marker now k => exact .of_eq rfl rfl rfl
  | nothing => exact .of_eq rfl rfl rfl
  | mode m =>
    show Later 0 t (t.report m)
    rw [report_eq]
    exact .of_eq rfl rfl rfl
  | fixClock k epoch =>
    show Later 0 t (t.fixClock k epoch)
    rw [fixClock_eq]
    exact .of_eq rfl rfl rfl

theorem pdus_replayAll (t : Tracker ℚ) (rs : List Capture.Record) :
    (t.replayAll rs).map Packet.pdu = t.pdus ((t.replayAll rs).map Packet.stamped) := by
  induction rs generalizing t with
  | nil => rfl
  | cons r rs ih =>
    have hfixed : Later 0 t (t.fixClock r.frame.tick r.time) := by
      rw [fixClock_eq]
      exact .of_eq rfl rfl rfl
    rw [replayAll, List.map_cons, List.map_cons, ← pdus_congr hfixed, replay, pdus_receive, ih]

end Tracker

namespace Log

open Session (Step)

/-- What a session decodes its packets to is what the decoder makes of them alone: messages of other
kinds, and what they change, do not matter. -/
theorem pdus_run {l : Log ℚ} {xs : List (Step ℚ)} (hreset : .reset ∉ xs) :
    ∃ ps, (l.run xs).packets = l.packets ++ ps ∧
      ps.map Packet.pdu = l.tracker.pdus (ps.map Packet.stamped) := by
  induction xs generalizing l with
  | nil => exact ⟨[], (List.append_nil _).symm, rfl⟩
  | cons x xs ih =>
    have hx : x ≠ .reset := fun h => hreset (h ▸ List.mem_cons_self)
    have hinput : x.input ≠ .reset := mt Step.input_eq_reset.mp hx
    obtain ⟨ps, hpackets, hpdus⟩ := ih (l := l.step x) fun h => hreset (List.mem_cons_of_mem x h)
    rw [step_packets l hx] at hpackets
    rw [step_tracker] at hpdus
    refine ⟨(l.tracker.feed x.input).1.toList ++ ps, ?_, ?_⟩
    · rw [run_cons, hpackets, List.append_assoc]
    · cases hp : (l.tracker.feed x.input).1 with
      | none =>
        rw [Option.toList_none, List.nil_append, hpdus]
        exact Tracker.pdus_congr (Tracker.feed_later hinput hp) _
      | some p =>
        obtain ⟨now, f, hframe, rfl⟩ := Tracker.feed_packet hp
        rw [hframe] at hpdus
        rw [Option.toList_some, List.singleton_append, List.map_cons, List.map_cons,
          Tracker.pdus_receive, hpdus]
        rfl

end Log

end AirTrace

import AirTrace.Proofs.Replays
import AirTrace.Proofs.Verdicts

/-!
# Rewriting a file twice

A replay drops what it cannot read and writes the rest anew, in its own form.
`Replay.rewriting_idempotent` says that this form is reached at once: replaying the file that a
replay wrote writes that file again, octet for octet.

There are three groups.

* The record.  A packet that has all that its record tells of it is written as the same record
  (`Packet.toCapture_captureRecord`).
* The tracker.  Decoding reads the time, the link, the channel, the physical layer and the body of a
  frame, and a record has all of them.  So a tracker that takes the record of a packet for the
  packet's own frame ends where it did (`Tracker.receive_captureRecord`).
* The run.  The second replay passes through the trackers of the first.
-/

namespace AirTrace

open Capture (Record)

variable {τ : Type} [TimeScale τ]

/-! ## The record of a record -/

namespace Packet

variable {p q : Packet τ} {m : ℕ}

omit [TimeScale τ] in
/-- The check of a record is the one that its packet was sent with, so it is sent again. -/
theorem wireCrc_captureRecord (hframe : q.frame = (p.captureRecord m).frame)
    (hseed : q.seed = p.seed) : q.wireCrc = p.wireCrc := by
  have hcrc : q.frame.crc = p.wireCrc := by
    rw [hframe]
    rfl
  cases hwire : p.wireCrc with
  | some c =>
    unfold wireCrc
    rw [hcrc, hwire]
  | none =>
    have hunknown : p.seed = none := by
      unfold wireCrc at hwire
      split at hwire
      · exact absurd hwire (by simp)
      · exact Option.map_eq_none_iff.mp hwire
    unfold wireCrc
    rw [hcrc, hwire, hseed, hunknown]
    rfl

omit [TimeScale τ] in
/-- The direction of a record is the one that its packet's class tells, so it is of that class. -/
theorem captureClass_captureRecord (hframe : q.frame = (p.captureRecord m).frame)
    (haddress : q.stamped.accessAddress = p.stamped.accessAddress) :
    q.captureClass = p.captureClass := by
  have hchannel : q.frame.channel = p.frame.channel := by
    rw [hframe]
    rfl
  have hdirection : q.frame.direction = if p.captureClass = .dataToCentral then
      .peripheralToCentral else .centralToPeripheral := by
    rw [hframe]
    rfl
  unfold captureClass at hdirection ⊢
  rw [haddress, hchannel, hdirection]
  cases Family.ofAddress p.stamped.accessAddress <;> cases p.frame.channel.tier <;>
    cases p.frame.direction <;> rfl

/-- A packet that was made of the record of another, and that was decoded as the other was, has the
same record. -/
theorem toCapture_captureRecord (hframe : q.frame = (p.captureRecord m).frame)
    (htime : q.stamped.epochTime = p.stamped.epochTime)
    (haddress : q.stamped.accessAddress = p.stamped.accessAddress) (hpdu : q.pdu = p.pdu)
    (hseed : q.seed = p.seed) (hok : q.crcOk = p.crcOk) : q.toCapture = p.toCapture := by
  have hclass := captureClass_captureRecord hframe haddress
  have hwire := wireCrc_captureRecord hframe hseed
  have hparts : q.frame.channel = p.frame.channel ∧ q.frame.rssi = p.frame.rssi ∧
      q.frame.phy = p.frame.phy ∧ q.frame.body = p.frame.body := by
    rw [hframe]
    exact ⟨rfl, rfl, rfl, rfl⟩
  obtain ⟨hchannel, hrssi, hphy, hbody⟩ := hparts
  have hflags : q.captureFlags = p.captureFlags := by
    unfold captureFlags auxiliaryType
    rw [hwire, hok, hclass, hpdu, hphy]
  unfold toCapture captureMicros captureContent
  rw [htime, hchannel, hrssi, haddress, hflags, hphy, hbody, hwire]

end Packet

/-! ## The tracker -/

namespace Tracker

/-- Decoding a body reads nothing of the frame but its channel, its physical layer and its body. -/
theorem decodeBody_frame (t : Tracker τ) (f : StampedFrame τ) {g : Frame}
    (hchannel : g.channel = f.frame.channel) (hphy : g.phy = f.frame.phy)
    (hbody : g.body = f.frame.body) :
    t.decodeBody { f with frame := g } = t.decodeBody f := by
  unfold decodeBody observe
  simp only [hchannel, hphy, hbody]

/-- Decoding the record of a packet as a frame of the same time and link does what decoding the
packet's own frame did. -/
theorem decode_captureRecord (t : Tracker τ) (f : StampedFrame τ)
    (herror : f.frame.crc = none → f.frame.crcError = false) (m : ℕ) :
    let p := (t.decode f).1
    (t.decode { f with frame := (p.captureRecord m).frame }).2 = (t.decode f).2 ∧
      (t.decode { f with frame := (p.captureRecord m).frame }).1.toCapture = p.toCapture := by
  intro p
  have hbody := (t.expire f.time).decodeBody_frame f (g := (p.captureRecord m).frame) rfl rfl rfl
  have hpdu : (t.decode { f with frame := (p.captureRecord m).frame }).1.pdu = p.pdu :=
    congrArg Prod.fst hbody
  have hjudged : p.Judged := t.decode_judged f
  have hok : (t.decode { f with frame := (p.captureRecord m).frame }).1.crcOk = p.crcOk := by
    refine (t.decode_crcOk _).trans ((Packet.verdict_captureRecord hjudged m).trans ?_)
    cases hcrc : p.frame.crc with
    | some c => exact Bool.or_false _
    | none =>
      -- Nobody has found a packet damaged that has no check.
      have hundamaged : p.crcOk = true := by
        rw [hjudged, Frame.verdict_of_crc_eq_none hcrc,
          show p.frame.crcError = false from herror hcrc]
        rfl
      rw [hundamaged]
      rfl
  have hnext : (t.decode { f with frame := (p.captureRecord m).frame }).2 = (t.decode f).2 := by
    show ((t.expire f.time).decodeBody _).2 = _
    rw [hbody]
    rfl
  exact ⟨hnext, Packet.toCapture_captureRecord rfl rfl rfl hpdu rfl hok⟩

/-- A tracker with a fixed clock takes the record of a packet as it took the packet's frame, and
writes the same record for it. -/
theorem receive_captureRecord {t : Tracker τ} {c : Clock τ} (hclock : t.clock = some c)
    (now now' : τ) {f : Frame} (herror : f.crc = none → f.crcError = false) {m : ℕ}
    (htick : UInt32.ofNat m = f.tick) :
    let p := (t.receive now f).1
    (t.receive now' (p.captureRecord m).frame).2 = (t.receive now f).2 ∧
      (t.receive now' (p.captureRecord m).frame).1.toCapture = p.toCapture := by
  intro p
  have hattach : t.attach now' (p.captureRecord m).frame =
      ({ (t.attach now f).1 with frame := (p.captureRecord m).frame }, (t.attach now f).2) := by
    have hstamp : t.stamp now' (UInt32.ofNat m) = t.stamp now f.tick := by
      unfold stamp
      rw [hclock, htick]
      rfl
    unfold attach
    simp only [Packet.captureRecord, hstamp]
    rfl
  unfold receive
  rw [hattach]
  exact (t.attach now f).2.decode_captureRecord _ herror m

/-! ## The run -/

variable {s : Settings ℚ} {epoch : ℚ} {now : ℤ} {t : Tracker ℚ}

/-- The record that a replay writes for a record has the same tick, so the tracker takes it as it
took the other. -/
theorem TellsMicros.replay_writtenRecord (h : TellsMicros s epoch now t)
    (hrate : s.tickRate = 1000000) (hnow : now < 2 ^ 53) {r : Record} (hsound : r.Sound)
    (hlow : 0 ≤ (t.replay r).1.stamped.epochTime)
    (hhigh : (t.replay r).1.stamped.epochTime < 2 ^ 32) :
    (∃ now' < 2 ^ 53, TellsMicros s epoch now' (t.replay r).2) ∧
      (t.replay (t.replay r).1.writtenRecord).2 = (t.replay r).2 ∧
      (t.replay (t.replay r).1.writtenRecord).1.toCapture = (t.replay r).1.toCapture := by
  obtain ⟨w, htick, _, htime, _, hnext⟩ := h.replay hrate (by omega) r
  rw [htime] at hlow hhigh
  obtain ⟨hnonneg, hfits⟩ := micros_range hlow hhigh
  have hwritten := Packet.writtenMicros_eq htime hnonneg hfits
  have hsame : UInt32.ofNat (t.replay r).1.writtenMicros = r.frame.tick := by
    rw [← UInt32.toNat_inj, UInt32.toNat_ofNat']
    omega
  obtain ⟨_, c, hclock, _⟩ := h
  refine ⟨⟨_, by omega, hnext⟩, ?_⟩
  simp only [replay_of_clock hclock] at hsame ⊢
  exact receive_captureRecord hclock _ _ hsound.crcError hsame

/-- Replaying the records that a replay wrote writes them again. -/
theorem TellsMicros.replayAll_writtenRecords (h : TellsMicros s epoch now t)
    (hrate : s.tickRate = 1000000) (hnow : now < 2 ^ 53) {rs : List Record}
    (hsound : ∀ r ∈ rs, r.Sound)
    (htimes : ∀ p ∈ t.replayAll rs, 0 ≤ p.stamped.epochTime ∧ p.stamped.epochTime < 2 ^ 32) :
    (t.replayAll ((t.replayAll rs).map Packet.writtenRecord)).map Packet.toCapture =
      (t.replayAll rs).map Packet.toCapture := by
  induction rs generalizing t now with
  | nil => rfl
  | cons r rs ih =>
    obtain ⟨hlow, hhigh⟩ := htimes _ List.mem_cons_self
    obtain ⟨⟨now', hnow', hnext⟩, hagain, hsame⟩ :=
      h.replay_writtenRecord hrate hnow (hsound r List.mem_cons_self) hlow hhigh
    have hrest := ih hnext hnow' (fun q hq => hsound q (List.mem_cons_of_mem r hq))
      fun p hp => htimes p (List.mem_cons_of_mem _ hp)
    rw [replayAll, List.map_cons, replayAll, List.map_cons, List.map_cons, hagain, hsame, hrest]

/-- The first record fixes the clock for both replays alike, as it keeps its time. -/
theorem start_replayAll_writtenRecords (hrate : s.tickRate = 1000000) {rs : List Record}
    (hsound : ∀ r ∈ rs, r.Sound)
    (htimes : ∀ p ∈ (start s).replayAll rs,
      0 ≤ p.stamped.epochTime ∧ p.stamped.epochTime < 2 ^ 32) :
    ((start s).replayAll (((start s).replayAll rs).map Packet.writtenRecord)).map
        Packet.toCapture = ((start s).replayAll rs).map Packet.toCapture := by
  cases rs with
  | nil => rfl
  | cons r rs =>
    have hfirst := hsound r List.mem_cons_self
    have hmicros := hfirst.micros
    have hstart := TellsMicros.of_fixClock (t := .start s) hrate rfl rfl hfirst.tick
    have hrest := hstart.replayAll_writtenRecords hrate (by omega) hsound
    rw [replayAll_fixClock] at hrest
    -- Both replays fix the clock to the same record.
    have htime := start_replay_epochTime hrate hfirst
    obtain ⟨hlow, hhigh⟩ := htimes _ List.mem_cons_self
    rw [htime] at hlow hhigh
    obtain ⟨hnonneg, hfits⟩ := micros_range hlow hhigh
    have hwritten : ((start s).replay r).1.writtenMicros = r.micros := by
      have := Packet.writtenMicros_eq htime hnonneg hfits
      omega
    have hsame : (start s).fixClock r.frame.tick r.time =
        (start s).fixClock ((start s).replay r).1.writtenRecord.frame.tick
          ((start s).replay r).1.writtenRecord.time := by
      unfold Packet.writtenRecord
      rw [hwritten, hfirst.tick]
      rfl
    rw [← hrest htimes, hsame, replayAll, List.map_cons, replayAll_fixClock]

end Tracker

namespace Replay

/-- A replay writes its own form of a file, and a replay of that form leaves it as it is: whatever
the records of the file, malformed, cut off or out of order, and whatever the tolerances, if no time
that is written is negative or does not fit the seconds of a record. -/
theorem rewriting_idempotent (s : Settings ℚ) (hrate : s.tickRate = 1000000) {file rest : Octets}
    (hheader : Capture.ofHeader file = .ok rest) :
    ∃ r, ofFile s file = .ok r ∧
      ((∀ p ∈ r.packets, 0 ≤ p.stamped.epochTime ∧ p.stamped.epochTime < 2 ^ 32) →
        ∃ r', ofFile s r.toCapture = .ok r' ∧ r'.toCapture = r.toCapture) := by
  obtain ⟨r, hr, hpackets⟩ := ofFile_eq_ok s (Capture.ofFile_of_ofHeader hheader)
  have hsound : ∀ q ∈ (Capture.records rest).filterMap Except.toOption, q.Sound := by
    intro q hq
    obtain ⟨x, hx, hxq⟩ := List.mem_filterMap.mp hq
    cases x with
    | error e => cases hxq
    | ok q' =>
      obtain rfl := Option.some.inj hxq
      exact Capture.sound_of_mem_records hx
  refine ⟨r, hr, fun htimes => ?_⟩
  have hfits := Tracker.fits_replayAll (.start s) hsound
  rw [hpackets] at htimes
  have hsame := Tracker.start_replayAll_writtenRecords hrate hsound htimes
  obtain ⟨r', hr', hpackets'⟩ := ofFile_map_ok s (Capture.ofFile_ofPackets_map hfits)
  refine ⟨r', ?_, ?_⟩
  · unfold toCapture
    rw [hpackets, hr']
  · rw [toCapture_eq, toCapture_eq]
    unfold toRecords
    rw [List.flatMap_def, List.flatMap_def, hpackets', hpackets, hsame]

/-- A file with an advertisement whose microseconds overflow and whose flags claim nothing, a record
without content, a coded record that is older by more than the tolerance, and the start of a
header. -/
def untidyFile : Octets :=
  Capture.header ++
    [2, 0, 0, 0, 0x80, 0x84, 0x1E, 0, 19, 0, 0, 0, 99, 0, 0, 0,
      0, 0xD0, 7, 7, 7, 7, 7, 7, 0, 0, 0xD6, 0xBE, 0x89, 0x8E, 6, 0, 1, 2, 3] ++
    List.replicate 16 0 ++
    [1, 0, 0, 0, 5, 0, 0, 0, 20, 0, 0, 0, 0, 0, 0, 0,
      9, 0xC4, 0, 0, 0, 0, 0, 0, 0, 0x84, 1, 2, 3, 4, 9, 1, 0, 4, 5, 6] ++
    [1, 2, 3, 4, 5]

/-- It is rewritten to another file, of two records, and that to itself. -/
theorem rewriting_idempotent_untidyFile :
    ∃ r r' : Replay ℚ, ofFile .standard untidyFile = .ok r ∧ r.packets.length = 2 ∧
      r.toCapture ≠ untidyFile ∧ ofFile .standard r.toCapture = .ok r' ∧
      r'.toCapture = r.toCapture := by
  have hheader : Capture.ofHeader untidyFile = .ok (untidyFile.drop 24) := by decide +kernel
  obtain ⟨r, hr, hagain⟩ := rewriting_idempotent .standard rfl hheader
  have hpackets : r.packets = (Tracker.start .standard).replayAll
      ((Capture.records (untidyFile.drop 24)).filterMap Except.toOption) := by
    obtain ⟨r₁, hr₁, hpackets⟩ :=
      ofFile_eq_ok (.standard : Settings ℚ) (Capture.ofFile_of_ofHeader hheader)
    rw [Except.ok.inj (hr.symm.trans hr₁), hpackets]
  obtain ⟨r', hr', hsame⟩ := hagain (by
    rw [hpackets]
    decide +kernel)
  refine ⟨r, r', hr, ?_, ?_, hr', hsame⟩
  · rw [hpackets]
    decide +kernel
  · unfold toCapture
    rw [hpackets]
    decide +kernel

end Replay

end AirTrace

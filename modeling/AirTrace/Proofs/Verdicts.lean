import AirTrace.Proofs.Captures
import AirTrace.Proofs.OnAir
import AirTrace.Proofs.Run

/-!
# Which verdicts a capture file keeps

A packet counts as damaged by its check, if one was received and the seed of its link is known, and
otherwise by what the receiver said.  `Frame.verdict` is this rule, and every packet of a session is
judged by it (`Session.step_judged`).

The rule is applied once more when the record of a packet is decoded.  The writer fills in a check
that was not received, and such a check is always right; so a record keeps the verdict of every
packet whose check was received, and clears every other (`Packet.verdict_captureRecord`).  What is
lost is the word of a receiver that found a packet damaged and delivered no check:
`Log.verdict_read_back`.
-/

namespace AirTrace

variable {τ : Type} [TimeScale τ]

/-! ## The verdict on a frame -/

/-- Whether a frame counts as undamaged to a tracker that has a seed for its check, or none. -/
def Frame.verdict (seed : Option Crc.Register) (f : Frame) : Bool :=
  match f.crc, seed with
  | some c, some s => Tracker.checks s f.body c
  | _, _ => !f.crcError

-- The receiver has the word if there is no check, and if there is no seed to compare it with.
theorem Frame.verdict_of_crc_eq_none {f : Frame} (h : f.crc = none)
    (seed : Option Crc.Register) : f.verdict seed = !f.crcError := by
  unfold verdict
  rw [h]

theorem Frame.verdict_none (f : Frame) : f.verdict none = !f.crcError := by
  unfold verdict
  split
  · next h => exact absurd h (by simp)
  · rfl

omit [TimeScale τ] in
/-- The packet's verdict is that on its frame, by the seed of its link. -/
def Packet.Judged (p : Packet τ) : Prop := p.crcOk = p.frame.verdict p.seed

/-- A decoded frame is judged by the seed that the tracker knows for its link. -/
theorem Tracker.decode_crcOk (t : Tracker τ) (f : StampedFrame τ) :
    (t.decode f).1.crcOk = f.frame.verdict (t.link.seedFor? f.accessAddress) := by
  have hlink : (t.expire f.time).link = t.link := rfl
  simp only [decode, Packet.crcOk, Packet.frame, Frame.verdict, hlink]
  cases f.frame.crc with
  | none => rfl
  | some c => cases t.link.seedFor? f.accessAddress <;> rfl

theorem Tracker.decode_judged (t : Tracker τ) (f : StampedFrame τ) : (t.decode f).1.Judged :=
  t.decode_crcOk f

/-- Every packet of a session is judged by the rule. -/
theorem Session.step_judged {s : Session τ} {x : Step τ} {p : Packet τ}
    (hp : (s.step x).1 = some p) : p.Judged := by
  rw [step_packet] at hp
  obtain ⟨now, f, _, rfl⟩ := Tracker.feed_packet hp
  exact (s.tracker.attach now f).2.decode_judged _

/-! ## The verdict on a record -/

omit [TimeScale τ] in
/-- A record keeps the verdict of a packet whose check was received, and clears every other. -/
theorem Packet.verdict_captureRecord {p : Packet τ} (h : p.Judged) (micros : Nat) :
    (p.captureRecord micros).frame.verdict p.seed = (p.crcOk || p.frame.crc.isNone) := by
  have hwire : (p.captureRecord micros).frame.crc = p.wireCrc := rfl
  have herror : (p.captureRecord micros).frame.crcError = (p.wireCrc.isSome && !p.crcOk) := rfl
  have hbody : (p.captureRecord micros).frame.body = p.frame.body := rfl
  unfold Judged at h
  cases hcrc : p.frame.crc with
  | some c =>
    have hwritten : p.wireCrc = some c := by
      unfold wireCrc
      rw [hcrc]
    rw [Option.isNone_some, Bool.or_false]
    cases hseed : p.seed with
    | some seed =>
      -- The same check is compared with the same seed.
      rw [h, hseed]
      simp only [Frame.verdict, hwire, hwritten, hcrc, hbody]
    | none =>
      -- The record's flag is the verdict itself.
      rw [Frame.verdict_none, herror, hwritten, Option.isSome_some, Bool.true_and, Bool.not_not]
  | none =>
    rw [Option.isNone_none, Bool.or_true]
    cases hseed : p.seed with
    | some seed =>
      -- The writer has filled in a check, and it is right whatever the receiver said.
      have hwritten : p.wireCrc = some (UInt32.ofNat (Crc.checksum seed p.frame.body).toNat) := by
        unfold wireCrc
        rw [hcrc, hseed]
        rfl
      simp only [Frame.verdict, hwire, hwritten, hbody, Tracker.checks_checksum]
    | none =>
      -- A record without a check has no flag for the receiver's word.
      have hwritten : p.wireCrc = none := by
        unfold wireCrc
        rw [hcrc, hseed]
        rfl
      rw [Frame.verdict_none, herror, hwritten]
      rfl

namespace Log

open Session (Step)

/-- Any packet of any session, written to a capture file, is read back as one record of its link.  A
tracker that knows as much of that link as the session did, be it the seed or nothing, then gives
the packet's own verdict, except that a packet without a received check always counts as undamaged.
So the verdict is lost exactly if the receiver found the packet damaged and delivered no check. -/
theorem verdict_read_back (s : Settings τ) (xs : List (Step τ)) (x : Step τ) {p : Packet τ}
    (hp : (((start s).run xs).session.step x).1 = some p) (hfits : p.FitsCapture) :
    ∃ r, Capture.ofFile (Capture.ofPackets [p]) = .ok [.ok r] ∧
      r.frame.accessAddress = some p.stamped.accessAddress ∧
      ∀ (t : Tracker τ) (f : StampedFrame τ), f.frame = r.frame →
        f.accessAddress = p.stamped.accessAddress → t.link.seedFor? f.accessAddress = p.seed →
        (t.decode f).1.crcOk = (p.crcOk || p.frame.crc.isNone) ∧
          ((t.decode f).1.crcOk ≠ p.crcOk ↔ p.frame.crc = none ∧ p.frame.crcError = true) := by
  have hjudged := Session.step_judged hp
  refine ⟨p.captureRecord p.writtenMicros, Capture.ofFile_singleton hfits, rfl, ?_⟩
  intro t f hframe _ hseed
  have hagain : (t.decode f).1.crcOk = (p.crcOk || p.frame.crc.isNone) := by
    rw [t.decode_crcOk, hframe, hseed, Packet.verdict_captureRecord hjudged]
  refine ⟨hagain, ?_⟩
  rw [hagain]
  cases hcrc : p.frame.crc with
  | some c => simp
  | none =>
    have hword : p.crcOk = !p.frame.crcError := hjudged.trans (Frame.verdict_of_crc_eq_none hcrc _)
    rw [hword]
    simp

/-- An advertisement that the receiver found damaged. -/
def damagedFrame (crc : Option UInt32) : Frame :=
  ⟨0, .centralToPeripheral, true, 0, 0, 37, .le1M, [2, 6, 0x11, 0x22, 0x33, 0x44, 0x55, 0x66], crc,
    none⟩

/-- If its check was received, the damaged advertisement is found damaged again. -/
theorem verdict_read_back_received :
    let l := start (Settings.standard : Settings ℚ)
    let p := (l.tracker.receive 0 (damagedFrame (some 0))).1
    ∃ r, Capture.ofFile (Capture.ofPackets [p]) = .ok [.ok r] ∧ p.crcOk = false ∧
      (l.tracker.decode ⟨0, 0, advertisingAddress, r.frame⟩).1.crcOk = false := by
  intro l p
  have hdamaged : p.crcOk = false := by decide +kernel
  have hp : (l.session.step (.frame 0 (damagedFrame (some 0)))).1 = some p :=
    Session.step_packet _ _
  obtain ⟨r, hfile, _, hdecode⟩ := verdict_read_back .standard [] _ hp (by decide +kernel)
  have hagain := (hdecode l.tracker ⟨0, 0, advertisingAddress, r.frame⟩ rfl rfl rfl).1
  refine ⟨r, hfile, hdamaged, hagain.trans ?_⟩
  rw [hdamaged]
  rfl

/-- If it was not, the advertisement passes for undamaged. -/
theorem verdict_cleared_without_check :
    let l := start (Settings.standard : Settings ℚ)
    let p := (l.tracker.receive 0 (damagedFrame none)).1
    (l.session.step (.frame 0 (damagedFrame none))).1 = some p ∧
      p.FitsCapture ∧ p.stamped.accessAddress = advertisingAddress ∧
      l.tracker.link.seedFor? advertisingAddress = p.seed ∧ p.crcOk = false ∧
      ∃ r, Capture.ofFile (Capture.ofPackets [p]) = .ok [.ok r] ∧
        (l.tracker.decode ⟨0, 0, advertisingAddress, r.frame⟩).1.crcOk = true := by
  intro l p
  have hfits : p.FitsCapture := by decide +kernel
  have hjudged : p.Judged := Tracker.decode_judged _ _
  refine ⟨Session.step_packet _ _, hfits, rfl, rfl, by decide +kernel, _,
    Capture.ofFile_singleton hfits, ?_⟩
  rw [l.tracker.decode_crcOk]
  exact (Packet.verdict_captureRecord hjudged p.writtenMicros).trans (Bool.or_true _)

end Log

end AirTrace

import AirTrace.Proofs.TimeShift

/-!
# A capture file is decoded to what was captured

The file of a session holds packets with their times, links and bodies.  It holds none of what else
the session took: reports of the mode, markers, and the steps that fixed its clock.
`Log.redecoding_reproduces` says that a replay of the file nevertheless decodes every packet as the
session did, at times that differ by one constant.

There are four groups.

* What the file holds.  A session's packets fit their records (`Log.fits_run`) but for checks that
  are too long, and these are cut down without a trace (`Packet.toCapture_trim`).
* The times of the session.  `WholeMicros` is the invariant: every packet comes a whole number of
  microseconds after the clock was fixed, so its record has its time.
* The times of the replay.  `Followable` is what the times must satisfy for the replay to find each
  from its tick, and `Tracker.start_replayAll_heard` says that it does.
* The packets.  Times that differ by a constant decode alike (`Tracker.Later.pdus`).
-/

namespace AirTrace

open Capture (Record)

/-! ## What the file holds -/

/-- Only the low bits of a number are written. -/
theorem Octets.ofNat_mod (n v : ℕ) : ofNat n (v % 256 ^ n) = ofNat n v := by
  have h := ofNat_toNat (ofNat n v)
  rwa [length_ofNat, toNat_ofNat] at h

/-- A frame of the firmware fits: its length has 14 bits, and its channel was looked at. -/
theorem Frame.fitsRecord_of_ofFirmware {o : Octets} {f : Frame} (h : ofFirmware o = .ok f) :
    f.FitsRecord := by
  unfold ofFirmware at h
  split at h
  · exact absurd h (by simp)
  · simp only at h
    split at h
    · exact absurd h (by simp)
    · next hlength =>
      split at h
      · exact absurd h (by simp)
      · next hchannel =>
        obtain rfl := Except.ok.inj h
        refine ⟨UInt8.not_le.mp hchannel, ?_⟩
        have hshort : (o.drop headerLength).length < 0x4000 := by
          rw [← not_not.mp hlength]
          exact Nat.mod_lt _ (by norm_num)
        simp only
        split <;> omega

theorem Message.fitsRecord_of_ofEnvelope {o : Octets} {f : Frame}
    (h : ofEnvelope o = .ok (.packet f)) : f.FitsRecord := by
  unfold ofEnvelope at h
  split at h
  · next type payload =>
    unfold ofPayload at h
    split at h
    · split at h
      · next f' hread =>
        obtain rfl := packet.inj (Except.ok.inj h)
        exact Frame.fitsRecord_of_ofFirmware hread
      · exact absurd h (by simp)
    · exact absurd h (by simp)
    · split at h <;> exact absurd h (by simp)
    · split at h <;> exact absurd h (by simp)
    · obtain ⟨m, _, hm⟩ := map_eq_ok.mp h
      exact absurd hm (by simp)
    · exact absurd h (by simp)
  · exact absurd h (by simp)

namespace Packet

variable {τ : Type}

/-- The packet with its check cut down to 24 bits. -/
def trim (p : Packet τ) : Packet τ :=
  { p with stamped := { p.stamped with frame := { p.frame with
      crc := p.frame.crc.map fun c => UInt32.ofNat (c.toNat % 2 ^ 24) } } }

theorem fitsCapture_trim {p : Packet τ} (h : p.frame.FitsRecord) : p.trim.FitsCapture := by
  refine fitsCapture_of_frame ⟨h.channel, h.length⟩ fun c hc => ?_
  obtain ⟨c', _, rfl⟩ := Option.map_eq_some_iff.mp hc
  rw [UInt32.toNat_ofNat']
  omega

/-- Of a check no more than 24 bits are written. -/
theorem toCapture_trim [TimeScale τ] (p : Packet τ) : p.trim.toCapture = p.toCapture := by
  have hwire : p.trim.wireCrc.isSome = p.wireCrc.isSome ∧
      Octets.ofNat 3 (p.trim.wireCrc.getD 0).toNat = Octets.ofNat 3 (p.wireCrc.getD 0).toNat := by
    unfold wireCrc trim frame
    cases p.stamped.frame.crc with
    | none => exact ⟨rfl, rfl⟩
    | some c =>
      refine ⟨rfl, ?_⟩
      simp only [Option.map_some, Option.getD_some]
      rw [UInt32.toNat_ofNat', Nat.mod_eq_of_lt (by omega), show 2 ^ 24 = 256 ^ 3 by norm_num,
        Octets.ofNat_mod]
  have hflags : p.trim.captureFlags = p.captureFlags := by
    unfold captureFlags
    rw [hwire.1]
    rfl
  unfold toCapture captureContent
  rw [hwire.2, hflags]
  rfl

end Packet

namespace Log

open Session (Step)

variable {τ : Type} [TimeScale τ]

/-- Every packet of a session was made of a frame that the session took. -/
theorem frame_of_mem_packets {l : Log τ} {xs : List (Step τ)} {p : Packet τ}
    (hp : p ∈ (l.run xs).packets) :
    p ∈ l.packets ∨ ∃ x ∈ xs, ∃ now, x.input = .frame now p.frame := by
  induction xs generalizing l with
  | nil => exact .inl hp
  | cons x xs ih =>
    rcases ih hp with hstep | ⟨x', hx', hinput⟩
    · by_cases hx : x = .reset
      · subst hx
        exact absurd hstep List.not_mem_nil
      · rw [step_packets l hx] at hstep
        rcases List.mem_append.mp hstep with hold | hnew
        · exact .inl hold
        · obtain ⟨now, f, hframe, rfl⟩ := Tracker.feed_packet (Option.mem_toList.mp hnew)
          exact .inr ⟨x, List.mem_cons_self, now, hframe⟩
    · exact .inr ⟨x', List.mem_cons_of_mem x hx', hinput⟩

/-- The packets of a session fit their records if the frames do that the receiver itself delivered;
those of the firmware always do. -/
theorem fits_run {s : Settings τ} {xs : List (Step τ)}
    (hframes : ∀ now f, .frame now f ∈ xs → f.FitsRecord) :
    ∀ p ∈ ((start s).run xs).packets, p.frame.FitsRecord := by
  intro p hp
  rcases frame_of_mem_packets hp with hp | ⟨x, hx, now, hinput⟩
  · exact absurd hp List.not_mem_nil
  · cases x with
    | frame now' f =>
      obtain ⟨_, rfl⟩ := Tracker.Input.frame.inj hinput
      exact hframes now' _ hx
    | message now' envelope =>
      simp only [Step.input] at hinput
      split at hinput
      · next f hread =>
        obtain ⟨_, rfl⟩ := Tracker.Input.frame.inj hinput
        exact Message.fitsRecord_of_ofEnvelope hread
      all_goals exact absurd hinput (by simp)
    | _ => exact absurd hinput (by simp [Step.input])

end Log

/-! ## The times of a session -/

theorem Clock.time_eq_micros {s : Settings ℚ} (hrate : s.tickRate = 1000000) {c : Clock ℚ} {k : ℤ}
    (hoffset : c.offset = micros k) (wrap : ℤ) (tick : UInt32) :
    c.time s wrap tick = micros (k + (wrap * 2 ^ 32 + tick.toNat)) := by
  rw [time_eq, hoffset, hrate, micros_add]
  rfl

namespace Tracker

variable {τ : Type} [TimeScale τ]

/-- A fixed clock keeps its epoch and its offset, whatever comes but a reset, and it stamps every
packet. -/
theorem feed_clock {t : Tracker τ} {c : Clock τ} (hclock : t.clock = some c) {i : Input τ}
    (hreset : i ≠ .reset) :
    (t.feed i).2.settings = t.settings ∧
      (∃ c', (t.feed i).2.clock = some c' ∧ c'.epoch = c.epoch ∧ c'.offset = c.offset) ∧
      ∀ p, (t.feed i).1 = some p →
        ∃ wrap tick, p.stamped.time = c.time t.settings wrap tick := by
  cases hk : i.tick? with
  | some k =>
    obtain ⟨hnext, hsettings, htime⟩ := feed_tick hclock hk
    exact ⟨hsettings, ⟨_, hnext, c.place_keeps _ _⟩, fun p hp => ⟨_, _, htime p hp⟩⟩
  | none =>
    obtain ⟨hnext, hsettings⟩ := feed_noTick hclock hk hreset
    refine ⟨hsettings, ⟨c, hnext, rfl, rfl⟩, fun p hp => ?_⟩
    rw [feed_packet_tick hp] at hk
    exact absurd hk (by simp)

end Tracker

/-- Every packet comes a whole number of microseconds after the clock was fixed. -/
structure WholeMicros (s : Settings ℚ) (t : Tracker ℚ) (ps : List (Packet ℚ)) : Prop where
  settings : t.settings = s
  unfixed : t.clock = none → ps = []
  offset : ∀ c, t.clock = some c → ∃ k, c.offset = micros k
  times : ∀ p ∈ ps, (∃ m, p.stamped.time = micros m) ∧
    p.stamped.epochTime = p.stamped.time + t.epoch

namespace WholeMicros

variable {s : Settings ℚ} {t : Tracker ℚ} {ps : List (Packet ℚ)}

theorem of_unfixed (hsettings : t.settings = s) (hclock : t.clock = none) : WholeMicros s t [] :=
  ⟨hsettings, fun _ => rfl, fun _ hc => absurd (hclock.symm.trans hc) (by simp),
    fun _ hp => absurd hp List.not_mem_nil⟩

theorem of_clock {c : Clock ℚ} {k : ℤ} (hsettings : t.settings = s) (hclock : t.clock = some c)
    (hoffset : c.offset = micros k) (htimes : ∀ p ∈ ps, (∃ m, p.stamped.time = micros m) ∧
      p.stamped.epochTime = p.stamped.time + t.epoch) : WholeMicros s t ps := by
  refine ⟨hsettings, fun hnone => ?_, fun c' hc' => ⟨k, ?_⟩, htimes⟩
  · exact absurd (hclock.symm.trans hnone) (by simp)
  · obtain rfl := Option.some.inj (hclock.symm.trans hc')
    exact hoffset

theorem feed (h : WholeMicros s t ps) (hrate : s.tickRate = 1000000) {i : Tracker.Input ℚ}
    (hreset : i ≠ .reset) : WholeMicros s (t.feed i).2 (ps ++ (t.feed i).1.toList) := by
  have hepoch : ∀ p, (t.feed i).1 = some p →
      p.stamped.epochTime = p.stamped.time + (t.feed i).2.epoch := by
    intro p hp
    obtain ⟨now, f, rfl, rfl⟩ := Tracker.feed_packet hp
    exact t.receive_epochTime now f
  cases hclock : t.clock with
  | some c =>
    obtain ⟨k, hk⟩ := h.offset c hclock
    obtain ⟨hsettings, ⟨c', hnext, hepoch', hoffset⟩, htime⟩ := Tracker.feed_clock hclock hreset
    have hsame : (t.feed i).2.epoch = t.epoch := by
      unfold Tracker.epoch
      rw [hnext, hclock, Option.map_some, Option.map_some, hepoch']
    refine .of_clock (hsettings.trans h.settings) hnext (hoffset.trans hk) fun p hp => ?_
    rcases List.mem_append.mp hp with hold | hnew
    · rw [hsame]
      exact h.times p hold
    · have hp := Option.mem_toList.mp hnew
      obtain ⟨wrap, tick, htime'⟩ := htime p hp
      rw [h.settings, Clock.time_eq_micros hrate hk] at htime'
      exact ⟨⟨_, htime'⟩, hepoch p hp⟩
  | none =>
    rw [h.unfixed hclock, List.nil_append]
    cases hk : i.fixTick? with
    | some k =>
      obtain ⟨epoch, hnext, hsettings, htime⟩ := Tracker.feed_fixTick hclock hk
      rw [h.settings] at hnext hsettings htime
      have hoffset : (Clock.fixAt s k epoch).offset = micros (-k.toNat) := by
        show -((k.toNat : ℤ) : ℚ) / s.tickRate = _
        rw [hrate, ← Int.cast_neg]
        rfl
      refine .of_clock hsettings hnext hoffset fun p hp => ?_
      have hp' := Option.mem_toList.mp hp
      have htime' := htime p hp'
      rw [Clock.time_eq_micros hrate hoffset] at htime'
      exact ⟨⟨_, htime'⟩, hepoch p hp'⟩
    | none =>
      -- A report of the mode, or nothing: there is no packet, and the clock stays as it is.
      cases i with
      | frame | marker | fixClock => exact absurd hk (by simp [Tracker.Input.fixTick?])
      | reset => exact absurd rfl hreset
      | nothing => exact .of_unfixed h.settings hclock
      | mode m =>
        show WholeMicros s (t.report m) []
        rw [Tracker.report_eq]
        exact .of_unfixed h.settings hclock

theorem run (hrate : s.tickRate = 1000000) (xs : List (Session.Step ℚ)) :
    WholeMicros s ((Log.start s).run xs).tracker ((Log.start s).run xs).packets := by
  have hstart : WholeMicros s (Tracker.start s) [] := .of_unfixed rfl rfl
  exact Log.invariant (l := .start s) (WholeMicros s) (fun t ps h => .of_unfixed h.settings rfl)
    (fun t ps i hi h => h.feed hrate hi) hstart xs

/-- The record of a packet has its time, if the clock was fixed at a whole microsecond and the time
fits. -/
theorem writtenMicros (h : WholeMicros s t ps) {n : ℤ} (hepoch : t.epoch = micros n) {p : Packet ℚ}
    (hp : p ∈ ps) (hlow : 0 ≤ p.stamped.epochTime) (hhigh : p.stamped.epochTime < 2 ^ 32) :
    p.stamped.time + micros n = micros p.writtenMicros := by
  obtain ⟨⟨m, hm⟩, htime⟩ := h.times p hp
  rw [hm, hepoch, ← micros_add] at htime
  rw [htime] at hlow hhigh
  obtain ⟨hnonneg, hfits⟩ := micros_range hlow hhigh
  rw [Packet.writtenMicros_eq htime hnonneg hfits, hm, micros_add]

end WholeMicros

/-! ## The times of a replay -/

/-- Every time lies within reach of the newest one so far: it is earlier by the tolerance at most,
and later by less than what the tolerance leaves of the period of the counter. -/
def FollowableFrom (s : Settings ℚ) : ℚ → List ℚ → Prop
  | _, [] => True
  | newest, time :: rest =>
      newest - micros s.lateTicks.toNat ≤ time ∧
        time ≤ newest + micros (2 ^ 32 - 1 - s.lateTicks.toNat) ∧
        FollowableFrom s (max newest time) rest

/-- Every time but the first lies within reach of the newest one before it. -/
def Followable (s : Settings ℚ) : List ℚ → Prop
  | [] => True
  | time :: rest => FollowableFrom s time rest

instance followableFromDecidable (s : Settings ℚ) :
    ∀ (newest : ℚ) (times : List ℚ), Decidable (FollowableFrom s newest times)
  | _, [] => isTrue trivial
  | newest, time :: rest =>
      have := followableFromDecidable s (max newest time) rest
      inferInstanceAs (Decidable (_ ∧ _ ∧ _))

instance (s : Settings ℚ) : ∀ times : List ℚ, Decidable (Followable s times)
  | [] => isTrue trivial
  | time :: rest => followableFromDecidable s time rest

theorem followableFrom_map_add (s : Settings ℚ) (newest d : ℚ) (times : List ℚ) :
    FollowableFrom s (newest + d) (times.map (· + d)) ↔ FollowableFrom s newest times := by
  induction times generalizing newest with
  | nil => rfl
  | cons time rest ih =>
    rw [List.map_cons, FollowableFrom, FollowableFrom, max_add_add_right, ih]
    refine and_congr ?_ (and_congr ?_ Iff.rfl)
    · constructor <;> intro h <;> linarith
    · constructor <;> intro h <;> linarith

theorem followable_map_add (s : Settings ℚ) (d : ℚ) (times : List ℚ) :
    Followable s (times.map (· + d)) ↔ Followable s times := by
  cases times with
  | nil => rfl
  | cons time rest => exact followableFrom_map_add s time d rest

/-- A time is within reach of itself. -/
theorem FollowableFrom.cons_self {s : Settings ℚ} {time : ℚ} {rest : List ℚ}
    (h : FollowableFrom s time rest) : FollowableFrom s time (time :: rest) := by
  have htolerance := s.lateTicks.toNat_lt
  have hbehind : (0 : ℚ) ≤ micros s.lateTicks.toNat := micros_nonneg.mpr (by omega)
  have hahead : (0 : ℚ) ≤ micros (2 ^ 32 - 1 - s.lateTicks.toNat) := micros_nonneg.mpr (by omega)
  refine ⟨by linarith, by linarith, ?_⟩
  rwa [max_self]

/-- The packet is made of the record, at the record's time on a clock that was fixed at `epoch`. -/
structure Capture.Record.HeardAs (epoch : ℚ) (r : Record) (p : Packet ℚ) : Prop where
  frame : p.frame = r.frame
  accessAddress : ∀ a, r.frame.accessAddress = some a → p.stamped.accessAddress = a
  time : p.stamped.time + epoch = r.time

namespace Tracker

variable {s : Settings ℚ} {epoch : ℚ} {now : ℤ} {t : Tracker ℚ} {rs : List Record}

/-- A replay that can follow the times of some records gives each packet the time of its record. -/
theorem TellsMicros.replayAll_heard (h : TellsMicros s epoch now t) (hrate : s.tickRate = 1000000)
    (hnow : now < 2 ^ 63) (hrs : ∀ r ∈ rs, r.frame.tick = UInt32.ofNat r.micros ∧ r.micros < 2 ^ 63)
    (hfollow : FollowableFrom s (micros now) (rs.map Record.time)) :
    List.Forall₂ (Record.HeardAs epoch) rs (t.replayAll rs) := by
  induction rs generalizing now t with
  | nil => exact .nil
  | cons r rs ih =>
    obtain ⟨hlow, hhigh, hrest⟩ := hfollow
    obtain ⟨htick, hmicros⟩ := hrs r List.mem_cons_self
    obtain ⟨w, hsame, hreach, _, htime, hnext⟩ := h.replay hrate hnow r
    have hgiven : w = r.micros := by
      rw [Record.time_eq, ← micros_add, micros_le_micros] at hhigh
      rw [Record.time_eq, sub_le_iff_le_add, ← micros_add, micros_le_micros] at hlow
      rw [htick, UInt32.toNat_ofNat'] at hsame
      exact hreach.unique ⟨by omega, by omega⟩ (by omega)
    rw [Record.time_eq, ← micros_max, ← hgiven] at hrest
    refine .cons ⟨rfl, ?_, ?_⟩ (ih hnext (by omega) (fun q hq => hrs q (List.mem_cons_of_mem r hq))
      hrest)
    · intro a ha
      show r.frame.accessAddress.getD _ = a
      rw [ha, Option.getD_some]
    · rw [htime, hgiven, sub_add_cancel, Record.time_eq]

theorem start_replayAll_heard (hrate : s.tickRate = 1000000)
    (hrs : ∀ r ∈ rs, r.frame.tick = UInt32.ofNat r.micros ∧ r.micros < 2 ^ 63)
    (hfollow : Followable s (rs.map Record.time)) :
    ∃ epoch, List.Forall₂ (Record.HeardAs epoch) rs ((start s).replayAll rs) := by
  cases rs with
  | nil => exact ⟨0, .nil⟩
  | cons r rs =>
    obtain ⟨htick, hmicros⟩ := hrs r List.mem_cons_self
    have hstart := TellsMicros.of_fixClock (t := .start s) hrate rfl rfl htick
    refine ⟨r.time, ?_⟩
    rw [← replayAll_fixClock]
    exact hstart.replayAll_heard hrate (by omega) hrs (FollowableFrom.cons_self hfollow)

end Tracker

/-! ## The packets -/

/-- The record that is read back of a packet, whose check is cut down. -/
def Packet.keptRecord {τ : Type} [TimeScale τ] (p : Packet τ) : Record := p.trim.writtenRecord

theorem Packet.captureRecord_parts {τ : Type} (p : Packet τ) (micros : ℕ) :
    (p.captureRecord micros).frame.channel = p.frame.channel ∧
      (p.captureRecord micros).frame.phy = p.frame.phy ∧
      (p.captureRecord micros).frame.body = p.frame.body :=
  ⟨rfl, rfl, rfl⟩

theorem Packet.keptRecord_parts {τ : Type} [TimeScale τ] (p : Packet τ) :
    p.keptRecord.frame.channel = p.frame.channel ∧ p.keptRecord.frame.phy = p.frame.phy ∧
      p.keptRecord.frame.body = p.frame.body :=
  p.trim.captureRecord_parts _

theorem Packet.keptRecord_time (p : Packet ℚ) :
    (p.keptRecord.time : ℚ) = micros p.writtenMicros := by
  have hsame : p.trim.writtenMicros = p.writtenMicros := by
    unfold writtenMicros captureMicros
    rfl
  show (p.trim.writtenRecord.time : ℚ) = _
  rw [Record.time_eq, ← hsame]
  rfl

theorem Packet.writtenMicros_lt {τ : Type} [TimeScale τ] (p : Packet τ) :
    p.writtenMicros < 2 ^ 63 := by
  unfold writtenMicros
  omega

/-- The file of packets that fit is replayed to the packets of their records. -/
theorem Replay.ofFile_ofPackets {τ : Type} [TimeScale τ] (s : Settings τ) {ps : List (Packet τ)}
    (h : ∀ p ∈ ps, p.frame.FitsRecord) :
    ∃ r, ofFile s (Capture.ofPackets ps) = .ok r ∧
      r.packets = (Tracker.start s).replayAll (ps.map Packet.keptRecord) := by
  have hfits : ∀ p ∈ ps.map Packet.trim, p.FitsCapture := by
    intro p hp
    obtain ⟨q, hq, rfl⟩ := List.mem_map.mp hp
    exact Packet.fitsCapture_trim (h q hq)
  have hsame : Capture.ofPackets (ps.map Packet.trim) = Capture.ofPackets ps := by
    unfold Capture.ofPackets
    rw [List.flatMap_map]
    simp only [Packet.toCapture_trim]
  have hrecords : (ps.map Packet.trim).map Packet.writtenRecord = ps.map Packet.keptRecord :=
    List.map_map
  have hfile := Capture.ofFile_ofPackets_map hfits
  rw [hsame, hrecords] at hfile
  exact ofFile_map_ok s hfile

/-- A replay gives the packets of a session their times again, but for the time at which the clock
was fixed. -/
theorem Tracker.start_replayAll_later {s : Settings ℚ} (hrate : s.tickRate = 1000000)
    {ps : List (Packet ℚ)} {n : ℤ}
    (htimes : ∀ p ∈ ps, p.stamped.time + micros n = micros p.writtenMicros)
    (hfollow : Followable s (ps.map fun p => p.stamped.time)) :
    ∃ d, List.Forall₂ (fun p q => StampedFrame.Later d p.stamped q.stamped) ps
      ((start s).replayAll (ps.map Packet.keptRecord)) := by
  have hsame : (ps.map Packet.keptRecord).map Record.time =
      (ps.map fun p => p.stamped.time).map (· + micros n) := by
    rw [List.map_map, List.map_map]
    refine List.map_congr_left fun p hp => ?_
    show (p.keptRecord.time : ℚ) = p.stamped.time + micros n
    rw [p.keptRecord_time, htimes p hp]
  have hrs : ∀ r ∈ ps.map Packet.keptRecord,
      r.frame.tick = UInt32.ofNat r.micros ∧ r.micros < 2 ^ 63 := by
    intro r hr
    obtain ⟨p, _, rfl⟩ := List.mem_map.mp hr
    exact ⟨rfl, p.trim.writtenMicros_lt⟩
  obtain ⟨epoch, hheard⟩ := start_replayAll_heard hrate hrs
    (hsame ▸ (followable_map_add s (micros n) _).mpr hfollow)
  rw [List.forall₂_map_left_iff] at hheard
  refine ⟨micros n - epoch, ?_⟩
  refine ((List.forall₂_and_left _ _).mpr ⟨htimes, hheard⟩).imp fun p q h => ?_
  obtain ⟨htime, hframe, haddress, htime'⟩ := h
  rw [p.keptRecord_time] at htime'
  have hparts : q.frame.channel = p.frame.channel ∧ q.frame.phy = p.frame.phy ∧
      q.frame.body = p.frame.body := by
    rw [hframe]
    exact p.keptRecord_parts
  exact ⟨by linarith, haddress _ rfl, hparts.1, hparts.2.1, hparts.2.2⟩

namespace Log

open Session (Step)

/-- A session with a clock of microseconds that was fixed at a whole one takes frames, none longer
than the length field of a record can tell, messages of the firmware, and whatever else but a reset.
If all its times can be written and each is within reach of the newest before it, its packets are
written to a file whose replay decodes each of them to the same packet or to the same error, at
times that differ by one constant. -/
theorem redecoding_reproduces (s : Settings ℚ) (hrate : s.tickRate = 1000000) (xs : List (Step ℚ))
    (hreset : .reset ∉ xs) (hframes : ∀ now f, .frame now f ∈ xs → f.FitsRecord) (n : ℤ)
    (hepoch : ((start s).run xs).tracker.epoch = micros n)
    (htimes : ∀ p ∈ ((start s).run xs).packets,
      0 ≤ p.stamped.epochTime ∧ p.stamped.epochTime < 2 ^ 32)
    (hfollow : Followable s (((start s).run xs).packets.map fun p => p.stamped.time)) :
    ∃ r d, Replay.ofFile s (Capture.ofPackets ((start s).run xs).packets) = .ok r ∧
      r.packets.map Packet.pdu = ((start s).run xs).packets.map Packet.pdu ∧
      r.packets.map (fun p => p.stamped.time) =
        ((start s).run xs).packets.map fun p => p.stamped.time + d := by
  have hwhole := WholeMicros.run hrate xs
  obtain ⟨r, hr, hpackets⟩ := Replay.ofFile_ofPackets s (fits_run (s := s) hframes)
  obtain ⟨ps, hps, hpdus⟩ := pdus_run (l := start s) hreset
  obtain rfl : ps = ((start s).run xs).packets := hps.symm
  obtain ⟨d, hlater⟩ := Tracker.start_replayAll_later hrate (fun p hp =>
    hwhole.writtenMicros hepoch hp (htimes p hp).1 (htimes p hp).2) hfollow
  rw [← hpackets] at hlater
  refine ⟨r, d, hr, ?_, ?_⟩
  · have hreplayed := Tracker.pdus_replayAll (.start s)
      (((start s).run xs).packets.map Packet.keptRecord)
    rw [← hpackets] at hreplayed
    rw [hreplayed, hpdus]
    refine (Tracker.Later.start d s).pdus ?_
    rwa [List.forall₂_map_left_iff, List.forall₂_map_right_iff]
  · rw [← List.forall₂_eq_eq_eq, List.forall₂_map_left_iff, List.forall₂_map_right_iff]
    exact hlater.flip.imp fun q p h => h.time

/-- A scannable advertisement, its response after a marker and a wrap of the counter, a connection
request with a check that is too long, the report that it is followed, and a late packet of the
connection. -/
def connectionSteps : List (Step ℚ) :=
  [.fixClock 4294967000 1700000000,
    .frame 0 ⟨4294967100, .centralToPeripheral, false, 0, -48, 22, .codedS2, [7, 1, 0x80], none,
      none⟩,
    .message 0 [0, 0x12, 0x20, 0, 0, 0],
    .frame 0 ⟨804, .centralToPeripheral, false, 0, -50, 22, .codedS2, [7, 1, 0], none, none⟩,
    .frame 0 ⟨90000, .centralToPeripheral, false, 0, -50, 37, .le1M,
      [5, 34, 0, 0, 0, 0, 0, 0, 0, 0, 0, 0, 0, 0, 0x78, 0x56, 0x34, 0x12, 0x56, 0x34, 0x12, 1, 0, 0,
        24, 0, 0, 0, 72, 0, 0xFF, 0xFF, 0xFF, 0xFF, 0x1F, 7], some 0xFFFFFFFF, none⟩,
    .message 0 [0, 0x13, Mode.data.code],
    .frame 0 ⟨80000, .peripheralToCentral, false, 7, -60, 17, .le2M, [14, 3, 18, 52, 86],
      some 0xA1B2, none⟩]

/-- Its four packets are decoded alike from the file, which has neither the marker nor the report,
the response as a response and the last one on the address of the connection. -/
theorem redecoding_reproduces_connection :
    let ps := ((start (Settings.standard : Settings ℚ)).run connectionSteps).packets
    ps.map (fun p => p.stamped.accessAddress) =
        [advertisingAddress, advertisingAddress, advertisingAddress, 0x12345678] ∧
      ∃ r d, Replay.ofFile .standard (Capture.ofPackets ps) = .ok r ∧
        r.packets.map Packet.pdu = ps.map Packet.pdu ∧
        (r.packets.map Packet.pdu)[1]? =
          some (.ok (.extended .auxScanRsp ⟨.ofOctets 7 1, .empty .plain, []⟩)) ∧
        r.packets.map (fun p => p.stamped.time) = ps.map fun p => p.stamped.time + d := by
  intro ps
  have hframes : ∀ now f, .frame now f ∈ connectionSteps → f.FitsRecord := by
    intro now f hf
    simp only [connectionSteps, List.mem_cons, reduceCtorEq, Step.frame.injEq, List.not_mem_nil,
      or_false, false_or] at hf
    rcases hf with ⟨_, rfl⟩ | ⟨_, rfl⟩ | ⟨_, rfl⟩ | ⟨_, rfl⟩ <;> decide
  obtain ⟨r, d, hr, hpdus, htimes⟩ := redecoding_reproduces .standard rfl connectionSteps
    (by simp [connectionSteps]) hframes 1700000000000000 (by decide +kernel) (by decide +kernel)
    (by decide +kernel)
  refine ⟨by decide +kernel, r, d, hr, hpdus, ?_, htimes⟩
  rw [hpdus]
  decide +kernel

end Log

end AirTrace

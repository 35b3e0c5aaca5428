import AirTrace.Proofs.Captures
import AirTrace.Proofs.Lateness
import AirTrace.Replay

/-!
# Which times a replay keeps

A record's time has more bits than the tick that its frame gets, which is the low 32 bits of the
time in microseconds.  A replay makes the times again from the ticks, as a session does with those
of a receiver: each tick stands for the one microsecond within reach of the newest one.

There are five groups.

* Whole microseconds.  Over exact seconds they are rounded to themselves, so a packet whose time is
  one has it in its record (`Packet.writtenMicros_eq`).
* Records.  `Capture.Record.Sound` is what holds of every record that is read, whatever the file.
* The recursion.  `Tracker.replayAll` is a replay without its counters and without the records that
  cannot be read (`Replay.packets_run`).
* The clock.  `Tracker.TellsMicros` is the invariant: the clock is the 32-bit counter of one count
  of microseconds.  `TellsMicros.replay` says which microsecond the next record is given.
* The times.  `Tracker.replayAll_writtenMicros_iff` follows by induction, and
  `Capture.rewriting_keeps_times_iff` says it of files.
-/

namespace AirTrace

open Capture (Record)

/-! ## Whole microseconds -/

/-- A number of microseconds, in seconds. -/
def micros (n : ℤ) : ℚ := n / 1000000

theorem micros_add (m n : ℤ) : micros (m + n) = micros m + micros n := by
  unfold micros
  push_cast
  ring

theorem micros_le_micros {m n : ℤ} : micros m ≤ micros n ↔ m ≤ n := by
  unfold micros
  rw [div_le_div_iff_of_pos_right (by norm_num), Int.cast_le]

theorem micros_nonneg {n : ℤ} : 0 ≤ micros n ↔ 0 ≤ n := by
  rw [← micros_le_micros, show micros 0 = 0 by norm_num [micros]]

theorem micros_max (m n : ℤ) : micros (max m n) = max (micros m) (micros n) := by
  have hmono : Monotone micros := fun _ _ => micros_le_micros.mpr
  exact hmono.map_max

theorem micros_range {n : ℤ} (hlow : 0 ≤ micros n) (hhigh : micros n < 2 ^ 32) :
    0 ≤ n ∧ n < 2 ^ 32 * 1000000 := by
  unfold micros at hhigh
  rw [div_lt_iff₀ (by norm_num)] at hhigh
  exact ⟨micros_nonneg.mp hlow, by exact_mod_cast hhigh⟩

theorem Capture.Record.time_eq (r : Record) : (r.time : ℚ) = AirTrace.micros r.micros := rfl

theorem roundAway_intCast (n : ℤ) : roundAway (n : ℚ) = n := by
  have hfloor : ∀ k : ℤ, ((k : ℚ) + 1 / 2).floor = k := by
    intro k
    show ⌊(k : ℚ) + 1 / 2⌋ = k
    rw [Int.floor_eq_iff]
    constructor <;> linarith
  unfold roundAway
  split
  · rw [← Int.cast_neg, hfloor, neg_neg]
  · exact hfloor n

theorem toMicros_micros (n : ℤ) :
    (TimeScale.toMicros (micros n)).toNat = min n.toNat (2 ^ 64 - 1) := by
  have hscale : micros n * 1000000 = n := by
    unfold micros
    field_simp
  show (UInt64.ofNat (clampWord 0xFFFFFFFFFFFFFFFF (roundAway (micros n * 1000000)))).toNat = _
  rw [hscale, roundAway_intCast, UInt64.toNat_ofNat', clampWord]
  omega

namespace Packet

variable {p : Packet ℚ} {n : ℤ}

theorem captureMicros_eq (h : p.stamped.epochTime = micros n) :
    p.captureMicros = min n.toNat (2 ^ 64 - 1) := by
  unfold captureMicros
  rw [h, toMicros_micros]

/-- The record of a packet has the packet's time, if that is a whole number of microseconds whose
seconds fit their field. -/
theorem writtenMicros_eq (h : p.stamped.epochTime = micros n) (hlow : 0 ≤ n)
    (hhigh : n < 2 ^ 32 * 1000000) : (p.writtenMicros : ℤ) = n := by
  have hcapture := captureMicros_eq h
  unfold writtenMicros
  omega

end Packet

/-! ## Records of any file -/

/-- What a record needs of a frame: a channel that exists, and a content whose length fits its
field. -/
structure Frame.FitsRecord (f : Frame) : Prop where
  channel : f.channel < Channel.count
  length : 14 + (if f.phy.isCoded then 1 else 0) + f.body.length + 3 < 2 ^ 32

instance (f : Frame) : Decidable f.FitsRecord :=
  decidable_of_iff (f.channel < Channel.count ∧
    14 + (if f.phy.isCoded then 1 else 0) + f.body.length + 3 < 2 ^ 32)
    ⟨fun h => ⟨h.1, h.2⟩, fun h => ⟨h.channel, h.length⟩⟩

theorem Packet.fitsCapture_of_frame {τ : Type} {p : Packet τ} (h : p.frame.FitsRecord)
    (hcrc : ∀ c, p.frame.crc = some c → c.toNat < 2 ^ 24) : p.FitsCapture := by
  refine ⟨h.channel, hcrc, ?_⟩
  rw [length_captureContent]
  exact h.length

/-- The record of a packet, as it is read back. -/
def Packet.writtenRecord {τ : Type} [TimeScale τ] (p : Packet τ) : Record :=
  p.captureRecord p.writtenMicros

namespace Capture

theorem ofFile_ofPackets_map {τ : Type} [TimeScale τ] {ps : List (Packet τ)}
    (h : ∀ p ∈ ps, p.FitsCapture) :
    ofFile (ofPackets ps) = .ok ((ps.map Packet.writtenRecord).map .ok) := by
  rw [ofFile_ofPackets h, List.map_map]
  rfl

/-- What holds of every record that is read, whatever the file. -/
structure Record.Sound (r : Record) : Prop where
  /-- The tick of the frame is the time of the record, as far as it goes. -/
  tick : r.frame.tick = UInt32.ofNat r.micros
  micros : r.micros < 2 ^ 32 * 1000000 + 2 ^ 32
  fits : r.frame.FitsRecord
  crc : ∀ c, r.frame.crc = some c → c.toNat < 2 ^ 24
  /-- A record without a check is not marked as damaged. -/
  crcError : r.frame.crc = none → r.frame.crcError = false

theorem sound_of_ofContent {micros : Nat} {content : Octets} {r : Record}
    (h : ofContent micros content = .ok r) (hmicros : micros < 2 ^ 32 * 1000000 + 2 ^ 32)
    (hlength : content.length < 2 ^ 32) : r.Sound := by
  unfold ofContent at h
  by_cases hshort : content.length < 17
  · rw [if_pos hshort] at h
    exact absurd h throw_bind_ne_ok
  by_cases hrf : 40 ≤ content.octet 0
  · simp only [if_neg hshort, if_pos hrf] at h
    exact absurd h throw_bind_ne_ok
  simp only [if_neg hshort, if_neg hrf] at h
  obtain ⟨phy, _, h⟩ := bind_eq_ok.mp h
  by_cases hcheck : (content.drop (if phy.isCoded then 15 else 14)).length < 3
  · simp only [if_pos hcheck] at h
    exact absurd h throw_bind_ne_ok
  simp only [if_neg hcheck] at h
  obtain rfl := Except.ok.inj h
  constructor
  case tick => rfl
  case micros => exact hmicros
  case fits =>
    refine ⟨Channel.ofRf_lt _ (UInt8.not_le.mp hrf), ?_⟩
    rw [List.length_drop] at hcheck
    simp only [List.length_drop, List.length_take]
    cases hcoded : phy.isCoded <;> simp [hcoded] at hcheck ⊢ <;> omega
  case crc =>
    intro c hc
    change (if _ then some _ else none) = some c at hc
    split at hc
    · obtain rfl := Option.some.inj hc
      have hlt := (Octets.word24 ((content.drop (if phy.isCoded then 15 else 14)).drop
        ((content.drop (if phy.isCoded then 15 else 14)).length - 3)) 0).isLt
      rw [UInt32.toNat_ofNat']
      omega
    · exact absurd hc (by simp)
  case crcError =>
    intro hc
    change (if _ then some _ else none) = none at hc
    split at hc
    · exact absurd hc (by simp)
    · next hunchecked =>
      show (_ && _) = false
      rw [Bool.eq_false_iff.mpr hunchecked, Bool.false_and]

theorem sound_of_mem_records {o : Octets} {r : Record} (h : .ok r ∈ records o) : r.Sound := by
  fun_induction records o with
  | case1 | case2 | case3 => simp at h
  | case4 o fields rest _ content rest' hcut micros ih =>
    rcases List.mem_cons.mp h with hhead | htail
    · cases hcontent : ofContent micros content with
      | error e =>
        rw [hcontent] at hhead
        cases hhead
      | ok r' =>
        rw [hcontent] at hhead
        obtain rfl := Except.ok.inj hhead
        have hseconds := (fields.word32 0).toNat_lt
        have hmicros := (fields.word32 4).toNat_lt
        have hlength := (fields.word32 8).toNat_lt
        have hcontentLength := (Octets.split?_eq_some hcut).2
        exact sound_of_ofContent hcontent (by omega) (by omega)
    · exact ih htail

theorem ofFile_of_ofHeader {file rest : Octets} (h : ofHeader file = .ok rest) :
    ofFile file = .ok (records rest) := by
  unfold ofFile
  rw [h]
  rfl

theorem sound_of_ofFile {file : Octets} {rs : List Record} (h : ofFile file = .ok (rs.map .ok)) :
    ∀ r ∈ rs, r.Sound := by
  intro r hr
  unfold ofFile at h
  cases hrest : ofHeader file with
  | error e =>
    rw [hrest] at h
    cases h
  | ok rest =>
    rw [hrest] at h
    apply sound_of_mem_records (o := rest)
    rw [Except.ok.inj h]
    exact List.mem_map_of_mem hr

end Capture

/-! ## The recursion of a replay -/

namespace Tracker

variable {τ : Type} [TimeScale τ]

/-- Takes a record of a capture file: the packet, and the tracker after it. -/
def replay (t : Tracker τ) (r : Record) : Packet τ × Tracker τ :=
  (t.fixClock r.frame.tick r.time).receive r.time r.frame

/-- The packets of some records, taken in order. -/
def replayAll : Tracker τ → List Record → List (Packet τ)
  | _, [] => []
  | t, r :: rest => (t.replay r).1 :: (t.replay r).2.replayAll rest

theorem length_replayAll (t : Tracker τ) (rs : List Record) :
    (t.replayAll rs).length = rs.length := by
  induction rs generalizing t with
  | nil => rfl
  | cons r rs ih => rw [replayAll, List.length_cons, ih, List.length_cons]

/-- A record fixes the clock, so it may be fixed to that record beforehand. -/
theorem replay_fixClock (t : Tracker τ) (r : Record) :
    (t.fixClock r.frame.tick r.time).replay r = t.replay r := by
  have hagain : (t.fixClock r.frame.tick r.time).fixClock r.frame.tick r.time =
      t.fixClock r.frame.tick r.time := by
    cases hclock : t.clock <;> simp only [fixClock, hclock]
  unfold replay
  rw [hagain]

theorem replayAll_fixClock (t : Tracker τ) (r : Record) (rs : List Record) :
    (t.fixClock r.frame.tick r.time).replayAll (r :: rs) = t.replayAll (r :: rs) := by
  rw [replayAll, replayAll, replay_fixClock]

/-- Once the clock is fixed, a record is a frame like any other. -/
theorem replay_of_clock {t : Tracker τ} {c : Clock τ} (hclock : t.clock = some c) (r : Record) :
    t.replay r = t.receive r.time r.frame := by
  unfold replay fixClock
  rw [hclock]

/-- A packet of a replay can be written to a capture file. -/
theorem fits_replay (t : Tracker τ) {r : Record} (h : r.Sound) : (t.replay r).1.FitsCapture :=
  Packet.fitsCapture_of_frame h.fits h.crc

theorem fits_replayAll (t : Tracker τ) {rs : List Record} (h : ∀ r ∈ rs, r.Sound) :
    ∀ p ∈ t.replayAll rs, p.FitsCapture := by
  induction rs generalizing t with
  | nil => exact fun p hp => absurd hp List.not_mem_nil
  | cons r rs ih =>
    intro p hp
    rcases List.mem_cons.mp hp with rfl | hp
    · exact t.fits_replay (h r List.mem_cons_self)
    · exact ih _ (fun q hq => h q (List.mem_cons_of_mem r hq)) p hp

end Tracker

namespace Replay

variable {τ : Type} [TimeScale τ]

/-- The packets of a replay are those of the records that can be read. -/
theorem packets_run (s : Session τ) (xs : List (Except Capture.RecordError Record)) :
    (run s xs).packets = s.tracker.replayAll (xs.filterMap Except.toOption) := by
  induction xs generalizing s with
  | nil => rfl
  | cons x xs ih =>
    cases x with
    | error e => exact ih _
    | ok r => exact congrArg (_ :: ·) (ih _)

/-- A file with a valid header is replayed to the packets of the records that can be read. -/
theorem ofFile_eq_ok (s : Settings τ) {file : Octets}
    {xs : List (Except Capture.RecordError Record)} (h : Capture.ofFile file = .ok xs) :
    ∃ r, ofFile s file = .ok r ∧
      r.packets = (Tracker.start s).replayAll (xs.filterMap Except.toOption) := by
  refine ⟨run (.start s) xs, ?_, packets_run _ xs⟩
  unfold ofFile
  rw [h]
  rfl

/-- If all of them can be read, to the packets of all. -/
theorem ofFile_map_ok (s : Settings τ) {file : Octets} {rs : List Record}
    (h : Capture.ofFile file = .ok (rs.map .ok)) :
    ∃ r, ofFile s file = .ok r ∧ r.packets = (Tracker.start s).replayAll rs := by
  obtain ⟨r, hr, hpackets⟩ := ofFile_eq_ok s h
  have hread : (rs.map (Except.ok (ε := Capture.RecordError))).filterMap Except.toOption = rs := by
    rw [List.filterMap_map]
    exact List.filterMap_some
  rw [hread] at hpackets
  exact ⟨r, hr, hpackets⟩

end Replay

/-! ## The clock of a replay -/

/-- Placing a tick moves neither the time at which the clock was fixed nor what is added to a tick's
own time. -/
theorem Clock.place_keeps {τ : Type} (tolerance : UInt32) (c : Clock τ) (tick : UInt32) :
    (c.place tolerance tick).2.epoch = c.epoch ∧ (c.place tolerance tick).2.offset = c.offset := by
  unfold place
  by_cases hlate : c.newest - tick ≠ 0 ∧ c.newest - tick ≤ tolerance
  · simp only [if_pos hlate, and_self]
  · simp only [if_neg hlate, and_self]

/-- The time of day of a packet is its own time after the time of day at which the clock was
fixed. -/
theorem Tracker.receive_epochTime {τ : Type} [TimeScale τ] (t : Tracker τ) (now : τ) (f : Frame) :
    (t.receive now f).1.stamped.epochTime =
      (t.receive now f).1.stamped.time + (t.receive now f).2.epoch := by
  have hclock := (t.receive_clock now f).1
  have hepoch : (t.receive now f).2.epoch = (t.stamp now f.tick).2.epoch := by
    unfold epoch
    rw [hclock]
  rw [hepoch]
  rfl

/-- A microsecond is within reach of the newest one: it lies behind it by the tolerance at most, and
no later microsecond with the same tick does. -/
def InReach (s : Settings ℚ) (now m : ℤ) : Prop :=
  now - s.lateTicks.toNat ≤ m ∧ m < now + 2 ^ 32 - s.lateTicks.toNat

theorem InReach.unique {s : Settings ℚ} {now m m' : ℤ} (h : InReach s now m)
    (h' : InReach s now m') (htick : m % 2 ^ 32 = m' % 2 ^ 32) : m = m' := by
  unfold InReach at h h'
  omega

theorem InReach.self (s : Settings ℚ) (now : ℤ) : InReach s now now := by
  have htolerance := s.lateTicks.toNat_lt
  unfold InReach
  omega

namespace Tracker

/-- The clock is the 32-bit counter of the microseconds since 1970: it was fixed at the time
`epoch`, and its newest microsecond is `now`. -/
structure TellsMicros (s : Settings ℚ) (epoch : ℚ) (now : ℤ) (t : Tracker ℚ) : Prop where
  settings : t.settings = s
  clock : ∃ c, t.clock = some c ∧ c.epoch = epoch ∧ ∃ k : ℤ, 0 ≤ k ∧
    c.epoch + c.offset = micros (k * 2 ^ 32) ∧ c.position + k * 2 ^ 32 = now

namespace TellsMicros

variable {s : Settings ℚ} {epoch : ℚ} {now : ℤ} {t : Tracker ℚ} {r : Record}

/-- A clock that a record fixes tells microseconds from then on. -/
theorem of_fixClock (hrate : s.tickRate = 1000000) (hsettings : t.settings = s)
    (hclock : t.clock = none) (htick : r.frame.tick = UInt32.ofNat r.micros) :
    TellsMicros s r.time r.micros (t.fixClock r.frame.tick r.time) := by
  have hlow : ((UInt32.ofNat r.micros).toNat : ℤ) = r.micros % 2 ^ 32 := by
    rw [UInt32.toNat_ofNat']
    omega
  have hsplit : (r.micros : ℤ) = r.micros / 2 ^ 32 * 2 ^ 32 + r.micros % 2 ^ 32 := by omega
  rw [fixClock_eq, hclock, hsettings, htick, Record.time_eq]
  refine ⟨rfl, _, rfl, rfl, r.micros / 2 ^ 32, by omega, ?_, ?_⟩
  · have hoffset : (Clock.fixAt s (UInt32.ofNat r.micros) (micros r.micros)).offset =
        -micros (r.micros % 2 ^ 32) := by
      unfold micros
      rw [← hlow, ← neg_div, ← hrate]
      rfl
    have hwhole := congrArg micros hsplit
    rw [micros_add] at hwhole
    rw [Option.getD_none, hoffset]
    show micros r.micros + _ = _
    linarith
  · show ((0 : UInt32).toNat : ℤ) * 2 ^ 32 + (UInt32.ofNat r.micros).toNat + _ = _
    rw [hlow, UInt32.toNat_zero]
    omega

/-- A record is given the one microsecond within reach that has its tick. -/
theorem replay (h : TellsMicros s epoch now t) (hrate : s.tickRate = 1000000)
    (hnow : now < 2 ^ 63) (r : Record) :
    ∃ w : ℤ, w % 2 ^ 32 = r.frame.tick.toNat ∧ InReach s now w ∧
      (t.replay r).1.stamped.epochTime = micros w ∧
      (t.replay r).1.stamped.time = micros w - epoch ∧
      TellsMicros s epoch (max now w) (t.replay r).2 := by
  obtain ⟨hsettings, c, hclock, rfl, k, hk, horigin, hposition⟩ := h
  obtain ⟨y, htick, hlate, hearly, _⟩ := c.exists_place s.lateTicks r.frame.tick
  obtain ⟨hwrap, hnewest, _, _⟩ := Clock.place_position hlate hearly (by omega)
  rw [htick] at hwrap hnewest
  obtain ⟨hnext, hkeep, htime⟩ := feed_tick hclock (i := .frame r.time r.frame) rfl
  rw [hsettings] at hnext htime
  obtain ⟨hepoch, hoffset⟩ := c.place_keeps s.lateTicks r.frame.tick
  have hlow := Clock.toNat_tickAt y
  rw [htick] at hlow
  -- The clock counts from the last period that began before it was fixed, so the microsecond of the
  -- place `y` is `k` periods further on.
  have hstamp : (t.receive r.time r.frame).1.stamped.time = micros (y + k * 2 ^ 32) - c.epoch := by
    have hplace : y / 2 ^ 32 * 2 ^ 32 + (r.frame.tick.toNat : ℤ) = y := by omega
    rw [htime _ rfl, Clock.time_eq, hwrap, hplace, hrate, micros_add, ← horigin]
    unfold micros
    ring
  have hstill : (t.receive r.time r.frame).2.epoch = c.epoch := by
    change (t.receive r.time r.frame).2.clock = _ at hnext
    unfold Tracker.epoch
    rw [hnext, Option.map_some, Option.getD_some, hepoch]
  rw [replay_of_clock hclock]
  refine ⟨y + k * 2 ^ 32, by omega, ⟨by omega, by omega⟩, ?_, hstamp, hkeep.trans hsettings, _,
    hnext, hepoch, k, hk, ?_, by omega⟩
  · rw [receive_epochTime, hstill, hstamp, sub_add_cancel]
  · rw [hepoch, hoffset, horigin]

end TellsMicros

/-- The first record is given its own time. -/
theorem start_replay_epochTime {s : Settings ℚ} (hrate : s.tickRate = 1000000) {r : Record}
    (h : r.Sound) : ((start s).replay r).1.stamped.epochTime = micros r.micros := by
  have hmicros := h.micros
  have hstart := TellsMicros.of_fixClock (t := .start s) hrate rfl rfl h.tick
  obtain ⟨w, htick, hreach, htime, _⟩ := hstart.replay hrate (by omega) r
  have hsame : w % 2 ^ 32 = r.micros % 2 ^ 32 := by
    rw [htick, h.tick, UInt32.toNat_ofNat']
    omega
  rw [← replay_fixClock, htime, hreach.unique (InReach.self s _) hsame]

/-! ## Times kept -/

/-- Where times do not run backwards, a record keeps its time if that is not too far ahead of the
time before it, and then the clock stands at it. -/
theorem TellsMicros.writtenMicros_eq_iff {s : Settings ℚ} {epoch : ℚ} {now : ℕ} {t : Tracker ℚ}
    {r : Record} (h : TellsMicros s epoch now t) (hrate : s.tickRate = 1000000)
    (htick : r.frame.tick = UInt32.ofNat r.micros) (hnow : now ≤ r.micros)
    (hfits : r.micros < 2 ^ 32 * 1000000) :
    ((t.replay r).1.writtenMicros = r.micros ↔ r.micros + s.lateTicks.toNat < now + 2 ^ 32) ∧
      (r.micros + s.lateTicks.toNat < now + 2 ^ 32 →
        TellsMicros s epoch r.micros (t.replay r).2) := by
  obtain ⟨w, hlow, hreach, htime, _, hnext⟩ := h.replay hrate (by omega) r
  have hsame : w % 2 ^ 32 = r.micros % 2 ^ 32 := by
    rw [hlow, htick, UInt32.toNat_ofNat']
    omega
  have hgiven : w = r.micros ↔ r.micros + s.lateTicks.toNat < now + 2 ^ 32 := by
    unfold InReach at hreach
    omega
  -- A time that was cut off at either end of the field is not that of the record.
  have hwritten : (t.replay r).1.writtenMicros = r.micros ↔ w = r.micros := by
    have hcapture := Packet.captureMicros_eq htime
    have htolerance := s.lateTicks.toNat_lt
    unfold InReach at hreach
    unfold Packet.writtenMicros
    omega
  refine ⟨hwritten.trans hgiven, fun hnear => ?_⟩
  rw [hgiven.mpr hnear, max_eq_right (by omega)] at hnext
  exact hnext

/-- A replay keeps the times of records that do not run backwards exactly if none is too far ahead
of the one before it. -/
theorem replayAll_writtenMicros_iff {s : Settings ℚ} {epoch : ℚ} {now : ℕ} {t : Tracker ℚ}
    {rs : List Record} (h : TellsMicros s epoch now t) (hrate : s.tickRate = 1000000)
    (hticks : ∀ r ∈ rs, r.frame.tick = UInt32.ofNat r.micros)
    (hsorted : (now :: rs.map Record.micros).Pairwise (· ≤ ·))
    (hfits : ∀ r ∈ rs, r.micros < 2 ^ 32 * 1000000) :
    (t.replayAll rs).map Packet.writtenMicros = rs.map Record.micros ↔
      (now :: rs.map Record.micros).IsChain fun a b => b + s.lateTicks.toNat < a + 2 ^ 32 := by
  induction rs generalizing t now with
  | nil => simp [replayAll]
  | cons r rs ih =>
    obtain ⟨hfirst, hrest⟩ := List.pairwise_cons.mp hsorted
    obtain ⟨hwritten, hnext⟩ := h.writtenMicros_eq_iff hrate (hticks r List.mem_cons_self)
      (hfirst _ List.mem_cons_self) (hfits r List.mem_cons_self)
    rw [replayAll, List.map_cons, List.map_cons, List.cons.injEq, List.isChain_cons_cons, hwritten]
    refine and_congr_right fun hnear => ?_
    exact ih (hnext hnear) (fun q hq => hticks q (List.mem_cons_of_mem r hq)) hrest
      fun q hq => hfits q (List.mem_cons_of_mem r hq)

/-- The same from the first record on, to which the clock is fixed. -/
theorem start_writtenMicros_iff {s : Settings ℚ} {rs : List Record}
    (hrate : s.tickRate = 1000000) (hticks : ∀ r ∈ rs, r.frame.tick = UInt32.ofNat r.micros)
    (hsorted : (rs.map Record.micros).Pairwise (· ≤ ·))
    (hfits : ∀ r ∈ rs, r.micros < 2 ^ 32 * 1000000) :
    ((start s).replayAll rs).map Packet.writtenMicros = rs.map Record.micros ↔
      (rs.map Record.micros).IsChain fun a b => b + s.lateTicks.toNat < a + 2 ^ 32 := by
  cases rs with
  | nil => simp [replayAll]
  | cons r rs =>
    have htick := hticks r List.mem_cons_self
    have hstart := TellsMicros.of_fixClock (t := .start s) hrate rfl rfl htick
    have hfirst : (r.micros :: (r :: rs).map Record.micros).Pairwise (· ≤ ·) := by
      rw [List.map_cons, List.pairwise_cons] at hsorted ⊢
      refine ⟨fun m hm => ?_, List.pairwise_cons.mpr hsorted⟩
      rcases List.mem_cons.mp hm with rfl | hm
      · exact le_rfl
      · exact hsorted.1 m hm
    have htolerance := s.lateTicks.toNat_lt
    rw [← replayAll_fixClock, replayAll_writtenMicros_iff hstart hrate hticks hfirst hfits,
      List.map_cons, List.isChain_cons_cons]
    exact and_iff_right (by omega)

end Tracker

namespace Capture

/-- The file that a replay writes has one record for each record of the replayed file. -/
theorem ofFile_toCapture {τ : Type} [TimeScale τ] (s : Settings τ) {file : Octets}
    {rs : List Record} (h : ofFile file = .ok (rs.map .ok)) :
    ∃ r, Replay.ofFile s file = .ok r ∧
      ofFile r.toCapture =
        .ok ((((Tracker.start s).replayAll rs).map Packet.writtenRecord).map .ok) := by
  obtain ⟨r, hr, hpackets⟩ := Replay.ofFile_map_ok s h
  refine ⟨r, hr, ?_⟩
  unfold Replay.toCapture
  rw [hpackets]
  exact ofFile_ofPackets_map (Tracker.fits_replayAll _ (sound_of_ofFile h))

/-- With the standard settings, replaying a file whose records are all well formed and do not run
backwards in time writes a record for each of them.  Every record keeps its time if no two
successive records lie 2³² microseconds less the late tolerance of a second, or more, apart; and
only then. -/
theorem rewriting_keeps_times_iff {file : Octets} {rs : List Record}
    (hfile : ofFile file = .ok (rs.map .ok)) (hsorted : (rs.map Record.micros).Pairwise (· ≤ ·))
    (hfits : ∀ r ∈ rs, r.micros < 2 ^ 32 * 1000000) :
    ∃ (r : Replay ℚ) (out : List Record), Replay.ofFile .standard file = .ok r ∧
      ofFile r.toCapture = .ok (out.map .ok) ∧ out.length = rs.length ∧
      (out.map Record.micros = rs.map Record.micros ↔
        (rs.map Record.micros).IsChain fun a b => b < a + (2 ^ 32 - 1000000)) := by
  obtain ⟨r, hr, hout⟩ := ofFile_toCapture (.standard : Settings ℚ) hfile
  have hkept := Tracker.start_writtenMicros_iff (s := .standard) rfl
    (fun r hr => (sound_of_ofFile hfile r hr).tick) hsorted hfits
  have htolerance : (Settings.standard : Settings ℚ).lateTicks.toNat = 1000000 := by decide +kernel
  refine ⟨r, _, hr, hout, ?_, ?_⟩
  · rw [List.length_map, Tracker.length_replayAll]
  · rw [List.map_map]
    refine hkept.trans (List.IsChain.iff fun a b => ?_)
    rw [htolerance]
    omega

/-- An advertisement heard at a time in microseconds. -/
def heardAt (n : ℕ) : Packet ℚ :=
  (((Tracker.start .standard).fixClock 0 (AirTrace.micros n)).receive 0
    ⟨0, .centralToPeripheral, false, 0, -48, 37, .le1M, [2, 6, 0x11, 0x22, 0x33, 0x44, 0x55, 0x66],
      none, none⟩).1

/-- A gap one microsecond shorter than that is kept. -/
theorem rewriting_keeps_longest_gap :
    ∃ (rs out : List Record) (r : Replay ℚ),
      ofFile (ofPackets [heardAt 0, heardAt 4293967295]) = .ok (rs.map .ok) ∧
      Replay.ofFile .standard (ofPackets [heardAt 0, heardAt 4293967295]) = .ok r ∧
      ofFile r.toCapture = .ok (out.map .ok) ∧ out.map Record.micros = [0, 4293967295] := by
  have hfits : ∀ p ∈ [heardAt 0, heardAt 4293967295], p.FitsCapture := by decide +kernel
  have hfile := ofFile_ofPackets_map hfits
  obtain ⟨r, out, hr, hout, _, hiff⟩ := rewriting_keeps_times_iff hfile (by decide +kernel)
    (by decide +kernel)
  refine ⟨_, out, r, hfile, hr, hout, (hiff.mpr ?_).trans (by decide +kernel)⟩
  decide +kernel

/-- Of two records that lie one period of the tick apart, the second is given the time of the
first. -/
theorem rewriting_drops_period :
    ∃ (rs out : List Record) (r : Replay ℚ),
      ofFile (ofPackets [heardAt 0, heardAt 4294967296]) = .ok (rs.map .ok) ∧
      (rs.map Record.micros).Pairwise (· ≤ ·) ∧ (∀ r ∈ rs, r.micros < 2 ^ 32 * 1000000) ∧
      Replay.ofFile .standard (ofPackets [heardAt 0, heardAt 4294967296]) = .ok r ∧
      ofFile r.toCapture = .ok (out.map .ok) ∧
      rs.map Record.micros = [0, 4294967296] ∧ out.map Record.micros = [0, 0] := by
  have hfits : ∀ p ∈ [heardAt 0, heardAt 4294967296], p.FitsCapture := by decide +kernel
  have hfile := ofFile_ofPackets_map hfits
  obtain ⟨r, hr, hout⟩ := ofFile_toCapture (.standard : Settings ℚ) hfile
  exact ⟨_, _, r, hfile, by decide +kernel, by decide +kernel, hr, hout, by decide +kernel,
    by decide +kernel⟩

end Capture

end AirTrace

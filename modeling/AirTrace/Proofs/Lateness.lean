import AirTrace.Proofs.TrueTime
import AirTrace.Proofs.Windows

/-!
# How far an answer can precede its cause

A window says until when a packet is expected, and not from when.  So a late frame can answer a
packet that was sent after it (`Log.answer_before_opening`).  `Log.answer_after_opening` says that
this is the only way: an answer that is not late comes no earlier than the packet that called for
it, and a late one by no more than the tolerance.

There are three groups.

* One tick.  `Clock.exists_place` finds the place of a tick on any clock, so the lemmas on ticks
  within the bound of a delivery apply to every tick.
* One input.  `Tracker.feed_place` says where the clock and the packet go.
* The run.  `Paced` is the invariant: every packet heard has its place at or before the place of the
  clock.

Times are compared over exact seconds, where they have the order of the places (`Clock.timeAt_eq`).
-/

namespace AirTrace

/-! ## One tick -/

namespace Clock

variable {τ : Type}

/-- A tick is late: it lies behind the newest one, by the tolerance at most. -/
def IsLate (tolerance : UInt32) (c : Clock τ) (tick : UInt32) : Prop :=
  c.newest - tick ≠ 0 ∧ c.newest - tick ≤ tolerance

instance (tolerance : UInt32) (c : Clock τ) (tick : UInt32) : Decidable (c.IsLate tolerance tick) :=
  inferInstanceAs (Decidable (_ ∧ _))

/-- Every tick has a place within the bound: behind the clock if it is late, else ahead of it. -/
theorem exists_place (tolerance : UInt32) (c : Clock τ) (tick : UInt32) :
    ∃ y, tickAt y = tick ∧ c.position - tolerance.toNat ≤ y ∧
      y ≤ c.position + 2 ^ 32 - 1 - tolerance.toNat ∧
      (c.IsLate tolerance tick ↔ y < c.position) := by
  have htick := tick.toNat_lt
  have hnewest := c.newest.toNat_lt
  have htolerance := tolerance.toNat_lt
  have hbehind : (c.newest - tick).toNat = (2 ^ 32 - tick.toNat + c.newest.toNat) % 2 ^ 32 :=
    UInt32.toNat_sub _ _
  have hlate : c.IsLate tolerance tick ↔
      (c.newest - tick).toNat ≠ 0 ∧ (c.newest - tick).toNat ≤ tolerance.toNat := by
    unfold IsLate
    rw [ne_eq, ← UInt32.toNat_inj, UInt32.toNat_zero, UInt32.le_iff_toNat_le]
  have hshows : ∀ y : ℤ, y % 2 ^ 32 = tick.toNat → tickAt y = tick := by
    intro y hy
    have hplace := toNat_tickAt y
    rw [← UInt32.toNat_inj]
    omega
  by_cases h : c.IsLate tolerance tick
  · -- A late tick lies as far behind the clock as the counter says.
    have hdistance := hlate.mp h
    refine ⟨c.position - (c.newest - tick).toNat, hshows _ ?_, by omega, by omega, ?_⟩
    · unfold position
      omega
    · exact iff_of_true h (by omega)
  · -- Any other tick is reached by going ahead round the circle, past all that would be late.
    have hdistance := mt hlate.mpr h
    refine ⟨c.position + (tick - c.newest).toNat, hshows _ ?_, by omega, ?_, ?_⟩
    · rw [UInt32.toNat_sub]
      unfold position
      omega
    · rw [UInt32.toNat_sub]
      omega
    · exact iff_of_false h (by omega)

/-- A place ahead of the clock whose wrap is not counted back to zero is within the count. -/
theorem lt_of_wraps_le {tolerance : UInt32} {c : Clock τ} {y : ℤ}
    (hearly : y ≤ c.position + 2 ^ 32 - 1 - tolerance.toNat)
    (hwraps : c.wraps ≤ (c.place tolerance (tickAt y)).2.wraps) : y < 2 ^ 64 := by
  by_contra hover
  have htick := toNat_tickAt y
  have hnewest := c.newest.toNat_lt
  have hcount := c.wraps.toNat_lt
  have hcircle := toNat_behind c y
  -- The clock stands in the last wrap, and the tick lies in the next one.
  have hcond : ¬ (c.newest - tickAt y ≠ 0 ∧ c.newest - tickAt y ≤ tolerance) := by
    rw [ne_eq, ← UInt32.toNat_inj, UInt32.toNat_zero, UInt32.le_iff_toNat_le]
    unfold position at hearly hcircle
    omega
  have hbefore : tickAt y < c.newest := by
    rw [UInt32.lt_iff_toNat_lt]
    unfold position at hearly
    omega
  unfold place at hwraps
  simp only [if_neg hcond, if_pos hbefore] at hwraps
  rw [UInt32.le_iff_toNat_le, UInt32.toNat_add, UInt32.toNat_one] at hwraps
  unfold position at hearly
  omega

variable [TimeScale τ]

/-- The time of a place. -/
def timeAt (s : Settings τ) (c : Clock τ) (y : ℤ) : τ := c.time s (y / 2 ^ 32) (tickAt y)

theorem timeAt_congr (s : Settings τ) {c c' : Clock τ} (h : c'.offset = c.offset) (y : ℤ) :
    c'.timeAt s y = c.timeAt s y := by
  unfold timeAt time
  rw [h]

/-- Over exact seconds times have the order of their places. -/
theorem timeAt_eq (s : Settings ℚ) (c : Clock ℚ) (y : ℤ) :
    c.timeAt s y = c.offset + y / s.tickRate := by
  have hplace : y / 2 ^ 32 * 2 ^ 32 + (tickAt y).toNat = y := by
    rw [toNat_tickAt]
    omega
  unfold timeAt
  rw [time_eq, hplace]

end Clock

/-! ## One input -/

variable {τ : Type} [TimeScale τ]

/-- The packet was placed at `y`: the counter showed its tick there, and its time is that of the
place. -/
structure Packet.PlacedAt (s : Settings τ) (c : Clock τ) (p : Packet τ) (y : ℤ) : Prop where
  tick : Clock.tickAt y = p.frame.tick
  time : p.stamped.time = c.timeAt s y

namespace Tracker

theorem feed_packet_tick {t : Tracker τ} {i : Input τ} {p : Packet τ}
    (hp : (t.feed i).1 = some p) : i.tick? = some p.frame.tick := by
  obtain ⟨now, f, rfl, rfl⟩ := feed_packet hp
  rfl

/-- A fixed clock places every tick: a late one behind itself by the tolerance at most, any other at
its own new place. -/
theorem feed_place {t : Tracker τ} {c : Clock τ} (hclock : t.clock = some c) {i : Input τ}
    {k : UInt32} (hk : i.tick? = some k)
    (hwraps : ∀ c', (t.feed i).2.clock = some c' → c.wraps ≤ c'.wraps) :
    ∃ y c', (t.feed i).2.clock = some c' ∧ c'.offset = c.offset ∧
      c'.position = max c.position y ∧ c.position - t.settings.lateTicks.toNat ≤ y ∧
      (y < c.position → c.IsLate t.settings.lateTicks k) ∧
      ∀ p, (t.feed i).1 = some p → p.PlacedAt t.settings c y := by
  obtain ⟨hnext, _, htime⟩ := feed_tick hclock hk
  obtain ⟨y, rfl, hlate, hearly, hiff⟩ := c.exists_place t.settings.lateTicks k
  have hfits := Clock.lt_of_wraps_le hearly (hwraps _ hnext)
  obtain ⟨hwrap, hposition, hoffset, _⟩ := Clock.place_position hlate hearly hfits
  refine ⟨y, _, hnext, hoffset, hposition, hlate, hiff.mpr, ?_⟩
  intro p hp
  constructor
  · exact Option.some.inj (hk.symm.trans (feed_packet_tick hp))
  · rw [htime p hp, hwrap]
    rfl

/-- The packet that fixes the clock is placed where the clock then stands. -/
theorem feed_fix {t : Tracker τ} (hclock : t.clock = none) {i : Input τ} {p : Packet τ}
    (hp : (t.feed i).1 = some p) :
    ∃ c, (t.feed i).2.clock = some c ∧ p.PlacedAt t.settings c c.position := by
  have hk : i.fixTick? = some p.frame.tick := by
    obtain ⟨now, f, rfl, rfl⟩ := feed_packet hp
    rfl
  obtain ⟨epoch, hnext, _, htime⟩ := feed_fixTick hclock hk
  have hshows : Clock.tickAt (p.frame.tick.toNat : ℤ) = p.frame.tick := by
    have hplace := Clock.toNat_tickAt (p.frame.tick.toNat : ℤ)
    have hlt := p.frame.tick.toNat_lt
    rw [← UInt32.toNat_inj]
    omega
  have hposition : (Clock.fixAt t.settings p.frame.tick epoch).position = p.frame.tick.toNat := by
    simp [Clock.position, Clock.fixAt]
  have hzero : ((p.frame.tick.toNat : ℤ)) / 2 ^ 32 = 0 := by
    have hlt := p.frame.tick.toNat_lt
    omega
  refine ⟨_, hnext, ?_, ?_⟩
  · rw [hposition, hshows]
  · rw [htime p hp, hposition]
    unfold Clock.timeAt
    rw [hzero, hshows]

end Tracker

/-! ## The run -/

/-- Every packet heard has its place at or before the place of the clock. -/
def Paced (s : Settings τ) (t : Tracker τ) (ps : List (Packet τ)) : Prop :=
  ∀ q ∈ ps, ∃ c a, t.clock = some c ∧ q.PlacedAt s c a ∧ a ≤ c.position

namespace Paced

variable {s : Settings τ} {t : Tracker τ} {ps : List (Packet τ)}

/-- The packets keep their places when the clock moves forward. -/
theorem forward {t' : Tracker τ} {c c' : Clock τ} (h : Paced s t ps) (hclock : t.clock = some c)
    (hnext : t'.clock = some c') (hoffset : c'.offset = c.offset)
    (hposition : c.position ≤ c'.position) : Paced s t' ps := by
  intro q hq
  obtain ⟨c₁, a, hclock₁, hplaced, hle⟩ := h q hq
  obtain rfl := Option.some.inj (hclock.symm.trans hclock₁)
  refine ⟨c', a, hnext, ⟨hplaced.tick, ?_⟩, hle.trans hposition⟩
  rw [hplaced.time, Clock.timeAt_congr s hoffset]

/-- Before the clock is fixed no packet was heard. -/
theorem eq_nil (h : Paced s t ps) (hclock : t.clock = none) : ps = [] := by
  rw [List.eq_nil_iff_forall_not_mem]
  intro q hq
  obtain ⟨c, _, hclock', _⟩ := h q hq
  exact absurd (hclock.symm.trans hclock') (by simp)

/-- Every input but a reset keeps the order, unless it has the clock count a wrap back to zero. -/
theorem feed (h : Paced s t ps) (hsettings : t.settings = s) {i : Tracker.Input τ}
    (hreset : i ≠ .reset)
    (hwraps : ∀ c c', t.clock = some c → (t.feed i).2.clock = some c' → c.wraps ≤ c'.wraps) :
    Paced s (t.feed i).2 (ps ++ (t.feed i).1.toList) := by
  subst hsettings
  cases hclock : t.clock with
  | none =>
    -- If the input makes a packet, it is the first one and fixes the clock.
    rw [h.eq_nil hclock, List.nil_append]
    intro q hq
    obtain ⟨c, hnext, hplaced⟩ := Tracker.feed_fix hclock (Option.mem_toList.mp hq)
    exact ⟨c, _, hnext, hplaced, le_refl _⟩
  | some c =>
    cases hk : i.tick? with
    | none =>
      have hnone : (t.feed i).1 = none := by
        rw [Option.eq_none_iff_forall_ne_some]
        intro p hp
        exact absurd (hk.symm.trans (Tracker.feed_packet_tick hp)) (by simp)
      rw [hnone, Option.toList_none, List.append_nil]
      exact h.forward hclock (Tracker.feed_noTick hclock hk hreset).1 rfl (le_refl _)
    | some k =>
      obtain ⟨y, c', hnext, hoffset, hposition, _, _, hplaced⟩ :=
        Tracker.feed_place hclock hk fun c' => hwraps c c' hclock
      have hforward := h.forward hclock hnext hoffset (by rw [hposition]; exact le_max_left _ _)
      intro q hq
      rcases List.mem_append.mp hq with hq | hq
      · exact hforward q hq
      · have hq' := hplaced q (Option.mem_toList.mp hq)
        refine ⟨c', y, hnext, ⟨hq'.tick, ?_⟩, by rw [hposition]; exact le_max_right _ _⟩
        rw [hq'.time, Clock.timeAt_congr _ hoffset]

end Paced

namespace Log

open Session (Step)

/-- Along the steps the clock counts no wrap back to zero, as it would with the `2 ^ 32`nd since it
was fixed. -/
def CountsWraps (l : Log τ) : List (Step τ) → Prop
  | [] => True
  | x :: xs => (∀ c c', l.tracker.clock = some c → (l.step x).tracker.clock = some c' →
      c.wraps ≤ c'.wraps) ∧ (l.step x).CountsWraps xs

theorem countsWraps_append (l : Log τ) (xs ys : List (Step τ)) :
    l.CountsWraps (xs ++ ys) ↔ l.CountsWraps xs ∧ (l.run xs).CountsWraps ys := by
  induction xs generalizing l with
  | nil => simp [CountsWraps]
  | cons x xs ih => rw [List.cons_append, CountsWraps, CountsWraps, ih, run_cons, and_assoc]

theorem paced_run (s : Settings τ) (xs : List (Step τ)) (h : (start s).CountsWraps xs) :
    Paced s ((start s).run xs).tracker ((start s).run xs).packets := by
  induction xs using List.reverseRecOn with
  | nil =>
    intro q hq
    exact absurd hq List.not_mem_nil
  | append_singleton xs x ih =>
    obtain ⟨hbefore, hstep, _⟩ := (countsWraps_append _ _ _).mp h
    rw [run_snoc]
    by_cases hx : x = .reset
    · subst hx
      intro q hq
      exact absurd hq List.not_mem_nil
    · -- The settings of the tracker are those of the session, as the windows have shown.
      rw [step_packets _ hx, step_tracker]
      rw [step_tracker] at hstep
      exact (ih hbefore).feed (mirrors_run s xs).settings (fun h => hx (Step.input_eq_reset.mp h))
        hstep

/-- The packet `p` answers the packet `q`: it has the part that a window of the kind calls for, the
window that is open admits it, and `q` opened that window, as the newest packet to open one of the
kind. -/
def Answers (s : Settings τ) (l : Log τ) (k : WindowKind) (p q : Packet τ) : Prop :=
  ∃ e w newer, p.pdu = .ok (.extended k.answer e) ∧ l.tracker.window k = some w ∧
    w.admits p.stamped.time p.frame.channel e.ext.adi = true ∧ q.Opens s k w ∧
    IsNewest (fun q => ∃ w, q.Opens s k w) l.packets q newer

theorem Answers.mem {s : Settings τ} {l : Log τ} {k : WindowKind} {p q : Packet τ}
    (h : Answers s l k p q) : q ∈ l.packets := by
  obtain ⟨_, _, newer, _, _, _, _, ⟨older, hpackets⟩, _⟩ := h
  rw [hpackets]
  exact List.mem_append_right _ List.mem_cons_self

/-- Every scan response and every next packet of a chain answers a packet heard before. -/
theorem exists_answers (s : Settings τ) (xs : List (Step τ)) (x : Step τ) {p : Packet τ}
    {k : WindowKind} {e : ExtAdvertisement}
    (hp : (((start s).run xs).session.step x).1 = some p)
    (hpdu : p.pdu = .ok (.extended k.answer e)) :
    ∃ q, Answers s ((start s).run xs) k p q := by
  have hmirrors := mirrors_run s xs
  have hawaited : p.Awaited s k ((start s).run xs).packets e.ext.adi := by
    rw [Session.step_packet] at hp
    obtain ⟨now, f, _, rfl⟩ := Tracker.feed_packet hp
    have haux := Tracker.decode_isAuxiliary hpdu (by cases k <;> simp [WindowKind.answer])
    have hroles := (hmirrors.attach now f).role_iff (Tracker.decoded _ _) haux
    cases k with
    | scan => exact hroles.1.mp rfl
    | chain => exact (hroles.2.1.mp rfl).2
  obtain ⟨w, houtstanding, hadmits⟩ := hawaited
  have hwindow := (hmirrors.window k w).mpr houtstanding
  obtain ⟨q, newer, hnewest, hopens, _⟩ := houtstanding
  exact ⟨q, e, w, newer, hpdu, hwindow, Window.admits_iff.mpr hadmits, hopens, hnewest⟩

/-- A packet is placed at most the tolerance before any packet heard earlier, and before it only if
it is late. -/
theorem places_run (s : Settings τ) (xs : List (Step τ)) (x : Step τ)
    (hwraps : (start s).CountsWraps (xs ++ [x])) {p q : Packet τ}
    (hp : (((start s).run xs).session.step x).1 = some p)
    (hq : q ∈ ((start s).run xs).packets) :
    ∃ c a b, ((start s).run xs).tracker.clock = some c ∧ q.PlacedAt s c a ∧ p.PlacedAt s c b ∧
      (¬ c.IsLate s.lateTicks p.frame.tick → a ≤ b) ∧ a - s.lateTicks.toNat ≤ b := by
  obtain ⟨hbefore, hstep, _⟩ := (countsWraps_append _ _ _).mp hwraps
  obtain ⟨c, a, hclock, hearlier, hle⟩ := paced_run s xs hbefore q hq
  have hsettings := (mirrors_run s xs).settings
  rw [Session.step_packet] at hp
  rw [step_tracker] at hstep
  obtain ⟨b, _, _, _, _, hlate, hbehind, hplaced⟩ :=
    Tracker.feed_place hclock (Tracker.feed_packet_tick hp) fun c' => hstep c c' hclock
  rw [hsettings] at hlate hbehind hplaced
  refine ⟨c, a, b, hclock, hearlier, hplaced p hp, ?_, by omega⟩
  intro hnot
  have hahead : ¬ b < c.position := fun h => hnot (hbehind h)
  omega

/-- In every run of a session, in whatever order the frames are delivered, a scan response or a next
packet of a chain answers a packet heard before.  It has no earlier time than that packet, unless it
is a late frame; then it is earlier by the late tolerance at most. -/
theorem answer_after_opening (s : Settings ℚ) (hrate : 0 < s.tickRate) (xs : List (Step ℚ))
    (x : Step ℚ) (hwraps : (start s).CountsWraps (xs ++ [x])) {p : Packet ℚ} {k : WindowKind}
    {e : ExtAdvertisement} (hp : (((start s).run xs).session.step x).1 = some p)
    (hpdu : p.pdu = .ok (.extended k.answer e)) :
    let l := (start s).run xs
    ∃ q c, Answers s l k p q ∧ l.tracker.clock = some c ∧
      (¬ c.IsLate s.lateTicks p.frame.tick → q.stamped.time ≤ p.stamped.time) ∧
      q.stamped.time - s.lateTicks.toNat / s.tickRate ≤ p.stamped.time := by
  intro l
  obtain ⟨q, hanswers⟩ := exists_answers s xs x hp hpdu
  obtain ⟨c, a, b, hclock, hearlier, hlater, hinOrder, htolerance⟩ :=
    places_run s xs x hwraps hp hanswers.mem
  refine ⟨q, c, hanswers, hclock, ?_, ?_⟩
  · intro hnot
    have hle : (a : ℚ) ≤ b := by exact_mod_cast hinOrder hnot
    rw [hearlier.time, hlater.time, Clock.timeAt_eq, Clock.timeAt_eq]
    gcongr
  · have hle : (a : ℚ) - s.lateTicks.toNat ≤ b := by exact_mod_cast htolerance
    rw [hearlier.time, hlater.time, Clock.timeAt_eq, Clock.timeAt_eq, add_sub_assoc, ← sub_div]
    gcongr

/-- A scannable advertisement on channel 5. -/
def openingAt (tick : UInt32) : Step ℚ := .frame 0 (auxiliaryFrame tick [7, 1, 0x80])

/-- A packet on channel 5 that can be its response. -/
def answerAt (tick : UInt32) : Step ℚ := .frame 0 (auxiliaryFrame tick [7, 1, 0])

/-- The counter wraps between an advertisement and its response, which come in order. -/
theorem answer_after_opening_across_wrap :
    let l := (start (Settings.standard : Settings ℚ)).run [openingAt 4294967196]
    ∃ p q, (l.session.step (answerAt 400)).1 = some p ∧ Answers .standard l .scan p q ∧
      q.stamped.time ≤ p.stamped.time := by
  intro l
  let p := (l.tracker.receive 0 (auxiliaryFrame 400 [7, 1, 0])).1
  have hp : (l.session.step (answerAt 400)).1 = some p := Session.step_packet _ _
  have hpdu : p.pdu = .ok (.extended .auxScanRsp ⟨.ofOctets 7 1, .empty .plain, []⟩) := by
    decide +kernel
  have hwraps : (start (Settings.standard : Settings ℚ)).CountsWraps
      [openingAt 4294967196, answerAt 400] := by
    refine ⟨?_, ?_, trivial⟩
    · intro c _ hclock
      exact absurd hclock.symm (Option.some_ne_none c)
    · intro c c' hclock _
      have hzero : c.wraps = 0 := Option.some.inj (congrArg (Option.map Clock.wraps) hclock).symm
      rw [hzero, UInt32.le_iff_toNat_le]
      exact Nat.zero_le _
  obtain ⟨q, c, hanswers, hclock, hinOrder, _⟩ := answer_after_opening .standard (by decide +kernel)
    [openingAt 4294967196] (answerAt 400) hwraps (k := .scan) hp hpdu
  have hnewest : c.newest = 4294967196 :=
    Option.some.inj (congrArg (Option.map Clock.newest) hclock).symm
  refine ⟨p, q, hp, hanswers, hinOrder ?_⟩
  unfold Clock.IsLate
  rw [hnewest]
  decide +kernel

/-- After an advertisement at one tick, a packet at another one is its response and has an earlier
time. -/
def AnswersEarly (s : Settings ℚ) (opening answer : UInt32) : Prop :=
  let l := (start s).run [openingAt opening]
  ∃ p q, (l.session.step (answerAt answer)).1 = some p ∧ Answers s l .scan p q ∧
    p.stamped.time < q.stamped.time

theorem answersEarly_of_lt {s : Settings ℚ} {opening answer : UInt32} {e : ExtAdvertisement}
    {p : Packet ℚ} (hp : p = (((start s).run [openingAt opening]).tracker.receive 0
      (auxiliaryFrame answer [7, 1, 0])).1)
    (hpdu : p.pdu = .ok (.extended .auxScanRsp e))
    (hlt : ∀ q ∈ ((start s).run [openingAt opening]).packets, p.stamped.time < q.stamped.time) :
    AnswersEarly s opening answer := by
  have hstep : (((start s).run [openingAt opening]).session.step (answerAt answer)).1 = some p := by
    rw [hp]
    exact Session.step_packet _ _
  obtain ⟨q, hanswers⟩ := exists_answers s _ _ (k := .scan) hstep hpdu
  exact ⟨p, q, hstep, hanswers, hlt q hanswers.mem⟩

/-- A packet 400 ticks behind an advertisement, far less than the tolerance, is taken for its
response.  If the counter is said to run backwards, so is a response that comes in order. -/
theorem answer_before_opening :
    (∃ c, ((start (Settings.standard : Settings ℚ)).run [openingAt 1000]).tracker.clock = some c ∧
        c.IsLate (Settings.standard : Settings ℚ).lateTicks 600) ∧
      AnswersEarly .standard 1000 600 ∧
      AnswersEarly { (Settings.standard : Settings ℚ) with tickRate := -1000000 } 1000 1500 := by
  refine ⟨⟨_, rfl, by decide +kernel⟩, ?_, ?_⟩
  · exact answersEarly_of_lt (e := ⟨.ofOctets 7 1, .empty .plain, []⟩) rfl (by decide +kernel)
      (by decide +kernel)
  · exact answersEarly_of_lt (e := ⟨.ofOctets 7 1, .empty .plain, []⟩) rfl (by decide +kernel)
      (by decide +kernel)

end Log

end AirTrace

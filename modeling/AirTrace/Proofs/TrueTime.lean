import AirTrace.Proofs.Decoding
import AirTrace.Time.Exact

/-!
# The clock follows the true time

The hardware counter shows a true time only modulo `2 ^ 32`.  `Delivers` says how far out of order
the ticks of a run of true times may reach a session: at most the tolerance behind the newest time
so far, and not so far ahead of it that they would look late.  Within that bound nothing is lost:
`Log.clock_follows_true_time` says that every tick is placed exactly where its true time lies, seen
from the tick that fixed the clock, and that the clock stands at the newest true time.

There are three groups.

* One tick.  `place_late` and `place_advance` are the two things that can happen to a tick within
  the bound; the branches of `Clock.place` are told apart by how far the tick lies behind the newest
  one on the circle of the counter (`toNat_behind`).
* One input.  `feed_tick` and `feed_noTick` say what the inputs of a session do to its clock.
* The run.  `Follows` is the invariant: the clock stands at the running maximum of the true times,
  which is `partialSups` of their sequence.
-/

namespace AirTrace

namespace Clock

variable {τ : Type}

/-! ## One tick -/

/-- Where the clock stands on the line on which wraps are counted. -/
def position (c : Clock τ) : ℤ := c.wraps.toNat * 2 ^ 32 + c.newest.toNat

/-- What the hardware counter shows at a true time. -/
def tickAt (t : ℤ) : UInt32 := UInt32.ofNat (t % 2 ^ 32).toNat

theorem toNat_tickAt (t : ℤ) : ((tickAt t).toNat : ℤ) = t % 2 ^ 32 := by
  unfold tickAt
  rw [UInt32.toNat_ofNat']
  omega

theorem tickAt_congr {t u : ℤ} (h : t % 2 ^ 32 = u % 2 ^ 32) : tickAt t = tickAt u := by
  unfold tickAt
  rw [h]

/-- The place of a tick is as far from where the clock was fixed as its true time. -/
theorem wrap_tickAt (t u : ℤ) :
    (t % 2 ^ 32 + (u - t)) / 2 ^ 32 * 2 ^ 32 + (tickAt u).toNat - t % 2 ^ 32 = u - t := by
  rw [toNat_tickAt]
  omega

/-- How far a tick lies behind the newest one, on the circle of the counter. -/
theorem toNat_behind (c : Clock τ) (y : ℤ) :
    ((c.newest - tickAt y).toNat : ℤ) = (c.position - y) % 2 ^ 32 := by
  have htick := toNat_tickAt y
  have hlt := (tickAt y).toNat_lt
  rw [UInt32.toNat_sub]
  unfold position
  omega

/-- A tick at most the tolerance behind the newest one is placed where it belongs, before a wrap or
after it, and the clock stays. -/
theorem place_late {tolerance : UInt32} {c : Clock τ} {y : ℤ}
    (hlate : c.position - tolerance.toNat ≤ y) (hbehind : y < c.position) :
    c.place tolerance (tickAt y) = (y / 2 ^ 32, c) := by
  have htick := toNat_tickAt y
  have hcircle := toNat_behind c y
  have hnewest := c.newest.toNat_lt
  have htolerance := tolerance.toNat_lt
  have hcond : c.newest - tickAt y ≠ 0 ∧ c.newest - tickAt y ≤ tolerance := by
    rw [ne_eq, ← UInt32.toNat_inj, UInt32.toNat_zero, UInt32.le_iff_toNat_le]
    omega
  unfold place
  simp only [if_pos hcond, Prod.mk.injEq, and_true]
  unfold position at hlate hbehind hcircle
  split
  · rename_i h
    rw [gt_iff_lt, UInt32.lt_iff_toNat_lt] at h
    omega
  · rename_i h
    rw [gt_iff_lt, UInt32.lt_iff_toNat_lt] at h
    omega

/-- A tick that is not behind the newest one, nor so far ahead that it looks late, moves the clock
to its place. -/
theorem place_advance {tolerance : UInt32} {c : Clock τ} {y : ℤ}
    (hahead : c.position ≤ y) (hearly : y ≤ c.position + 2 ^ 32 - 1 - tolerance.toNat)
    (hwraps : y < 2 ^ 64) :
    (c.place tolerance (tickAt y)).1 = y / 2 ^ 32 ∧
      (c.place tolerance (tickAt y)).2.position = y ∧
      (c.place tolerance (tickAt y)).2.offset = c.offset := by
  have htick := toNat_tickAt y
  have hcircle := toNat_behind c y
  have hnewest := c.newest.toNat_lt
  have hcond : ¬ (c.newest - tickAt y ≠ 0 ∧ c.newest - tickAt y ≤ tolerance) := by
    rw [ne_eq, ← UInt32.toNat_inj, UInt32.toNat_zero, UInt32.le_iff_toNat_le]
    omega
  have hwrap : ((if tickAt y < c.newest then c.wraps + 1 else c.wraps).toNat : ℤ) = y / 2 ^ 32 := by
    unfold position at hahead hearly
    split
    · rename_i h
      rw [UInt32.lt_iff_toNat_lt] at h
      rw [UInt32.toNat_add, UInt32.toNat_one]
      omega
    · rename_i h
      rw [UInt32.lt_iff_toNat_lt] at h
      omega
  unfold place
  simp only [if_neg hcond, and_true]
  refine ⟨hwrap, ?_⟩
  unfold position
  simp only
  omega

/-- Within the bound a tick is placed at its true time, and the clock stands at the later of its old
position and the tick's. -/
theorem place_position {tolerance : UInt32} {c : Clock τ} {y : ℤ}
    (hlate : c.position - tolerance.toNat ≤ y)
    (hearly : y ≤ c.position + 2 ^ 32 - 1 - tolerance.toNat) (hwraps : y < 2 ^ 64) :
    (c.place tolerance (tickAt y)).1 = y / 2 ^ 32 ∧
      (c.place tolerance (tickAt y)).2.position = max c.position y ∧
      (c.place tolerance (tickAt y)).2.offset = c.offset ∧
      (y < c.position → (c.place tolerance (tickAt y)).2 = c) := by
  by_cases hbehind : y < c.position
  · rw [place_late hlate hbehind]
    exact ⟨rfl, by rw [max_eq_left (by omega)], rfl, fun _ => rfl⟩
  · obtain ⟨hwrap, hposition, hoffset⟩ := place_advance (by omega) hearly hwraps
    refine ⟨hwrap, ?_, hoffset, fun h => absurd h hbehind⟩
    rw [hposition, max_eq_right (by omega)]

theorem position_fixAt [TimeScale τ] (s : Settings τ) (t : ℤ) (epoch : τ) :
    (fixAt s (tickAt t) epoch).position = t % 2 ^ 32 := by
  rw [← toNat_tickAt]
  simp [position, fixAt]

/-- Over exact seconds the time of a tick is as many ticks after the offset as its place says. -/
theorem time_eq (s : Settings ℚ) (c : Clock ℚ) (wrap : ℤ) (tick : UInt32) :
    c.time s wrap tick = c.offset + ((wrap * 2 ^ 32 + tick.toNat : ℤ) : ℚ) / s.tickRate := by
  show c.offset + ((tick.toNat : ℤ) : ℚ) / s.tickRate +
    (wrap : ℚ) * (((4294967296 : ℤ) : ℚ) / s.tickRate) = _
  push_cast
  ring

/-- So it is the distance from the tick that fixed the clock, at the rate of the counter. -/
theorem time_fixAt (s : Settings ℚ) (hrate : 0 < s.tickRate) (fixed tick : UInt32) (epoch : ℚ)
    (wrap : ℤ) :
    (fixAt s fixed epoch).time s wrap tick =
      ((wrap * 2 ^ 32 + tick.toNat - fixed.toNat : ℤ) : ℚ) / s.tickRate := by
  have hne : s.tickRate ≠ 0 := ne_of_gt hrate
  have hoffset : (fixAt s fixed epoch).offset = -((fixed.toNat : ℤ) : ℚ) / s.tickRate := rfl
  rw [time_eq, hoffset]
  push_cast
  field_simp
  ring

end Clock

/-! ## One input -/

namespace Tracker

variable {τ : Type} [TimeScale τ]

/-- Receiving a frame stamps its tick, and all else it does leaves the clock alone. -/
theorem receive_clock (t : Tracker τ) (now : τ) (f : Frame) :
    (t.receive now f).2.clock = (t.stamp now f.tick).2.clock ∧
      (t.receive now f).2.settings = t.settings ∧
      (t.receive now f).1.stamped.time = (t.stamp now f.tick).1 := by
  obtain ⟨hclock, _, hsettings⟩ := decode_keeps (t.attach now f).2 (t.attach now f).1
  exact ⟨hclock.trans (by rw [attach_eq]), hsettings.trans (by rw [attach_eq]), rfl⟩

/-- An input with a tick has a fixed clock place it, and the packet it makes has the time of that
place. -/
theorem feed_tick {t : Tracker τ} {c : Clock τ} (hclock : t.clock = some c) {i : Input τ}
    {k : UInt32} (hk : i.tick? = some k) :
    (t.feed i).2.clock = some (c.place t.settings.lateTicks k).2 ∧
      (t.feed i).2.settings = t.settings ∧
      ∀ p, (t.feed i).1 = some p →
        p.stamped.time = c.time t.settings (c.place t.settings.lateTicks k).1 k := by
  cases i with
  | frame now f =>
    obtain rfl : f.tick = k := Option.some.inj hk
    obtain ⟨hnext, hsettings, htime⟩ := receive_clock t now f
    simp only [stamp, hclock, Option.getD_some, Clock.stamp] at hnext htime
    refine ⟨hnext, hsettings, ?_⟩
    intro p hp
    obtain rfl := Option.some.inj hp
    exact htime
  | marker now k' =>
    obtain rfl : k' = k := Option.some.inj hk
    simp [feed, stamp, hclock, Clock.stamp]
  | _ => exact absurd hk (by simp [Input.tick?])

/-- An input without a tick, a later fixing of the clock among them, leaves a fixed clock alone. -/
theorem feed_noTick {t : Tracker τ} {c : Clock τ} (hclock : t.clock = some c) {i : Input τ}
    (hi : i.tick? = none) (hreset : i ≠ .reset) :
    (t.feed i).2.clock = some c ∧ (t.feed i).2.settings = t.settings := by
  cases i with
  | frame | marker => exact absurd hi (by simp [Input.tick?])
  | mode m =>
    show (t.report m).clock = some c ∧ (t.report m).settings = t.settings
    rw [report_eq]
    exact ⟨hclock, rfl⟩
  | fixClock k epoch =>
    show (t.fixClock k epoch).clock = some c ∧ (t.fixClock k epoch).settings = t.settings
    rw [fixClock_eq, hclock]
    exact ⟨rfl, rfl⟩
  | reset => exact absurd rfl hreset
  | nothing => exact ⟨hclock, rfl⟩

/-- The first input that can fix a clock fixes it at its tick. -/
theorem feed_fixTick {t : Tracker τ} (hclock : t.clock = none) {i : Input τ} {k : UInt32}
    (hk : i.fixTick? = some k) :
    ∃ epoch, (t.feed i).2.clock = some (.fixAt t.settings k epoch) ∧
      (t.feed i).2.settings = t.settings ∧
      ∀ p, (t.feed i).1 = some p →
        p.stamped.time = (Clock.fixAt t.settings k epoch).time t.settings 0 k := by
  have hplace : ∀ epoch, (Clock.fixAt t.settings k epoch).place t.settings.lateTicks k =
      (0, .fixAt t.settings k epoch) := by
    intro epoch
    simp [Clock.place, Clock.fixAt]
  cases i with
  | frame now f =>
    obtain rfl : f.tick = k := Option.some.inj hk
    obtain ⟨hnext, hsettings, htime⟩ := receive_clock t now f
    simp only [stamp, hclock, Option.getD_none, Clock.stamp, hplace] at hnext htime
    refine ⟨now, hnext, hsettings, ?_⟩
    intro p hp
    obtain rfl := Option.some.inj hp
    exact htime
  | marker now k' =>
    obtain rfl : k' = k := Option.some.inj hk
    refine ⟨now, ?_, rfl, by simp [feed]⟩
    simp [feed, stamp, hclock, Clock.stamp, hplace]
  | fixClock k' epoch =>
    obtain rfl : k' = k := Option.some.inj hk
    refine ⟨epoch, ?_, ?_, by simp [feed]⟩
    · simp [feed, fixClock_eq, hclock]
    · simp [feed, fixClock_eq]
  | _ => exact absurd hk (by simp [Input.fixTick?])

end Tracker

/-! ## The run -/

namespace Log

open Session (Step)

variable {τ : Type} [TimeScale τ]

omit [TimeScale τ] in
/-- The ticks that a list of steps has the clock place. -/
def ticks (xs : List (Step τ)) : List UInt32 := xs.filterMap fun x => x.input.tick?

omit [TimeScale τ] in
/-- A list of steps brings the ticks of the true times `t` to a clock that is not fixed yet.  The
first step fixes the clock, at the tick of `t 0`.  Each later tick lies at most the tolerance behind
the newest true time before it, and not so far ahead of it that it would look late.  Other steps may
come anywhere between, a later fixing of the clock among them, but no reset.  Fewer than `2 ^ 32`
wraps of the counter are passed. -/
structure Delivers (tolerance : UInt32) (t : ℕ → ℤ) (first : Step τ) (rest : List (Step τ)) :
    Prop where
  fixes : first.input.fixTick? = some (Clock.tickAt (t 0))
  noReset : Step.reset ∉ rest
  shows : ∀ n k, (ticks rest)[n]? = some k → k = Clock.tickAt (t (n + 1))
  late : ∀ n < (ticks rest).length, partialSups t n - tolerance.toNat ≤ t (n + 1)
  early : ∀ n < (ticks rest).length,
    t (n + 1) ≤ partialSups t n + 2 ^ 32 - 1 - tolerance.toNat
  wraps : t 0 % 2 ^ 32 + (partialSups t (ticks rest).length - t 0) < 2 ^ 64

/-- The invariant of a delivery: after `n` ticks the clock stands at the newest true time, seen from
the tick that fixed it. -/
def Follows (s : Settings τ) (t : ℕ → ℤ) (epoch : τ) (n : ℕ) (tr : Tracker τ) (c : Clock τ) :
    Prop :=
  tr.clock = some c ∧ tr.settings = s ∧
    c.offset = (Clock.fixAt s (Clock.tickAt (t 0)) epoch).offset ∧
    c.position = t 0 % 2 ^ 32 + (partialSups t n - t 0)

namespace Follows

variable {s : Settings τ} {t : ℕ → ℤ} {epoch : τ} {n : ℕ} {tr : Tracker τ} {c : Clock τ}

/-- The clock is as far from where it was fixed as the newest true time. -/
theorem position_sub (h : Follows s t epoch n tr c) :
    c.position - (Clock.fixAt s (Clock.tickAt (t 0)) epoch).position =
      partialSups t n - t 0 := by
  obtain ⟨_, _, _, hposition⟩ := h
  rw [hposition, Clock.position_fixAt]
  omega

/-- A step that brings no tick keeps the clock. -/
theorem noTick (h : Follows s t epoch n tr c) {i : Tracker.Input τ} (hi : i.tick? = none)
    (hreset : i ≠ .reset) : Follows s t epoch n (tr.feed i).2 c := by
  obtain ⟨hclock, hsettings, hoffset, hposition⟩ := h
  obtain ⟨hnext, hkeep⟩ := Tracker.feed_noTick hclock hi hreset
  exact ⟨hnext, hkeep.trans hsettings, hoffset, hposition⟩

/-- The next tick is placed at its true time, and the clock moves to the running maximum. -/
theorem tick (h : Follows s t epoch n tr c) {i : Tracker.Input τ}
    (hi : i.tick? = some (Clock.tickAt (t (n + 1))))
    (hlate : partialSups t n - s.lateTicks.toNat ≤ t (n + 1))
    (hearly : t (n + 1) ≤ partialSups t n + 2 ^ 32 - 1 - s.lateTicks.toNat)
    (hwraps : t 0 % 2 ^ 32 + (partialSups t (n + 1) - t 0) < 2 ^ 64) :
    (c.place s.lateTicks (Clock.tickAt (t (n + 1)))).1 =
        (t 0 % 2 ^ 32 + (t (n + 1) - t 0)) / 2 ^ 32 ∧
      Follows s t epoch (n + 1) (tr.feed i).2
        (c.place s.lateTicks (Clock.tickAt (t (n + 1)))).2 ∧
      (t (n + 1) < partialSups t n →
        (c.place s.lateTicks (Clock.tickAt (t (n + 1)))).2 = c) := by
  obtain ⟨hclock, hsettings, hoffset, hposition⟩ := h
  have hsup : partialSups t (n + 1) = max (partialSups t n) (t (n + 1)) := partialSups_add_one t n
  rw [hsup] at hwraps
  have hplace : Clock.tickAt (t (n + 1)) = Clock.tickAt (t 0 % 2 ^ 32 + (t (n + 1) - t 0)) :=
    Clock.tickAt_congr (by omega)
  obtain ⟨hnext, hkeep, _⟩ := Tracker.feed_tick hclock hi
  rw [hsettings] at hnext
  rw [hplace] at hnext ⊢
  obtain ⟨hwrap, hnewest, hoffset', hstay⟩ := Clock.place_position (c := c)
    (y := t 0 % 2 ^ 32 + (t (n + 1) - t 0)) (by omega : _ - (s.lateTicks.toNat : ℤ) ≤ _)
    (by omega) (by omega)
  refine ⟨hwrap, ⟨hnext, hkeep.trans hsettings, hoffset'.trans hoffset, ?_⟩, fun hbehind => ?_⟩
  · rw [hnewest, hposition, hsup]
    omega
  · exact hstay (by omega)

end Follows

namespace Delivers

variable {tolerance : UInt32} {t : ℕ → ℤ} {first x : Step τ} {rest xs ys : List (Step τ)}

omit [TimeScale τ] in
theorem ne_reset (h : Delivers tolerance t first rest) (hrest : rest = xs ++ x :: ys) :
    x.input ≠ .reset := by
  intro hx
  apply h.noReset
  rw [hrest, ← Step.input_eq_reset.mp hx]
  exact List.mem_append_right _ List.mem_cons_self

omit [TimeScale τ] in
/-- What the delivery says of the next step that brings a tick. -/
theorem next (h : Delivers tolerance t first rest) (hrest : rest = xs ++ x :: ys) {k : UInt32}
    (hk : x.input.tick? = some k) :
    k = Clock.tickAt (t ((ticks xs).length + 1)) ∧
      partialSups t (ticks xs).length - tolerance.toNat ≤ t ((ticks xs).length + 1) ∧
      t ((ticks xs).length + 1) ≤
        partialSups t (ticks xs).length + 2 ^ 32 - 1 - tolerance.toNat ∧
      t 0 % 2 ^ 32 + (partialSups t ((ticks xs).length + 1) - t 0) < 2 ^ 64 := by
  have hticks : ticks rest = ticks xs ++ k :: ticks ys := by
    simp [ticks, hrest, hk]
  have hlt : (ticks xs).length < (ticks rest).length := by
    rw [hticks, List.length_append, List.length_cons]
    omega
  have hsup : partialSups t ((ticks xs).length + 1) ≤ partialSups t (ticks rest).length :=
    (partialSups t).monotone hlt
  have hwraps := h.wraps
  exact ⟨h.shows _ k (by simp [hticks]), h.late _ hlt, h.early _ hlt, by omega⟩

/-- Along a delivery the clock stands at the newest true time after every step. -/
theorem follows {s : Settings τ} {epoch : τ} {l : Log τ}
    (h : Delivers s.lateTicks t first rest)
    (hstart : Follows s t epoch 0 l.tracker (.fixAt s (Clock.tickAt (t 0)) epoch))
    (hrest : rest = xs ++ ys) : ∃ c, Follows s t epoch (ticks xs).length (l.run xs).tracker c := by
  induction xs using List.reverseRecOn generalizing ys with
  | nil => exact ⟨_, hstart⟩
  | append_singleton xs x ih =>
    have hrest' : rest = xs ++ x :: ys := by rw [hrest, List.append_assoc, List.singleton_append]
    obtain ⟨c, hc⟩ := ih hrest'
    rw [run_snoc, step_tracker]
    cases hk : x.input.tick? with
    | none =>
      have hticks : ticks (xs ++ [x]) = ticks xs := by simp [ticks, hk]
      rw [hticks]
      exact ⟨c, hc.noTick hk (h.ne_reset hrest')⟩
    | some k =>
      have hticks : (ticks (xs ++ [x])).length = (ticks xs).length + 1 := by simp [ticks, hk]
      obtain ⟨rfl, hlate, hearly, hwraps⟩ := h.next hrest' hk
      rw [hticks]
      exact ⟨_, (hc.tick hk hlate hearly hwraps).2.1⟩

end Delivers

/-- Timestamps are exact over whole runs.  Take any session whose clock is not fixed, and any steps
that bring it the ticks of the true times `t` within the bound.  Then the first step fixes the clock
at the tick of `t 0`, and for every later step `x`:

* the clock stands at the newest true time before it, and never goes back;
* if `x` brings no tick, a later fixing of the clock among these, the clock stays;
* if `x` brings the tick of `t (n + 1)`, the tick is placed exactly `t (n + 1) - t 0` after the one
  that fixed the clock, the clock then stands at the newest true time, and a late tick does not move
  it; a packet of `x` has the time of that place, which over exact seconds is
  `(t (n + 1) - t 0) / tickRate`. -/
theorem clock_follows_true_time (l : Log τ) (hclock : l.tracker.clock = none) (t : ℕ → ℤ)
    (first : Step τ) (rest : List (Step τ))
    (h : Delivers l.tracker.settings.lateTicks t first rest) :
    ∃ epoch,
      let s := l.tracker.settings
      let fixed := Clock.tickAt (t 0)
      let c₀ := Clock.fixAt s fixed epoch
      (l.step first).tracker.clock = some c₀ ∧
      (∀ p, (l.session.step first).1 = some p → p.stamped.time = c₀.time s 0 fixed) ∧
      ∀ before x after, rest = before ++ x :: after →
        ∃ c c', ((l.step first).run before).tracker.clock = some c ∧
          ((l.step first).run (before ++ [x])).tracker.clock = some c' ∧
          c.position - c₀.position = partialSups t (ticks before).length - t 0 ∧
          c.position ≤ c'.position ∧
          (x.input.tick? = none → c' = c) ∧
          ∀ k, x.input.tick? = some k →
            let n := (ticks before).length
            let wrap := (c.place s.lateTicks k).1
            wrap * 2 ^ 32 + k.toNat - c₀.position = t (n + 1) - t 0 ∧
            c'.position - c₀.position = partialSups t (n + 1) - t 0 ∧
            (t (n + 1) < partialSups t n → c' = c) ∧
            (∀ p, (((l.step first).run before).session.step x).1 = some p →
              p.stamped.time = c₀.time s wrap k) ∧
            ∀ (e : Settings ℚ) (epoch : ℚ), 0 < e.tickRate →
              (Clock.fixAt e fixed epoch).time e wrap k = (t (n + 1) - t 0 : ℤ) / e.tickRate := by
  obtain ⟨epoch, hfixed, hsettings, htime⟩ := Tracker.feed_fixTick hclock h.fixes
  have hstart : Follows l.tracker.settings t epoch 0 (l.step first).tracker
      (.fixAt l.tracker.settings (Clock.tickAt (t 0)) epoch) := by
    rw [step_tracker]
    refine ⟨hfixed, hsettings, rfl, ?_⟩
    rw [Clock.position_fixAt, partialSups_zero]
    omega
  refine ⟨epoch, hstart.1, ?_, ?_⟩
  · intro p hp
    rw [Session.step_packet] at hp
    exact htime p hp
  intro before x after hrest
  -- Before `x` the clock stands at the newest true time of the steps before it.
  obtain ⟨c, hc⟩ := h.follows hstart hrest
  rw [run_snoc, step_tracker]
  cases hk : x.input.tick? with
  | none =>
    have hkeep := (hc.noTick hk (h.ne_reset hrest)).1
    refine ⟨c, c, hc.1, hkeep, hc.position_sub, le_refl _, fun _ => rfl, ?_⟩
    intro k hk'
    exact absurd hk' (by simp)
  | some k =>
    obtain ⟨rfl, hlate, hearly, hwraps⟩ := h.next hrest hk
    obtain ⟨hwrap, hc', hstay⟩ := hc.tick hk hlate hearly hwraps
    have hforward : c.position ≤ (c.place l.tracker.settings.lateTicks
        (Clock.tickAt (t ((ticks before).length + 1)))).2.position := by
      have hsup : partialSups t (ticks before).length ≤ partialSups t ((ticks before).length + 1) :=
        (partialSups t).monotone (Nat.le_succ _)
      have hold := hc.position_sub
      have hnew := hc'.position_sub
      omega
    refine ⟨c, _, hc.1, hc'.1, hc.position_sub, hforward, by simp, ?_⟩
    intro k hk'
    obtain rfl := Option.some.inj hk'
    have hplaced := Clock.wrap_tickAt (t 0) (t ((ticks before).length + 1))
    dsimp only
    rw [hwrap]
    refine ⟨?_, hc'.position_sub, hstay, ?_, ?_⟩
    · rw [Clock.position_fixAt]
      exact hplaced
    · intro p hp
      rw [Session.step_packet] at hp
      rw [(Tracker.feed_tick hc.1 hk).2.2 p hp, hc.2.1, hwrap]
      unfold Clock.time
      rw [hc.2.2.1]
    · intro e epoch' hrate
      rw [Clock.time_fixAt e hrate, Clock.toNat_tickAt (t 0), hplaced]

/-- True times around a wrap of the counter: the third lies before it and arrives after it. -/
def timesAtWrap : ℕ → ℤ
  | 0 => 4294967290
  | 1 => 4294967301
  | 2 => 4294967292
  | _ => 4294967316

/-- A frame without a body. -/
def blankFrame (tick : UInt32) : Frame :=
  ⟨tick, .centralToPeripheral, false, 0, 0, 37, .le1M, [], none, none⟩

/-- The steps after the first that bring `timesAtWrap`, the late one as a marker. -/
def stepsAtWrap : List (Step ℚ) :=
  [.frame 0 (blankFrame 5), .fixClock 77 0, .message 0 [0, 0x12, 0xFC, 0xFF, 0xFF, 0xFF],
    .frame 0 (blankFrame 20)]

theorem delivers_stepsAtWrap :
    Delivers (Settings.standard : Settings ℚ).lateTicks timesAtWrap
      (.frame 0 (blankFrame 4294967290)) stepsAtWrap := by
  have htolerance : (Settings.standard : Settings ℚ).lateTicks = 1000000 := by decide +kernel
  have hticks : ticks stepsAtWrap = [5, 4294967292, 20] := by decide +kernel
  rw [htolerance]
  refine ⟨by decide +kernel, by simp [stepsAtWrap], ?_, ?_, ?_, ?_⟩
  · rw [hticks]
    intro n k hk
    match n with
    | 0 | 1 | 2 =>
      obtain rfl := Option.some.inj hk
      decide +kernel
  · rw [hticks]
    decide +kernel
  · rw [hticks]
    decide +kernel
  · rw [hticks]
    decide +kernel

/-- The last frame is 26 microseconds after the first, with a wrap, a late marker and a second
fixing of the clock between them. -/
theorem clock_follows_true_time_at_wrap :
    ∃ p, (((start (Settings.standard : Settings ℚ)).run
      (.frame 0 (blankFrame 4294967290) :: stepsAtWrap.take 3)).session.step
        (.frame 0 (blankFrame 20))).1 = some p ∧ p.stamped.time = 26 / 1000000 := by
  have hticks : (ticks (stepsAtWrap.take 3)).length = 2 := by decide +kernel
  have hrate : (0 : ℚ) < (Settings.standard : Settings ℚ).tickRate := by decide +kernel
  obtain ⟨epoch, _, _, hsteps⟩ := clock_follows_true_time
    (start (Settings.standard : Settings ℚ)) rfl timesAtWrap _ _ delivers_stepsAtWrap
  obtain ⟨c, _, _, _, _, _, _, htick⟩ :=
    hsteps (stepsAtWrap.take 3) (.frame 0 (blankFrame 20)) [] rfl
  obtain ⟨_, _, _, htime, hexact⟩ := htick 20 rfl
  refine ⟨_, rfl, (htime _ rfl).trans ?_⟩
  rw [hticks] at hexact
  exact (hexact Settings.standard epoch hrate).trans (by decide +kernel)

end Log

end AirTrace

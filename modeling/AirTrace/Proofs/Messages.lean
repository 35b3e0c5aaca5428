import AirTrace.Proofs.TrueTime

/-!
# Messages that leave no trace

A message that cannot be read is dropped, and a debug text or a measurement is only passed on.  So a
session that never gets them answers all other messages as one that does, and ends in the same
state; only the counters of messages and of framing errors tell the two apart.

There are three groups.

* The messages.  `isOmitted` says of an envelope that it can be left out, `hasTick` that its message
  can fix the clock.
* One message.  `Ahead` is the relation between the two sessions: they have the same tracker, and
  one has counted some more messages and framing errors.  A message that is left out adds to what it
  is ahead by (`Ahead.leaveOut`), and any other keeps it (`Ahead.handle`).
* All messages.  `handleAll_leaveOut` follows by induction.
-/

namespace AirTrace

/-! ## The messages -/

namespace Message

/-- The envelope holds no message. -/
def isRejected (envelope : Octets) : Bool :=
  match ofEnvelope envelope with
  | .error _ => true
  | .ok _ => false

/-- The envelope can be left out: it holds no message, or one that is only passed on. -/
def isOmitted (envelope : Octets) : Bool :=
  match ofEnvelope envelope with
  | .error _ | .ok (.debug _) | .ok (.measurement _) => true
  | .ok (.packet _) | .ok (.marker _) | .ok (.mode _) => false

/-- The message has a tick, which fixes a clock that is not fixed yet. -/
def hasTick (envelope : Octets) : Bool :=
  match ofEnvelope envelope with
  | .ok (.packet _) | .ok (.marker _) => true
  | .error _ | .ok (.debug _) | .ok (.mode _) | .ok (.measurement _) => false

theorem hasTick_of_isOmitted {envelope : Octets} (h : isOmitted envelope = true) :
    hasTick envelope = false := by
  unfold isOmitted at h
  unfold hasTick
  split at h
  · next he => rw [he]
  · next he => rw [he]
  · next he => rw [he]
  all_goals cases h

theorem isRejected_of_not_isOmitted {envelope : Octets} (h : isOmitted envelope = false) :
    isRejected envelope = false := by
  unfold isOmitted at h
  unfold isRejected
  split
  · next he =>
    rw [he] at h
    cases h
  · rfl

/-- The present time at the first message with a tick: the time that a clock is fixed to. -/
def fixingTime? {τ : Type} (xs : List (τ × Octets)) : Option τ :=
  (xs.find? fun x => hasTick x.2).map Prod.fst

section FixingTime

variable {τ : Type} (now : τ) {envelope : Octets} (xs : List (τ × Octets))

theorem fixingTime?_cons_of_hasTick (h : hasTick envelope = true) :
    fixingTime? ((now, envelope) :: xs) = some now := by
  unfold fixingTime?
  rw [List.find?_cons, h]
  rfl

theorem fixingTime?_cons_of_not_hasTick (h : hasTick envelope = false) :
    fixingTime? ((now, envelope) :: xs) = fixingTime? xs := by
  unfold fixingTime?
  rw [List.find?_cons, h]

end FixingTime

end Message

open Message (isRejected isOmitted hasTick fixingTime?)

namespace Session

variable {τ : Type} [TimeScale τ]

/-- Takes messages in their envelopes one after the other, each with the present time: what comes of
each, and the session after all. -/
def handleAll (s : Session τ) :
    List (τ × Octets) → List (Except MessageError (Event τ)) × Session τ
  | [] => ([], s)
  | (now, envelope) :: rest =>
      let (x, s) := s.handle now envelope
      let (xs, s) := handleAll s rest
      (x :: xs, s)

theorem handleAll_cons (s : Session τ) (now : τ) (envelope : Octets) (rest : List (τ × Octets)) :
    s.handleAll ((now, envelope) :: rest) =
      ((s.handle now envelope).1 :: ((s.handle now envelope).2.handleAll rest).1,
        ((s.handle now envelope).2.handleAll rest).2) := rfl

theorem length_handleAll (s : Session τ) (xs : List (τ × Octets)) :
    (s.handleAll xs).1.length = xs.length := by
  induction xs generalizing s with
  | nil => rfl
  | cons x xs ih => exact congrArg (· + 1) (ih _)

/-! ## One message -/

/-- A message without a tick leaves a clock unfixed, and any other fixes it. -/
theorem clock_of_handle {s : Session τ} {now : τ} {envelope : Octets}
    (h : (s.handle now envelope).2.tracker.clock = none) :
    s.tracker.clock = none ∧ hasTick envelope = false := by
  unfold handle at h
  unfold hasTick
  cases hmessage : Message.ofEnvelope envelope with
  | error e =>
    rw [hmessage] at h
    exact ⟨h, rfl⟩
  | ok m =>
    rw [hmessage] at h
    cases m with
    | packet f =>
      have hclock := (s.tracker.receive_clock now f).1.symm.trans h
      cases hclock
    | marker m => cases h
    | mode m =>
      have hclock : (s.tracker.report m).clock = none := h
      rw [Tracker.report_eq] at hclock
      exact ⟨hclock, rfl⟩
    | debug text | measurement m => exact ⟨h, rfl⟩

/-- A session has the tracker of another, and has counted so many more messages and framing
errors. -/
structure Ahead (messages errors : Nat) (s t : Session τ) : Prop where
  tracker : s.tracker = t.tracker
  stats : s.stats = { t.stats with
    messages := t.stats.messages + messages
    framingErrors := t.stats.framingErrors + errors }

namespace Ahead

variable {m n : Nat} {s t : Session τ}

/-- A message that can be left out changes the counters only. -/
theorem leaveOut (h : Ahead m n s t) (now : τ) {envelope : Octets}
    (homitted : isOmitted envelope = true) :
    Ahead (m + 1) (n + (isRejected envelope).toNat) (s.handle now envelope).2 t := by
  unfold isOmitted at homitted
  unfold isRejected handle
  cases hmessage : Message.ofEnvelope envelope with
  | error e =>
    refine ⟨h.tracker, ?_⟩
    simp only [countFramingError, countMessage, h.stats]
    rfl
  | ok message =>
    rw [hmessage] at homitted
    cases message with
    | packet | marker | mode => cases homitted
    | debug | measurement =>
      refine ⟨h.tracker, ?_⟩
      simp only [take, countMessage, h.stats]
      rfl

omit [TimeScale τ] in
theorem countMessage (h : Ahead m n s t) : Ahead m n s.countMessage t.countMessage := by
  refine ⟨h.tracker, ?_⟩
  simp only [Session.countMessage, h.stats, Nat.add_right_comm]

theorem process (h : Ahead m n s t) {now now' : τ} {f : Frame}
    (hreceive : t.tracker.receive now f = t.tracker.receive now' f) :
    (s.process now f).1 = (t.process now' f).1 ∧
      Ahead m n (s.process now f).2 (t.process now' f).2 := by
  unfold Session.process
  rw [h.tracker, hreceive]
  refine ⟨rfl, rfl, ?_⟩
  simp only [h.stats]
  rfl

/-- Any other message is taken alike, at the same time if it fixes the clock. -/
theorem handle (h : Ahead m n s t) {now now' : τ} {envelope : Octets}
    (hkept : isOmitted envelope = false)
    (hnow : t.tracker.clock = none → hasTick envelope = true → now = now') :
    (s.handle now envelope).1 = (t.handle now' envelope).1 ∧
      Ahead m n (s.handle now envelope).2 (t.handle now' envelope).2 := by
  unfold isOmitted at hkept
  unfold hasTick at hnow
  unfold Session.handle
  cases hmessage : Message.ofEnvelope envelope with
  | error e =>
    rw [hmessage] at hkept
    cases hkept
  | ok message =>
    rw [hmessage] at hkept hnow
    cases message with
    | debug | measurement => cases hkept
    | packet f =>
      have hreceive : t.tracker.receive now f = t.tracker.receive now' f := by
        cases hclock : t.tracker.clock with
        | none => rw [hnow hclock rfl]
        | some c => exact Tracker.receive_of_clock hclock now now' f
      obtain ⟨hpacket, hafter⟩ := h.countMessage.process hreceive
      exact ⟨congrArg (fun p => Except.ok (Event.packet p)) hpacket, hafter⟩
    | marker marker =>
      have hstamp : t.tracker.stamp now marker.tick = t.tracker.stamp now' marker.tick := by
        cases hclock : t.tracker.clock with
        | none => rw [hnow hclock rfl]
        | some c => exact Tracker.stamp_of_clock hclock now now' marker.tick
      refine ⟨rfl, ?_, h.countMessage.stats⟩
      show (s.tracker.stamp now marker.tick).2 = (t.tracker.stamp now' marker.tick).2
      rw [h.tracker, hstamp]
    | mode mode =>
      refine ⟨rfl, ?_, h.countMessage.stats⟩
      show s.tracker.report mode = t.tracker.report mode
      rw [h.tracker]

/-! ## All messages -/

/-- Leaving messages out changes none of the answers to the others, and a session is ahead of one
that does not get them by just these. -/
theorem handleAll (h : Ahead m n s t) {xs ys : List (τ × Octets)}
    (henvelopes : ys.map Prod.snd = (xs.map Prod.snd).filter fun e => !isOmitted e)
    (htime : t.tracker.clock = none → fixingTime? xs = fixingTime? ys) :
    ((xs.zip (s.handleAll xs).1).filter fun x => !isOmitted x.1.2).map Prod.snd =
        (t.handleAll ys).1 ∧
      Ahead (m + xs.countP (isOmitted ·.2)) (n + xs.countP (isRejected ·.2)) (s.handleAll xs).2
        (t.handleAll ys).2 := by
  induction xs generalizing s t m n ys with
  | nil =>
    obtain rfl := List.map_eq_nil_iff.mp henvelopes
    exact ⟨rfl, h⟩
  | cons x xs ih =>
    obtain ⟨now, envelope⟩ := x
    cases homitted : isOmitted envelope with
    | true =>
      have hnoTick := Message.hasTick_of_isOmitted homitted
      rw [List.map_cons, List.filter_cons_of_neg (by simp [homitted])] at henvelopes
      rw [Message.fixingTime?_cons_of_not_hasTick now xs hnoTick] at htime
      obtain ⟨hevents, hafter⟩ := ih (h.leaveOut now homitted) henvelopes htime
      rw [handleAll_cons, List.zip_cons_cons, List.filter_cons_of_neg (by simp [homitted]),
        add_countP_cons, add_countP_cons, homitted]
      exact ⟨hevents, hafter⟩
    | false =>
      rw [List.map_cons, List.filter_cons_of_pos (by simp [homitted])] at henvelopes
      obtain ⟨⟨now', envelope'⟩, ys', rfl, hsame, hrest⟩ := List.map_eq_cons_iff.mp henvelopes
      obtain rfl : envelope' = envelope := hsame
      have hnow : t.tracker.clock = none → hasTick envelope' = true → now = now' := by
        intro hclock htick
        have hboth := htime hclock
        rw [Message.fixingTime?_cons_of_hasTick _ _ htick,
          Message.fixingTime?_cons_of_hasTick _ _ htick] at hboth
        exact Option.some.inj hboth
      have htime' : (t.handle now' envelope').2.tracker.clock = none →
          fixingTime? xs = fixingTime? ys' := by
        intro hclock
        obtain ⟨hunfixed, hnoTick⟩ := clock_of_handle hclock
        have hboth := htime hunfixed
        rwa [Message.fixingTime?_cons_of_not_hasTick _ _ hnoTick,
          Message.fixingTime?_cons_of_not_hasTick _ _ hnoTick] at hboth
      obtain ⟨hevent, hnext⟩ := h.handle homitted hnow
      obtain ⟨hevents, hafter⟩ := ih hnext hrest htime'
      rw [handleAll_cons, handleAll_cons, List.zip_cons_cons,
        List.filter_cons_of_pos (by simp [homitted]), List.map_cons, hevents, hevent,
        add_countP_cons, add_countP_cons, homitted, Message.isRejected_of_not_isOmitted homitted]
      exact ⟨rfl, hafter⟩

end Ahead

/-- A session that gets some messages, and one that gets those among them that can be read and are
more than passed on, give the same answers to these and end in the same state, with the same
counters of packets.  If the clock is still to be fixed, both fix it to the same time. -/
theorem handleAll_leaveOut (s : Session τ) {xs ys : List (τ × Octets)}
    (henvelopes : ys.map Prod.snd = (xs.map Prod.snd).filter fun e => !isOmitted e)
    (htime : s.tracker.clock = none → fixingTime? xs = fixingTime? ys) :
    let all := s.handleAll xs
    let kept := s.handleAll ys
    all.1.length = xs.length ∧
      ((xs.zip all.1).filter fun x => !isOmitted x.1.2).map Prod.snd = kept.1 ∧
      all.2.tracker = kept.2.tracker ∧
      all.2.stats.packets = kept.2.stats.packets ∧
      all.2.stats.decodeErrors = kept.2.stats.decodeErrors ∧
      all.2.stats.crcChecked = kept.2.stats.crcChecked ∧
      all.2.stats.crcValid = kept.2.stats.crcValid ∧
      all.2.stats.messages = kept.2.stats.messages + xs.countP (isOmitted ·.2) ∧
      all.2.stats.framingErrors = kept.2.stats.framingErrors + xs.countP (isRejected ·.2) := by
  intro all kept
  have hstart : Ahead 0 0 s s := ⟨rfl, rfl⟩
  obtain ⟨hevents, htracker, hstats⟩ := hstart.handleAll henvelopes htime
  rw [Nat.zero_add, Nat.zero_add] at hstats
  refine ⟨s.length_handleAll xs, hevents, htracker, ?_⟩
  rw [hstats]
  exact ⟨rfl, rfl, rfl, rfl, rfl, rfl⟩

/-- An empty envelope, a debug text, an advertisement, a measurement, a mode, a marker and half a
frame, with the seconds at which they come. -/
def mixedMessages : List (ℚ × Octets) :=
  [(0, []), (1, [0, 0x11, 72, 105]),
    (2, [0, 0x10, 1, 0, 0, 0, 8, 0, 0, 0, 0xD0, 37, 2, 6, 0x11, 0x22, 0x33, 0x44, 0x55, 0x66]),
    (3, [0, 0x14, 0, 24, 0]), (4, [0, 0x13, 6]), (5, [0, 0x12, 9, 0, 0, 0]), (6, [0, 0x10, 1, 2])]

/-- Of these, the advertisement, the mode and the marker are all that counts, and of the times only
that of the first does. -/
theorem handleAll_leaveOut_mixedMessages :
    let s := Session.start (Settings.standard : Settings ℚ)
    let kept : List (ℚ × Octets) :=
      [(2, mixedMessages[2].2), (20, [0, 0x13, 6]), (20, [0, 0x12, 9, 0, 0, 0])]
    (s.handleAll mixedMessages).2.tracker = (s.handleAll kept).2.tracker ∧
      (s.handleAll mixedMessages).2.stats.packets = (s.handleAll kept).2.stats.packets ∧
      (s.handleAll mixedMessages).2.stats.messages = (s.handleAll kept).2.stats.messages + 4 ∧
      (s.handleAll mixedMessages).2.stats.framingErrors =
        (s.handleAll kept).2.stats.framingErrors + 2 := by
  intro s kept
  obtain ⟨_, _, htracker, hpackets, _, _, _, hmessages, herrors⟩ :=
    @handleAll_leaveOut ℚ _ s mixedMessages kept (by decide +kernel) (fun _ => rfl)
  exact ⟨htracker, hpackets, hmessages, herrors⟩

end Session

end AirTrace

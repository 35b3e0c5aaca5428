import Mathlib
import AirTrace.Session

/-!
# Runs of a session

What a session does over its life is a list of steps, and a claim about the life of a session is a
claim about every such list.  `Log` keeps the packets that a session has decoded since it started or
was last reset beside the session, so that a later state can be compared with what was heard before.

Three facts carry the proofs about runs.

* `Session.step_eq`: whatever its form, a step reaches the tracker as one of six inputs.
* `Log.invariant`: a relation between the tracker and the packets heard that every input keeps holds
  after every run.
* `Log.run_calls`: the frames of several receivers count as steps one by one.
-/

namespace AirTrace

/-- A counter that counts a list takes its first entry first. -/
theorem add_countP_cons {α : Type} (f : α → Bool) (n : Nat) (a : α) (l : List α) :
    n + (a :: l).countP f = n + (f a).toNat + l.countP f := by
  rw [List.countP_cons]
  cases f a
  · rfl
  · simp only [if_true, Bool.toNat_true]
    omega

/-! ## Steps -/

namespace Session

/-- One step of a session.  The present time is given where it could fix the clock. -/
inductive Step (τ : Type) where
  | frame (now : τ) (f : Frame)
  /-- A message of the firmware in its envelope, well formed or not. -/
  | message (now : τ) (envelope : Octets)
  | fixClock (tick : UInt32) (epoch : τ)
  | framingError
  | reset

/-- A call of a session: one step, or the frames of several receivers. -/
inductive Call (τ : Type) where
  | one (x : Step τ)
  | candidates (now : τ) (batches : List (List Candidate))

/-- The steps of a call. -/
def Call.steps {τ : Type} : Call τ → List (Step τ)
  | one x => [x]
  | candidates now batches => (Candidate.merge batches).map (.frame now)

variable {τ : Type} [TimeScale τ]

/-- The packet that an answer to a message holds. -/
def packet? : Except MessageError (Event τ) → Option (Packet τ)
  | .ok (.packet p) => some p
  | _ => none

/-- Takes a step: the packet decoded, if one was, and the session after it. -/
def step (s : Session τ) : Step τ → Option (Packet τ) × Session τ
  | .frame now f =>
      let (p, s) := s.process now f
      (some p, s)
  | .message now envelope =>
      let (e, s) := s.handle now envelope
      (packet? e, s)
  | .fixClock tick epoch => (none, s.fixClock tick epoch)
  | .framingError => (none, s.countFramingError)
  | .reset => (none, s.reset)

/-- Makes a call. -/
def call (s : Session τ) : Call τ → Session τ
  | .one x => (s.step x).2
  | .candidates now batches => (s.processCandidates now batches).2

end Session

/-! ## What reaches the tracker -/

namespace Tracker

/-- What a step of a session does to its tracker. -/
inductive Input (τ : Type) where
  | frame (now : τ) (f : Frame)
  | marker (now : τ) (tick : UInt32)
  | mode (m : Mode)
  | fixClock (tick : UInt32) (epoch : τ)
  | reset
  /-- Nothing at all: a debug text, a measurement, or what could not be read. -/
  | nothing

namespace Input

variable {τ : Type}

/-- The frame of an input. -/
def frame? : Input τ → Option Frame
  | frame _ f => some f
  | _ => none

theorem frame?_eq_some {i : Input τ} {f : Frame} :
    i.frame? = some f ↔ ∃ now, i = .frame now f := by
  cases i with
  | frame now f' => simp [frame?]
  | _ => simp [frame?]

/-- The tick that an input has the clock place. -/
def tick? : Input τ → Option UInt32
  | frame _ f => some f.tick
  | marker _ k => some k
  | _ => none

/-- The tick at which an input fixes a clock that is not fixed yet. -/
def fixTick? : Input τ → Option UInt32
  | frame _ f => some f.tick
  | marker _ k | fixClock k _ => some k
  | _ => none

end Input

variable {τ : Type} [TimeScale τ]

/-- Takes an input: the packet decoded, if one was, and the tracker after it. -/
def feed (t : Tracker τ) : Input τ → Option (Packet τ) × Tracker τ
  | .frame now f => (some (t.receive now f).1, (t.receive now f).2)
  | .marker now k => (none, (t.stamp now k).2)
  | .mode m => (none, t.report m)
  | .fixClock k epoch => (none, t.fixClock k epoch)
  | .reset => (none, .start t.settings)
  | .nothing => (none, t)

/-- Only a frame makes a packet. -/
theorem feed_packet {t : Tracker τ} {i : Input τ} {p : Packet τ} (hp : (t.feed i).1 = some p) :
    ∃ now f, i = .frame now f ∧ p = (t.receive now f).1 := by
  cases i with
  | frame now f => exact ⟨now, f, rfl, (Option.some.inj hp).symm⟩
  | _ => exact absurd hp (by simp [feed])

end Tracker

namespace Session

/-- What a step does to the tracker. -/
def Step.input {τ : Type} : Step τ → Tracker.Input τ
  | .frame now f => .frame now f
  | .message now envelope => match Message.ofEnvelope envelope with
      | .ok (.packet f) => .frame now f
      | .ok (.marker m) => .marker now m.tick
      | .ok (.mode m) => .mode m
      | .ok (.debug _) | .ok (.measurement _) | .error _ => .nothing
  | .fixClock tick epoch => .fixClock tick epoch
  | .framingError => .nothing
  | .reset => .reset

variable {τ : Type} [TimeScale τ]

/-- A step decodes what its input decodes, and leaves the tracker as its input leaves it. -/
theorem step_eq (s : Session τ) (x : Step τ) :
    (s.step x).1 = (s.tracker.feed x.input).1 ∧
      (s.step x).2.tracker = (s.tracker.feed x.input).2 := by
  cases x with
  | frame now f => exact ⟨rfl, rfl⟩
  | fixClock tick epoch => exact ⟨rfl, rfl⟩
  | framingError => exact ⟨rfl, rfl⟩
  | reset => exact ⟨rfl, rfl⟩
  | message now envelope =>
    simp only [step, handle, Step.input]
    cases Message.ofEnvelope envelope with
    | error e => exact ⟨rfl, rfl⟩
    | ok m => cases m <;> exact ⟨rfl, rfl⟩

@[simp] theorem step_packet (s : Session τ) (x : Step τ) :
    (s.step x).1 = (s.tracker.feed x.input).1 := (s.step_eq x).1

@[simp] theorem step_tracker (s : Session τ) (x : Step τ) :
    (s.step x).2.tracker = (s.tracker.feed x.input).2 := (s.step_eq x).2

omit [TimeScale τ] in
theorem Step.input_eq_reset {x : Step τ} : x.input = .reset ↔ x = .reset := by
  cases x with
  | reset => simp [input]
  | frame | fixClock | framingError => simp [input]
  | message now envelope =>
    simp only [input, reduceCtorEq, iff_false]
    split <;> simp

end Session

/-! ## Logs -/

/-- A session with the packets it has decoded since it started or was last reset, the newest
last. -/
structure Log (τ : Type) where
  session : Session τ
  packets : List (Packet τ)

namespace Log

open Session (Step Call)

variable {τ : Type} [TimeScale τ]

omit [TimeScale τ] in
/-- The log of a session that has seen nothing. -/
def start (s : Settings τ) : Log τ := ⟨.start s, []⟩

/-- The log after a step; a reset empties it. -/
def step (l : Log τ) (x : Step τ) : Log τ where
  session := (l.session.step x).2
  packets := match x with
    | .reset => []
    | _ => l.packets ++ (l.session.step x).1.toList

/-- The log after a list of steps. -/
def run (l : Log τ) (xs : List (Step τ)) : Log τ := xs.foldl step l

omit [TimeScale τ] in
/-- The tracker of the session. -/
abbrev tracker (l : Log τ) : Tracker τ := l.session.tracker

@[simp] theorem run_nil (l : Log τ) : l.run [] = l := rfl

@[simp] theorem run_cons (l : Log τ) (x : Step τ) (xs : List (Step τ)) :
    l.run (x :: xs) = (l.step x).run xs := rfl

theorem run_append (l : Log τ) (xs ys : List (Step τ)) :
    l.run (xs ++ ys) = (l.run xs).run ys := List.foldl_append

theorem run_snoc (l : Log τ) (xs : List (Step τ)) (x : Step τ) :
    l.run (xs ++ [x]) = (l.run xs).step x := by rw [run_append, run_cons, run_nil]

@[simp] theorem step_tracker (l : Log τ) (x : Step τ) :
    (l.step x).tracker = (l.tracker.feed x.input).2 := l.session.step_tracker x

theorem step_packets (l : Log τ) {x : Step τ} (hx : x ≠ .reset) :
    (l.step x).packets = l.packets ++ (l.tracker.feed x.input).1.toList := by
  unfold step
  split
  · exact absurd rfl hx
  · rw [Session.step_packet]

/-- What every input keeps holds after every run: of the tracker and the packets heard since the
last reset, whatever the inputs were and in whatever order they came. -/
theorem invariant (P : Tracker τ → List (Packet τ) → Prop)
    (hreset : ∀ t ps, P t ps → P (.start t.settings) [])
    (hfeed : ∀ t ps i, i ≠ .reset → P t ps → P (t.feed i).2 (ps ++ (t.feed i).1.toList))
    {l : Log τ} (hl : P l.tracker l.packets) (xs : List (Step τ)) :
    P (l.run xs).tracker (l.run xs).packets := by
  induction xs generalizing l with
  | nil => exact hl
  | cons x xs ih =>
    rw [run_cons]
    apply ih
    rw [step_tracker]
    by_cases hx : x = .reset
    · subst hx
      exact hreset _ _ hl
    · rw [step_packets l hx]
      exact hfeed _ _ _ (fun h => hx (Step.input_eq_reset.mp h)) hl

private theorem run_frames (l : Log τ) (now : τ) (fs : List Frame) :
    (l.run (fs.map (.frame now))).session = (l.session.processAll now fs).2 := by
  induction fs generalizing l with
  | nil => rfl
  | cons f fs ih =>
    rw [List.map_cons, run_cons, ih]
    rfl

/-- A list of calls is the list of their steps. -/
theorem run_calls (l : Log τ) (cs : List (Call τ)) :
    cs.foldl Session.call l.session = (l.run (cs.flatMap Call.steps)).session := by
  induction cs generalizing l with
  | nil => rfl
  | cons c cs ih =>
    rw [List.flatMap_cons, run_append, List.foldl_cons, ← ih]
    congr 1
    cases c with
    | one x => rfl
    | candidates now batches => exact (run_frames l now _).symm

end Log

/-! ## The newest of its kind -/

/-- In a list with the newest entry last, `a` is the newest entry of a kind, and `newer` are the
entries after it. -/
def IsNewest {α : Type} (kind : α → Prop) (as : List α) (a : α) (newer : List α) : Prop :=
  (∃ older, as = older ++ a :: newer) ∧ kind a ∧ ∀ b ∈ newer, ¬ kind b

namespace IsNewest

variable {α : Type} {kind : α → Prop} {as newer : List α} {a b : α}

theorem of_last (h : kind b) : IsNewest kind (as ++ [b]) b [] :=
  ⟨⟨as, rfl⟩, h, fun _ hc => absurd hc List.not_mem_nil⟩

/-- An entry of another kind leaves the newest one as it was. -/
theorem snoc (h : IsNewest kind as a newer) (hb : ¬ kind b) :
    IsNewest kind (as ++ [b]) a (newer ++ [b]) := by
  obtain ⟨⟨older, rfl⟩, ha, hnewer⟩ := h
  refine ⟨⟨older, by rw [List.append_assoc, List.cons_append]⟩, ha, ?_⟩
  intro c hc
  rcases List.mem_append.mp hc with hc | hc
  · exact hnewer c hc
  · rw [List.mem_singleton.mp hc]
    exact hb

/-- The newest of a kind in a longer list is the last entry, or it was the newest before. -/
theorem of_snoc (h : IsNewest kind (as ++ [b]) a newer) :
    (a = b ∧ newer = [] ∧ kind b) ∨
      ∃ newer', newer = newer' ++ [b] ∧ ¬ kind b ∧ IsNewest kind as a newer' := by
  obtain ⟨⟨older, heq⟩, ha, hnewer⟩ := h
  rcases List.eq_nil_or_concat newer with rfl | ⟨newer', c, rfl⟩
  · obtain ⟨rfl, hba⟩ := List.append_inj' heq rfl
    obtain rfl : b = a := List.head_eq_of_cons_eq hba
    exact .inl ⟨rfl, rfl, ha⟩
  · rw [List.concat_eq_append, ← List.cons_append, ← List.append_assoc] at heq
    obtain ⟨rfl, hbc⟩ := List.append_inj' heq rfl
    obtain rfl : b = c := List.head_eq_of_cons_eq hbc
    rw [List.concat_eq_append] at hnewer ⊢
    refine .inr ⟨newer', rfl, hnewer b (by simp), ⟨older, rfl⟩, ha, ?_⟩
    intro d hd
    exact hnewer d (List.mem_append_left _ hd)

end IsNewest

end AirTrace

import AirTrace.Pipeline
import AirTrace.Proofs.Framing
import AirTrace.Proofs.Replays

/-!
# However they take turns

The reader and the decoder of a pipeline take turns in any way the queue between them allows.  None
of that shows in what comes of a file: a pipeline always ends, and its decoder has then taken all
items in turn, as if it had read the file itself.

There are four groups.

* The source.  `Source.items` is what the reader hands over in all; only its last item can be fatal.
* The queue.  `Follows` is the invariant: what the decoder has taken, what is in the queue and what
  is left to read make up all items.  So a pipeline that has not ended has a step to take
  (`Follows.exists_step`), and one that has ended has the same decoder (`Follows.decoder_eq`).
* The run.  Every step brings `State.size` down, which bounds the number of steps.
* The decoder.  What it does with the items of a file is the replay of that file (`foldl_take`).
-/

namespace AirTrace

open Capture (Record RecordError RawRecord ending)

namespace Pipeline

/-! ## The source -/

theorem isFatal_mapError_iff {x : Except RecordError Record} :
    Item.isFatal (x.mapError .record) = true ↔ x = .error .cutOff := by
  rcases x with (_ | e) | r <;> simp [Except.mapError, Item.isFatal]

namespace Source

theorem next?_append (r : RawRecord) (rest : Octets) (fault : Option SystemError) :
    next? ⟨r.toOctets ++ rest, fault⟩ = some (r.result.mapError .record, ⟨rest, fault⟩) := by
  unfold next?
  simp only [Capture.next?_append]
  split
  · next hnone => exact absurd hnone (by simp)
  · next hcut => exact absurd (congrArg Prod.fst (Option.some.inj hcut)) r.result_ne_cutOff
  · next hsome =>
    obtain ⟨rfl, rfl⟩ := Prod.mk.inj (Option.some.inj hsome)
    rfl

/-- Unless it is the last, an item is the result of a record, which is read off the file. -/
theorem next?_cases {s s' : Source} {x : Item} (h : s.next? = some (x, s')) :
    x.isFatal = true ∨ s'.octets.length + 16 ≤ s.octets.length := by
  rcases Capture.torn_or_record s.octets with htorn | ⟨r, rest, ho⟩
  · left
    unfold next? at h
    rw [Capture.next?_torn htorn] at h
    by_cases hstart : s.octets.length < 4
    · simp only [if_pos hstart] at h
      obtain ⟨e, _, he⟩ := Option.map_eq_some_iff.mp h
      rw [← (Prod.mk.inj he).1]
      rfl
    · simp only [if_neg hstart] at h
      rw [← (Prod.mk.inj (Option.some.inj h)).1]
      cases s.fault <;> rfl
  · right
    have hs : s = ⟨r.toOctets ++ rest, s.fault⟩ := by rw [← ho]
    rw [hs, next?_append] at h
    rw [← (Prod.mk.inj (Option.some.inj h)).2, ho, List.length_append, r.length_toOctets]
    show rest.length + 16 ≤ _
    omega

/-- All that the reader hands over. -/
def items (s : Source) : List Item :=
  match _h : s.next? with
  | none => []
  | some (x, s') => if _hx : x.isFatal = true then [x] else x :: s'.items
termination_by s.octets.length
decreasing_by
  have := (next?_cases _h).resolve_left _hx
  omega

theorem items_eq (s : Source) :
    s.items = match s.next? with
      | none => []
      | some (x, s') => x :: if x.isFatal then [] else s'.items := by
  rw [items]
  split
  · next h => rw [h]
  · next x s' h =>
    rw [h]
    by_cases hx : x.isFatal = true
    · rw [dif_pos hx]
      simp only [if_pos hx]
    · rw [dif_neg hx]
      simp only [if_neg hx]

/-- Only the last item can be fatal. -/
theorem eq_nil_of_isFatal {s : Source} {before after : List Item} {x : Item}
    (h : s.items = before ++ x :: after) (hx : x.isFatal = true) : after = [] := by
  induction before generalizing s with
  | nil =>
    rw [items_eq] at h
    split at h
    · exact absurd h (by simp)
    · obtain ⟨rfl, rfl⟩ := List.cons.inj h
      rw [if_pos hx]
  | cons y before ih =>
    rw [items_eq] at h
    split at h
    · exact absurd h (by simp)
    · next z s' _ =>
      obtain ⟨rfl, hrest⟩ := List.cons.inj h
      by_cases hz : z.isFatal = true
      · rw [if_pos hz] at hrest
        exact absurd hrest (by simp)
      · rw [if_neg hz] at hrest
        exact ih hrest

/-- What the reader hands over of a file that the operating system can read. -/
theorem items_of_fault_eq_none (o : Octets) :
    (⟨o, none⟩ : Source).items = (Capture.records o).map (Except.mapError .record) := by
  obtain ⟨rs, tail, htorn, rfl⟩ := Capture.exists_framing o
  induction rs with
  | nil =>
    change items ⟨tail, none⟩ = (Capture.records tail).map _
    rw [Capture.records_torn htorn, items_eq, next?, Capture.next?_torn htorn, ending]
    by_cases hstart : tail.length < 4
    · rw [if_pos hstart, if_pos hstart]
      rfl
    · rw [if_neg hstart, if_neg hstart]
      rfl
  | cons r rs ih =>
    have hread : Item.isFatal (r.result.mapError .record) ≠ true :=
      mt isFatal_mapError_iff.mp r.result_ne_cutOff
    rw [RawRecord.allOctets_cons, List.append_assoc, Capture.records_append, items_eq,
      next?_append, List.map_cons]
    simp only [if_neg hread, ih]

end Source

/-! ## The queue -/

variable {τ : Type} [TimeScale τ]

/-- The items that a reader is still to hand over; none if it has stopped. -/
def left (reader : Option Source) : List Item := reader.elim [] Source.items

theorem left_of_next?_eq_none {s : Source} (h : s.next? = none) : left (some s) = [] := by
  show s.items = []
  rw [Source.items_eq, h]

theorem left_of_next?_eq_some {s s' : Source} {x : Item} (h : s.next? = some (x, s')) :
    left (some s) = x :: left (if x.isFatal then none else some s') := by
  show s.items = _
  rw [Source.items_eq]
  simp only [h]
  cases x.isFatal <;> rfl

/-- What holds all along of a pipeline that is to pass on these items, beginning with a decoder.

The items that the decoder has taken, those in the queue and those that are left are all items, in
this order.  Once the decoder takes no more, there are none to take. -/
structure Follows (items : List Item) (d : Decoder τ) (p : State τ) : Prop where
  taken : ∃ xs, items = xs ++ (p.queue ++ left p.reader) ∧ p.decoder = xs.foldl Decoder.take d ∧
    ∀ text, p.progress = .failed text → ∃ e, .error (.system e) ∈ xs
  emptied : p.progress ≠ .decoding → p.queue ++ left p.reader = []
  stopped : p.progress = .done → p.reader = none

/-- The decoder goes on taking items unless it has taken a fatal one, and fails only if that is an
error of the operating system. -/
theorem after_cases (x : Item) :
    (x.isFatal = false ∧ Progress.after x = .decoding) ∨
      (x.isFatal = true ∧ Progress.after x = .joining) ∨
      ∃ e, x = .error (.system e) ∧ Progress.after x = .failed ("read error: " ++ e.message) := by
  rcases x with (e | e) | r
  · cases e with
    | cutOff => exact .inr (.inl ⟨rfl, rfl⟩)
    | malformed e => exact .inl ⟨rfl, rfl⟩
  · exact .inr (.inr ⟨e, rfl, rfl⟩)
  · exact .inl ⟨rfl, rfl⟩

namespace Follows

variable {source : Source} {d : Decoder τ} {p q : State τ}

theorem start (s : Settings τ) (writes : Bool) (source : Source) :
    Follows source.items (.start s writes) (State.start s writes source) where
  taken := ⟨[], rfl, rfl, fun _ h => by cases h⟩
  emptied := fun h => absurd rfl h
  stopped := fun h => by cases h

theorem step (h : Follows source.items d p) (hstep : Step p q) : Follows source.items d q := by
  obtain ⟨⟨xs, hitems, hdecoder, hfailed⟩, hemptied, hstopped⟩ := h
  cases hstep with
  | @send s s' x queue _ g hnext hroom hopen =>
    have hsent : (queue ++ [x]) ++ left (if x.isFatal then none else some s') =
        queue ++ left (some s) := by
      rw [left_of_next?_eq_some hnext, List.append_assoc]
      rfl
    refine ⟨⟨xs, ?_, hdecoder, hfailed⟩, fun hg => hsent.trans (hemptied hg), fun hg => ?_⟩
    · rw [hitems, hsent]
    · exact absurd (hstopped hg) (by simp)
  | stop hnext =>
    rw [left_of_next?_eq_none hnext] at hitems hemptied
    exact ⟨⟨xs, hitems, hdecoder, hfailed⟩, hemptied, fun _ => rfl⟩
  | @abandon s _ _ g hover =>
    have hnothing : left (some s) = [] :=
      (List.append_eq_nil_iff.mp (hemptied (by rintro rfl; cases hover))).2
    rw [hnothing] at hitems hemptied
    exact ⟨⟨xs, hitems, hdecoder, hfailed⟩, hemptied, fun _ => rfl⟩
  | @receive r x queue decoder =>
    have hitems' : source.items = xs ++ x :: (queue ++ left r) := hitems
    have htaken : source.items = (xs ++ [x]) ++ (queue ++ left r) := by
      rw [hitems', List.append_assoc]
      rfl
    have hdecoder' : decoder.take x = (xs ++ [x]).foldl Decoder.take d := by
      rw [List.foldl_concat]
      exact congrArg (Decoder.take · x) hdecoder
    rcases after_cases x with ⟨_, hafter⟩ | ⟨hfatal, hafter⟩ | ⟨e, rfl, hafter⟩
    · rw [hafter]
      exact ⟨⟨xs ++ [x], htaken, hdecoder', fun _ h => by cases h⟩, fun h => absurd rfl h,
        fun h => by cases h⟩
    · rw [hafter]
      exact ⟨⟨xs ++ [x], htaken, hdecoder', fun _ h => by cases h⟩,
        fun _ => Source.eq_nil_of_isFatal hitems' hfatal, fun h => by cases h⟩
    · rw [hafter]
      have hlast := List.mem_append_right xs (List.mem_singleton_self (.error (.system e)))
      exact ⟨⟨_, htaken, hdecoder', fun _ _ => ⟨e, hlast⟩⟩,
        fun _ => Source.eq_nil_of_isFatal hitems' rfl, fun h => by cases h⟩
  | leave => exact ⟨⟨xs, hitems, hdecoder, fun _ h => by cases h⟩, fun _ => rfl, fun _ => rfl⟩
  | join =>
    exact ⟨⟨xs, hitems, hdecoder, fun _ h => by cases h⟩, fun _ => hemptied (by simp),
      fun _ => rfl⟩

theorem of_reaches {start : State τ} {n : Nat} (hstart : Follows source.items d start)
    (h : start.Reaches n p) : Follows source.items d p := by
  induction h with
  | zero => exact hstart
  | succ _ hstep ih => exact ih.step hstep

/-- The pipeline never comes to a stop before the decoder is done or has failed. -/
theorem exists_step (h : Follows source.items d p) (hover : p.progress.isOver = false) :
    ∃ q, Step p q := by
  obtain ⟨reader, queue, decoder, progress⟩ := p
  cases progress with
  | done => cases hover
  | failed text => cases hover
  | joining =>
    -- Nothing is left to hand over, so the reader does not wait for room.
    have hnothing := (List.append_eq_nil_iff.mp (h.emptied (by simp))).2
    cases reader with
    | none => exact ⟨_, .join⟩
    | some s =>
      cases hnext : s.next? with
      | none => exact ⟨_, .stop hnext⟩
      | some x =>
        rw [left_of_next?_eq_some hnext] at hnothing
        exact absurd hnothing (by simp)
  | decoding =>
    cases queue with
    | cons x queue => exact ⟨_, .receive⟩
    | nil => cases reader with
      | none => exact ⟨_, .leave⟩
      | some s =>
        cases hnext : s.next? with
        | none => exact ⟨_, .stop hnext⟩
        | some x => exact ⟨_, .send hnext (by decide) rfl⟩

/-- It fails only if the operating system does. -/
theorem not_failed (h : Follows source.items d p) {text : String}
    (hp : p.progress = .failed text) : ∃ e, .error (.system e) ∈ source.items := by
  obtain ⟨⟨xs, hitems, _, hfailed⟩, _, _⟩ := h
  obtain ⟨e, he⟩ := hfailed text hp
  exact ⟨e, hitems ▸ List.mem_append_left _ he⟩

/-- When the decoder is done, it has taken all items in turn, and nothing is left of the rest. -/
theorem decoder_eq (h : Follows source.items d p) (hp : p.progress = .done) :
    p.reader = none ∧ p.queue = [] ∧ p.decoder = source.items.foldl Decoder.take d := by
  obtain ⟨⟨xs, hitems, hdecoder, _⟩, hemptied, hstopped⟩ := h
  have hnothing := hemptied (by rw [hp]; simp)
  rw [hnothing, List.append_nil] at hitems
  exact ⟨hstopped hp, (List.append_eq_nil_iff.mp hnothing).1, hitems ▸ hdecoder⟩

end Follows

/-! ## The run -/

/-- How many steps a pipeline can take at most. -/
def State.size (p : State τ) : Nat :=
  p.reader.elim 0 (fun s => 2 * s.octets.length + 3) + p.queue.length +
    match p.progress with
    | .decoding => 2
    | .joining => 1
    | .done | .failed _ => 0

theorem size_lt_of_step {p q : State τ} (h : Step p q) : q.size < p.size := by
  cases h with
  | send hnext _ _ =>
    rcases Source.next?_cases hnext with hfatal | hshorter
    · simp [State.size, hfatal]
      omega
    · simp only [State.size, List.length_append, List.length_singleton]
      split
      · simp
        omega
      · simp
        omega
  | stop => simp [State.size]
  | abandon => simp [State.size]
  | @receive _ x =>
    rcases after_cases x with ⟨_, hafter⟩ | ⟨_, hafter⟩ | ⟨e, _, hafter⟩ <;>
      simp only [State.size, hafter, List.length_cons] <;> omega
  | leave => simp [State.size]
  | join => simp [State.size]

theorem State.Reaches.add_size_le {start p : State τ} {n : Nat} (h : start.Reaches n p) :
    n + p.size ≤ start.size := by
  induction h with
  | zero => rw [Nat.zero_add]
  | succ _ hstep ih =>
    have := size_lt_of_step hstep
    omega

/-! ## The decoder -/

/-- The decoder replays what it takes. -/
theorem foldl_take (d : Decoder τ) (xs : List (Except RecordError Record)) :
    (xs.map (Except.mapError .record)).foldl Decoder.take d =
      { session := (Replay.run d.session xs).session
        listed := d.listed ++ (Replay.run d.session xs).packets
        written := d.written.map (· ++ (Replay.run d.session xs).toRecords) } := by
  induction xs generalizing d with
  | nil => cases hwritten : d.written <;> simp [Replay.run, Replay.toRecords, ← hwritten]
  | cons x xs ih =>
    rw [List.map_cons, List.foldl_cons, ih]
    cases x with
    | error e => rfl
    | ok r =>
      simp only [Except.mapError, Decoder.take, Replay.run, Replay.step, Replay.toRecords]
      cases d.written <;> simp

end Pipeline

end AirTrace

import AirTrace.Proofs.TrueTime

/-!
# Frames of several receivers

Receivers that work side by side deliver their frames in batches, and a session takes all of them in
the order of their capture times.

There are two groups.

* The order.  `IsMerge` says what a merge of batches is, without saying how it is found: nothing is
  lost or added, times do not decrease, and frames of one time keep the order of the batches and,
  within a batch, their own.  There is exactly one such list, and sorting gives it (`isMerge_iff`).
* The session.  If no two frames have the same time, the merge does not depend on which receiver
  delivered which frame (`inOrder_congr`), so the session does not either:
  `candidates_merged_stably`.
-/

namespace AirTrace

/-! ## The order -/

namespace Candidate

/-- A merge of batches. -/
structure IsMerge (batches : List (List Candidate)) (merged : List Candidate) : Prop where
  perm : merged.Perm batches.flatten
  ordered : merged.Pairwise fun a b => a.time ≤ b.time
  stable : ∀ time, merged.filter (·.time = time) =
    batches.flatMap fun batch => batch.filter (·.time = time)

/-- All candidates in the order of their times. -/
def inOrder (batches : List (List Candidate)) : List Candidate :=
  batches.flatten.mergeSort fun a b => a.time ≤ b.time

theorem merge_eq (batches : List (List Candidate)) :
    merge batches = (inOrder batches).map frame := rfl

theorem inOrder_perm (batches : List (List Candidate)) :
    (inOrder batches).Perm batches.flatten := List.mergeSort_perm _ _

private theorem time_trans (a b c : Candidate) (hab : decide (a.time ≤ b.time) = true)
    (hbc : decide (b.time ≤ c.time) = true) : decide (a.time ≤ c.time) = true := by
  rw [decide_eq_true_iff] at hab hbc ⊢
  exact UInt64.le_trans hab hbc

private theorem time_total (a b : Candidate) :
    (decide (a.time ≤ b.time) || decide (b.time ≤ a.time)) = true := by
  rw [Bool.or_eq_true, decide_eq_true_iff, decide_eq_true_iff]
  exact UInt64.le_total a.time b.time

theorem inOrder_ordered (batches : List (List Candidate)) :
    (inOrder batches).Pairwise fun a b => a.time ≤ b.time := by
  have hsorted := List.pairwise_mergeSort time_trans time_total batches.flatten
  exact hsorted.imp fun h => decide_eq_true_iff.mp h

/-- Sorting leaves the candidates of one time as they stand. -/
theorem inOrder_filter (batches : List (List Candidate)) (time : UInt64) :
    (inOrder batches).filter (·.time = time) = batches.flatten.filter (·.time = time) := by
  let kept := batches.flatten.filter (·.time = time)
  -- The candidates of one time are in order, and sorting does not disturb what is in order.
  have hsame : kept.Pairwise fun a b => decide (a.time ≤ b.time) = true := by
    apply List.pairwise_of_forall_mem_list
    intro a ha b hb
    have hta : a.time = time := by simpa [kept] using (List.mem_filter.mp ha).2
    have htb : b.time = time := by simpa [kept] using (List.mem_filter.mp hb).2
    rw [decide_eq_true_iff, hta, htb]
    exact UInt64.le_refl time
  have hsublist : kept.Sublist (inOrder batches) :=
    List.sublist_mergeSort time_trans time_total hsame List.filter_sublist
  have hfiltered : kept.Sublist ((inOrder batches).filter (·.time = time)) := by
    have h := hsublist.filter (·.time = time)
    simp only [kept, List.filter_filter, Bool.and_self] at h
    exact h
  exact (hfiltered.eq_of_length ((inOrder_perm batches).filter _).length_eq.symm).symm

theorem inOrder_isMerge (batches : List (List Candidate)) :
    IsMerge batches (inOrder batches) where
  perm := inOrder_perm batches
  ordered := inOrder_ordered batches
  stable time := (inOrder_filter batches time).trans List.filter_flatten

theorem mem_iff_of_filter {as bs : List Candidate}
    (h : ∀ time, as.filter (·.time = time) = bs.filter (·.time = time)) (c : Candidate) :
    c ∈ as ↔ c ∈ bs := by
  have hc : c ∈ as.filter (·.time = c.time) ↔ c ∈ bs.filter (·.time = c.time) := by rw [h]
  simpa only [List.mem_filter, decide_true, and_true] using hc

/-- The first of a list in order is not later than any other. -/
theorem time_head_le {a c : Candidate} {as : List Candidate}
    (h : ∀ b ∈ as, a.time ≤ b.time) (hc : c ∈ a :: as) : a.time ≤ c.time := by
  rcases List.mem_cons.mp hc with rfl | hin
  · exact UInt64.le_refl _
  · exact h c hin

/-- Lists in order that agree on the candidates of every time are the same. -/
theorem eq_of_ordered {as bs : List Candidate} (ha : as.Pairwise fun a b => a.time ≤ b.time)
    (hb : bs.Pairwise fun a b => a.time ≤ b.time)
    (h : ∀ time, as.filter (·.time = time) = bs.filter (·.time = time)) : as = bs := by
  have hmem := mem_iff_of_filter h
  induction as generalizing bs with
  | nil =>
    cases bs with
    | nil => rfl
    | cons b bs => exact absurd ((hmem b).mpr List.mem_cons_self) List.not_mem_nil
  | cons a as ih =>
    cases bs with
    | nil => exact absurd ((hmem a).mp List.mem_cons_self) List.not_mem_nil
    | cons b bs =>
      rw [List.pairwise_cons] at ha hb
      -- Each head is the earliest of its list and stands in the other, so their times are equal.
      have htime : a.time = b.time :=
        UInt64.le_antisymm (time_head_le ha.1 ((hmem b).mpr List.mem_cons_self))
          (time_head_le hb.1 ((hmem a).mp List.mem_cons_self))
      have hheads : a = b := by
        have hfirst := h a.time
        rw [List.filter_cons_of_pos (by simp), List.filter_cons_of_pos (by simp [htime])] at hfirst
        exact (List.cons.inj hfirst).1
      subst hheads
      have htails : ∀ time, as.filter (·.time = time) = bs.filter (·.time = time) := by
        intro time
        have hfull := h time
        rw [List.filter_cons, List.filter_cons] at hfull
        split at hfull
        · exact (List.cons.inj hfull).2
        · exact hfull
      rw [ih ha.2 hb.2 htails (mem_iff_of_filter htails)]

/-- There is one merge of the batches, and sorting gives it. -/
theorem isMerge_iff {batches : List (List Candidate)} {merged : List Candidate} :
    IsMerge batches merged ↔ merged = inOrder batches := by
  constructor
  · intro h
    have hfound := inOrder_isMerge batches
    apply eq_of_ordered h.ordered hfound.ordered
    intro time
    rw [h.stable, hfound.stable]
  · intro h
    rw [h]
    exact inOrder_isMerge batches

/-- Without equal times, the order does not depend on how the candidates were delivered. -/
theorem inOrder_congr {batches batches' : List (List Candidate)}
    (hdistinct : (batches.flatten.map time).Nodup)
    (hperm : batches.flatten.Perm batches'.flatten) : inOrder batches = inOrder batches' := by
  have hsame : (inOrder batches).Perm (inOrder batches') :=
    (inOrder_perm batches).trans (hperm.trans (inOrder_perm batches').symm)
  refine List.Perm.eq_of_pairwise ?_ (inOrder_ordered batches) (inOrder_ordered batches') hsame
  intro a b ha hb hab hba
  have hin : a ∈ batches.flatten := (inOrder_perm batches).mem_iff.mp ha
  have hin' : b ∈ batches.flatten :=
    hperm.mem_iff.mpr ((inOrder_perm batches').mem_iff.mp hb)
  exact List.inj_on_of_nodup_map hdistinct hin hin' (UInt64.le_antisymm hab hba)

end Candidate

/-! ## The session -/

namespace Session

section

variable {τ : Type} [TimeScale τ]

theorem process_of_clock {s : Session τ} {c : Clock τ} (hclock : s.tracker.clock = some c)
    (now now' : τ) (f : Frame) : s.process now f = s.process now' f := by
  unfold process
  rw [Tracker.receive_of_clock hclock now now']

/-- A frame fixes the clock. -/
theorem process_clock (s : Session τ) (now : τ) (f : Frame) :
    ∃ c, (s.process now f).2.tracker.clock = some c := by
  refine ⟨((s.tracker.clock.getD (.fixAt s.tracker.settings f.tick now)).stamp
    s.tracker.settings f.tick).2, ?_⟩
  exact (s.tracker.receive_clock now f).1

/-- Once the clock is fixed, frames do not depend on the present time. -/
theorem processAll_of_clock {s : Session τ} {c : Clock τ} (hclock : s.tracker.clock = some c)
    (now now' : τ) (frames : List Frame) : s.processAll now frames = s.processAll now' frames := by
  induction frames generalizing s c with
  | nil => rfl
  | cons f rest ih =>
    obtain ⟨c', hnext⟩ := s.process_clock now' f
    unfold processAll
    simp only [process_of_clock hclock now now', ih hnext]

/-- Frames of several receivers are put into the one order that is a merge of their batches, and if
no two of them have the same time, a session takes them alike whichever receiver delivered which,
and in whatever order.  The clock is fixed, or it is fixed to the same time of day. -/
theorem candidates_merged_stably :
    (∀ batches : List (List Candidate), ∃ ordered,
      Candidate.merge batches = ordered.map Candidate.frame ∧
      ∀ merged, Candidate.IsMerge batches merged ↔ merged = ordered) ∧
    ∀ (s : Session τ) (now now' : τ) (batches batches' : List (List Candidate)),
      (batches.flatten.map Candidate.time).Nodup →
      batches.flatten.Perm batches'.flatten →
      s.tracker.clock.isSome ∨ now = now' →
      s.processCandidates now batches = s.processCandidates now' batches' := by
  constructor
  · intro batches
    refine ⟨Candidate.inOrder batches, Candidate.merge_eq batches, ?_⟩
    intro merged
    exact Candidate.isMerge_iff
  · intro s now now' batches batches' hdistinct hperm hclock
    unfold processCandidates
    rw [Candidate.merge_eq, Candidate.merge_eq, Candidate.inOrder_congr hdistinct hperm]
    rcases hclock with hfixed | rfl
    · obtain ⟨c, hc⟩ := Option.isSome_iff_exists.mp hfixed
      exact processAll_of_clock hc now now' _
    · rfl

end

/-- An empty advertisement that is heard at a time. -/
def heard (time : UInt64) (channel : Channel) : Candidate where
  time := time
  frame := ⟨time.toUInt32, .centralToPeripheral, false, 0, 0, channel, .le1M, [0, 0], none, none⟩

/-- Of two receivers that hear something at the same time, the first goes first; and it does not
matter which of them heard what at different times. -/
theorem candidates_merged_stably_receivers :
    Candidate.merge [[heard 40 37], [heard 5 38, heard 40 38]] =
      [heard 5 38, heard 40 37, heard 40 38].map Candidate.frame ∧
    (start (τ := ℚ) .standard).processCandidates 0 [[heard 10 37, heard 40 37], [heard 5 38]] =
      (start .standard).processCandidates 0 [[heard 5 38, heard 40 37], [], [heard 10 37]] := by
  obtain ⟨hmerge, hsession⟩ := @candidates_merged_stably ℚ _
  constructor
  · obtain ⟨ordered, hordered, honly⟩ := hmerge [[heard 40 37], [heard 5 38, heard 40 38]]
    have hstable : ∀ time, [heard 5 38, heard 40 37, heard 40 38].filter (·.time = time) =
        [[heard 40 37], [heard 5 38, heard 40 38]].flatMap (·.filter (·.time = time)) := by
      intro time
      by_cases hearly : 5 = time
      · subst hearly
        decide +kernel
      · by_cases hlate : 40 = time
        · subst hlate
          decide +kernel
        · simp [heard, hearly, hlate]
    have hgiven := (honly [heard 5 38, heard 40 37, heard 40 38]).mp
      ⟨by decide +kernel, by decide +kernel, hstable⟩
    rw [hordered, hgiven]
  · exact hsession _ _ _ _ _ (by decide +kernel) (by decide +kernel) (.inr rfl)

end Session

end AirTrace

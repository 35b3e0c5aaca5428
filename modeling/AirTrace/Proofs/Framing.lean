import AirTrace.Capture.Cursor
import AirTrace.Proofs.Fields

/-!
# Records keep to themselves

Where a record of a capture file ends is told by the length in its header and by nothing else.  So
what stands in a record decides the result for that record alone, and a file that breaks off gives
the results of the records before the break.

There are four groups.

* The cursor.  No read of a content looks past its end (`readContent_eq`), so a content is read or
  it is malformed.  `records_eq` says that the list of results is what one call after the other
  gives.
* Which contents are read: `exists_readContent`.
* Records as they lie in a file, `RawRecord`, and what can be left after the last whole one,
  `IsTorn`.  `records_allOctets_append` reads a list of them, `exists_framing` says that every
  string is one, and `take_allOctets_append` cuts it.
* Files.  `framing` puts together what this says of them.
-/

namespace AirTrace.Capture

/-! ## The cursor -/

theorem cut_eq {n : Nat} {o : Octets} (h : n ≤ o.length) :
    cut n o = .ok (o.slice 0 n, o.drop n) := by
  unfold cut Octets.split?
  rw [if_neg (by rw [List.length_take]; omega)]
  rfl

theorem cut_eq_error {n : Nat} {o : Octets} (h : o.length < n) : cut n o = .error .cutOff := by
  unfold cut Octets.split?
  rw [if_pos (by rw [List.length_take]; omega)]

theorem cut_drop {i n : Nat} {o : Octets} (h : i + n ≤ o.length) :
    cut n (o.drop i) = .ok (o.slice i n, o.drop (i + n)) := by
  rw [cut_eq (by rw [List.length_drop]; omega), List.drop_drop]
  rfl

theorem cut_append {n : Nat} {a : Octets} (b : Octets) (h : a.length = n) :
    cut n (a ++ b) = .ok (a, b) := by
  unfold cut
  rw [Octets.split?_append b h]

/-- The coding octet is there if the content is long enough to be that of a record. -/
theorem cutPhy_drop (flags : UInt16) {o : Octets} (h : 17 ≤ o.length) :
    cutPhy flags (o.drop 14) = ((readPhy flags (o.octet 14)).mapError .malformed).map fun phy =>
      (phy, o.drop (if phy.isCoded then 15 else 14)) := by
  have hcoding : (o.slice 14 1).octet 0 = o.octet 14 := Octets.octet_slice (by omega)
  unfold cutPhy readPhy
  generalize flags.toNat / 0x4000 = bits
  match bits with
  | 0 | 1 | _ + 3 => rfl
  | 2 =>
    simp only [cut_drop (show 14 + 1 ≤ o.length by omega), bind, Except.bind, hcoding]
    by_cases h1 : o.octet 14 = 1
    · rw [if_pos h1]
      rfl
    · rw [if_neg h1]
      rfl

/-- No read looks past the end of a content, and what is read is what the reader of whole contents
gives. -/
theorem readContent_eq (micros : Nat) (content : Octets) :
    readContent micros content = (ofContent micros content).mapError .malformed := by
  unfold readContent ofContent
  by_cases hshort : content.length < 17
  · rw [if_pos hshort, if_pos hshort]
    rfl
  have hlong : 17 ≤ content.length := Nat.not_lt.mp hshort
  have hrf : (content.slice 0 1).octet 0 = content.octet 0 := Octets.octet_slice (by omega)
  have hrssi : (content.slice 1 1).octet 0 = content.octet 1 := Octets.octet_slice (by omega)
  have hflags : UInt16.ofNat (content.slice (1 + 1 + 6) 2).toNat = content.word16 8 := rfl
  have haddress : UInt32.ofNat (content.slice (1 + 1 + 6 + 2) 4).toNat = content.word32 10 := rfl
  rw [if_neg hshort, if_neg hshort, cut_eq (by omega)]
  simp (disch := omega) only [cut_drop, bind, Except.bind, pure, Except.pure, hrf, hrssi, hflags,
    haddress, cutPhy_drop _ hlong]
  by_cases hchannel : 40 ≤ content.octet 0
  · rw [if_pos hchannel, if_pos hchannel]
    rfl
  rw [if_neg hchannel, if_neg hchannel]
  cases readPhy (content.word16 8) (content.octet 14) with
  | error e => rfl
  | ok phy =>
    simp only [Except.mapError, Except.map]
    generalize content.drop (if phy.isCoded then 15 else 14) = packet
    by_cases hcheck : packet.length < 3
    · rw [if_pos hcheck, if_pos hcheck]
      rfl
    · rw [if_neg hcheck, if_neg hcheck, cut_eq (by omega)]
      simp only
      rw [cut_drop (by omega)]
      rfl

/-- So a content is read or it is malformed. -/
theorem readContent_cases (micros : Nat) (content : Octets) :
    (∃ r, readContent micros content = .ok r) ∨
      ∃ e, readContent micros content = .error (.malformed e) := by
  rw [readContent_eq]
  cases ofContent micros content with
  | ok r => exact .inl ⟨r, rfl⟩
  | error e => exact .inr ⟨e, rfl⟩

/-! ## Which contents are read -/

/-- The flags name a physical layer unless both of their upper bits are set; they name a coded one
if only the first is. -/
theorem readPhy_cases (flags : UInt16) (coding : UInt8) :
    (flags.toNat / 0x4000 = 3 ∧ ∃ e, readPhy flags coding = .error e) ∨
      flags.toNat / 0x4000 ≠ 3 ∧ ∃ phy, readPhy flags coding = .ok phy ∧
        (phy.isCoded = true ↔ flags.toNat / 0x4000 = 2) := by
  have hlt : flags.toNat / 0x4000 < 4 := by
    have := flags.toNat_lt
    omega
  unfold readPhy
  generalize flags.toNat / 0x4000 = bits at hlt ⊢
  match bits with
  | 0 => exact .inr ⟨by omega, .le1M, rfl, by decide⟩
  | 1 => exact .inr ⟨by omega, .le2M, rfl, by decide⟩
  | 2 =>
    refine .inr ⟨by omega, _, rfl, ?_⟩
    split <;> decide
  | 3 => exact .inl ⟨rfl, _, rfl⟩

/-- A content is read if it has the octets that every record has, its channel exists, its flags name
a physical layer, and there is a coding octet if that is a coded one. -/
theorem exists_readContent (micros : Nat) (content : Octets) :
    (∃ r, readContent micros content = .ok r) ↔
      17 ≤ content.length ∧ content.octet 0 < 40 ∧ (content.word16 8).toNat / 0x4000 ≠ 3 ∧
        ((content.word16 8).toNat / 0x4000 = 2 → 18 ≤ content.length) := by
  have hread : (∃ r, readContent micros content = .ok r) ↔
      ∃ r, ofContent micros content = .ok r := by
    rw [readContent_eq]
    cases ofContent micros content <;> simp [Except.mapError]
  rw [hread]
  unfold ofContent
  by_cases hshort : content.length < 17
  · rw [if_pos hshort]
    refine iff_of_false (fun ⟨r, hr⟩ => ?_) fun h => by omega
    cases hr
  have hlong : 17 ≤ content.length := Nat.not_lt.mp hshort
  simp only [if_neg hshort, bind, Except.bind, pure, Except.pure]
  by_cases hchannel : 40 ≤ content.octet 0
  · rw [if_pos hchannel]
    refine iff_of_false (fun ⟨r, hr⟩ => ?_) fun h => UInt8.not_lt.mpr hchannel h.2.1
    cases hr
  have hexists : content.octet 0 < 40 := UInt8.not_le.mp hchannel
  rw [if_neg hchannel]
  rcases readPhy_cases (content.word16 8) (content.octet 14) with
    ⟨hbits, e, he⟩ | ⟨hbits, phy, hphy, hcoded⟩
  · rw [he]
    exact iff_of_false (by simp) fun h => h.2.2.1 hbits
  · rw [hphy]
    simp only [hlong, hexists, ne_eq, hbits, not_false_eq_true, true_and, List.length_drop,
      ← hcoded]
    by_cases hcheck : content.length - (if phy.isCoded then 15 else 14) < 3
    · rw [if_pos hcheck]
      refine iff_of_false (fun ⟨r, hr⟩ => ?_) fun h => ?_
      · cases hr
      · cases hphy' : phy.isCoded <;> simp [hphy'] at hcheck h <;> omega
    · rw [if_neg hcheck]
      refine iff_of_true ⟨_, rfl⟩ fun h => ?_
      rw [if_pos h] at hcheck
      omega

/-! ## Records in a file -/

/-- A record as it lies in a file: sixteen octets with its time and length, and a content of that
length. -/
structure RawRecord where
  fields : Octets
  content : Octets
  length_fields : fields.length = 16
  length_content : content.length = (fields.word32 8).toNat

namespace RawRecord

/-- The octets of a record. -/
def toOctets (r : RawRecord) : Octets := r.fields ++ r.content

/-- The time of a record, in microseconds. -/
def micros (r : RawRecord) : Nat := (r.fields.word32 0).toNat * 1000000 + (r.fields.word32 4).toNat

/-- The result of reading a record, which depends on nothing but its own time and content. -/
def result (r : RawRecord) : Except RecordError Record := readContent r.micros r.content

/-- A whole record is never the end of the file. -/
theorem result_ne_cutOff (r : RawRecord) : r.result ≠ .error .cutOff := by
  rcases readContent_cases r.micros r.content with ⟨x, hx⟩ | ⟨e, he⟩
  · rw [result, hx]
    simp
  · rw [result, he]
    simp

theorem length_toOctets (r : RawRecord) : r.toOctets.length = 16 + r.content.length := by
  rw [toOctets, List.length_append, r.length_fields]

end RawRecord

/-- What can be left of a file after its last whole record: the beginning of some record, but not
all of it. -/
def IsTorn (tail : Octets) : Prop :=
  ∃ (r : RawRecord) (rest : Octets), rest ≠ [] ∧ r.toOctets = tail ++ rest

/-- The end of the results where so many octets are left after the last whole record. -/
def ending (left : Nat) : List (Except RecordError Record) :=
  if left < 4 then [] else [.error .cutOff]

theorem word32_take {n : Nat} (o : Octets) (h : 12 ≤ n) :
    Octets.word32 (o.take n) 8 = o.word32 8 := by
  have hslice : Octets.slice (o.take n) 8 4 = o.slice 8 4 := by
    rw [Octets.slice, Octets.slice, List.drop_take, List.take_take, Nat.min_eq_left (by omega)]
  rw [Octets.word32, hslice, Octets.word32]

/-- The length that a beginning of a record announces, if it announces one at all, reaches past its
end. -/
theorem isTorn_iff {tail : Octets} :
    IsTorn tail ↔ tail.length < 16 + (tail.word32 8).toNat := by
  constructor
  · rintro ⟨r, rest, hrest, h⟩
    have hlength := congrArg List.length h
    have hpositive := List.length_pos_iff.mpr hrest
    rw [r.length_toOctets, List.length_append, r.length_content] at hlength
    by_cases hshort : tail.length < 16
    · omega
    · -- The whole header is there, and with it the length.
      have hfields : tail.take 16 = r.fields := by
        have htake := congrArg (List.take 16) h
        rw [RawRecord.toOctets, List.take_left' r.length_fields,
          List.take_append_of_le_length (by omega)] at htake
        exact htake.symm
      rw [← word32_take tail (show 12 ≤ 16 by omega), hfields]
      omega
  · intro h
    by_cases hshort : tail.length < 16
    · let fields := tail ++ List.replicate (16 - tail.length) 0
      let content := List.replicate (fields.word32 8).toNat (0 : UInt8)
      have hfields : fields.length = 16 := by
        simp only [fields, List.length_append, List.length_replicate]
        omega
      refine ⟨⟨fields, content, hfields, List.length_replicate⟩,
        List.replicate (16 - tail.length) 0 ++ content, ?_, ?_⟩
      · simp
        omega
      · simp only [RawRecord.toOctets, fields, List.append_assoc]
    · let missing := List.replicate (16 + (tail.word32 8).toNat - tail.length) (0 : UInt8)
      refine ⟨⟨tail.take 16, tail.drop 16 ++ missing, ?_, ?_⟩, missing, ?_, ?_⟩
      · rw [List.length_take]
        omega
      · rw [word32_take tail (by omega)]
        simp only [missing, List.length_append, List.length_drop, List.length_replicate]
        omega
      · simp [missing]
        omega
      · simp only [RawRecord.toOctets]
        rw [← List.append_assoc, List.take_append_drop]

/-- The beginning of what is torn is torn. -/
theorem IsTorn.take {tail : Octets} (h : IsTorn tail) (n : Nat) : IsTorn (tail.take n) := by
  rw [isTorn_iff] at h ⊢
  rw [List.length_take]
  by_cases hshort : n < 16
  · omega
  · rw [word32_take tail (by omega)]
    omega

/-- The beginning of a record, if it is not the whole record, is torn. -/
theorem RawRecord.isTorn_take (r : RawRecord) {n : Nat} (h : n < r.toOctets.length) :
    IsTorn (r.toOctets.take n) := by
  refine ⟨r, r.toOctets.drop n, ?_, (List.take_append_drop n _).symm⟩
  rw [← List.length_pos_iff, List.length_drop]
  omega

/-- What is left of a file starts with a whole record or is torn. -/
theorem torn_or_record (o : Octets) :
    IsTorn o ∨ ∃ (r : RawRecord) (rest : Octets), o = r.toOctets ++ rest := by
  by_cases htorn : IsTorn o
  · exact .inl htorn
  rw [isTorn_iff, Nat.not_lt] at htorn
  refine .inr ⟨⟨o.take 16, o.slice 16 (o.word32 8).toNat, ?_, ?_⟩,
    o.drop (16 + (o.word32 8).toNat), ?_⟩
  · rw [List.length_take]
    omega
  · rw [word32_take o (by omega), Octets.length_slice htorn]
  · rw [RawRecord.toOctets, List.append_assoc, Octets.slice_append_drop rfl,
      List.take_append_drop]

/-! ### One call of the reader -/

theorem next?_append (r : RawRecord) (rest : Octets) :
    next? (r.toOctets ++ rest) = some (r.result, rest) := by
  have hlong : 16 + r.content.length ≤ (r.toOctets ++ rest).length := by
    rw [List.length_append, r.length_toOctets]
    omega
  have hsplit : r.toOctets ++ rest = r.fields ++ (r.content ++ rest) := List.append_assoc _ _ _
  -- The words of the header are those of the whole string.
  have hword : ∀ i, i + 4 ≤ 16 →
      Octets.word32 (Octets.slice (r.toOctets ++ rest) i 4) 0 = r.fields.word32 i := by
    intro i hi
    have hfields := r.length_fields
    rw [hsplit]
    simp only [Octets.word32, Octets.slice, List.drop_zero, List.take_take, Nat.min_self]
    rw [List.drop_append_of_le_length (by omega),
      List.take_append_of_le_length (by rw [List.length_drop]; omega)]
  have hcontent : cut (r.fields.word32 8).toNat (List.drop 16 (r.toOctets ++ rest)) =
      .ok (r.content, rest) := by
    rw [hsplit, List.drop_left' r.length_fields]
    exact cut_append rest r.length_content
  unfold next? cutRecord
  rw [cut_eq (by omega)]
  simp (disch := omega) only [cut_drop, bind, Except.bind, pure, Except.pure, hword, hcontent]
  rfl

theorem next?_torn {tail : Octets} (h : IsTorn tail) :
    next? tail = if tail.length < 4 then none else some (.error .cutOff, []) := by
  rw [isTorn_iff] at h
  unfold next?
  by_cases hstart : tail.length < 4
  · rw [if_pos hstart, cut_eq_error hstart]
  have hbroken : cutRecord (tail.drop 4) = .error .cutOff := by
    unfold cutRecord
    by_cases h8 : tail.length < 8
    · rw [cut_eq_error (by rw [List.length_drop]; omega)]
      rfl
    rw [cut_drop (by omega)]
    by_cases h12 : tail.length < 12
    · simp only [bind, Except.bind]
      rw [cut_eq_error (by rw [List.length_drop]; omega)]
    by_cases h16 : tail.length < 16
    · simp (disch := omega) only [cut_drop, bind, Except.bind]
      rw [cut_eq_error (by rw [List.length_drop]; omega)]
    have hlength : (tail.slice 8 4).word32 0 = tail.word32 8 := by
      simp only [Octets.word32, Octets.slice, List.drop_zero, List.take_take, Nat.min_self]
    simp (disch := omega) only [cut_drop, bind, Except.bind, hlength]
    rw [cut_eq_error (by rw [List.length_drop]; omega)]
  rw [if_neg hstart, cut_eq (by omega)]
  simp only [hbroken]

/-! ### All calls -/

theorem records_append (r : RawRecord) (rest : Octets) :
    records (r.toOctets ++ rest) = r.result :: records rest := by
  have hfields := Octets.split?_append (r.content ++ rest) r.length_fields
  have hcontent := Octets.split?_append rest r.length_content
  rw [RawRecord.toOctets, List.append_assoc, records]
  split
  · next hnone =>
    rw [hfields] at hnone
    exact absurd hnone (by simp)
  · next fields content hsome =>
    rw [hfields] at hsome
    obtain ⟨rfl, rfl⟩ := Prod.mk.inj (Option.some.inj hsome)
    split
    · next hnone =>
      rw [hcontent] at hnone
      exact absurd hnone (by simp)
    · next content rest' hsome' =>
      rw [hcontent] at hsome'
      obtain ⟨rfl, rfl⟩ := Prod.mk.inj (Option.some.inj hsome')
      rw [RawRecord.result, readContent_eq]
      rfl

theorem records_torn {tail : Octets} (h : IsTorn tail) : records tail = ending tail.length := by
  rw [isTorn_iff] at h
  rw [records]
  split
  · rfl
  · next fields content hsome =>
    obtain ⟨rfl, hfields⟩ := Octets.split?_eq_some hsome
    have hword : (fields ++ content).word32 8 = fields.word32 8 := by
      rw [← word32_take _ (show 12 ≤ 16 by omega), List.take_left' hfields]
    rw [hword, List.length_append] at h
    have hlong : ¬ (fields ++ content).length < 4 := by
      rw [List.length_append]
      omega
    rw [ending, if_neg hlong]
    split
    · rfl
    · next hsome' =>
      -- A tail that is torn has fewer octets than its header announces.
      obtain ⟨rfl, hcontent⟩ := Octets.split?_eq_some hsome'
      rw [List.length_append] at h
      omega

/-- The list of results is what one call after the other gives. -/
theorem records_eq (o : Octets) :
    records o = match next? o with
      | none => []
      | some (x, rest) => x :: records rest := by
  rcases torn_or_record o with htorn | ⟨r, rest, rfl⟩
  · rw [records_torn htorn, next?_torn htorn, ending]
    by_cases hstart : o.length < 4
    · rw [if_pos hstart, if_pos hstart]
    · have hend : records [] = [] := records_torn (htorn.take 0)
      rw [if_neg hstart, if_neg hstart]
      simp only [hend]
  · rw [records_append, next?_append]

/-! ### All records -/

/-- The octets of some records, one after the other. -/
def RawRecord.allOctets (rs : List RawRecord) : Octets := rs.flatMap toOctets

theorem RawRecord.allOctets_cons (r : RawRecord) (rs : List RawRecord) :
    allOctets (r :: rs) = r.toOctets ++ allOctets rs := rfl

theorem records_allOctets_append (rs : List RawRecord) {tail : Octets} (h : IsTorn tail) :
    records (RawRecord.allOctets rs ++ tail) = rs.map RawRecord.result ++ ending tail.length := by
  induction rs with
  | nil => exact records_torn h
  | cons r rs ih =>
    rw [RawRecord.allOctets_cons, List.append_assoc, records_append, ih, List.map_cons,
      List.cons_append]

/-- Every string is some records and the beginning of another. -/
theorem exists_framing (o : Octets) :
    ∃ (rs : List RawRecord) (tail : Octets), IsTorn tail ∧ o = RawRecord.allOctets rs ++ tail := by
  rcases torn_or_record o with htorn | ⟨r, rest, rfl⟩
  · exact ⟨[], o, htorn, rfl⟩
  · obtain ⟨rs, tail, htorn, rfl⟩ := exists_framing rest
    exact ⟨r :: rs, tail, htorn, by rw [RawRecord.allOctets_cons, List.append_assoc]⟩
termination_by o.length
decreasing_by
  subst_vars
  rw [List.length_append, r.length_toOctets]
  omega

/-- The octets before a cut are the records that end before it, and the beginning of another. -/
theorem take_allOctets_append (rs : List RawRecord) {tail : Octets} (h : IsTorn tail) (n : Nat) :
    ∃ (k : Nat) (part : Octets), k ≤ rs.length ∧ IsTorn part ∧
      (RawRecord.allOctets rs ++ tail).take n = RawRecord.allOctets (rs.take k) ++ part ∧
      ∀ i ≤ rs.length, (RawRecord.allOctets (rs.take i)).length ≤ n ↔ i ≤ k := by
  induction rs generalizing n with
  | nil =>
    refine ⟨0, tail.take n, Nat.le_refl _, h.take n, rfl, fun i hi => iff_of_true ?_ hi⟩
    rw [List.take_nil]
    exact Nat.zero_le n
  | cons r rs ih =>
    have hnone : (RawRecord.allOctets ((r :: rs).take 0)).length ≤ n := Nat.zero_le n
    by_cases hcut : n < r.toOctets.length
    · refine ⟨0, r.toOctets.take n, Nat.zero_le _, r.isTorn_take hcut, ?_, ?_⟩
      · rw [RawRecord.allOctets_cons, List.append_assoc,
          List.take_append_of_le_length (by omega)]
        rfl
      · rintro (_ | i) _
        · exact iff_of_true hnone (Nat.le_refl _)
        · refine iff_of_false ?_ (by omega)
          rw [List.take_succ_cons, RawRecord.allOctets_cons, List.length_append]
          omega
    · obtain ⟨k, part, hk, hpart, htake, hwhole⟩ := ih (n - r.toOctets.length)
      refine ⟨k + 1, part, by simpa using hk, hpart, ?_, ?_⟩
      · rw [RawRecord.allOctets_cons, List.append_assoc, List.take_append,
          List.take_of_length_le (by omega), htake, List.take_succ_cons,
          RawRecord.allOctets_cons, List.append_assoc]
      · rintro (_ | i) hi
        · exact iff_of_true hnone (by omega)
        · rw [List.length_cons] at hi
          have := hwhole i (by omega)
          rw [List.take_succ_cons, RawRecord.allOctets_cons, List.length_append]
          omega

/-! ## Files -/

/-- The header of a capture file: the number it starts with and the link type are those that are
read; whatever else is in it does not matter. -/
structure IsHeader (head : Octets) : Prop where
  length : head.length = 24
  magic : head.word32 0 = magic
  linkType : head.word32 20 = linkType

namespace IsHeader

variable {head : Octets}

theorem ofHeader_append (h : IsHeader head) (rest : Octets) :
    ofHeader (head ++ rest) = .ok rest := by
  have hsplit : head ++ rest = head.take 4 ++ (head.drop 4 ++ rest) := by
    rw [← List.append_assoc, List.take_append_drop]
  have hstart : (head.take 4).length = 4 := by
    rw [List.length_take, h.length]
    rfl
  have hfields : (head.drop 4).length = 20 := by rw [List.length_drop, h.length]
  have hmagic : Octets.word32 (head.take 4) 0 = Capture.magic := by
    rw [← h.magic, Octets.word32, Octets.slice, List.drop_zero, List.take_take]
    rfl
  have hlinkType : Octets.word32 (head.drop 4) 16 = Capture.linkType := by
    rw [← h.linkType, Octets.word32, Octets.slice, List.drop_drop]
    rfl
  unfold ofHeader
  rw [hsplit, Octets.split?_append _ hstart]
  simp only [hmagic, ne_eq, not_true_eq_false, if_false, Octets.split?_append rest hfields,
    hlinkType]

/-- A file that ends in its header has no records. -/
theorem ofHeader_take (h : IsHeader head) {n : Nat} (hn : n < 24) :
    ofHeader (head.take n) = .error .cutOff := by
  have hlength : (head.take n).length = n := by
    rw [List.length_take, h.length, Nat.min_eq_left hn.le]
  unfold ofHeader Octets.split?
  by_cases hstart : n < 4
  · rw [if_pos (by rw [List.length_take, hlength]; omega)]
  · have hmagic : Octets.word32 ((head.take n).take 4) 0 = Capture.magic := by
      rw [← h.magic, Octets.word32, Octets.slice, List.drop_zero, List.take_take, List.take_take,
        Nat.min_eq_left (by omega)]
      rfl
    rw [if_neg (by rw [List.length_take, hlength]; omega)]
    simp only [hmagic, ne_eq, not_true_eq_false, if_false]
    rw [if_pos (by rw [List.length_take, List.length_drop, hlength]; omega)]

end IsHeader

theorem ofFile_framed {head tail : Octets} (hhead : IsHeader head) (rs : List RawRecord)
    (htail : IsTorn tail) :
    ofFile (head ++ (RawRecord.allOctets rs ++ tail)) =
      .ok (rs.map RawRecord.result ++ ending tail.length) := by
  unfold ofFile
  rw [hhead.ofHeader_append, ← records_allOctets_append rs htail]
  rfl

/-- A file that is cut off in its header is no capture file.  One that is cut off later gives the
results of the records that are whole, and its end is told by what is left of the next. -/
theorem ofFile_take {head tail : Octets} (hhead : IsHeader head) (rs : List RawRecord)
    (htail : IsTorn tail) (n : Nat) :
    (n < 24 → ofFile ((head ++ (RawRecord.allOctets rs ++ tail)).take n) = .error .cutOff) ∧
      (24 ≤ n → ∃ (k : Nat) (part : Octets), k ≤ rs.length ∧ IsTorn part ∧
        (head ++ (RawRecord.allOctets rs ++ tail)).take n =
          head ++ (RawRecord.allOctets (rs.take k) ++ part) ∧
        (∀ i ≤ rs.length, (head ++ RawRecord.allOctets (rs.take i)).length ≤ n ↔ i ≤ k) ∧
        ofFile ((head ++ (RawRecord.allOctets rs ++ tail)).take n) =
          .ok ((rs.take k).map RawRecord.result ++ ending part.length)) := by
  have hlength := hhead.length
  constructor
  · intro hn
    rw [List.take_append_of_le_length (by omega), ofFile, hhead.ofHeader_take hn]
    rfl
  · intro hn
    obtain ⟨k, part, hk, hpart, htake, hwhole⟩ := take_allOctets_append rs htail (n - 24)
    have hfile : (head ++ (RawRecord.allOctets rs ++ tail)).take n =
        head ++ (RawRecord.allOctets (rs.take k) ++ part) := by
      rw [List.take_append, List.take_of_length_le (by omega), hlength, htake]
    refine ⟨k, part, hk, hpart, hfile, fun i hi => ?_, ?_⟩
    · have := hwhole i hi
      rw [List.length_append]
      omega
    · rw [hfile, ofFile_framed hhead _ hpart]

/-- Where the records of a file are depends on nothing but their lengths.

A file is a header, some records and the beginning of one more.  Reading it gives one result for
each record, which its own octets decide, and then the end of the file, or, if at least four octets
are left, an error.  So another record in the place of one changes the result in that place, and a
cut leaves the results of the records before it. -/
theorem framing {head tail : Octets} (hhead : IsHeader head) (rs : List RawRecord)
    (htail : IsTorn tail) :
    let file := head ++ (RawRecord.allOctets rs ++ tail)
    -- The results are what one call after the other gives.
    (∃ rest, ofHeader file = .ok rest ∧ ofFile file = .ok (records rest)) ∧
    (∀ o, records o = match next? o with
      | none => []
      | some (x, rest) => x :: records rest) ∧
    ofFile file = .ok (rs.map (fun r => readContent r.micros r.content) ++
      if tail.length < 4 then [] else [.error .cutOff]) ∧
    -- Each result is a record, or says that its content is malformed.
    (∀ r : RawRecord, (∃ x, readContent r.micros r.content = .ok x) ∨
      ∃ e, readContent r.micros r.content = .error (.malformed e)) ∧
    (∀ r : RawRecord, (∃ x, readContent r.micros r.content = .ok x) ↔
      17 ≤ r.content.length ∧ r.content.octet 0 < 40 ∧
        (r.content.word16 8).toNat / 0x4000 ≠ 3 ∧
        ((r.content.word16 8).toNat / 0x4000 = 2 → 18 ≤ r.content.length)) ∧
    -- A record decides its own result only.
    (∀ (i : Nat) (r : RawRecord),
      ofFile (head ++ (RawRecord.allOctets (rs.set i r) ++ tail)) =
        .ok ((rs.map RawRecord.result).set i r.result ++ ending tail.length)) ∧
    -- A cut leaves the results of the whole records before it.
    ∀ n, (n < 24 → ofFile (file.take n) = .error .cutOff) ∧
      (24 ≤ n → ∃ (k : Nat) (part : Octets), k ≤ rs.length ∧ IsTorn part ∧
        file.take n = head ++ (RawRecord.allOctets (rs.take k) ++ part) ∧
        (∀ i ≤ rs.length, (head ++ RawRecord.allOctets (rs.take i)).length ≤ n ↔ i ≤ k) ∧
        ofFile (file.take n) = .ok ((rs.take k).map RawRecord.result ++ ending part.length)) := by
  intro file
  have hrest := hhead.ofHeader_append (RawRecord.allOctets rs ++ tail)
  refine ⟨⟨_, hrest, ?_⟩, records_eq, ofFile_framed hhead rs htail,
    fun r => readContent_cases r.micros r.content,
    fun r => exists_readContent r.micros r.content, fun i r => ?_, ofFile_take hhead rs htail⟩
  · unfold ofFile
    rw [hrest]
    rfl
  · rw [ofFile_framed hhead _ htail, List.map_set]

/-- An advertisement, a record without content, and one on a channel that does not exist. -/
def oddRecords : List RawRecord :=
  [⟨[2, 0, 0, 0, 9, 0, 0, 0, 19, 0, 0, 0, 99, 0, 0, 0],
      [0, 0xD0, 7, 7, 7, 7, 7, 7, 0, 0, 0xD6, 0xBE, 0x89, 0x8E, 6, 0, 1, 2, 3], rfl, rfl⟩,
    ⟨List.replicate 16 0, [], rfl, rfl⟩,
    ⟨[3, 0, 0, 0, 9, 0, 0, 0, 17, 0, 0, 0, 0, 0, 0, 0],
      [40, 0xD0, 7, 7, 7, 7, 7, 7, 0, 0, 0xD6, 0xBE, 0x89, 0x8E, 1, 2, 3], rfl, rfl⟩]

/-- They are read up to the start of a header after them.  With another record in the place of the
second, and cut within the third, there are two records that can be read. -/
theorem framing_oddRecords :
    ∃ a, ofFile (header ++ (RawRecord.allOctets oddRecords ++ [1, 2, 3, 4, 5])) =
        .ok [.ok a, .error (.malformed (.tooShort 0)), .error (.malformed (.badRfChannel 40)),
          .error .cutOff] ∧
      ofFile (header ++ (RawRecord.allOctets (oddRecords.set 1 oddRecords[0]) ++ [1, 2, 3, 4, 5])) =
        .ok [.ok a, .ok a, .error (.malformed (.badRfChannel 40)), .error .cutOff] ∧
      ofFile ((header ++ (RawRecord.allOctets oddRecords ++ [1, 2, 3, 4, 5])).take 78) =
        .ok [.ok a, .error (.malformed (.tooShort 0))] := by
  obtain ⟨_, _, hfile, _, hread, hset, hcut⟩ := @framing header [1, 2, 3, 4, 5]
    ⟨rfl, rfl, rfl⟩ oddRecords (isTorn_iff.mpr (by decide))
  obtain ⟨a, ha⟩ := (hread oddRecords[0]).mpr (by decide)
  obtain ⟨k, part, hk, _, hpart, hwhole, hresults⟩ := (hcut 78).2 (by decide)
  have htwo : k = 2 := by
    have h2 := (hwhole 2 (by decide)).mp (by decide)
    have h3 := mt (hwhole 3 (by decide)).mpr (by decide)
    omega
  subst htwo
  have hleft := congrArg List.length hpart
  rw [List.length_append, List.length_append] at hleft
  change 78 = 24 + (51 + part.length) at hleft
  have hresult : RawRecord.result oddRecords[0] = .ok a := ha
  refine ⟨a, hfile.trans ?_, (hset 1 _).trans ?_, hresults.trans ?_⟩
  · exact congrArg (fun x => Except.ok (x :: _)) ha
  · rw [hresult]
    exact congrArg (fun x => Except.ok (x :: _)) ha
  · rw [ending, if_pos (by omega)]
    exact congrArg (fun x => Except.ok (x :: _)) ha

end AirTrace.Capture

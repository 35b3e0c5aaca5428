import AirTrace.Proofs.Pipeline

/-!
# Every record is accounted for

A file is some records and the beginning of one more.  `Replay.Accounts` says what is made of them:
a packet of each record that can be read, in order, and a framing error of each that cannot.
`Pipeline.accounts_for_every_record` says that this comes of every file with a valid header, however
a pipeline takes turns with it, and that the program lists, writes and counts the same.

There are four groups.

* What is counted.  `Stats.countAll` counts many packets at once, and `Replay.stats_run` says that a
  replay counts so.
* The packets.  A record that can be read is a frame for a session whose clock is fixed
  (`Tracker.start_replayAll_eq_processAll`).
* The program.  `Program.serve_eq` runs it on any file system that keeps what is written to it.
* Files, with both of their readings.
-/

namespace AirTrace

open Capture (Record RecordError RawRecord IsTorn ending)

/-! ## What is counted -/

namespace Stats

variable {τ : Type}

/-- The counters after some more packets and some more records that could not be read. -/
def countAll (s : Stats) (ps : List (Packet τ)) (bad : Nat) : Stats where
  packets := s.packets + ps.length
  framingErrors := s.framingErrors + bad
  decodeErrors := s.decodeErrors + ps.countP Packet.failed
  crcChecked := s.crcChecked + ps.countP (·.crcValid.isSome)
  crcValid := s.crcValid + ps.countP (·.crcValid == some true)
  messages := s.messages

theorem countAll_count (s : Stats) (p : Packet τ) (ps : List (Packet τ)) (bad : Nat) :
    (s.count p).countAll ps bad = s.countAll (p :: ps) bad := by
  have hpackets : s.packets + 1 + ps.length = s.packets + (p :: ps).length := by
    rw [List.length_cons, Nat.add_assoc, Nat.add_comm 1]
  unfold countAll count
  simp only [add_countP_cons, hpackets]

end Stats

namespace Replay

variable {τ : Type} [TimeScale τ]

/-- A replay counts its packets, and the records that could not be read. -/
theorem stats_run (s : Session τ) (xs : List (Except RecordError Record)) :
    (run s xs).session.stats =
      s.stats.countAll (run s xs).packets (xs.countP fun x => !x.isOk) := by
  induction xs generalizing s with
  | nil => rfl
  | cons x xs ih =>
    cases x with
    | error e =>
      have hbad : s.stats.framingErrors + 1 + (xs.countP fun x => !x.isOk) =
          s.stats.framingErrors + (.error e :: xs).countP fun x => !x.isOk := by
        rw [List.countP_cons_of_pos rfl, Nat.add_assoc, Nat.add_comm 1]
      refine (ih _).trans ?_
      unfold Stats.countAll
      rw [← hbad]
      rfl
    | ok r => exact (ih _).trans (Stats.countAll_count _ _ _ _)

end Replay

/-! ## The packets -/

variable {τ : Type} [TimeScale τ]

namespace Tracker

/-- Once the clock is fixed, replaying records is processing their frames. -/
theorem replayAll_eq_processAll {s : Session τ} {c : Clock τ} (hclock : s.tracker.clock = some c)
    (now : τ) (rs : List Record) :
    s.tracker.replayAll rs = (s.processAll now (rs.map Record.frame)).1 := by
  induction rs generalizing s c with
  | nil => rfl
  | cons r rs ih =>
    have hreplay : s.tracker.replay r = s.tracker.receive now r.frame := by
      rw [replay_of_clock hclock, receive_of_clock hclock]
    obtain ⟨c', hnext⟩ : ∃ c', (s.process now r.frame).2.tracker.clock = some c' :=
      ⟨_, (s.tracker.receive_clock now r.frame).1⟩
    rw [replayAll, hreplay]
    exact congrArg (_ :: ·) (ih hnext)

end Tracker

/-- The session with its clock fixed to the first of some records. -/
def Session.fixedTo (s : Session τ) : List Record → Session τ
  | [] => s
  | r :: _ => s.fixClock r.frame.tick r.time

/-- Replaying records is processing their frames, once the clock is fixed to the first of them. -/
theorem Tracker.start_replayAll_eq_processAll (s : Settings τ) (rs : List Record) (now : τ) :
    (start s).replayAll rs =
      (((Session.start s).fixedTo rs).processAll now (rs.map Record.frame)).1 := by
  cases rs with
  | nil => rfl
  | cons r rs =>
    have hclock : ((Session.start s).fixedTo (r :: rs)).tracker.clock =
        some (.fixAt s r.frame.tick r.time) := rfl
    rw [← replayAll_eq_processAll hclock]
    exact (replayAll_fixClock _ r rs).symm

/-! ## The program -/

variable {σ : Type}

/-- What a file system says of a file is what reading the file gives. -/
def FileSystem.Reads (fs : FileSystem (StateM σ)) (content : σ → String → Option Octets) : Prop :=
  ∀ (w : σ) (path : String) (o : Octets), content w path = some o →
    (fs.read path).run w = (.ok o, w)

/-- A file can be written, and writing it leaves another one alone. -/
structure FileSystem.Writes (fs : FileSystem (StateM σ)) (content : σ → String → Option Octets)
    (path other : String) : Prop where
  create : ∀ w, ∃ w', (fs.create path).run w = (.ok (), w') ∧ content w' path = some [] ∧
    content w' other = content w other
  append : ∀ w a o, content w path = some a → ∃ w', (fs.append path o).run w = (.ok (), w') ∧
    content w' path = some (a ++ o) ∧ content w' other = content w other

namespace Program

variable {fs : FileSystem (StateM σ)} {content : σ → String → Option Octets} {w : σ}

theorem run_bind_of_eq {α β : Type} {x : StateM σ α} {f : α → StateM σ β} {a : α} {w' : σ}
    (h : x.run w = (a, w')) : (x >>= f).run w = (f a).run w' := by
  rw [StateT.run_bind, h]
  rfl

theorem makeOutput_eq {output : Option String} {input : String}
    (hwrites : ∀ path, output = some path → fs.Writes content path input) :
    ∃ w', (makeOutput fs output).run w = (.ok (), w') ∧
      (∀ path, output = some path → content w' path = some Capture.header) ∧
      content w' input = content w input := by
  cases output with
  | none => exact ⟨w, rfl, (fun _ h => by cases h), rfl⟩
  | some path =>
    obtain ⟨w₁, hcreate, hempty, hinput₁⟩ := (hwrites path rfl).create w
    obtain ⟨w₂, happend, hheader, hinput₂⟩ := (hwrites path rfl).append w₁ _ Capture.header hempty
    refine ⟨w₂, ?_, ?_, hinput₂.trans hinput₁⟩
    · unfold makeOutput
      rw [run_bind_of_eq hcreate]
      simp only
      rw [run_bind_of_eq happend]
      rfl
    · rintro _ ⟨⟩
      exact hheader

theorem fillOutput_eq {output : Option String} {input : String} (r : Replay Float)
    (hwrites : ∀ path, output = some path → fs.Writes content path input)
    (hheader : ∀ path, output = some path → content w path = some Capture.header) :
    ∃ w', (fillOutput fs r output).run w = (.ok (), w') ∧
      (∀ path, output = some path → content w' path = some r.toCapture) ∧
      content w' input = content w input := by
  cases output with
  | none => exact ⟨w, rfl, (fun _ h => by cases h), rfl⟩
  | some path =>
    obtain ⟨w', happend, hrecords, hinput⟩ :=
      (hwrites path rfl).append w _ r.toRecords (hheader path rfl)
    refine ⟨w', ?_, ?_, hinput⟩
    · unfold fillOutput
      rw [run_bind_of_eq happend]
      rfl
    · rintro _ ⟨⟩
      exact hrecords

/-- The program lists the packets of a replay and writes them to the file that is named. -/
theorem serve_eq {q : CommandLine.Request} {s : Settings Float} {input : String} {file : Octets}
    {r : Replay Float} (hreads : fs.Reads content) (hinput : q.input = some input)
    (hsettings : (loadSettings fs q.settings).run w = (.ok s, w))
    (hfile : content w input = some file) (hreplay : Replay.ofFile s file = .ok r)
    (hwrites : ∀ output, q.output = some output → fs.Writes content output input) :
    ∃ w', (serve fs q).run w =
        (⟨0, r.text, if q.stats then [.statistics r.session.stats] else []⟩, w') ∧
      (∀ output, q.output = some output → content w' output = some r.toCapture) ∧
      content w' input = some file := by
  have hload : (loadReplay fs s input).run w = (.ok r, w) := by
    unfold loadReplay
    rw [run_bind_of_eq (hreads w input file hfile)]
    simp only [hreplay]
    rfl
  obtain ⟨w₁, hmake, hheader, hinput₁⟩ := makeOutput_eq (w := w) hwrites
  obtain ⟨w₂, hfill, hwritten, hinput₂⟩ := fillOutput_eq r hwrites hheader
  refine ⟨w₂, ?_, hwritten, (hinput₂.trans hinput₁).trans hfile⟩
  unfold serve
  rw [run_bind_of_eq hsettings]
  simp only [hinput]
  rw [run_bind_of_eq hload]
  simp only
  rw [run_bind_of_eq hmake]
  simp only
  rw [run_bind_of_eq hfill]
  rfl

end Program

/-! ## Files -/

namespace Capture.RawRecord

/-- The records that can be read, in order. -/
def parsed (rs : List RawRecord) : List Record := rs.filterMap fun r => r.result.toOption

/-- How many records are malformed. -/
def malformed (rs : List RawRecord) : Nat :=
  rs.countP fun r => match r.result with
    | .error (.malformed _) => true
    | _ => false

theorem filterMap_results (rs : List RawRecord) (left : Nat) :
    (rs.map result ++ ending left).filterMap Except.toOption = parsed rs := by
  have hending : (ending left).filterMap Except.toOption = [] := by
    unfold ending
    split <;> rfl
  rw [List.filterMap_append, hending, List.append_nil, List.filterMap_map]
  rfl

theorem countP_results (rs : List RawRecord) (left : Nat) :
    (rs.map result ++ ending left).countP (fun x => !x.isOk) =
      malformed rs + if left < 4 then 0 else 1 := by
  have hending : (ending left).countP (fun x => !x.isOk) = if left < 4 then 0 else 1 := by
    unfold ending
    split <;> rfl
  rw [List.countP_append, hending, List.countP_map]
  congr 1
  refine List.countP_congr fun r _ => ?_
  rcases readContent_cases r.micros r.content with ⟨x, hx⟩ | ⟨e, he⟩
  · simp [result, hx, Except.isOk, Except.toBool]
  · simp [result, he, Except.isOk, Except.toBool]

end Capture.RawRecord

/-- What is made of the records of a file: each that can be read is a packet, each that is malformed
a framing error, and so is the beginning of one more, if there are at least four octets of it. -/
structure Replay.Accounts (s : Settings τ) (rs : List RawRecord) (tail : Octets)
    (ps : List (Packet τ)) (stats : Stats) : Prop where
  /-- One session, whose clock is fixed to the first record, takes their frames in order. -/
  processed : ∀ now, ps = (((Session.start s).fixedTo (RawRecord.parsed rs)).processAll now
    ((RawRecord.parsed rs).map Record.frame)).1
  packets : stats.packets = (RawRecord.parsed rs).length
  framingErrors : stats.framingErrors = RawRecord.malformed rs + if tail.length < 4 then 0 else 1
  decodeErrors : stats.decodeErrors = ps.countP Packet.failed
  crcChecked : stats.crcChecked = ps.countP (·.crcValid.isSome)
  crcValid : stats.crcValid = ps.countP (·.crcValid == some true)
  messages : stats.messages = 0

theorem Replay.accounts_run (s : Settings τ) (rs : List RawRecord) (tail : Octets) :
    let r := run (.start s) (rs.map RawRecord.result ++ ending tail.length)
    Accounts s rs tail r.packets r.session.stats := by
  intro r
  have hread := RawRecord.filterMap_results rs tail.length
  have hpackets : r.packets.length = (RawRecord.parsed rs).length := by
    rw [packets_run, hread, Tracker.length_replayAll]
  have hstats : r.session.stats = Stats.zero.countAll r.packets
      (RawRecord.malformed rs + if tail.length < 4 then 0 else 1) := by
    rw [← RawRecord.countP_results]
    exact stats_run (.start s) _
  rw [hstats]
  refine ⟨fun now => ?_, (Nat.zero_add _).trans hpackets, Nat.zero_add _, Nat.zero_add _,
    Nat.zero_add _, Nat.zero_add _, rfl⟩
  rw [packets_run, hread]
  exact Tracker.start_replayAll_eq_processAll s _ now

namespace Pipeline

/-- No file with a valid header stops the pipeline, and every record in it is accounted for.

However the reader and the decoder take turns, the pipeline ends, without an error, and what it has
counted, listed and written is the same.  The program, which reads the file first, does the same. -/
theorem accounts_for_every_record (s : Settings Float) {file rest : Octets}
    (hheader : Capture.ofHeader file = .ok rest) :
    ∃ (rs : List RawRecord) (tail : Octets) (packets : List (Packet Float)) (stats : Stats),
      rest = RawRecord.allOctets rs ++ tail ∧ IsTorn tail ∧
      Replay.Accounts s rs tail packets stats ∧
      (∀ (writes : Bool) (n : Nat) (p : State Float),
        (State.start s writes ⟨rest, none⟩).Reaches n p →
          n ≤ 2 * rest.length + 5 ∧ (∀ text, p.progress ≠ .failed text) ∧
          (p.progress ≠ .done → ∃ q, Step p q) ∧
          (p.progress = .done → p.reader = none ∧ p.queue = [] ∧ p.decoder.session.stats = stats ∧
            p.decoder.listed = packets ∧ p.decoder.written =
              if writes then some (Capture.header ++ packets.flatMap Packet.toCapture) else none)) ∧
      ∀ {σ : Type} (fs : FileSystem (StateM σ)) (content : σ → String → Option Octets) (w : σ)
        (q : CommandLine.Request) (input : String),
        fs.Reads content → (Program.loadSettings fs q.settings).run w = (.ok s, w) →
        q.input = some input → content w input = some file →
        (∀ output, q.output = some output → fs.Writes content output input) →
        ∃ w', (Program.serve fs q).run w =
            (⟨0, String.join (packets.map fun p => p.text ++ "\n\n"),
              if q.stats then [.statistics stats] else []⟩, w') ∧
          (∀ output, q.output = some output → content w' output =
            some (Capture.header ++ packets.flatMap Packet.toCapture)) ∧
          content w' input = some file := by
  obtain ⟨rs, tail, htorn, rfl⟩ := Capture.exists_framing rest
  have hrecords := Capture.records_allOctets_append rs htorn
  refine ⟨rs, tail, _, _, rfl, htorn, Replay.accounts_run s rs tail, ?_, ?_⟩
  · intro writes n p hp
    have hfollows := (Follows.start s writes _).of_reaches hp
    have hsize := hp.add_size_le
    have hbound : (State.start s writes ⟨RawRecord.allOctets rs ++ tail, none⟩).size =
        2 * (RawRecord.allOctets rs ++ tail).length + 5 := rfl
    have hitems := Source.items_of_fault_eq_none (RawRecord.allOctets rs ++ tail)
    have hfailed : ∀ text, p.progress ≠ .failed text := by
      intro text htext
      obtain ⟨e, he⟩ := hfollows.not_failed htext
      rw [hitems, List.mem_map] at he
      obtain ⟨x, _, hx⟩ := he
      cases x <;> cases hx
    refine ⟨by omega, hfailed, fun hdone => hfollows.exists_step ?_, fun hdone => ?_⟩
    · cases hprogress : p.progress with
      | decoding | joining => rfl
      | done => exact absurd hprogress hdone
      | failed text => exact absurd hprogress (hfailed text)
    · obtain ⟨hreader, hqueue, hdecoder⟩ := hfollows.decoder_eq hdone
      rw [hitems, hrecords, foldl_take] at hdecoder
      rw [hdecoder]
      refine ⟨hreader, hqueue, rfl, rfl, ?_⟩
      cases writes <;> rfl
  · intro σ fs content w q input hreads hsettings hinput hfile hwrites
    have hreplay : Replay.ofFile s file =
        .ok (Replay.run (.start s) (rs.map RawRecord.result ++ ending tail.length)) := by
      unfold Replay.ofFile
      rw [Capture.ofFile_of_ofHeader hheader, hrecords]
      rfl
    exact Program.serve_eq hreads hinput hsettings hfile hreplay hwrites

/-- A file system that holds every file as a string of octets. -/
def memory : FileSystem (StateM (String → Option Octets)) where
  read path := fun w => (((w path).map .ok).getD (.error (.cannotOpen ⟨2⟩)), w)
  create path := fun w => (.ok (), Function.update w path (some []))
  append path o := fun w => (.ok (), Function.update w path ((w path).map (· ++ o)))

theorem memory_reads : memory.Reads id := by
  intro w path o ho
  show (((w path).map Except.ok).getD _, w) = _
  rw [show w path = some o from ho]
  rfl

theorem memory_writes {path other : String} (h : other ≠ path) : memory.Writes id path other where
  create w := ⟨_, rfl, Function.update_self path _ w, Function.update_of_ne h _ w⟩
  append w a o ho := by
    refine ⟨_, rfl, ?_, Function.update_of_ne h _ w⟩
    show Function.update w path _ path = _
    rw [Function.update_self, show w path = some a from ho]
    rfl

/-- A file with a record that can be read, two that cannot, and the beginning of a fourth. -/
def oddFile : Octets :=
  Capture.header ++ (RawRecord.allOctets Capture.oddRecords ++ [1, 2, 3, 4, 5])

/-- The program lists and writes its one packet, and counts three framing errors; and so does every
pipeline that is done with it. -/
theorem accounts_for_oddFile :
    let w : String → Option Octets := Function.update (fun _ => none) "in" (some oddFile)
    ∃ (packets : List (Packet Float)) (stats : Stats) (w' : String → Option Octets),
      stats.packets = 1 ∧ stats.framingErrors = 3 ∧
      (Program.serve memory ⟨some "in", some "out", none, false, true⟩).run w =
        (⟨0, String.join (packets.map fun p => p.text ++ "\n\n"), [.statistics stats]⟩, w') ∧
      w' "in" = some oddFile ∧
      w' "out" = some (Capture.header ++ packets.flatMap Packet.toCapture) ∧
      ∀ (n : Nat) (p : State Float),
        (State.start .standard true ⟨oddFile.drop 24, none⟩).Reaches n p → p.progress = .done →
          p.decoder.session.stats = stats ∧ p.decoder.listed = packets := by
  intro w
  obtain ⟨rs, tail, packets, stats, hrest, htorn, haccounts, hpipeline, hprogram⟩ :=
    accounts_for_every_record .standard
      (show Capture.ofHeader oddFile = .ok (oddFile.drop 24) from rfl)
  have hrecords := Capture.records_allOctets_append rs htorn
  rw [← hrest] at hrecords
  have hfile : w "in" = some oddFile := by simp [w]
  obtain ⟨w', hserve, hout, hin⟩ := hprogram memory id w ⟨some "in", some "out", none, false, true⟩
    "in" memory_reads rfl rfl hfile fun output houtput => by
      obtain rfl := Option.some.inj houtput
      exact memory_writes (by decide)
  refine ⟨packets, stats, w', ?_, ?_, hserve, hin, hout "out" rfl, fun n p hp hdone => ?_⟩
  · rw [haccounts.packets, ← RawRecord.filterMap_results rs tail.length, ← hrecords]
    decide +kernel
  · rw [haccounts.framingErrors, ← RawRecord.countP_results, ← hrecords]
    decide +kernel
  · obtain ⟨_, _, hstats, hlisted, _⟩ := (hpipeline true n p hp).2.2.2 hdone
    exact ⟨hstats, hlisted⟩

end Pipeline

end AirTrace

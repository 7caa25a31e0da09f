/-
# Files that are cut short

A file that was cut between two records cannot be told from one that was written so; one that was cut
anywhere else is refused. Both readers take a file record by record (`TakesRecords`), and every state
between two records of an accepted file is one at which the file could have ended
(`RecordsUpTo.exists_runSteps`). So for the beginnings of a file that is accepted:

| cut | reading |
| --- | --- |
| in the header | refused |
| behind the header or a record | accepted, with the records so far |
| anywhere behind a zero tag | as the whole file, whatever stands there instead |
| anywhere else | refused |

`CutsBehindRecords` says this of a reader, and `Profile.cuts_behind_records` of the readers of notes
and of data.
-/
import ArcCoverage.Format.Draft
import ArcCoverage.Proofs.Profile.Headers
import ArcCoverage.Proofs.Profile.Merging

namespace ArcCoverage

/-- **A reader that takes a file record by record.** It wants a header, and what it makes of a file is
decided by the records behind the header. -/
structure TakesRecords {σ : Type} (kind : FileKind) (order : ByteOrder) (v : Version)
    (stamp : UInt32) (read : List UInt8 → Loading) (step : σ → Record → Except ReadError σ) (start : σ)
    (make : σ → Profile) : Prop where
  /-- A header takes twelve bytes. -/
  short : ∀ bytes : List UInt8, bytes.length < 12 → (read bytes).failure ≠ none
  accepts : ∀ bytes s, HasHeader kind order v stamp bytes →
    (Record.all (.ofFile order bytes 12)).run step start = (s, none) →
    (read bytes).failure = none ∧ (read bytes).profile = make s
  refuses : ∀ bytes s e, HasHeader kind order v stamp bytes →
    (Record.all (.ofFile order bytes 12)).run step start = (s, some e) →
    (read bytes).failure = some e
  /-- Nothing else counts. -/
  congr : ∀ bytes bytes', HasHeader kind order v stamp bytes → HasHeader kind order v stamp bytes' →
    Record.all (.ofFile order bytes 12) = Record.all (.ofFile order bytes' 12) →
    read bytes = read bytes'

/-- **Cuts are seen unless they are behind a record** or a zero tag. -/
structure CutsBehindRecords {σ : Type} (order : ByteOrder) (bytes : List UInt8)
    (read : List UInt8 → Loading) (step : σ → Record → Except ReadError σ) (start : σ)
    (make : σ → Profile) : Prop where
  accepted_iff : ∀ n ≤ bytes.length,
    (read (bytes.take n)).failure = none ↔ MayEndAt order bytes n
  /-- A file that is cut behind a record says what the records so far say. -/
  behind_record : ∀ records n, RecordsUpTo order bytes records n →
    ∃ s, runSteps step start records = (s, none) ∧ (read (bytes.take n)).profile = make s
  /-- What stands behind a zero tag is not looked at. -/
  behind_zero : ∀ stop behind, ZeroTagAt order bytes stop →
    read (bytes.take (stop + 4) ++ behind) = read bytes

/-! ## Steps over the beginning of a file -/

section Runs

variable {σ : Type} {step : σ → Record → Except ReadError σ} {start s : σ} {order : ByteOrder}
  {bytes : List UInt8} {records : List Record} {n : Nat}

/-- Steps that are all accepted were so from the first on. -/
theorem runSteps_of_append {ε α : Type} {step : σ → α → Except ε σ} {as bs : List α}
    (h : runSteps step start (as ++ bs) = (s, none)) :
    ∃ s', runSteps step start as = (s', none) := by
  induction as generalizing start with
  | nil => exact ⟨start, rfl⟩
  | cons a as ih =>
    rw [List.cons_append, runSteps] at h
    rw [runSteps]
    cases ha : step start a with
    | ok next =>
      rw [ha] at h
      exact ih h
    | error e =>
      rw [ha] at h
      cases h

/-- A run is accepted if all steps are and nothing was short. -/
theorem Framing.run_eq_none {f : Framing} :
    f.run step start = (s, none) ↔ runSteps step start f.records = (s, none) ∧ f.shortage = none := by
  unfold run
  cases hrun : runSteps step start f.records with
  | mk s' failure =>
    cases failure with
    | some e => simp
    | none => simp

/-- **Every state between two records of an accepted file is reached by accepted steps.** -/
theorem RecordsUpTo.exists_runSteps (h : RecordsUpTo order bytes records n)
    (hrun : (Record.all (.ofFile order bytes 12)).run step start = (s, none)) :
    ∃ s', runSteps step start records = (s', none) := by
  have hsteps := (Framing.run_eq_none.1 hrun).1
  rw [h.all_eq] at hsteps
  exact runSteps_of_append hsteps

/-- **The beginning of an accepted file is accepted** exactly if it may end there. -/
theorem Framing.run_take_iff (hrun : (Record.all (.ofFile order bytes 12)).run step start = (s, none))
    (h12 : 12 ≤ n) (hle : n ≤ bytes.length) :
    (∃ s', (Record.all (.ofFile order (bytes.take n) 12)).run step start = (s', none)) ↔
      MayEndAt order bytes n := by
  constructor
  · rintro ⟨s', hcut⟩
    exact mayEndAt_of_not_short h12 hle (run_eq_none.1 hcut).2
  · rintro (⟨records, hrecords⟩ | ⟨stop, hzero, hstop⟩)
    · obtain ⟨s', hsteps⟩ := hrecords.exists_runSteps hrun
      exact ⟨s', run_eq_none.2 (hrecords.all_take ▸ ⟨hsteps, rfl⟩)⟩
    · exact ⟨s, hzero.all_congr (take_agrees bytes n) hstop ▸ hrun⟩

end Runs

/-! ## Readers that take records -/

section Readers

variable {σ : Type} {kind : FileKind} {order : ByteOrder} {v : Version} {stamp : UInt32}
  {read : List UInt8 → Loading} {step : σ → Record → Except ReadError σ} {start : σ}
  {make : σ → Profile} {bytes : List UInt8}

namespace TakesRecords

theorem accepted_iff (h : TakesRecords kind order v stamp read step start make)
    (hheader : HasHeader kind order v stamp bytes) :
    (read bytes).failure = none ↔
      ∃ s, (Record.all (.ofFile order bytes 12)).run step start = (s, none) := by
  constructor
  · intro haccepted
    cases hrun : (Record.all (.ofFile order bytes 12)).run step start with
    | mk s failure =>
      cases failure with
      | none => exact ⟨s, rfl⟩
      | some e =>
        rw [h.refuses bytes s e hheader hrun] at haccepted
        cases haccepted
  · rintro ⟨s, hrun⟩
    exact (h.accepts bytes s hheader hrun).1

/-- **What is cut from an accepted file is accepted** exactly behind a record or a zero tag. -/
theorem cutsBehindRecords (h : TakesRecords kind order v stamp read step start make)
    (hheader : HasHeader kind order v stamp bytes) (haccepted : (read bytes).failure = none) :
    CutsBehindRecords order bytes read step start make := by
  obtain ⟨s, hrun⟩ := (h.accepted_iff hheader).1 haccepted
  have hcut {n : Nat} (h12 : 12 ≤ n) : HasHeader kind order v stamp (bytes.take n) :=
    hheader.congr (take_agrees bytes n) h12
  refine ⟨fun n hle => ?_, fun records n hrecords => ?_, fun stop behind hzero => ?_⟩
  · rcases Nat.lt_or_ge n 12 with hlt | h12
    · have hlength : (bytes.take n).length < 12 := by rwa [List.length_take_of_le hle]
      exact iff_of_false (h.short _ hlength) fun hend => Nat.not_le.2 hlt hend.twelve_le
    · rw [h.accepted_iff (hcut h12), Framing.run_take_iff hrun h12 hle]
  · obtain ⟨s', hsteps⟩ := hrecords.exists_runSteps hrun
    have hrunCut : (Record.all (.ofFile order (bytes.take n) 12)).run step start = (s', none) :=
      Framing.run_eq_none.2 (hrecords.all_take ▸ ⟨hsteps, rfl⟩)
    exact ⟨s', hsteps, (h.accepts _ _ (hcut hrecords.twelve_le) hrunCut).2⟩
  · obtain ⟨⟨records, hrecords⟩, hword⟩ := hzero
    have hle : stop + 4 ≤ bytes.length := le_length_of_wordAt hword
    have hagree : bytes.take (stop + 4) = (bytes.take (stop + 4) ++ behind).take (stop + 4) :=
      (List.take_left' (List.length_take_of_le hle)).symm
    have h12 : 12 ≤ stop + 4 := Nat.le_add_right_of_le hrecords.twelve_le
    exact (h.congr bytes _ hheader (hheader.congr hagree h12)
      (ZeroTagAt.all_congr ⟨⟨records, hrecords⟩, hword⟩ hagree (Nat.le_refl _))).symm

end TakesRecords

end Readers

/-! ## Notes and data -/

namespace Profile

/-- **The profile with the functions of notes,** every flow graph solved. -/
def furnished (p : Profile) (v : Version) (stamp : UInt32) (s : NotesProgress) : Profile :=
  { p with
    version := some v
    stamp
    files := s.files
    routines := s.routines.map Routine.solve }

/-- **Notes are taken record by record.** -/
theorem takesRecords_readNotes {p : Profile} (hp : p.version = none) (order : ByteOrder) (v : Version)
    (stamp : UInt32) :
    TakesRecords .notes order v stamp p.readNotes (NotesProgress.step v) {}
      (p.furnished v stamp) := by
  have hopen {bytes : List UInt8} (hheader : HasHeader .notes order v stamp bytes) :
      p.openNotes bytes = .ok ((v, stamp), .ofFile order bytes 12) :=
    openNotes_eq_ok.2 ⟨hp, order, hheader, rfl⟩
  refine ⟨fun bytes hshort haccepted => ?_, fun bytes s hheader hrun => ?_,
    fun bytes s e hheader hrun => ?_, fun bytes bytes' hheader hheader' hall => ?_⟩
  · rcases p.readNotes_cases bytes with ⟨e, skipped, hread⟩ | ⟨w, t, c, _, hopened, -, -⟩
    · rw [hread] at haccepted
      cases haccepted
    · obtain ⟨-, order', hheader, -⟩ := openNotes_eq_ok.1 hopened
      exact Nat.not_le.2 hshort hheader.twelve_le_length
  · simp only [readNotes, hopen hheader, hrun, furnished, and_self]
  · simp only [readNotes, hopen hheader, hrun]
  · simp only [readNotes, hopen hheader, hopen hheader', hall]

/-- **Data are taken record by record.** What they put aside is added behind the last of them, and
never refused there. -/
theorem takesRecords_readData {p : Profile} {v : Version} (hp : p.version = some v)
    (order : ByteOrder) :
    TakesRecords .data order v p.stamp p.readData (p.dataStep v) {} p.credited := by
  have hopen {bytes : List UInt8} (hheader : HasHeader .data order v p.stamp bytes) :
      p.openData bytes = .ok (v, .ofFile order bytes 12) :=
    openData_eq_ok.2 ⟨hp, order, hheader, rfl⟩
  refine ⟨fun bytes hshort haccepted => ?_, fun bytes s hheader hrun => ?_,
    fun bytes s e hheader hrun => ?_, fun bytes bytes' hheader hheader' hall => ?_⟩
  · rcases p.readData_cases bytes with ⟨e, skipped, hread⟩ | ⟨w, c, _, _, hopened, -, -, -⟩
    · rw [hread] at haccepted
      cases haccepted
    · obtain ⟨-, order', hheader, -⟩ := openData_eq_ok.1 hopened
      exact Nat.not_le.2 hshort hheader.twelve_le_length
  · refine readData_of_gather_ok ?_
    simp only [gather, hopen hheader, hrun]
  · refine (readData_of_gather_error ?_).1
    simp only [gather, hopen hheader, hrun]
  · simp only [readData, hopen hheader, hopen hheader', hall]

/-- **Cuts are seen, unless they are behind a record or a zero tag.** Of notes or data that a profile
accepts, it accepts the first n bytes exactly if a complete record, or the header, ends there, or a
zero tag ended before. What is read of them are the records so far, and what stands behind a zero tag
does not matter. -/
theorem cuts_behind_records (p : Profile) (bytes : List UInt8) :
    ((p.readNotes bytes).failure = none →
      ∃ order v stamp, HasHeader .notes order v stamp bytes ∧
        CutsBehindRecords order bytes p.readNotes (NotesProgress.step v) {}
          (p.furnished v stamp)) ∧
      ((p.readData bytes).failure = none →
        ∃ order v, p.version = some v ∧ HasHeader .data order v p.stamp bytes ∧
          CutsBehindRecords order bytes p.readData (p.dataStep v) {} p.credited) := by
  constructor
  · intro haccepted
    rcases p.readNotes_cases bytes with ⟨e, skipped, hread⟩ | ⟨v, stamp, c, _, hopened, -, -⟩
    · rw [hread] at haccepted
      cases haccepted
    · obtain ⟨hp, order, hheader, -⟩ := openNotes_eq_ok.1 hopened
      exact ⟨order, v, stamp, hheader,
        (takesRecords_readNotes hp order v stamp).cutsBehindRecords hheader haccepted⟩
  · intro haccepted
    rcases p.readData_cases bytes with ⟨e, skipped, hread⟩ | ⟨v, c, _, _, hopened, -, -, -⟩
    · rw [hread] at haccepted
      cases haccepted
    · obtain ⟨hp, order, hheader, -⟩ := openData_eq_ok.1 hopened
      exact ⟨order, v, hp, hheader,
        (takesRecords_readData hp order).cutsBehindRecords hheader haccepted⟩

/-- Notes with an empty record, and a byte behind the zero tag that ends them. -/
def stoppedNotes : List UInt8 :=
  (((Draft.notes ⟨0x34, 0x30, 0x37, 0x2a⟩).function 1 5 6 "left" "twins.c" 1).blocks 0).encode ++
    [0, 0, 0, 0, 7]

/-- Data of a function, and a byte behind the zero tag that ends them. -/
def stoppedData : List UInt8 :=
  (((Draft.data ⟨0x34, 0x30, 0x37, 0x2a⟩).dataFunction 1 5 6).arcCounters [4]).encode ++
    [0, 0, 0, 0, 7]

/-- **Both are accepted,** so every cut but the few is seen. Of the data these are behind the header,
behind either record, and behind the zero tag. -/
theorem cuts_behind_records_of_stopped :
    (readNotes {} stoppedNotes).failure = none ∧ (twins.readData stoppedData).failure = none ∧
      (∃ order v stamp, HasHeader .notes order v stamp stoppedNotes ∧
        CutsBehindRecords order stoppedNotes (readNotes {}) (NotesProgress.step v) {}
          (furnished {} v stamp)) ∧
      (∃ order v, twins.version = some v ∧ HasHeader .data order v twins.stamp stoppedData ∧
        CutsBehindRecords order stoppedData twins.readData (twins.dataStep v) {} twins.credited) ∧
      (List.range (stoppedData.length + 1)).filter (fun n =>
        (twins.readData (stoppedData.take n)).failure.isNone) = [12, 32, 48, 52, 53] := by
  have hnotes : (readNotes {} stoppedNotes).failure = none := by decide +kernel
  have hdata : (twins.readData stoppedData).failure = none := by decide +kernel
  exact ⟨hnotes, hdata, (cuts_behind_records {} stoppedNotes).1 hnotes,
    (cuts_behind_records twins stoppedData).2 hdata, by decide +kernel⟩

end Profile

end ArcCoverage

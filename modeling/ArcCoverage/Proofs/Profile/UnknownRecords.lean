/-
# Records that a reader does not know

A file may hold records of other programs. A reader passes over those whose tag it does not know, and
what it makes of the file is what it would make of it without them, wherever they stand between its own
records and whatever they hold:

| reader | knows the tags of |
| --- | --- |
| of notes | functions, blocks, arcs, lines |
| of data | functions, arc counters, object summaries, program summaries |

A record that is put into a file moves all that stand behind it. Both runs take the same steps
nevertheless, since a step looks at the bytes of its record and not at its place
(`NotesProgress.step_alike`, `Profile.dataStep_alike`), and the unknown record itself only adds to what
was passed over (`NotesProgress.step_unknown`, `Profile.dataStep_unknown`). The main statement is
`Profile.unknown_records_transparent`.
-/
import ArcCoverage.Proofs.Format.Drafts
import ArcCoverage.Proofs.Format.Elsewhere
import ArcCoverage.Proofs.Profile.Truncation

namespace ArcCoverage

/-! ## Tags -/

/-- The records that make up a file of a kind. -/
def FileKind.records : FileKind → List RecordKind
  | .notes => [.function, .blocks, .arcs, .lines]
  | .data => [.function, .arcCounters, .objectSummary, .programSummary]

/-- Whether the reader of a kind of file knows a tag. -/
def FileKind.Knows (kind : FileKind) (tag : UInt32) : Prop := tag ∈ kind.records.map RecordKind.tag

instance (kind : FileKind) (tag : UInt32) : Decidable (kind.Knows tag) :=
  inferInstanceAs (Decidable (tag ∈ _))

/-! ## Notes elsewhere -/

theorem FunctionRecord.alike_read (v : Version) : ReadsAlike (· = ·) (read v) (read v) := by
  refine Read.alike_word.then fun ident => Read.alike_word.then fun lineChecksum => ?_
  dsimp only
  split_ifs <;> refine ReadsAlike.then ?_ fun flowChecksum => Read.alike_string.then fun name =>
    Read.alike_string.then fun file => Read.alike_word.then fun startLine => readsAlike_pure rfl
  · exact Read.alike_word
  · exact readsAlike_pure rfl

namespace LineItem

theorem alike_readSome (fuel : Nat) : ReadsAlike (· = ·) (readSome fuel) (readSome fuel) := by
  induction fuel with
  | zero => exact readsAlike_pure rfl
  | succ fuel ih =>
    refine Read.alike_word.then fun number => ?_
    split_ifs
    · exact ih.then fun items => readsAlike_pure rfl
    · refine Read.alike_string.then fun name => ?_
      split_ifs
      · exact readsAlike_pure rfl
      · exact ih.then fun items => readsAlike_pure rfl

theorem alike_readAll : ReadsAlike (· = ·) readAll readAll := by
  intro c c' hc
  rw [readAll, readAll, hc.rest]
  exact alike_readSome _ c c' hc

end LineItem

namespace Routine

theorem alike_requireBlock (f : Routine) (block : UInt32) :
    ReadsAlike (· = ·) (f.requireBlock block) (f.requireBlock block) :=
  Decode.alike_require _ _ _

theorem alike_readArcsFrom (source n : Nat) (f : Routine) :
    ReadsAlike (· = ·) (readArcsFrom source n f) (readArcsFrom source n f) := by
  induction n generalizing f with
  | zero => exact readsAlike_pure rfl
  | succ n ih =>
    refine (Decode.alike_ofRead Read.alike_word).then fun destination => ?_
    refine (f.alike_requireBlock destination).then fun _ => ?_
    exact (Decode.alike_ofRead Read.alike_word).then fun flags => ih _

theorem alike_readArcs (f : Routine) (words : UInt32) :
    ReadsAlike (· = ·) (f.readArcs words) (f.readArcs words) := by
  refine (Decode.alike_ofRead Read.alike_word).then fun source => ?_
  exact (f.alike_requireBlock source).then fun _ => alike_readArcsFrom _ _ f

theorem alike_readLines (f : Routine) (files : FileTable) :
    ReadsAlike (· = ·) (f.readLines files) (f.readLines files) := by
  refine (Decode.alike_ofRead Read.alike_word).then fun block => ?_
  refine (f.alike_requireBlock block).then fun _ => ?_
  exact (Decode.alike_ofRead LineItem.alike_readAll).then fun items => readsAlike_pure rfl

end Routine

namespace NotesProgress

/-- **The same told,** whatever was passed over. -/
def Alike (s s' : NotesProgress) : Prop := ∃ skipped, s' = { s with skipped }

variable {s s' : NotesProgress} {v : Version} {r r' : Record}

theorem addFunction_alike (v : Version) (h : s.Alike s') (hr : r.Alike r') :
    Corresponds Alike (s.addFunction v r) (s'.addFunction v r') := by
  obtain ⟨skipped, rfl⟩ := h
  refine (Decode.alike_result (Decode.alike_ofRead (FunctionRecord.alike_read v)) hr.payload).bind ?_
  rintro read _ rfl
  exact .ok ⟨skipped, rfl⟩

theorem addToFunction_alike (f : Routine) (h : s.Alike s') (hr : r.Alike r') :
    Corresponds Alike (s.addToFunction f r) (s'.addToFunction f r') := by
  obtain ⟨skipped, rfl⟩ := h
  unfold addToFunction
  rw [hr.tag, hr.words]
  dsimp only
  split_ifs
  · refine (corresponds_self (f.setBlockCount r'.words.toNat)).bind ?_
    rintro f' _ rfl
    exact .ok ⟨skipped, rfl⟩
  · refine (Decode.alike_result (f.alike_readArcs r'.words) hr.payload).bind ?_
    rintro f' _ rfl
    exact .ok ⟨skipped, rfl⟩
  · refine (Decode.alike_result (f.alike_readLines s.files) hr.payload).bind ?_
    rintro read _ rfl
    exact .ok ⟨skipped, rfl⟩
  · exact .ok ⟨_, rfl⟩

/-- **A record tells the same at another place.** -/
theorem step_alike (v : Version) (h : s.Alike s') (hr : r.Alike r') :
    Corresponds Alike (step v s r) (step v s' r') := by
  have hfunction := addFunction_alike v h hr
  have hcurrent : s.current = s'.current := by
    obtain ⟨skipped, rfl⟩ := h
    rfl
  unfold step
  rw [hr.tag, hcurrent]
  cases s'.current with
  | some f =>
    dsimp only
    split_ifs
    · exact hfunction
    · exact addToFunction_alike f h hr
  | none =>
    dsimp only
    split_ifs
    · exact hfunction
    · exact .error _ _
    · exact .ok h

/-- **An unknown record changes nothing** but what was passed over, before the first function or later. -/
theorem step_unknown (v : Version) (s : NotesProgress) (h : ¬ FileKind.notes.Knows r.tag) :
    ∃ s', step v s r = .ok s' ∧ s.Alike s' := by
  simp only [FileKind.Knows, FileKind.records, List.map_cons, List.map_nil, List.mem_cons,
    List.not_mem_nil, or_false, not_or] at h
  obtain ⟨hfunction, hblocks, harcs, hlines⟩ := h
  unfold step
  rw [if_neg hfunction]
  cases s.current with
  | some f =>
    refine ⟨_, ?_, s.skipped ++ [⟨r.tag, r.offset⟩], rfl⟩
    dsimp only
    rw [addToFunction, if_neg hblocks, if_neg harcs, if_neg hlines]
  | none =>
    have hcompletes : completesFunction r.tag = false := by
      simp [completesFunction, hblocks, harcs, hlines]
    refine ⟨s, ?_, s.skipped, rfl⟩
    simp [hcompletes]

end NotesProgress

/-! ## Data elsewhere -/

/-- **The same told,** whatever was passed over. -/
def DataProgress.Alike (d d' : DataProgress) : Prop := ∃ skipped, d' = { d with skipped }

namespace Profile

variable {d d' : DataProgress} {r r' : Record}

theorem alike_readSelection (p : Profile) (v : Version) (words : UInt32) :
    ReadsAlike (· = ·) (p.readSelection v words) (p.readSelection v words) := by
  refine (Decode.alike_ofRead Read.alike_word).then fun ident => ?_
  cases lastWithIdent ident p.routines with
  | none => exact readsAlike_throw _ _
  | some i =>
    dsimp only
    cases p.routines[i]? with
    | none => exact readsAlike_throw _ _
    | some f =>
      refine (Decode.alike_ofRead Read.alike_word).then fun lineChecksum => ?_
      refine (Decode.alike_require _ _ _).then fun _ => ?_
      split_ifs
      · refine (Decode.alike_ofRead Read.alike_word).then fun flowChecksum => ?_
        exact (Decode.alike_require _ _ _).then fun _ => readsAlike_pure rfl
      · exact readsAlike_pure rfl

theorem alike_readCounters (f : Routine) (words : UInt32) :
    ReadsAlike (· = ·) (readCounters f words) (readCounters f words) := by
  refine (Decode.alike_ofRead (Read.alike_replicate Read.alike_counter _)).then fun counters => ?_
  exact (Decode.alike_require _ _ _).then fun _ => readsAlike_pure rfl

theorem alike_readRuns : ReadsAlike (· = ·) readRuns readRuns :=
  Read.alike_word.then fun _ => Read.alike_word.then fun _ => Read.alike_word

/-- **A record tells the same at another place.** -/
theorem dataStep_alike (p : Profile) (v : Version) (h : d.Alike d') (hr : r.Alike r') :
    Corresponds DataProgress.Alike (p.dataStep v d r) (p.dataStep v d' r') := by
  obtain ⟨skipped, rfl⟩ := h
  unfold dataStep
  rw [hr.tag, hr.words]
  dsimp only
  split_ifs
  · exact .ok ⟨skipped, rfl⟩
  · refine (Decode.alike_result (p.alike_readSelection v r'.words) hr.payload).bind ?_
    rintro i _ rfl
    exact .ok ⟨skipped, rfl⟩
  · cases d.current.bind fun i => (p.routines[i]?).map (i, ·) with
    | none => exact .error _ _
    | some found =>
      refine (Decode.alike_result (alike_readCounters found.2 r'.words) hr.payload).bind ?_
      rintro counters _ rfl
      exact .ok ⟨skipped, rfl⟩
  · refine (Decode.alike_result (Decode.alike_ofRead alike_readRuns) hr.payload).bind ?_
    rintro runs _ rfl
    exact .ok ⟨skipped, rfl⟩
  · exact .ok ⟨skipped, rfl⟩
  · exact .ok ⟨_, rfl⟩

/-- **An unknown record changes nothing** but what was passed over, whichever function is current. -/
theorem dataStep_unknown (p : Profile) (v : Version) (d : DataProgress)
    (h : ¬ FileKind.data.Knows r.tag) : ∃ d', p.dataStep v d r = .ok d' ∧ d.Alike d' := by
  simp only [FileKind.Knows, FileKind.records, List.map_cons, List.map_nil, List.mem_cons,
    List.not_mem_nil, or_false, not_or] at h
  obtain ⟨hfunction, hcounters, hobject, hprogram⟩ := h
  refine ⟨_, ?_, d.skipped ++ [⟨r.tag, r.offset⟩], rfl⟩
  have hruns : ¬ (r.tag = RecordKind.objectSummary.tag && r.words ≥ 3) = true := by simp [hobject]
  rw [dataStep, if_neg hfunction, if_neg hcounters, if_neg hruns, if_neg hprogram]

end Profile

/-! ## A record put into a file -/

/-- A record in the bytes of a file, with a tag that does not end it. -/
structure RawRecord where
  tag : UInt32
  words : UInt32
  payload : List UInt8
  length_payload : payload.length = 4 * words.toNat
  tag_ne_zero : tag ≠ 0

/-- An offset of a file between two records: behind its header, or behind a complete record. -/
def RecordBoundary (order : ByteOrder) (bytes : List UInt8) (n : Nat) : Prop :=
  (sniff bytes).map Prod.snd = some order ∧ ∃ records, RecordsUpTo order bytes records n

namespace RawRecord

variable {order : ByteOrder} {bytes : List UInt8} {n : Nat} {records : List Record}

/-- The bytes of the record. -/
def encode (order : ByteOrder) (r : RawRecord) : List UInt8 :=
  order.encode r.tag ++ (order.encode r.words ++ r.payload)

/-- **A file with the record put in** at an offset. -/
def insertedAt (r : RawRecord) (order : ByteOrder) (n : Nat) (bytes : List UInt8) : List UInt8 :=
  bytes.take n ++ (r.encode order ++ bytes.drop n)

theorem length_encode (r : RawRecord) : (r.encode order).length = 8 + 4 * r.words.toNat := by
  rw [encode, List.length_append, List.length_append, order.length_encode, order.length_encode,
    r.length_payload]
  omega

/-- Before the record the file is as it was. -/
theorem take_insertedAt (r : RawRecord) (order : ByteOrder) (hn : n ≤ bytes.length) :
    bytes.take n = (r.insertedAt order n bytes).take n :=
  (List.take_left' (List.length_take_of_le hn)).symm

/-- Behind the record the file goes on as it did. -/
theorem drop_insertedAt (r : RawRecord) (hn : n ≤ bytes.length) :
    (r.insertedAt order n bytes).drop (n + 8 + 4 * r.words.toNat) = bytes.drop n := by
  have hlength : (bytes.take n ++ r.encode order).length = n + 8 + 4 * r.words.toNat := by
    rw [List.length_append, List.length_take_of_le hn, r.length_encode]
    omega
  rw [insertedAt, ← List.append_assoc, List.drop_left' hlength]

/-- **The record is one of the file's.** -/
theorem recordsUpTo_insertedAt (r : RawRecord) (h : RecordsUpTo order bytes records n) :
    ∃ u : Record, u.tag = r.tag ∧
      RecordsUpTo order (r.insertedAt order n bytes) (records ++ [u]) (n + 8 + 4 * r.words.toNat) := by
  have hfront : (bytes.take n).length = n := List.length_take_of_le h.le_length
  have hbehind : (bytes.take n ++ order.encode r.tag).length = n + 4 := by
    rw [List.length_append, hfront, order.length_encode]
  have hbefore := h.congr (r.take_insertedAt order h.le_length) (Nat.le_refl n)
  have htag : wordAt order (r.insertedAt order n bytes) n = some r.tag := by
    rw [insertedAt, encode, List.append_assoc]
    exact wordAt_encode hfront r.tag _
  have hwords : wordAt order (r.insertedAt order n bytes) (n + 4) = some r.words := by
    rw [insertedAt, encode, List.append_assoc, ← List.append_assoc, List.append_assoc (order.encode _)]
    exact wordAt_encode hbehind r.words _
  refine ⟨_, ?_, hbefore.record htag r.tag_ne_zero hwords ?_⟩
  · rfl
  · rw [insertedAt, List.length_append, List.length_append, hfront, r.length_encode]
    omega

end RawRecord

/-! ## Readings that say the same -/

section Readers

variable {σ : Type} {S : σ → σ → Prop} {step : σ → Record → Except ReadError σ} {start s : σ}

/-- **Steps over some records and then over others.** -/
theorem Framing.run_append (f : Framing) (before : List Record) (s : σ) :
    ({ f with records := before ++ f.records } : Framing).run step s =
      match runSteps step s before with
      | (t, none) => f.run step t
      | (t, some e) => (t, some e) := by
  induction before generalizing s with
  | nil => rfl
  | cons r before ih =>
    rw [runSteps]
    cases hstep : step s r with
    | ok next =>
      rw [← ih next]
      simp only [run, List.cons_append, runSteps, hstep]
    | error e => simp only [run, List.cons_append, runSteps, hstep]

/-- **One record more, which changes nothing,** and the others at their new places. -/
theorem Framing.run_inserted
    (hstep : ∀ s s' r r', S s s' → Record.Alike r r' → Corresponds S (step s r) (step s' r'))
    (hsame : ∀ s, S s s) {u : Record} (hunknown : ∀ s, ∃ s', step s u = .ok s' ∧ S s s')
    {f f' : Framing} (hf : f.Alike f') (before : List Record) (s : σ) :
    SameEnd S (({ f with records := before ++ f.records } : Framing).run step s)
      (({ f' with records := before ++ [u] ++ f'.records } : Framing).run step s) := by
  have happend : ({ f' with records := before ++ [u] ++ f'.records } : Framing) =
      { f'.cons u with records := before ++ (f'.cons u).records } := by
    rw [List.append_assoc]
    rfl
  rw [happend, run_append, run_append]
  cases runSteps step s before with
  | mk t failure =>
    cases failure with
    | some e => exact ⟨hsame t, Iff.rfl⟩
    | none =>
      obtain ⟨t', hu, hS⟩ := hunknown t
      have hcons : (f'.cons u).run step t = f'.run step t' := by
        simp only [run, cons, runSteps, hu]
      dsimp only
      rw [hcons]
      exact run_alike hstep hS hf

/-- **Both accepted or both refused,** with the same profile. -/
structure Loading.SameResult (l l' : Loading) : Prop where
  accepted : l.failure = none ↔ l'.failure = none
  profile : l.profile = l'.profile

variable {kind : FileKind} {order : ByteOrder} {bytes : List UInt8} {records : List Record} {n : Nat}
  {read : List UInt8 → Loading} {p : Profile}

/-- **A file behind whose header unknown records are passed over** is read as it is without them. -/
theorem TakesRecords.sameResult {v : Version} {stamp : UInt32} {make : σ → Profile}
    (h : TakesRecords kind order v stamp read step start make)
    (hheader : HasHeader kind order v stamp bytes) (hrecords : RecordsUpTo order bytes records n)
    (r : RawRecord)
    (hstep : ∀ s s' r r', S s s' → Record.Alike r r' → Corresponds S (step s r) (step s' r'))
    (hsame : ∀ s, S s s)
    (hunknown : ∀ u : Record, u.tag = r.tag → ∀ s, ∃ s', step s u = .ok s' ∧ S s s')
    (hmake : ∀ s s', S s s' → make s = make s')
    (hrefused : ∀ bytes, (read bytes).failure ≠ none → (read bytes).profile = p) :
    (read bytes).SameResult (read (r.insertedAt order n bytes)) := by
  have hle := hrecords.le_length
  have hheader' : HasHeader kind order v stamp (r.insertedAt order n bytes) :=
    hheader.congr (r.take_insertedAt order hle) hrecords.twelve_le
  obtain ⟨u, hu, hinserted⟩ := r.recordsUpTo_insertedAt hrecords
  have hrest : (Record.all (.ofFile order bytes n)).Alike
      (Record.all (.ofFile order (r.insertedAt order n bytes) (n + 8 + 4 * r.words.toNat))) :=
    Record.alike_all ⟨rfl, (r.drop_insertedAt hle).symm⟩
  have hruns := Framing.run_inserted hstep hsame (hunknown u hu) hrest records start
  rw [← hrecords.all_eq, ← hinserted.all_eq] at hruns
  cases hrun : (Record.all (.ofFile order bytes 12)).run step start with
  | mk t failure =>
    cases hrun' : (Record.all (.ofFile order (r.insertedAt order n bytes) 12)).run step start with
    | mk t' failure' =>
      rw [hrun, hrun'] at hruns
      cases failure with
      | none =>
        obtain rfl : failure' = none := hruns.failure.1 rfl
        obtain ⟨haccepted, hprofile⟩ := h.accepts _ _ hheader hrun
        obtain ⟨haccepted', hprofile'⟩ := h.accepts _ _ hheader' hrun'
        refine ⟨iff_of_true haccepted haccepted', ?_⟩
        rw [hprofile, hprofile', hmake t t' hruns.state]
      | some e =>
        cases failure' with
        | none => cases hruns.failure.2 rfl
        | some e' =>
          have hfailed : (read bytes).failure ≠ none := by simp [h.refuses _ _ _ hheader hrun]
          have hfailed' : (read (r.insertedAt order n bytes)).failure ≠ none := by
            simp [h.refuses _ _ _ hheader' hrun']
          refine ⟨iff_of_false hfailed hfailed', ?_⟩
          rw [hrefused _ hfailed, hrefused _ hfailed']

/-- A file without a header that opens it is refused, whatever is put in behind the header. -/
theorem RecordBoundary.sameResult (h : RecordBoundary order bytes n) (r : RawRecord)
    {Opened : Version → UInt32 → Prop}
    (hopens : ∀ bytes, (read bytes).failure = none →
      ∃ order v stamp, Opened v stamp ∧ HasHeader kind order v stamp bytes)
    (hrefused : ∀ bytes, (read bytes).failure ≠ none → (read bytes).profile = p)
    (hopened : ∀ v stamp records, Opened v stamp → HasHeader kind order v stamp bytes →
      RecordsUpTo order bytes records n →
      (read bytes).SameResult (read (r.insertedAt order n bytes))) :
    (read bytes).SameResult (read (r.insertedAt order n bytes)) := by
  obtain ⟨horder, records, hrecords⟩ := h
  have hagree := r.take_insertedAt order hrecords.le_length
  by_cases hheader : ∃ v stamp, Opened v stamp ∧ HasHeader kind order v stamp bytes
  · obtain ⟨v, stamp, hv, hheader⟩ := hheader
    exact hopened v stamp records hv hheader hrecords
  · have hfailed (file : List UInt8) (hfile : file.take n = bytes.take n) :
        (read file).failure ≠ none := by
      intro haccepted
      obtain ⟨order', v, stamp, hv, hother⟩ := hopens file haccepted
      have hother := hother.congr hfile hrecords.twelve_le
      rw [hother.magic] at horder
      obtain rfl : order' = order := Option.some.inj horder
      exact hheader ⟨v, stamp, hv, hother⟩
    have hrefuses := hfailed bytes rfl
    have hrefuses' := hfailed (r.insertedAt order n bytes) hagree.symm
    refine ⟨iff_of_false hrefuses hrefuses', ?_⟩
    rw [hrefused _ hrefuses, hrefused _ hrefuses']

end Readers

namespace Profile

variable {p : Profile} {order : ByteOrder} {bytes : List UInt8} {n : Nat}

/-- **Notes with an unknown record** are read as they are without it. -/
theorem readNotes_sameResult (h : RecordBoundary order bytes n) (r : RawRecord)
    (hunknown : ¬ FileKind.notes.Knows r.tag) :
    (p.readNotes bytes).SameResult (p.readNotes (r.insertedAt order n bytes)) := by
  have hopens (file : List UInt8) (haccepted : (p.readNotes file).failure = none) :
      ∃ order v stamp, p.version = none ∧ HasHeader .notes order v stamp file := by
    rcases p.readNotes_cases file with ⟨e, skipped, hread⟩ | ⟨v, stamp, c, _, hopened, -, -⟩
    · rw [hread] at haccepted
      cases haccepted
    · obtain ⟨hp, order, hheader, -⟩ := openNotes_eq_ok.1 hopened
      exact ⟨order, v, stamp, hp, hheader⟩
  have hrefused (file : List UInt8) (hfailed : (p.readNotes file).failure ≠ none) :
      (p.readNotes file).profile = p :=
    (p.read_atomic file).1 (Option.isSome_iff_ne_none.2 hfailed)
  refine h.sameResult r hopens hrefused fun v stamp records hp hheader hrecords => ?_
  refine (takesRecords_readNotes hp order v stamp).sameResult hheader hrecords r
    (fun _ _ _ _ => NotesProgress.step_alike v) (fun s => ⟨s.skipped, rfl⟩)
    (fun u hu s => NotesProgress.step_unknown v s (hu ▸ hunknown)) ?_ hrefused
  rintro s _ ⟨skipped, rfl⟩
  rfl

/-- **Data with an unknown record** are read as they are without it. -/
theorem readData_sameResult (h : RecordBoundary order bytes n) (r : RawRecord)
    (hunknown : ¬ FileKind.data.Knows r.tag) :
    (p.readData bytes).SameResult (p.readData (r.insertedAt order n bytes)) := by
  have hopens (file : List UInt8) (haccepted : (p.readData file).failure = none) :
      ∃ order v stamp, (p.version = some v ∧ stamp = p.stamp) ∧
        HasHeader .data order v stamp file := by
    rcases p.readData_cases file with ⟨e, skipped, hread⟩ | ⟨v, c, _, _, hopened, -, -, -⟩
    · rw [hread] at haccepted
      cases haccepted
    · obtain ⟨hp, order, hheader, -⟩ := openData_eq_ok.1 hopened
      exact ⟨order, v, p.stamp, ⟨hp, rfl⟩, hheader⟩
  have hrefused (file : List UInt8) (hfailed : (p.readData file).failure ≠ none) :
      (p.readData file).profile = p :=
    (p.read_atomic file).2.1 (Option.isSome_iff_ne_none.2 hfailed)
  refine h.sameResult r hopens hrefused fun v stamp records hp hheader hrecords => ?_
  obtain ⟨hp, rfl⟩ := hp
  refine (takesRecords_readData hp order).sameResult hheader hrecords r
    (fun _ _ _ _ => p.dataStep_alike v) (fun d => ⟨d.skipped, rfl⟩)
    (fun u hu d => p.dataStep_unknown v d (hu ▸ hunknown)) ?_ hrefused
  rintro d _ ⟨skipped, rfl⟩
  rfl

/-- **Unknown records are transparent.** A record with a tag that the reader does not know may be put
into a file behind the header or behind any complete record: the file is accepted or refused as before,
and makes the same profile. A step over such a record leaves everything told so far as it was, the
current function too, if there is one. -/
theorem unknown_records_transparent (p : Profile) (h : RecordBoundary order bytes n) (r : RawRecord) :
    (¬ FileKind.notes.Knows r.tag →
      (p.readNotes bytes).SameResult (p.readNotes (r.insertedAt order n bytes)) ∧
        ∀ v s (u : Record), u.tag = r.tag →
          ∃ skipped, NotesProgress.step v s u = .ok { s with skipped }) ∧
      (¬ FileKind.data.Knows r.tag →
        (p.readData bytes).SameResult (p.readData (r.insertedAt order n bytes)) ∧
          ∀ v d (u : Record), u.tag = r.tag →
            ∃ skipped, p.dataStep v d u = .ok { d with skipped }) := by
  constructor
  · intro hunknown
    refine ⟨readNotes_sameResult h r hunknown, fun v s u hu => ?_⟩
    obtain ⟨_, hok, skipped, rfl⟩ := NotesProgress.step_unknown v s (hu ▸ hunknown)
    exact ⟨skipped, hok⟩
  · intro hunknown
    refine ⟨readData_sameResult h r hunknown, fun v d u hu => ?_⟩
    obtain ⟨_, hok, skipped, rfl⟩ := p.dataStep_unknown v d (hu ▸ hunknown)
    exact ⟨skipped, hok⟩

/-- A record that no reader knows. Its payload is a function record of the other twin. -/
def decoy : RawRecord where
  tag := 0x7f000000
  words := 5
  payload := (DraftRecord.mk RecordKind.function.tag [.word 2, .word 5, .word 6]).encode .little
  length_payload := by decide +kernel
  tag_ne_zero := by decide

/-- **Between a function and its counters,** and before the first function of notes. -/
theorem unknown_records_transparent_of_decoy :
    RecordBoundary .little stoppedNotes 12 ∧ RecordBoundary .little stoppedData 32 ∧
      ¬ FileKind.notes.Knows decoy.tag ∧ ¬ FileKind.data.Knows decoy.tag ∧
      ((readNotes {} stoppedNotes).SameResult
        (readNotes {} (decoy.insertedAt .little 12 stoppedNotes)) ∧
        ∀ v s (u : Record), u.tag = decoy.tag →
          ∃ skipped, NotesProgress.step v s u = .ok { s with skipped }) ∧
      ((twins.readData stoppedData).SameResult
        (twins.readData (decoy.insertedAt .little 32 stoppedData)) ∧
        ∀ v d (u : Record), u.tag = decoy.tag →
          ∃ skipped, twins.dataStep v d u = .ok { d with skipped }) ∧
      (twins.readData (decoy.insertedAt .little 32 stoppedData)).failure = none ∧
      (twins.readData (decoy.insertedAt .little 32 stoppedData)).skipped = [⟨0x7f000000, 32⟩] := by
  have hnotes : RecordBoundary .little stoppedNotes 12 :=
    ⟨by decide +kernel, [], .header (by decide +kernel)⟩
  have hdata : RecordBoundary .little stoppedData 32 :=
    ⟨by decide +kernel, _, @RecordsUpTo.record _ _ _ _ RecordKind.function.tag 3
      (.header (by decide +kernel)) (by decide +kernel) (by decide) (by decide +kernel)
      (by decide +kernel)⟩
  have hknown : ¬ FileKind.notes.Knows decoy.tag := by decide
  have hknown' : ¬ FileKind.data.Knows decoy.tag := by decide
  exact ⟨hnotes, hdata, hknown, hknown', (unknown_records_transparent {} hnotes decoy).1 hknown,
    (unknown_records_transparent twins hdata decoy).2 hknown', by decide +kernel, by decide +kernel⟩

end Profile

end ArcCoverage

/-
# Data that were written are added

`Draft.ofParts` writes a data file for a profile: counters of its functions and summaries, in any
order. Each part has one effect on what the reader knows (`DataProgress.Tells`), and one lemma that the
reader sees it:

| part | tells | lemma |
| --- | --- | --- |
| counters of a function | an addition | `Profile.dataStep_function`, `Profile.dataStep_arcCounters` |
| an object summary | the number of runs | `Profile.dataStep_objectSummary` |
| a program summary | one more program | `Profile.dataStep_programSummary` |

A function is named by its ident, so idents must be distinct (`Profile.lastWithIdent_of_nodup`).
`Profile.readData_ofParts` says what becomes of the profile.
-/
import ArcCoverage.Proofs.Profile.Headers
import ArcCoverage.Proofs.Profile.Merging
import ArcCoverage.Proofs.Profile.WrittenNotes

namespace ArcCoverage

/-- **A part of a data file,** with functions named by their numbers in a profile. -/
inductive DataPart where
  | counters (routine : Nat) (counts : List Count)
  | objectSummary (runs : UInt32)
  | programSummary
  deriving DecidableEq, Repr

namespace DataPart

/-- What a part adds to a function. -/
def addition? : DataPart → Option Addition
  | .counters i counts => some ⟨i, counts⟩
  | .objectSummary _ => none
  | .programSummary => none

/-- The number of runs that a part gives. -/
def runs? : DataPart → Option UInt32
  | .counters _ _ => none
  | .objectSummary runs => some runs
  | .programSummary => none

end DataPart

/-! ## Writing parts -/

namespace Draft

/-- A part, written. Counters of a function that does not exist are left out. -/
def addPart (p : Profile) (d : Draft) : DataPart → Draft
  | .counters i counts =>
    match p.routines[i]? with
    | some f => (d.dataFunction f.ident f.lineChecksum f.flowChecksum).arcCounters counts
    | none => d
  | .objectSummary runs => d.objectSummary runs
  | .programSummary => d.programSummary

/-- **The data file of some parts,** with the stamp of a profile. -/
def ofParts (p : Profile) (v : Version) (order : ByteOrder) (parts : List DataPart) : Draft :=
  parts.foldl (addPart p) { (Draft.data v).withStamp p.stamp with order }

theorem extends_addPart (p : Profile) (d : Draft) (part : DataPart) :
    d.Extends (d.addPart p part) := by
  cases part with
  | counters i counts =>
    rw [addPart]
    cases p.routines[i]? with
    | none => exact .refl
    | some f => exact (d.extends_push ..).trans (extends_push ..)
  | objectSummary runs => exact d.extends_push ..
  | programSummary => exact d.extends_push ..

theorem extends_ofParts (p : Profile) (v : Version) (order : ByteOrder) (parts : List DataPart) :
    Extends { (Draft.data v).withStamp p.stamp with order } (ofParts p v order parts) :=
  extends_foldl (extends_addPart p) _ parts

end Draft

/-! ## Payloads -/

section Payloads

variable (order : ByteOrder) (position : Nat)

/-- **A counter is its two words.** -/
theorem Read.combine_words (c : Count) :
    Read.combine (UInt32.ofNat c.toNat) (UInt32.ofNat (c.toNat / UInt32.size)) = c := by
  apply UInt64.toNat_inj.1
  have hlt := c.toNat_lt
  rw [Read.combine, UInt64.toNat_ofNat', UInt32.toNat_ofNat', UInt32.toNat_ofNat']
  unfold UInt32.size
  omega

/-- Counters are read back. -/
theorem Read.replicate_counter_encode (counts : List Count) :
    ∃ c, Read.replicate Read.counter counts.length ⟨order, position,
      (counts.flatMap Draft.counterItems).flatMap (Item.encode order)⟩ = .ok counts c := by
  induction counts generalizing position with
  | nil => exact ⟨_, rfl⟩
  | cons count counts ih =>
    have hcounter : Read.counter ⟨order, position,
        ((count :: counts).flatMap Draft.counterItems).flatMap (Item.encode order)⟩ =
        .ok count ⟨order, position + 4 + 4,
          (counts.flatMap Draft.counterItems).flatMap (Item.encode order)⟩ := by
      refine EStateM.bind_eq_ok.2 ⟨_, _, Read.word_item .., ?_⟩
      refine EStateM.bind_eq_ok.2 ⟨_, _, Read.word_item .., ?_⟩
      exact EStateM.pure_eq_ok.2 ⟨Read.combine_words count, rfl⟩
    obtain ⟨c, hrest⟩ := ih (position + 4 + 4)
    exact EStateM.bind_leads hcounter (EStateM.bind_leads hrest ⟨c, rfl⟩)

/-- The length of a record of counters. -/
theorem DraftRecord.words_counters (tag : UInt32) (counts : List Count) :
    DraftRecord.words ⟨tag, counts.flatMap Draft.counterItems⟩ = 2 * counts.length := by
  rw [words]
  induction counts with
  | nil => rfl
  | cons count counts ih =>
    rw [List.flatMap_cons, List.foldr_append, ih, List.length_cons]
    change 1 + (1 + 2 * counts.length) = 2 * (counts.length + 1)
    omega

end Payloads

namespace Profile

/-! ## Records -/

/-- **Distinct idents name their functions.** -/
theorem lastWithIdent_of_nodup {routines : List Routine}
    (hidents : (routines.map Routine.ident).Nodup) {i : Nat} {f : Routine}
    (hf : routines[i]? = some f) : lastWithIdent f.ident routines = some i := by
  induction routines generalizing i with
  | nil => cases hf
  | cons g routines ih =>
    rw [List.map_cons, List.nodup_cons] at hidents
    cases i with
    | succ i => rw [lastWithIdent, ih hidents.2 hf]
    | zero =>
      obtain rfl := Option.some.inj hf
      have hnone : lastWithIdent g.ident routines = none := by
        have hnotMem := hidents.1
        clear hidents hf ih
        induction routines with
        | nil => rfl
        | cons h routines ih =>
          rw [List.map_cons, List.mem_cons, not_or] at hnotMem
          rw [lastWithIdent, ih hnotMem.2, if_neg (Ne.symm hnotMem.1)]
      rw [lastWithIdent, hnone, if_pos rfl]

section Steps

variable {order : ByteOrder} {position : Nat} {v : Version} {p : Profile} {s : DataProgress}
  {i : Nat} {f : Routine}

/-- A function record selects the function. -/
theorem dataStep_function {d : Draft} (hv : d.version.isSupported)
    (hidents : (p.routines.map Routine.ident).Nodup) (hf : p.routines[i]? = some f) :
    p.dataStep d.version s (DraftRecord.framed order position ⟨RecordKind.function.tag,
      .word f.ident :: d.checksums f.lineChecksum f.flowChecksum⟩) =
      .ok { s with current := some i } := by
  have hlast := lastWithIdent_of_nodup hidents hf
  have hread : ∃ c, p.readSelection d.version
      (UInt32.ofNat (DraftRecord.words ⟨RecordKind.function.tag,
        .word f.ident :: d.checksums f.lineChecksum f.flowChecksum⟩))
      ⟨order, position + 8, (.word f.ident ::
        d.checksums f.lineChecksum f.flowChecksum : List Item).flatMap (Item.encode order)⟩ =
      .ok i c := by
    rw [Draft.checksums, Draft.hasFlowChecksum_eq hv]
    refine EStateM.bind_leads (Decode.ofRead_eq_ok.2 (Read.word_item ..)) ?_
    simp only [hlast, hf]
    by_cases hchecksum : d.version.hasFlowChecksum
    · simp only [hchecksum, if_true]
      refine EStateM.bind_leads (Decode.ofRead_eq_ok.2 (Read.word_item ..)) ?_
      refine EStateM.bind_leads (Decode.require_eq_ok (u := ()).2 ⟨beq_self_eq_true _, rfl⟩) ?_
      refine EStateM.bind_leads (Decode.ofRead_eq_ok.2 (Read.word_item ..)) ?_
      refine EStateM.bind_leads (Decode.require_eq_ok (u := ()).2 ⟨beq_self_eq_true _, rfl⟩) ?_
      exact ⟨_, rfl⟩
    · simp only [hchecksum]
      refine EStateM.bind_leads (Decode.ofRead_eq_ok.2 (Read.word_item ..)) ?_
      refine EStateM.bind_leads (Decode.require_eq_ok (u := ()).2 ⟨beq_self_eq_true _, rfl⟩) ?_
      exact ⟨_, rfl⟩
  have hnonempty : UInt32.ofNat (DraftRecord.words ⟨RecordKind.function.tag,
      .word f.ident :: d.checksums f.lineChecksum f.flowChecksum⟩) ≠ 0 := by
    rw [Draft.checksums]
    split_ifs <;> simp [DraftRecord.words, Item.words]
  simp only [dataStep, DraftRecord.framed, if_true, hnonempty, if_false]
  exact Except.bind_eq_ok.2 ⟨i, Decode.result_eq_ok.2 hread, rfl⟩

/-- A record of counters calls for an addition to the function selected last. -/
theorem dataStep_arcCounters (hcurrent : s.current = some i) (hf : p.routines[i]? = some f)
    {counts : List Count} (hlength : counts.length = f.flow.instrumentedCount)
    (hwords : 2 * counts.length < UInt32.size) :
    p.dataStep v s (DraftRecord.framed order position ⟨RecordKind.arcCounters.tag,
      counts.flatMap Draft.counterItems⟩) =
      .ok { s with additions := s.additions ++ [⟨i, counts⟩] } := by
  have hcount : (UInt32.ofNat (2 * counts.length)).toNat / 2 = counts.length := by
    rw [UInt32.toNat_ofNat_of_lt' hwords]
    omega
  have hread : ∃ c, readCounters f (UInt32.ofNat (2 * counts.length)) ⟨order, position + 8,
      (counts.flatMap Draft.counterItems).flatMap (Item.encode order)⟩ = .ok counts c := by
    obtain ⟨c, hcounters⟩ := Read.replicate_counter_encode order (position + 8) counts
    rw [readCounters, hcount]
    refine EStateM.bind_leads (Decode.ofRead_eq_ok.2 hcounters) ?_
    refine EStateM.bind_leads (Decode.require_eq_ok (u := ()).2 ⟨beq_iff_eq.2 hlength, rfl⟩) ?_
    exact ⟨_, rfl⟩
  simp only [dataStep, DraftRecord.framed, DraftRecord.words_counters, RecordKind.tag_inj,
    reduceCtorEq, if_true, if_false, hcurrent, Option.bind_some, hf, Option.map_some]
  exact Except.bind_eq_ok.2 ⟨counts, Decode.result_eq_ok.2 hread, rfl⟩

/-- An object summary gives the number of runs. -/
theorem dataStep_objectSummary (runs : UInt32) :
    p.dataStep v s (DraftRecord.framed order position ⟨RecordKind.objectSummary.tag,
      .word 0 :: .word 1 :: .word runs :: List.replicate (Draft.summaryWords - 3) (.word 0)⟩) =
      .ok { s with runs } := by
  have hread : ∃ c, readRuns ⟨order, position + 8, (.word 0 :: .word 1 :: .word runs ::
      List.replicate (Draft.summaryWords - 3) (.word 0) : List Item).flatMap (Item.encode order)⟩ =
      .ok runs c := by
    refine EStateM.bind_leads (Read.word_item ..) ?_
    refine EStateM.bind_leads (Read.word_item ..) ?_
    exact ⟨_, Read.word_item ..⟩
  have hlong : DraftRecord.words ⟨RecordKind.objectSummary.tag, .word 0 :: .word 1 :: .word runs ::
      List.replicate (Draft.summaryWords - 3) (.word 0)⟩ = 9 := rfl
  have hresult := Decode.result_eq_ok.2 (hread.imp fun _ h => Decode.ofRead_eq_ok.2 h)
  simp only [dataStep, DraftRecord.framed, hlong, RecordKind.tag_inj, reduceCtorEq, if_false]
  exact Except.bind_eq_ok.2 ⟨runs, hresult, rfl⟩

/-- A program summary is one more program. -/
theorem dataStep_programSummary :
    p.dataStep v s (DraftRecord.framed order position ⟨RecordKind.programSummary.tag,
      List.replicate Draft.summaryWords (.word 0)⟩) =
      .ok { s with programs := s.programs + 1 } := rfl

end Steps

end Profile

/-! ## Progress -/

namespace DataPart

/-- **What some parts add to functions,** in order. -/
def additions (parts : List DataPart) : List Addition := parts.filterMap addition?

/-- **The number of runs that some parts give:** the last one, or zero if there is none. -/
def runs (parts : List DataPart) : UInt32 := (parts.filterMap runs?).getLastD 0

/-- The number of programs. -/
def programs (parts : List DataPart) : Nat := parts.count .programSummary

end DataPart

/-- **What the records of some parts tell.** -/
structure DataProgress.Tells (s : DataProgress) (parts : List DataPart) : Prop where
  additions : s.additions = DataPart.additions parts
  runs : s.runs = DataPart.runs parts
  programs : s.programs = DataPart.programs parts

namespace Draft

open DataProgress

variable {d : Draft} {p : Profile} {s : DataProgress} {parts : List DataPart}

/-- **One part more is told** behind those before it. -/
theorem runs_addPart {v : Version} (hv : v.isSupported) (hversion : d.version = v)
    (hidents : (p.routines.map Routine.ident).Nodup) {part : DataPart}
    (hfits : ∀ a, part.addition? = some a → a.Fits p.routines)
    (hmeasured : (d.addPart p part).Measured) (hruns : d.Runs (p.dataStep v) {} s)
    (htells : s.Tells parts) :
    ∃ s', (d.addPart p part).Runs (p.dataStep v) {} s' ∧ s'.Tells (parts ++ [part]) := by
  subst hversion
  cases part with
  | counters i counts =>
    obtain ⟨f, hf, hlength⟩ := hfits ⟨i, counts⟩ rfl
    simp only [addPart, hf] at hmeasured ⊢
    obtain ⟨-, hwords⟩ := hmeasured.of_push
    rw [DraftRecord.words_counters] at hwords
    have hselected := hruns.push fun _ => Profile.dataStep_function hv hidents hf
    have hcounted := hselected.push fun _ => Profile.dataStep_arcCounters rfl hf hlength hwords
    refine ⟨_, hcounted, ?_, ?_, ?_⟩
    · simp [DataPart.additions, DataPart.addition?, htells.additions]
    · simp [DataPart.runs, DataPart.runs?, htells.runs]
    · simp [DataPart.programs, htells.programs]
  | objectSummary runs =>
    refine ⟨_, hruns.push fun _ => Profile.dataStep_objectSummary runs, ?_, ?_, ?_⟩
    · simp [DataPart.additions, DataPart.addition?, htells.additions]
    · simp [DataPart.runs, DataPart.runs?]
    · simp [DataPart.programs, htells.programs]
  | programSummary =>
    refine ⟨_, hruns.push fun _ => Profile.dataStep_programSummary, ?_, ?_, ?_⟩
    · simp [DataPart.additions, DataPart.addition?, htells.additions]
    · simp [DataPart.runs, DataPart.runs?, htells.runs]
    · simp [DataPart.programs, htells.programs]

/-- **All parts are told.** -/
theorem runs_ofParts {v : Version} (hv : v.isSupported)
    (hidents : (p.routines.map Routine.ident).Nodup) (order : ByteOrder)
    (hfits : ∀ a ∈ DataPart.additions parts, a.Fits p.routines)
    (hmeasured : (ofParts p v order parts).Measured) :
    ∃ s, (ofParts p v order parts).Runs (p.dataStep v) {} s ∧ s.Tells parts := by
  induction parts using List.reverseRecOn with
  | nil => exact ⟨{}, rfl, rfl, rfl, rfl⟩
  | append_singleton parts part ih =>
    rw [ofParts, List.foldl_append, List.foldl_cons, List.foldl_nil] at hmeasured ⊢
    have hfirst := (extends_addPart p _ part).measured hmeasured
    have hversion : (ofParts p v order parts).version = v := by
      rw [(extends_ofParts p v order parts).header]
      rfl
    have hlast : ∀ a, part.addition? = some a → a.Fits p.routines := fun a ha =>
      hfits a (List.mem_filterMap.2 ⟨part, by simp, ha⟩)
    have hbefore : ∀ a ∈ DataPart.additions parts, a.Fits p.routines := fun a ha => by
      obtain ⟨q, hq, hqa⟩ := List.mem_filterMap.1 ha
      exact hfits a (List.mem_filterMap.2 ⟨q, List.mem_append_left _ hq, hqa⟩)
    obtain ⟨s, hruns, htells⟩ := ih hbefore hfirst
    exact runs_addPart hv hversion hidents hlast hmeasured hruns htells

end Draft

/-! ## Reading what is written -/

namespace Profile

variable {p : Profile} {v : Version}

/-- The version of a profile is one that can be read. -/
theorem Reachable.isSupported (h : p.Reachable) (hv : p.version = some v) : v.isSupported := by
  induction h with
  | start => cases hv
  | @notes p _ bytes ih =>
    rcases p.readNotes_cases bytes with ⟨_, _, hread⟩ | ⟨version, _, _, _, hopen, -, hread⟩
    · rw [hread] at hv
      exact ih hv
    · rw [hread] at hv
      obtain rfl := Option.some.inj hv
      obtain ⟨-, order, hheader, -⟩ := openNotes_eq_ok.1 hopen
      exact hheader.supported
  | @data p _ bytes ih =>
    have hversion : (p.readData bytes).profile.shape.version = p.shape.version :=
      congrArg Profile.version (p.shape_readData bytes)
    exact ih (hversion.symm.trans hv)

/-- **Reading leaves every function solved.** -/
theorem Reachable.solve_eq (h : p.Reachable) : ∀ f ∈ p.routines, f.solve = f := by
  have hagain (f : Routine) : f.solve.solve = f.solve :=
    congrArg (fun g => { f with flow := g }) f.flow.solve_solve
  have hsolved (routines : List Routine) : ∀ f ∈ routines.map Routine.solve, f.solve = f := by
    intro f hf
    obtain ⟨g, -, rfl⟩ := List.mem_map.1 hf
    exact hagain g
  induction h with
  | start => exact fun f hf => absurd hf List.not_mem_nil
  | @notes p _ bytes ih =>
    rcases p.readNotes_cases bytes with ⟨_, _, hread⟩ | ⟨_, _, _, progress, -, -, hread⟩
    · rwa [hread]
    · rw [hread]
      exact hsolved progress.routines
  | @data p _ bytes ih =>
    rcases p.readData_cases bytes with ⟨_, _, hread⟩ | ⟨_, _, _, counted, -, -, -, hread⟩
    · rwa [hread]
    · rw [hread]
      exact hsolved counted.routines

/-- The header of a data file that was written for a profile is accepted. -/
theorem openData_encode {d : Draft} (hkind : d.kind = .data) (hversion : p.version = some d.version)
    (hv : d.version.isSupported) (hstamp : d.stamp = p.stamp) :
    p.openData d.encode = .ok (d.version, d.behindHeader) := by
  rw [d.behindHeader_eq]
  exact openData_eq_ok.2 ⟨hversion, d.order, hkind ▸ hstamp ▸ Draft.hasHeader_encode hv, rfl⟩

/-- What a written file tells is what its parts tell. -/
theorem gather_ofParts (hversion : p.version = some v) (hv : v.isSupported)
    (hidents : (p.routines.map Routine.ident).Nodup) (order : ByteOrder) {parts : List DataPart}
    (hfits : ∀ a ∈ DataPart.additions parts, a.Fits p.routines)
    (hmeasured : (Draft.ofParts p v order parts).Measured) :
    ∃ s, p.gather (Draft.ofParts p v order parts).encode = .ok s ∧ s.Tells parts := by
  obtain ⟨s, hruns, htells⟩ := Draft.runs_ofParts hv hidents order hfits hmeasured
  have hextends := Draft.extends_ofParts p v order parts
  have hheader := hextends.header
  have htagged : (Draft.ofParts p v order parts).Tagged :=
    hextends.tagged fun r hr => absurd hr List.not_mem_nil
  have hopen : p.openData (Draft.ofParts p v order parts).encode =
      .ok (v, (Draft.ofParts p v order parts).behindHeader) := by
    rw [openData_encode (by rw [hheader]; rfl) (by rw [hheader]; exact hversion)
      (by rw [hheader]; exact hv) (by rw [hheader]; rfl), hheader]
    rfl
  refine ⟨s, ?_, htells⟩
  simp only [gather, hopen, hruns.run_all htagged hmeasured]

/-- **Data that were written are added.** A data file of any parts, written for a profile whose idents
are distinct, is accepted, if the counters fit and the records have length words. Instrumented arcs
grow by the counters of their function, functions without counters stay as they are, the tallies grow
by what the summaries say, and nothing else changes but the counts that follow. -/
theorem readData_ofParts (hp : p.Reachable) (hversion : p.version = some v)
    (hidents : (p.routines.map Routine.ident).Nodup) (order : ByteOrder) {parts : List DataPart}
    (hfits : ∀ a ∈ DataPart.additions parts, a.Fits p.routines)
    (hmeasured : (Draft.ofParts p v order parts).Measured) :
    let read := p.readData (Draft.ofParts p v order parts).encode
    read.failure = none ∧
      (∀ i k c, p.counter? i k = some c →
        ∃ c', read.profile.counter? i k = some c' ∧
          c'.toNat = min (c.toNat + Count.exactTotal
            ((countersOf i (DataPart.additions parts)).map (·.getD k 0))) Count.limit) ∧
      (∀ i, countersOf i (DataPart.additions parts) = [] →
        read.profile.routines[i]? = p.routines[i]?) ∧
      read.profile.runs = p.runs.plus (DataPart.runs parts).toNat ∧
      read.profile.programs = p.programs.plus (DataPart.programs parts) ∧
      read.profile.shape = p.shape := by
  obtain ⟨s, hgather, htells⟩ :=
    gather_ofParts hversion (hp.isSupported hversion) hidents order hfits hmeasured
  obtain ⟨hfailure, hprofile⟩ := readData_of_gather_ok hgather
  have hstaged : ∀ a ∈ s.additions, a.Fits p.routines := fits_of_gather hgather
  refine ⟨hfailure, fun i k c hc => ?_, fun i hnone => ?_, ?_, ?_, p.shape_readData _⟩
  · refine ⟨_, ?_, Count.toNat_foldl_plus _ c⟩
    rw [counter?_readData, hc, applied, hgather, ← htells.additions]
    rfl
  · rw [hprofile, getElem?_routines_credited hstaged, htells.additions, hnone]
    cases hf : p.routines[i]? with
    | none => rfl
    | some f => exact congrArg some (hp.solve_eq f (List.mem_iff_getElem?.2 ⟨i, hf⟩))
  · rw [hprofile, ← htells.runs]
    rfl
  · rw [hprofile, ← htells.programs]
    rfl

/-- The profile that the notes of the two callers make. -/
def callers : Profile :=
  (readNotes {} (Draft.ofFunctions .big ⟨0x34, 0x30, 0x38, 0x2a⟩ 9 FunctionNotes.callers).encode).profile

/-- Parts that count the first caller twice, fill one of its counters, and disagree about the runs. -/
def callersRan : List DataPart :=
  [.objectSummary 3, .counters 0 [4, Count.ofNatCapped Count.limit], .programSummary,
    .counters 0 [1, 2], .objectSummary 5]

/-- The counters of the first caller are added twice, and the last summary gives the runs. -/
theorem readData_callersRan :
    callers.Reachable ∧ callers.version = some ⟨0x34, 0x30, 0x38, 0x2a⟩ ∧
      (callers.routines.map Routine.ident).Nodup ∧
      (∀ a ∈ DataPart.additions callersRan, a.Fits callers.routines) ∧
      (Draft.ofParts callers ⟨0x34, 0x30, 0x38, 0x2a⟩ .little callersRan).Measured ∧
      (callers.readData
        (Draft.ofParts callers ⟨0x34, 0x30, 0x38, 0x2a⟩ .little callersRan).encode).failure = none ∧
      (callers.readData
        (Draft.ofParts callers ⟨0x34, 0x30, 0x38, 0x2a⟩ .little callersRan).encode).profile.runs = 5 := by
  have hreachable : callers.Reachable := .notes .start _
  have hversion : callers.version = some ⟨0x34, 0x30, 0x38, 0x2a⟩ := by decide +kernel
  have hidents : (callers.routines.map Routine.ident).Nodup := by decide +kernel
  have hfits : ∀ a ∈ DataPart.additions callersRan, a.Fits callers.routines := by
    have hcount : callers.routines[0]?.map (·.flow.instrumentedCount) = some 2 := by decide +kernel
    obtain ⟨f, hf, htwo⟩ := Option.map_eq_some_iff.1 hcount
    exact List.forall_mem_cons.2 ⟨⟨f, hf, htwo.symm⟩,
      List.forall_mem_singleton.2 ⟨f, hf, htwo.symm⟩⟩
  have hmeasured : (Draft.ofParts callers ⟨0x34, 0x30, 0x38, 0x2a⟩ .little callersRan).Measured := by
    decide +kernel
  obtain ⟨haccepted, -, -, hruns, -, -⟩ :=
    readData_ofParts hreachable hversion hidents .little hfits hmeasured
  exact ⟨hreachable, hversion, hidents, hfits, hmeasured, haccepted, hruns.trans (by decide +kernel)⟩

end Profile

end ArcCoverage

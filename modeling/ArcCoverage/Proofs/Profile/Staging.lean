/-
# Reads that fail change nothing

A data file's counters are put aside while its records are read, and are added at the end, one
function after the other. Adding could itself fail half way, and leave a profile that is neither the
old one nor the new. It never does, since only counters that fit are put aside (`Addition.Fits`), and
adding some does not change what others fit:

| stage | lemma |
| --- | --- |
| a record puts aside what fits | `Profile.dataStep_fits` |
| so do all records of a file | `Profile.staged_fits` |
| what fits is added | `Profile.addAll_of_fits` |

So a file is accepted, or the profile stays as it was (`Profile.read_atomic`).
-/
import ArcCoverage.Format.Draft
import ArcCoverage.Profile.Data
import ArcCoverage.Profile.Notes
import ArcCoverage.Proofs.Profile.Assembly

namespace ArcCoverage

/-! ## Runs -/

section Runs

variable {σ ε α : Type} {step : σ → α → Except ε σ} {P : σ → Prop}

/-- **What every step keeps, a run keeps,** also if it fails. -/
theorem runSteps_invariant (hstep : ∀ s a s', P s → step s a = .ok s' → P s') {s : σ} (h : P s)
    (as : List α) : P (runSteps step s as).1 := by
  induction as generalizing s with
  | nil => exact h
  | cons a as ih =>
    unfold runSteps
    cases hs : step s a with
    | ok s' => exact ih (hstep s a s' h hs)
    | error e => exact h

theorem Framing.run_invariant {step : σ → Record → Except ReadError σ}
    (hstep : ∀ s r s', P s → step s r = .ok s' → P s') {s : σ} (h : P s) (f : Framing) :
    P (f.run step s).1 := by
  have hrun := runSteps_invariant hstep h f.records
  unfold Framing.run
  cases hs : runSteps step s f.records with
  | mk s' failure =>
    rw [hs] at hrun
    cases failure with
    | some e => exact hrun
    | none => exact hrun

end Runs

/-! ## The shape of functions -/

/-- The function without its counts. -/
def Routine.uncounted (f : Routine) : Routine := { f with flow := f.flow.uncounted }

theorem FlowGraph.instrumentedCount_uncounted (g : FlowGraph) :
    g.uncounted.instrumentedCount = g.instrumentedCount := by
  rw [instrumentedCount, uncounted, List.countP_map]
  rfl

/-- Counters do not change the shape of a function. -/
theorem Routine.uncounted_addCounters {f f' : Routine} {counters : List Count}
    (h : f.addCounters counters = .ok f') : f'.uncounted = f.uncounted := by
  unfold addCounters at h
  split_ifs at h
  obtain rfl := Except.ok.inj h
  exact congrArg (fun g => { f with flow := g }) (f.flow.uncounted_addCounters counters)

/-! ## Additions that fit -/

/-- **Counters that fit:** their function exists, and has as many instrumented arcs. -/
def Addition.Fits (a : Addition) (routines : List Routine) : Prop :=
  ∃ f, routines[a.routine]? = some f ∧ a.counters.length = f.flow.instrumentedCount

/-- **What fits depends on the shape of the functions only.** -/
theorem Addition.Fits.congr {a : Addition} {routines routines' : List Routine}
    (h : a.Fits routines)
    (hshape : routines.map Routine.uncounted = routines'.map Routine.uncounted) :
    a.Fits routines' := by
  obtain ⟨f, hf, hlength⟩ := h
  have hsame : (routines'[a.routine]?).map Routine.uncounted = some f.uncounted := by
    rw [← List.getElem?_map, ← hshape, List.getElem?_map, hf, Option.map_some]
  obtain ⟨f', hf', heq⟩ := Option.map_eq_some_iff.1 hsame
  have hflow : f'.flow.uncounted = f.flow.uncounted := congrArg Routine.flow heq
  refine ⟨f', hf', ?_⟩
  rw [hlength, ← f.flow.instrumentedCount_uncounted, ← hflow,
    f'.flow.instrumentedCount_uncounted]

namespace Profile

variable {routines routines' : List Routine} {a : Addition} {as : List Addition}

/-- Adding keeps the shape of every function. -/
theorem add_eq_ok (h : add routines a = .ok routines') :
    routines'.map Routine.uncounted = routines.map Routine.uncounted := by
  unfold add at h
  cases hf : routines[a.routine]? with
  | none =>
    rw [hf] at h
    rw [Except.ok.inj h]
  | some f =>
    rw [hf] at h
    obtain ⟨f', hf', h⟩ := Except.bind_eq_ok.1 h
    obtain rfl := Except.ok.inj h
    obtain ⟨hi, rfl⟩ := List.getElem?_eq_some_iff.1 hf
    have hi' : a.routine < (routines.map Routine.uncounted).length := by rwa [List.length_map]
    rw [List.map_set, Routine.uncounted_addCounters hf',
      ← List.getElem_map Routine.uncounted (h := hi'), List.set_getElem_self]

/-- What fits is added. -/
theorem exists_add_of_fits (h : a.Fits routines) : ∃ routines', add routines a = .ok routines' := by
  obtain ⟨f, hf, hlength⟩ := h
  refine ⟨routines.set a.routine { f with flow := f.flow.addCounters a.counters }, ?_⟩
  have hcounters : f.addCounters a.counters = .ok _ := if_pos hlength
  simp only [add, hf, hcounters]
  rfl

/-- **Additions that fit are all added.** None of them changes what the others fit. -/
theorem runSteps_add_of_fits (h : ∀ a ∈ as, a.Fits routines) :
    ∃ routines', runSteps add routines as = (routines', none) := by
  induction as generalizing routines with
  | nil => exact ⟨routines, rfl⟩
  | cons a as ih =>
    obtain ⟨next, hnext⟩ := exists_add_of_fits (h a List.mem_cons_self)
    -- an addition changes counts only, so the others fit what it leaves
    have hrest : ∀ b ∈ as, b.Fits next := fun b hb =>
      (h b (List.mem_cons_of_mem a hb)).congr (add_eq_ok hnext).symm
    obtain ⟨routines', hrun⟩ := ih hrest
    refine ⟨routines', ?_⟩
    rw [runSteps, hnext]
    exact hrun

theorem addAll_of_fits {p : Profile} (h : ∀ a ∈ as, a.Fits p.routines) :
    ∃ counted, p.addAll as = (counted, none) := by
  obtain ⟨routines', hrun⟩ := runSteps_add_of_fits h
  refine ⟨{ p with routines := routines' }, ?_⟩
  rw [addAll, hrun]

/-! ## What a data file puts aside -/

variable {p : Profile} {v : Version} {d d' : DataProgress} {r : Record}

theorem readCounters_eq_ok {f : Routine} {words : UInt32} {counters : List Count} {c c' : Cursor}
    (h : readCounters f words c = .ok counters c') :
    counters.length = f.flow.instrumentedCount := by
  obtain ⟨found, c₁, -, h⟩ := EStateM.bind_eq_ok.1 h
  obtain ⟨_, c₂, hlength, h⟩ := EStateM.bind_eq_ok.1 h
  obtain ⟨rfl, -⟩ := EStateM.pure_eq_ok.1 h
  exact beq_iff_eq.1 (Decode.require_eq_ok.1 hlength).1

/-- **A record puts aside what fits.** -/
theorem dataStep_fits (hd : ∀ a ∈ d.additions, a.Fits p.routines)
    (h : p.dataStep v d r = .ok d') : ∀ a ∈ d'.additions, a.Fits p.routines := by
  unfold dataStep at h
  split_ifs at h
  · obtain rfl := Except.ok.inj h
    exact hd
  · obtain ⟨i, -, h⟩ := Except.bind_eq_ok.1 h
    obtain rfl := Except.ok.inj h
    exact hd
  · cases hcurrent : d.current.bind fun i => (p.routines[i]?).map (i, ·) with
    | none =>
      rw [hcurrent] at h
      cases h
    | some found =>
      obtain ⟨i, f⟩ := found
      rw [hcurrent] at h
      obtain ⟨counters, hcounters, h⟩ := Except.bind_eq_ok.1 h
      obtain rfl := Except.ok.inj h
      obtain ⟨_, hread⟩ := Decode.result_eq_ok.1 hcounters
      obtain ⟨j, -, hj⟩ := Option.bind_eq_some_iff.1 hcurrent
      obtain ⟨f', hf', hpair⟩ := Option.map_eq_some_iff.1 hj
      obtain ⟨rfl, rfl⟩ := Prod.mk.inj hpair
      intro a ha
      rcases List.mem_append.1 ha with ha | ha
      · exact hd a ha
      · obtain rfl := List.mem_singleton.1 ha
        exact ⟨f', hf', readCounters_eq_ok hread⟩
  · obtain ⟨runs, -, h⟩ := Except.bind_eq_ok.1 h
    obtain rfl := Except.ok.inj h
    exact hd
  · obtain rfl := Except.ok.inj h
    exact hd
  · obtain rfl := Except.ok.inj h
    exact hd

/-- **All that a data file puts aside fits.** -/
theorem staged_fits (p : Profile) (v : Version) (f : Framing) :
    ∀ a ∈ (f.run (p.dataStep v) {}).1.additions, a.Fits p.routines :=
  f.run_invariant (P := fun d : DataProgress => ∀ a ∈ d.additions, a.Fits p.routines)
    (fun _ _ _ => dataStep_fits) (fun _ ha => absurd ha List.not_mem_nil)

/-- What adding leaves, if a data file's records were accepted. -/
theorem addAll_staged (p : Profile) (v : Version) (f : Framing) :
    ∃ counted, p.addAll (f.run (p.dataStep v) {}).1.additions = (counted, none) :=
  addAll_of_fits (p.staged_fits v f)

/-! ## Reading -/

/-- **Notes are refused, or their records make the profile.** -/
theorem readNotes_cases (p : Profile) (bytes : List UInt8) :
    (∃ e skipped, p.readNotes bytes = ⟨p, some e, skipped⟩) ∨
      ∃ version stamp c progress, p.openNotes bytes = .ok ((version, stamp), c) ∧
        (Record.all c).run (NotesProgress.step version) {} = (progress, none) ∧
        p.readNotes bytes =
          ⟨{ p with
              version := some version
              stamp
              files := progress.files
              routines := progress.routines.map Routine.solve }, none, progress.skipped⟩ := by
  cases hopen : p.openNotes bytes with
  | error e =>
    refine .inl ⟨e, [], ?_⟩
    rw [readNotes, hopen]
  | ok opened =>
    obtain ⟨⟨version, stamp⟩, c⟩ := opened
    cases hrun : (Record.all c).run (NotesProgress.step version) {} with
    | mk progress failure =>
      cases failure with
      | some e =>
        refine .inl ⟨e, progress.skipped, ?_⟩
        simp only [readNotes, hopen, hrun]
      | none =>
        refine .inr ⟨version, stamp, c, progress, rfl, hrun, ?_⟩
        simp only [readNotes, hopen, hrun]

/-- **Data are refused, or all their counters are added.** -/
theorem readData_cases (p : Profile) (bytes : List UInt8) :
    (∃ e skipped, p.readData bytes = ⟨p, some e, skipped⟩) ∨
      ∃ v c progress counted, p.openData bytes = .ok (v, c) ∧
        (Record.all c).run (p.dataStep v) {} = (progress, none) ∧
        p.addAll progress.additions = (counted, none) ∧
        p.readData bytes = ⟨counted.finish progress, none, progress.skipped⟩ := by
  cases hopen : p.openData bytes with
  | error e =>
    refine .inl ⟨e, [], ?_⟩
    rw [readData, hopen]
  | ok opened =>
    obtain ⟨v, c⟩ := opened
    obtain ⟨counted, hadded⟩ := p.addAll_staged v (Record.all c)
    cases hrun : (Record.all c).run (p.dataStep v) {} with
    | mk progress failure =>
      rw [hrun] at hadded
      cases failure with
      | some e =>
        refine .inl ⟨e, progress.skipped, ?_⟩
        simp only [readData, hopen, hrun]
      | none =>
        refine .inr ⟨v, c, progress, counted, rfl, hrun, hadded, ?_⟩
        simp only [readData, hopen, hrun, hadded]

/-- **Reading is atomic.** Notes or data that are refused leave the profile exactly as it was, and
counters are never refused any more once all records of their file were accepted. -/
theorem read_atomic (p : Profile) (bytes : List UInt8) :
    ((p.readNotes bytes).failure.isSome → (p.readNotes bytes).profile = p) ∧
      ((p.readData bytes).failure.isSome → (p.readData bytes).profile = p) ∧
      ∀ v c progress, p.openData bytes = .ok (v, c) →
        (Record.all c).run (p.dataStep v) {} = (progress, none) →
        ∃ counted, p.addAll progress.additions = (counted, none) := by
  refine ⟨fun h => ?_, fun h => ?_, fun v c progress _ hrun => ?_⟩
  · rcases p.readNotes_cases bytes with ⟨e, skipped, hread⟩ | ⟨_, _, _, _, -, -, hread⟩
    · rw [hread]
    · rw [hread] at h
      cases h
  · rcases p.readData_cases bytes with ⟨e, skipped, hread⟩ | ⟨_, _, _, _, -, -, -, hread⟩
    · rw [hread]
    · rw [hread] at h
      cases h
  · have hadded := p.addAll_staged v (Record.all c)
    rwa [hrun] at hadded

/-- Two functions with one counter each. -/
def twins : Profile where
  version := some ⟨0x34, 0x30, 0x37, 0x2a⟩
  stamp := 0x12345678
  files := ⟨["twins.c"]⟩
  routines :=
    [⟨1, 5, 6, "left", 0, 1, (FlowGraph.empty 2).addArc 0 1 0⟩,
      ⟨2, 5, 6, "right", 0, 9, (FlowGraph.empty 2).addArc 0 1 0⟩]

/-- Data for both of them, with a counter too many for the second. -/
def oneTooMany : Draft :=
  ((((Draft.data ⟨0x34, 0x30, 0x37, 0x2a⟩).dataFunction 1 5 6).arcCounters [4]).dataFunction 2 5
    6).arcCounters [4, 4]

/-- **The first twin's counter is put aside,** and forgotten when the second's are refused. -/
theorem read_atomic_of_oneTooMany :
    (twins.readData oneTooMany.encode).failure.isSome ∧
      (twins.readData oneTooMany.encode).profile = twins := by
  have hrefused : (twins.readData oneTooMany.encode).failure.isSome := by decide +kernel
  exact ⟨hrefused, (twins.read_atomic oneTooMany.encode).2.1 hrefused⟩

end Profile

end ArcCoverage

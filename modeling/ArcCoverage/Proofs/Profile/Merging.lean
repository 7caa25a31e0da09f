/-
# Data files in any order

Reading a data file has two halves. `Profile.gather` says what the file tells, and looks at the shape
of the profile only (`gather_congr`); `Profile.credited` adds it, and changes counts only
(`shape_credited`). So what a file tells does not depend on the files read before it, and reading is
adding:

| part of the profile | after a file |
| --- | --- |
| a function's flow | its counters added, one list after the other, and solved (`getElem?_routines_credited`) |
| runs and programs | the file's, added |
| all else | as it was |

Additions commute, and solving between them can be left out (`FlowGraph.solve_foldl_addCounters_solve`),
so two files may be exchanged (`readData_comm`). From this, any order of any accepted files gives one
profile (`Profile.readAll_order_independent`).
-/
import ArcCoverage.Proofs.Flow.Recounting
import ArcCoverage.Proofs.Profile.Reachable

namespace ArcCoverage

namespace Profile

variable {p p' : Profile} {v : Version} {bytes : List UInt8} {d d' : DataProgress}

/-! ## What a file tells -/

/-- **What a data file tells a profile,** or why it is refused. -/
def gather (p : Profile) (bytes : List UInt8) : Except ReadError DataProgress :=
  match p.openData bytes with
  | .error e => .error e
  | .ok (v, c) =>
    match (Record.all c).run (p.dataStep v) {} with
    | (_, some e) => .error e
    | (d, none) => .ok d

/-- **The profile with what a data file told added.** -/
def credited (p : Profile) (d : DataProgress) : Profile := (p.addAll d.additions).1.finish d

/-- What a data file told fits the functions of the profile. -/
theorem fits_of_gather (h : p.gather bytes = .ok d) : ∀ a ∈ d.additions, a.Fits p.routines := by
  unfold gather at h
  cases hopen : p.openData bytes with
  | error e =>
    rw [hopen] at h
    cases h
  | ok opened =>
    obtain ⟨v, c⟩ := opened
    have hfits := p.staged_fits v (Record.all c)
    rw [hopen] at h
    cases hrun : (Record.all c).run (p.dataStep v) {} with
    | mk progress failure =>
      rw [hrun] at hfits
      simp only [hrun] at h
      cases failure with
      | some e => cases h
      | none => exact Except.ok.inj h ▸ hfits

theorem readData_of_gather_error {e : ReadError} (h : p.gather bytes = .error e) :
    (p.readData bytes).failure = some e ∧ (p.readData bytes).profile = p := by
  unfold gather at h
  cases hopen : p.openData bytes with
  | error e' =>
    rw [hopen] at h
    rw [readData, hopen]
    exact ⟨congrArg some (Except.error.inj h), rfl⟩
  | ok opened =>
    obtain ⟨v, c⟩ := opened
    rw [hopen] at h
    cases hrun : (Record.all c).run (p.dataStep v) {} with
    | mk progress failure =>
      simp only [hrun] at h
      cases failure with
      | some e' =>
        simp only [readData, hopen, hrun, and_true]
        exact congrArg some (Except.error.inj h)
      | none => cases h

/-- **A file that tells something is accepted,** and what it tells is added. -/
theorem readData_of_gather_ok (h : p.gather bytes = .ok d) :
    (p.readData bytes).failure = none ∧ (p.readData bytes).profile = p.credited d := by
  obtain ⟨counted, hadded⟩ := addAll_of_fits (fits_of_gather h)
  have hcredited : p.credited d = counted.finish d := by rw [credited, hadded]
  rw [hcredited]
  unfold gather at h
  cases hopen : p.openData bytes with
  | error e =>
    rw [hopen] at h
    cases h
  | ok opened =>
    obtain ⟨v, c⟩ := opened
    rw [hopen] at h
    cases hrun : (Record.all c).run (p.dataStep v) {} with
    | mk progress failure =>
      simp only [hrun] at h
      cases failure with
      | some e => cases h
      | none =>
        obtain rfl := Except.ok.inj h
        simp only [readData, hopen, hrun, hadded, and_self]

/-! ## The shape of a profile -/

/-- **The profile with all counts forgotten.** -/
def shape (p : Profile) : Profile :=
  { p with routines := p.routines.map Routine.uncounted, runs := 0, programs := 0 }

theorem lastWithIdent_uncounted (ident : UInt32) (routines : List Routine) :
    lastWithIdent ident (routines.map Routine.uncounted) = lastWithIdent ident routines := by
  induction routines with
  | nil => rfl
  | cons f fs ih =>
    rw [List.map_cons, lastWithIdent, ih, lastWithIdent]
    rfl

theorem readSelection_shape (p : Profile) (v : Version) (words : UInt32) :
    p.shape.readSelection v words = p.readSelection v words := by
  unfold readSelection
  simp only [shape, lastWithIdent_uncounted, List.getElem?_map]
  congr 1
  funext ident
  cases lastWithIdent ident p.routines with
  | none => rfl
  | some i => cases hf : p.routines[i]? <;> simp [hf, Routine.uncounted]

theorem readCounters_uncounted (f : Routine) (words : UInt32) :
    readCounters f.uncounted words = readCounters f words := by
  have hcount : f.uncounted.flow.instrumentedCount = f.flow.instrumentedCount :=
    f.flow.instrumentedCount_uncounted
  unfold readCounters
  rw [hcount]
  rfl

/-- **A record tells the same,** whatever was counted before. -/
theorem dataStep_shape (p : Profile) (v : Version) : p.shape.dataStep v = p.dataStep v := by
  funext d r
  have hcurrent : (d.current.bind fun i => (p.shape.routines[i]?).map (i, ·)) =
      (d.current.bind fun i => (p.routines[i]?).map (i, ·)).map fun (i, f) => (i, f.uncounted) := by
    cases d.current with
    | none => rfl
    | some i =>
      simp only [Option.bind_some, shape, List.getElem?_map, Option.map_map]
      rfl
  unfold dataStep
  rw [readSelection_shape, hcurrent]
  cases hfound : d.current.bind fun i => (p.routines[i]?).map (i, ·) with
  | none => rfl
  | some found =>
    obtain ⟨i, f⟩ := found
    simp only [Option.map_some, readCounters_uncounted]

theorem gather_shape (p : Profile) (bytes : List UInt8) : p.shape.gather bytes = p.gather bytes := by
  unfold gather
  rw [show p.shape.openData bytes = p.openData bytes from rfl]
  simp only [dataStep_shape]

/-- **What a file tells depends on the shape of the profile only.** -/
theorem gather_congr (h : p.shape = p'.shape) (bytes : List UInt8) :
    p.gather bytes = p'.gather bytes := by
  rw [← gather_shape, h, gather_shape]

/-- **Adding what a file told changes counts only.** -/
theorem shape_credited (p : Profile) (d : DataProgress) : (p.credited d).shape = p.shape := by
  have hroutines : (p.credited d).routines.map Routine.uncounted =
      p.routines.map Routine.uncounted :=
    (map_uncounted_solve _).trans (p.map_uncounted_addAll d.additions)
  unfold shape
  rw [hroutines]
  rfl

theorem shape_readData (p : Profile) (bytes : List UInt8) :
    (p.readData bytes).profile.shape = p.shape := by
  cases h : p.gather bytes with
  | error e => rw [(readData_of_gather_error h).2]
  | ok d => rw [(readData_of_gather_ok h).2, shape_credited]

theorem map_uncounted_of_shape (h : p.shape = p'.shape) :
    p.routines.map Routine.uncounted = p'.routines.map Routine.uncounted :=
  congrArg Profile.routines h

/-! ## What is added -/

/-- **The lists of counters that are added to one function,** in order. -/
def countersOf (i : Nat) (additions : List Addition) : List (List Count) :=
  (additions.filter (·.routine == i)).map Addition.counters

theorem countersOf_cons (i : Nat) (a : Addition) (as : List Addition) :
    countersOf i (a :: as) =
      if a.routine = i then a.counters :: countersOf i as else countersOf i as := by
  unfold countersOf
  rw [List.filter_cons]
  by_cases h : a.routine = i <;> simp [h]

/-- A function with its flow counted on. -/
def countedOn (lists : List (List Count)) (f : Routine) : Routine :=
  { f with flow := lists.foldl FlowGraph.addCounters f.flow }

/-- **Every function takes its own counters.** -/
theorem getElem?_runSteps_add {routines routines' : List Routine} {as : List Addition}
    (hfits : ∀ a ∈ as, a.Fits routines) (hrun : runSteps add routines as = (routines', none))
    (i : Nat) : routines'[i]? = (routines[i]?).map (countedOn (countersOf i as)) := by
  induction as generalizing routines with
  | nil =>
    obtain ⟨rfl, -⟩ := Prod.mk.inj hrun
    exact Option.map_id'.symm
  | cons a as ih =>
    obtain ⟨f, hf, hlength⟩ := hfits a List.mem_cons_self
    have hcounters : f.addCounters a.counters =
        .ok { f with flow := f.flow.addCounters a.counters } := if_pos hlength
    have hadd : add routines a =
        .ok (routines.set a.routine { f with flow := f.flow.addCounters a.counters }) := by
      simp only [add, hf, hcounters]
      rfl
    have hrest : ∀ b ∈ as, b.Fits _ := fun b hb =>
      (hfits b (List.mem_cons_of_mem a hb)).congr (add_eq_ok hadd).symm
    rw [runSteps, hadd] at hrun
    rw [ih hrest hrun, List.getElem?_set, countersOf_cons]
    by_cases hi : a.routine = i
    · subst hi
      have hlt := (List.getElem?_eq_some_iff.1 hf).1
      rw [if_pos rfl, if_pos hlt, if_pos rfl, hf]
      rfl
    · rw [if_neg hi, if_neg hi]

/-- **A function after a data file:** its counters added, and its flow solved. -/
theorem getElem?_routines_credited (hfits : ∀ a ∈ d.additions, a.Fits p.routines) (i : Nat) :
    (p.credited d).routines[i]? =
      (p.routines[i]?).map fun f => (countedOn (countersOf i d.additions) f).solve := by
  obtain ⟨routines, hrun⟩ := runSteps_add_of_fits hfits
  have hadded : (p.credited d).routines = routines.map Routine.solve := by
    rw [credited, addAll, hrun]
    rfl
  rw [hadded, List.getElem?_map, getElem?_runSteps_add hfits hrun, Option.map_map]
  rfl

/-! ## Two files -/

/-- Counting on over a solved flow, and solving again, is counting on in one go. -/
theorem solve_countedOn_solve (lists lists' : List (List Count)) (f : Routine) :
    (countedOn lists' (countedOn lists f).solve).solve = (countedOn (lists ++ lists') f).solve := by
  have hflow := FlowGraph.solve_foldl_addCounters_solve
    (lists.foldl FlowGraph.addCounters f.flow) lists'
  rw [← List.foldl_append] at hflow
  exact congrArg (fun g => { f with flow := g }) hflow

theorem countedOn_append_comm (lists lists' : List (List Count)) (f : Routine) :
    countedOn (lists ++ lists') f = countedOn (lists' ++ lists) f :=
  congrArg (fun g => { f with flow := g })
    (FlowGraph.foldl_addCounters_perm List.perm_append_comm f.flow)

theorem Tally.plus_right_comm (a : Tally) (m n : Nat) : (a.plus m).plus n = (a.plus n).plus m := by
  apply UInt32.toNat_inj.1
  rw [Tally.toNat_plus, Tally.toNat_plus, Tally.toNat_plus, Tally.toNat_plus]
  omega

/-- **What two files told may be added in either order.** -/
theorem credited_comm (hd : ∀ a ∈ d.additions, a.Fits p.routines)
    (hd' : ∀ a ∈ d'.additions, a.Fits p.routines) :
    (p.credited d).credited d' = (p.credited d').credited d := by
  have hkeep (e : DataProgress) {a : Addition} (ha : a.Fits p.routines) :
      a.Fits (p.credited e).routines :=
    ha.congr (map_uncounted_of_shape (p.shape_credited e)).symm
  have hroutines : ((p.credited d).credited d').routines =
      ((p.credited d').credited d).routines := by
    refine List.ext_getElem? fun i => ?_
    rw [getElem?_routines_credited fun a ha => hkeep d (hd' a ha), getElem?_routines_credited hd,
      getElem?_routines_credited fun a ha => hkeep d' (hd a ha), getElem?_routines_credited hd',
      Option.map_map, Option.map_map]
    refine congrArg (Option.map · p.routines[i]?) (funext fun f => ?_)
    simp only [Function.comp_apply, solve_countedOn_solve]
    rw [countedOn_append_comm]
  have hruns : ((p.credited d).credited d').runs = ((p.credited d').credited d).runs :=
    Tally.plus_right_comm p.runs d.runs.toNat d'.runs.toNat
  have hprograms : ((p.credited d).credited d').programs = ((p.credited d').credited d).programs :=
    Tally.plus_right_comm p.programs d.programs d'.programs
  calc (p.credited d).credited d'
    _ = { p with
          routines := ((p.credited d).credited d').routines
          runs := ((p.credited d).credited d').runs
          programs := ((p.credited d).credited d').programs } := rfl
    _ = { p with
          routines := ((p.credited d').credited d).routines
          runs := ((p.credited d').credited d).runs
          programs := ((p.credited d').credited d).programs } := by
        rw [hroutines, hruns, hprograms]
    _ = (p.credited d').credited d := rfl

/-- **Two data files may be exchanged.** -/
theorem readData_comm (p : Profile) (bytes bytes' : List UInt8) :
    ((p.readData bytes).profile.readData bytes').profile =
      ((p.readData bytes').profile.readData bytes).profile := by
  have hafter (b b' : List UInt8) : (p.readData b).profile.gather b' = p.gather b' :=
    gather_congr (p.shape_readData b) b'
  cases h : p.gather bytes with
  | error e =>
    have hagain := (hafter bytes' bytes).trans h
    rw [(readData_of_gather_error h).2, (readData_of_gather_error hagain).2]
  | ok d =>
    cases h' : p.gather bytes' with
    | error e =>
      have hagain := (hafter bytes bytes').trans h'
      rw [(readData_of_gather_error h').2, (readData_of_gather_error hagain).2]
    | ok d' =>
      have hagain := (hafter bytes bytes').trans h'
      have hagain' := (hafter bytes' bytes).trans h
      rw [(readData_of_gather_ok hagain).2, (readData_of_gather_ok hagain').2,
        (readData_of_gather_ok h).2, (readData_of_gather_ok h').2]
      exact credited_comm (fits_of_gather h) (fits_of_gather h')

/-! ## Any number of files -/

/-- **Data files read one after the other.** -/
def readAll (p : Profile) (files : List (List UInt8)) : Profile :=
  files.foldl (fun p bytes => (p.readData bytes).profile) p

/-- Whether a data file is accepted. -/
def accepts (p : Profile) (bytes : List UInt8) : Bool := (p.readData bytes).failure.isNone

/-- **What a data file adds to one instrumented arc,** by the number of the function and that of the
arc among those with a counter. -/
def applied (p : Profile) (i k : Nat) (bytes : List UInt8) : List Count :=
  match p.gather bytes with
  | .error _ => []
  | .ok d => (countersOf i d.additions).map (·.getD k 0)

theorem Reachable.readAll (h : p.Reachable) (files : List (List UInt8)) :
    (p.readAll files).Reachable := by
  induction files generalizing p with
  | nil => exact h
  | cons bytes files ih => exact ih (h.data bytes)

theorem shape_readAll (p : Profile) (files : List (List UInt8)) :
    (p.readAll files).shape = p.shape := by
  induction files generalizing p with
  | nil => rfl
  | cons bytes files ih => exact (ih _).trans (p.shape_readData bytes)

/-- **Files are refused for the same reason,** whatever was read before them. -/
theorem failure_congr (h : p.shape = p'.shape) (bytes : List UInt8) :
    (p.readData bytes).failure = (p'.readData bytes).failure := by
  have hgather := gather_congr h bytes
  cases hp : p.gather bytes with
  | error e =>
    rw [(readData_of_gather_error hp).1, (readData_of_gather_error (hgather.symm.trans hp)).1]
  | ok d => rw [(readData_of_gather_ok hp).1, (readData_of_gather_ok (hgather.symm.trans hp)).1]

/-- Files that are refused might as well not be there. -/
theorem readAll_filter_accepts (p : Profile) (files : List (List UInt8)) :
    p.readAll (files.filter p.accepts) = p.readAll files := by
  induction files generalizing p with
  | nil => rfl
  | cons bytes files ih =>
    have hsame : p.accepts = (p.readData bytes).profile.accepts := funext fun b => by
      rw [accepts, accepts, failure_congr (p.shape_readData bytes)]
    rw [List.filter_cons]
    cases haccepted : p.accepts bytes with
    | true =>
      rw [if_pos rfl, hsame]
      exact ih _
    | false =>
      have hkept : (p.readData bytes).profile = p := by
        cases h : p.gather bytes with
        | error e => exact (readData_of_gather_error h).2
        | ok d =>
          rw [accepts, (readData_of_gather_ok h).1] at haccepted
          cases haccepted
      rw [if_neg Bool.false_ne_true, ih]
      change _ = (p.readData bytes).profile.readAll files
      rw [hkept]

theorem readAll_perm {files files' : List (List UInt8)} (h : files.Perm files') (p : Profile) :
    p.readAll files = p.readAll files' :=
  haveI : RightCommutative fun (p : Profile) bytes => (p.readData bytes).profile := ⟨readData_comm⟩
  h.foldl_eq p

/-! ## Counts -/

/-- **The count of an instrumented arc,** by the number of its function and its own among the arcs
with a counter. -/
def counter? (p : Profile) (i k : Nat) : Option Count :=
  (p.routines[i]?).bind fun f => f.flow.counters[k]?

/-- What one file does to an instrumented arc. -/
theorem counter?_readData (p : Profile) (bytes : List UInt8) (i k : Nat) :
    (p.readData bytes).profile.counter? i k =
      (p.counter? i k).map fun c => (p.applied i k bytes).foldl Count.plus c := by
  unfold applied
  cases h : p.gather bytes with
  | error e =>
    rw [(readData_of_gather_error h).2]
    exact Option.map_id'.symm
  | ok d =>
    rw [(readData_of_gather_ok h).2, counter?, getElem?_routines_credited (fits_of_gather h), counter?]
    cases p.routines[i]? with
    | none => rfl
    | some f =>
      change (((countersOf i d.additions).foldl FlowGraph.addCounters f.flow).solve.counters)[k]? = _
      rw [FlowGraph.counters_solve, FlowGraph.getElem?_counters_foldl_addCounters]
      rfl

/-- **What any number of files do to an instrumented arc.** -/
theorem counter?_readAll (p : Profile) (files : List (List UInt8)) (i k : Nat) :
    (p.readAll files).counter? i k =
      (p.counter? i k).map fun c => (files.flatMap (p.applied i k)).foldl Count.plus c := by
  induction files generalizing p with
  | nil => exact Option.map_id'.symm
  | cons bytes files ih =>
    have hsame : (p.readData bytes).profile.applied i k = p.applied i k := by
      funext b
      rw [applied, applied, gather_congr (p.shape_readData bytes)]
    change ((p.readData bytes).profile.readAll files).counter? i k = _
    rw [ih, hsame, counter?_readData, Option.map_map, List.flatMap_cons]
    refine congrArg (Option.map · (p.counter? i k)) (funext fun c => ?_)
    rw [Function.comp_apply, List.foldl_append]

/-- **Merging does not depend on the order of the files.** Whether a data file is accepted, or why it
is not, does not depend on the files read before it; the accepted ones of some files may be read in
any order, and give the same profile in every part; and each instrumented arc ends with what it
counted before and all that the files add to it, as far as a count reaches. -/
theorem readAll_order_independent (p : Profile) (files : List (List UInt8)) :
    (∀ before bytes, ((p.readAll before).readData bytes).failure = (p.readData bytes).failure) ∧
      (∀ order, order.Perm (files.filter p.accepts) → p.readAll order = p.readAll files) ∧
      ∀ i k c, p.counter? i k = some c →
        ∃ c', (p.readAll files).counter? i k = some c' ∧
          c'.toNat = min (c.toNat + Count.exactTotal (files.flatMap (p.applied i k)))
            Count.limit := by
  refine ⟨fun before bytes => ?_, fun order horder => ?_, fun i k c hc => ?_⟩
  · exact failure_congr (p.shape_readAll before) bytes
  · rw [readAll_perm horder, readAll_filter_accepts]
  · refine ⟨(files.flatMap (p.applied i k)).foldl Count.plus c, ?_, Count.toNat_foldl_plus _ _⟩
    rw [counter?_readAll, hc, Option.map_some]

/-- Data that count the first of the `twins` alone. -/
def leftTwinRan (n : Count) : List UInt8 :=
  (((Draft.data ⟨0x34, 0x30, 0x37, 0x2a⟩).dataFunction 1 5 6).arcCounters [n]).encode

/-- **Two files fill a counter in either order,** and one between them that is refused is not missed. -/
theorem readAll_order_independent_of_full :
    let files := [leftTwinRan 7, oneTooMany.encode, leftTwinRan (Count.ofNatCapped (Count.limit - 5))]
    [leftTwinRan (Count.ofNatCapped (Count.limit - 5)), leftTwinRan 7].Perm
        (files.filter twins.accepts) ∧
      twins.readAll [leftTwinRan (Count.ofNatCapped (Count.limit - 5)), leftTwinRan 7] =
        twins.readAll files ∧
      ∃ c, (twins.readAll files).counter? 0 0 = some c ∧ c.toNat = Count.limit := by
  have hperm : [leftTwinRan (Count.ofNatCapped (Count.limit - 5)), leftTwinRan 7].Perm
      ([leftTwinRan 7, oneTooMany.encode, leftTwinRan (Count.ofNatCapped (Count.limit - 5))].filter
        twins.accepts) := by
    decide +kernel
  have hfull : min ((0 : Count).toNat + Count.exactTotal
      ([leftTwinRan 7, oneTooMany.encode, leftTwinRan (Count.ofNatCapped (Count.limit - 5))].flatMap
        (twins.applied 0 0))) Count.limit = Count.limit := by
    decide +kernel
  obtain ⟨-, hmerged, hcounts⟩ := twins.readAll_order_independent
    [leftTwinRan 7, oneTooMany.encode, leftTwinRan (Count.ofNatCapped (Count.limit - 5))]
  obtain ⟨c, hcounter, hc⟩ := hcounts 0 0 0 (by decide +kernel)
  exact ⟨hperm, hmerged _ hperm, c, hcounter, hc.trans hfull⟩

end Profile

end ArcCoverage

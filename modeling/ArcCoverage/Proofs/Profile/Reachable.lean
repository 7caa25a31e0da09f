/-
# Profiles that files can make

A profile is made by reading files: any bytes at all, notes or data, accepted or refused, in any
order (`Profile.Reachable`). Whatever they are, its functions are well-formed
(`Routine.WellFormed`):

| part | is |
| --- | --- |
| arcs, and the arc lists of blocks | as `FlowGraph.WellFormed` says |
| the file a function starts in | in the table of files |
| a line that a block covers | numbered from one, in a file of the table |

and no file is in the table twice. The invariant is `FileTable.Serves`. Every record of a notes file
keeps it (`NotesProgress.step_serves`), and so does what only changes counts
(`FileTable.Serves.congr`).
-/
import ArcCoverage.Proofs.Profile.Staging

namespace ArcCoverage

/-! ## Lines -/

namespace FlowGraph

variable {g g' : FlowGraph}

theorem map_lines_modify {f : Block → Block} (hf : ∀ b, (f b).lines = b.lines)
    (blocks : List Block) (i : Nat) :
    (blocks.modify i f).map Block.lines = blocks.map Block.lines := by
  refine List.ext_getElem? fun j => ?_
  rw [List.getElem?_map, List.getElem?_map, List.getElem?_modify]
  cases blocks[j]? with
  | none => rfl
  | some b => by_cases hij : i = j <;> simp [hij, hf]

theorem lines_addArc (g : FlowGraph) (source destination : Nat) (flags : UInt32) :
    (g.addArc source destination flags).lines = g.lines := by
  have hblocks : (g.addArc source destination flags).blocks.map Block.lines =
      g.blocks.map Block.lines := by
    rw [addArc, map_lines_modify, map_lines_modify]
    · exact fun _ => rfl
    · exact fun _ => rfl
  rw [lines, lines, List.flatMap_def, List.flatMap_def, hblocks]

theorem AddsArcs.lines (h : AddsArcs g g') : g'.lines = g.lines := by
  induction h with
  | refl => rfl
  | tail _ hstep ih =>
    obtain ⟨_, _, _, -, -, rfl⟩ := hstep
    rw [lines_addArc, ih]

theorem lines_uncounted (g : FlowGraph) : g.uncounted.lines = g.lines := by
  rw [lines, uncounted, List.flatMap_map]
  rfl

theorem lines_replicate (n : Nat) (arcs : List Arc) :
    FlowGraph.lines ⟨List.replicate n {}, arcs⟩ = [] := by
  refine List.flatMap_eq_nil_iff.2 fun b hb => ?_
  rw [List.eq_of_mem_replicate hb]

end FlowGraph

/-! ## Well-formed functions -/

/-- **A function whose parts all exist,** with the table of its files. -/
structure Routine.WellFormed (f : Routine) (files : FileTable) : Prop where
  flow : f.flow.WellFormed
  file_lt : f.file < files.size
  line_pos : ∀ l ∈ f.flow.lines, 1 ≤ l.line
  line_file_lt : ∀ l ∈ f.flow.lines, l.file < files.size

namespace Routine

variable {f f' : Routine} {files files' : FileTable}

/-- **Well-formedness depends on the shape of a function only.** -/
theorem WellFormed.congr (h : f.WellFormed files) (hshape : f.uncounted = f'.uncounted) :
    f'.WellFormed files := by
  have hflow : f.flow.uncounted = f'.flow.uncounted := congrArg Routine.flow hshape
  have hfile : f.uncounted.file = f'.uncounted.file := congrArg Routine.file hshape
  have hlines : f.flow.lines = f'.flow.lines := by
    rw [← f.flow.lines_uncounted, hflow, f'.flow.lines_uncounted]
  have hlt : f'.uncounted.file < files.size := hfile ▸ h.file_lt
  exact ⟨(FlowGraph.wellFormed_congr hflow).1 h.flow, hlt, hlines ▸ h.line_pos,
    hlines ▸ h.line_file_lt⟩

/-- A larger table serves as well. -/
theorem WellFormed.mono (h : f.WellFormed files) (hle : files.size ≤ files'.size) :
    f.WellFormed files' where
  flow := h.flow
  file_lt := Nat.lt_of_lt_of_le h.file_lt hle
  line_pos := h.line_pos
  line_file_lt l hl := Nat.lt_of_lt_of_le (h.line_file_lt l hl) hle

theorem wellFormed_ofRecord (r : FunctionRecord) {file : Nat} (hfile : file < files.size) :
    (ofRecord r file).WellFormed files where
  flow := FlowGraph.wellFormed_empty 0
  file_lt := hfile
  line_pos _ hl := absurd hl List.not_mem_nil
  line_file_lt _ hl := absurd hl List.not_mem_nil

theorem WellFormed.setBlockCount {n : Nat} (h : f.WellFormed files)
    (hset : f.setBlockCount n = .ok f') : f'.WellFormed files := by
  obtain ⟨hnil, rfl⟩ := setBlockCount_eq_ok.1 hset
  have hlines {l : SourceLine} (hl : l ∈ FlowGraph.lines ⟨List.replicate n {}, f.flow.arcs⟩) :
      False := by
    rw [FlowGraph.lines_replicate] at hl
    exact List.not_mem_nil hl
  exact ⟨wellFormed_setBlocks h.flow hnil n, h.file_lt, fun _ hl => (hlines hl).elim,
    fun _ hl => (hlines hl).elim⟩

theorem WellFormed.readArcs {words : UInt32} {c c' : Cursor} (h : f.WellFormed files)
    (hread : f.readArcs words c = .ok f' c') : f'.WellFormed files := by
  obtain ⟨g, hg, rfl⟩ := readArcs_eq_ok hread
  exact ⟨hg.wellFormed h.flow, h.file_lt, hg.lines.symm ▸ h.line_pos,
    hg.lines.symm ▸ h.line_file_lt⟩

theorem WellFormed.addsLines {g : FlowGraph} (h : f.WellFormed files)
    (hg : FlowGraph.AddsLines files f.flow g) : WellFormed { f with flow := g } files := by
  refine ⟨hg.wellFormed h.flow, h.file_lt, fun l hl => ?_, fun l hl => ?_⟩
  · rcases hg.mem_lines hl with hold | ⟨hpos, -⟩
    · exact h.line_pos l hold
    · exact hpos
  · rcases hg.mem_lines hl with hold | ⟨-, hfile⟩
    · exact h.line_file_lt l hold
    · exact hfile

end Routine

/-! ## The invariant -/

/-- **A table of files that serves some functions:** no name is in it twice, and the functions and
their lines refer to its files only. -/
structure FileTable.Serves (files : FileTable) (routines : List Routine) : Prop where
  nodup : files.names.Nodup
  routine : ∀ f ∈ routines, f.WellFormed files

namespace FileTable

variable {files files' : FileTable} {routines routines' : List Routine}

theorem serves_nil : Serves {} [] :=
  ⟨List.nodup_nil, fun _ hf => absurd hf List.not_mem_nil⟩

/-- Another function, and the files that it brings. -/
theorem Serves.snoc (h : files.Serves routines) (hgrown : files.names <+: files'.names)
    (hnodup : files'.names.Nodup) {f : Routine} (hf : f.WellFormed files') :
    files'.Serves (routines ++ [f]) := by
  refine ⟨hnodup, fun f' hf' => ?_⟩
  rcases List.mem_append.1 hf' with hold | hnew
  · exact (h.routine f' hold).mono hgrown.length_le
  · rw [List.mem_singleton.1 hnew]
    exact hf

theorem Serves.init {f : Routine} (h : files.Serves (routines ++ [f])) : files.Serves routines :=
  ⟨h.nodup, fun f' hf' => h.routine f' (List.mem_append_left _ hf')⟩

theorem Serves.last {f : Routine} (h : files.Serves (routines ++ [f])) : f.WellFormed files :=
  h.routine f (List.mem_append_right _ (List.mem_singleton_self f))

/-- **What a table serves depends on the shape of the functions only.** -/
theorem Serves.congr (h : files.Serves routines)
    (hshape : routines.map Routine.uncounted = routines'.map Routine.uncounted) :
    files.Serves routines' := by
  refine ⟨h.nodup, fun f' hf' => ?_⟩
  have hmem := List.mem_map_of_mem (f := Routine.uncounted) hf'
  rw [← hshape] at hmem
  obtain ⟨f, hf, heq⟩ := List.mem_map.1 hmem
  exact (h.routine f hf).congr heq

end FileTable

/-! ## Notes -/

namespace NotesProgress

variable {p p' : NotesProgress} {v : Version} {r : Record} {f : Routine}

theorem addFunction_serves (h : p.files.Serves p.routines) (hadd : p.addFunction v r = .ok p') :
    p'.files.Serves p'.routines := by
  obtain ⟨read, -, hadd⟩ := Except.bind_eq_ok.1 hadd
  obtain rfl := Except.ok.inj hadd
  exact h.snoc (p.files.prefix_intern read.file) (FileTable.nodup_intern h.nodup read.file)
    (Routine.wellFormed_ofRecord read (p.files.intern_lt_size read.file))

/-- A record that completes the current function. -/
theorem addToFunction_serves (h : p.files.Serves p.routines) (hf : p.current = some f)
    (hadd : p.addToFunction f r = .ok p') : p'.files.Serves p'.routines := by
  have hserves : p.files.Serves (p.finished ++ [f]) := by rwa [routines, hf] at h
  unfold addToFunction at hadd
  split_ifs at hadd
  · obtain ⟨f', hset, hadd⟩ := Except.bind_eq_ok.1 hadd
    obtain rfl := Except.ok.inj hadd
    exact hserves.init.snoc (List.prefix_refl _) h.nodup (hserves.last.setBlockCount hset)
  · obtain ⟨f', hread, hadd⟩ := Except.bind_eq_ok.1 hadd
    obtain rfl := Except.ok.inj hadd
    obtain ⟨_, hread⟩ := Decode.result_eq_ok.1 hread
    exact hserves.init.snoc (List.prefix_refl _) h.nodup (hserves.last.readArcs hread)
  · obtain ⟨⟨f', files'⟩, hread, hadd⟩ := Except.bind_eq_ok.1 hadd
    obtain rfl := Except.ok.inj hadd
    obtain ⟨_, hread⟩ := Decode.result_eq_ok.1 hread
    obtain ⟨⟨g, hg, rfl⟩, hgrown, hnodup⟩ := Routine.readLines_eq_ok hserves.last.file_lt hread
    exact hserves.init.snoc hgrown (hnodup h.nodup)
      ((hserves.last.mono hgrown.length_le).addsLines hg)
  · obtain rfl := Except.ok.inj hadd
    exact h

/-- **Every record keeps the invariant.** -/
theorem step_serves (h : p.files.Serves p.routines) (hstep : step v p r = .ok p') :
    p'.files.Serves p'.routines := by
  unfold step at hstep
  cases hf : p.current with
  | some f =>
    rw [hf] at hstep
    dsimp only at hstep
    split_ifs at hstep
    · exact addFunction_serves h hstep
    · exact addToFunction_serves h hf hstep
  | none =>
    rw [hf] at hstep
    dsimp only at hstep
    split_ifs at hstep
    · exact addFunction_serves h hstep
    · obtain rfl := Except.ok.inj hstep
      exact h

/-- **All records of a file keep it.** -/
theorem run_serves (v : Version) (f : Framing) :
    (f.run (step v) {}).1.files.Serves (f.run (step v) {}).1.routines :=
  f.run_invariant (P := fun p : NotesProgress => p.files.Serves p.routines)
    (fun _ _ _ => step_serves) FileTable.serves_nil

end NotesProgress

/-! ## Reachable profiles -/

namespace Profile

/-- **A profile that reading makes,** of any bytes, accepted or refused, in any order. -/
inductive Reachable : Profile → Prop
  | start : Reachable {}
  | notes {p : Profile} (h : Reachable p) (bytes : List UInt8) :
      Reachable (p.readNotes bytes).profile
  | data {p : Profile} (h : Reachable p) (bytes : List UInt8) :
      Reachable (p.readData bytes).profile

variable {p : Profile} {bytes : List UInt8}

/-- Solving changes no shape. -/
theorem map_uncounted_solve (routines : List Routine) :
    (routines.map Routine.solve).map Routine.uncounted = routines.map Routine.uncounted := by
  rw [List.map_map]
  refine List.map_congr_left fun f _ => ?_
  exact congrArg (fun g => { f with flow := g }) f.flow.uncounted_solve

/-- Adding counters changes no shape. -/
theorem map_uncounted_addAll (p : Profile) (additions : List Addition) :
    (p.addAll additions).1.routines.map Routine.uncounted = p.routines.map Routine.uncounted :=
  runSteps_invariant (P := fun rs => rs.map Routine.uncounted = p.routines.map Routine.uncounted)
    (fun _ _ _ hshape hadd => (add_eq_ok hadd).trans hshape) rfl additions

theorem readNotes_serves (h : p.files.Serves p.routines) :
    (p.readNotes bytes).profile.files.Serves (p.readNotes bytes).profile.routines := by
  rcases p.readNotes_cases bytes with ⟨e, skipped, hread⟩ | ⟨v, stamp, c, progress, -, hrun, hread⟩
  · rw [hread]
    exact h
  · have hserves := NotesProgress.run_serves v (Record.all c)
    rw [hrun] at hserves
    rw [hread]
    exact hserves.congr (map_uncounted_solve progress.routines).symm

theorem readData_serves (h : p.files.Serves p.routines) :
    (p.readData bytes).profile.files.Serves (p.readData bytes).profile.routines := by
  rcases p.readData_cases bytes with
    ⟨e, skipped, hread⟩ | ⟨v, c, progress, counted, -, -, hadded, hread⟩
  · rw [hread]
    exact h
  · have hshape := p.map_uncounted_addAll progress.additions
    have hfiles : (p.addAll progress.additions).1.files = p.files := rfl
    rw [hadded] at hshape hfiles
    rw [hread]
    have hcounted : counted.files.Serves counted.routines := by
      rw [hfiles]
      exact h.congr hshape.symm
    exact hcounted.congr (map_uncounted_solve counted.routines).symm

/-- **The functions of every reachable profile are well-formed.** -/
theorem Reachable.serves (h : p.Reachable) : p.files.Serves p.routines := by
  induction h with
  | start => exact FileTable.serves_nil
  | notes _ bytes ih => exact readNotes_serves ih
  | data _ bytes ih => exact readData_serves ih

end Profile

end ArcCoverage

/-
# Reports on what never ran

Notes bring no counts. A profile that has read its notes and nothing else counts zero everywhere
(`Profile.readNotes_uncounted`). Whatever a report says of a line it takes from its count, so its
reports show no line as executed, in either format (`Profile.Uncounted.shownUnexecuted`): neither in
rows and entries nor in what is written of them.

The rows of an annotated source are built by a recursion over its lines. `Annotated.source_mem_body`
goes along it and says which of them are rows of source lines.
-/
import ArcCoverage.Proofs.Profile.FunctionNotes
import ArcCoverage.Proofs.Report.ReadEntries
import ArcCoverage.Proofs.Report.ReadRows

namespace ArcCoverage

/-! ## Notes -/

namespace NotesProgress

variable {p p' : NotesProgress} {v : Version} {r : Record} {f : Routine}

/-- No function has counts. -/
def Uncounted (p : NotesProgress) : Prop := ∀ f ∈ p.routines, f.flow.uncounted = f.flow

theorem uncounted_append {finished : List Routine}
    (h : ∀ f ∈ finished, f.flow.uncounted = f.flow) (hf : f.flow.uncounted = f.flow) :
    ∀ f' ∈ finished ++ [f], f'.flow.uncounted = f'.flow := by
  intro f' hf'
  rcases List.mem_append.1 hf' with hold | hnew
  · exact h f' hold
  · rw [List.mem_singleton.1 hnew]
    exact hf

theorem addToFunction_uncounted (hserves : p.files.Serves p.routines) (h : p.Uncounted)
    (hf : p.current = some f) (hadd : p.addToFunction f r = .ok p') : p'.Uncounted := by
  have hlast : f ∈ p.routines := by
    rw [routines, hf]
    exact List.mem_append_right _ (List.mem_singleton_self f)
  have hfinished : ∀ f ∈ p.finished, f.flow.uncounted = f.flow := fun f' hf' =>
    h f' (List.mem_append_left _ hf')
  unfold addToFunction at hadd
  split_ifs at hadd
  · obtain ⟨f', hset, hadd⟩ := Except.bind_eq_ok.1 hadd
    obtain rfl := Except.ok.inj hadd
    obtain ⟨-, rfl⟩ := Routine.setBlockCount_eq_ok.1 hset
    have harcs : f.flow.arcs.map Arc.uncounted = f.flow.arcs := congrArg FlowGraph.arcs (h f hlast)
    refine uncounted_append hfinished ?_
    rw [FlowGraph.uncounted, harcs, List.map_replicate]
    rfl
  · obtain ⟨f', hread, hadd⟩ := Except.bind_eq_ok.1 hadd
    obtain rfl := Except.ok.inj hadd
    obtain ⟨_, hread⟩ := Decode.result_eq_ok.1 hread
    obtain ⟨g, hg, rfl⟩ := Routine.readArcs_eq_ok hread
    exact uncounted_append hfinished (hg.uncounted (h f hlast))
  · obtain ⟨⟨f', files'⟩, hread, hadd⟩ := Except.bind_eq_ok.1 hadd
    obtain rfl := Except.ok.inj hadd
    obtain ⟨_, hread⟩ := Decode.result_eq_ok.1 hread
    obtain ⟨⟨g, hg, rfl⟩, -, -⟩ :=
      Routine.readLines_eq_ok (hserves.routine f hlast).file_lt hread
    exact uncounted_append hfinished (hg.uncounted (h f hlast))
  · obtain rfl := Except.ok.inj hadd
    exact h

/-- **No record brings counts.** -/
theorem step_uncounted (hserves : p.files.Serves p.routines) (h : p.Uncounted)
    (hstep : step v p r = .ok p') : p'.Uncounted := by
  have hfunction (hadd : p.addFunction v r = .ok p') : p'.Uncounted := by
    obtain ⟨read, -, hadd⟩ := Except.bind_eq_ok.1 hadd
    obtain rfl := Except.ok.inj hadd
    exact uncounted_append h rfl
  unfold step at hstep
  cases hf : p.current with
  | some f =>
    rw [hf] at hstep
    dsimp only at hstep
    split_ifs at hstep
    · exact hfunction hstep
    · exact addToFunction_uncounted hserves h hf hstep
  | none =>
    rw [hf] at hstep
    dsimp only at hstep
    split_ifs at hstep
    · exact hfunction hstep
    · obtain rfl := Except.ok.inj hstep
      exact h

/-- No records of a file do. -/
theorem run_uncounted (v : Version) (f : Framing) : (f.run (step v) {}).1.Uncounted :=
  (f.run_invariant (P := fun p : NotesProgress => p.files.Serves p.routines ∧ p.Uncounted)
    (fun _ _ _ h hstep => ⟨step_serves h.1 hstep, step_uncounted h.1 h.2 hstep⟩)
    ⟨FileTable.serves_nil, fun _ hf => absurd hf List.not_mem_nil⟩).2

end NotesProgress

namespace Profile

variable {p : Profile}

/-- **Nothing is counted.** -/
def Uncounted (p : Profile) : Prop := ∀ f ∈ p.routines, f.flow.uncounted = f.flow

/-- **Notes bring no counts.** -/
theorem readNotes_uncounted {bytes : List UInt8} (h : (readNotes {} bytes).failure = none) :
    (readNotes {} bytes).profile.Uncounted := by
  rcases readNotes_cases {} bytes with ⟨e, skipped, hread⟩ | ⟨v, stamp, c, progress, -, hrun, hread⟩
  · rw [hread] at h
    cases h
  · have huncounted := NotesProgress.run_uncounted v (Record.all c)
    have hserves := NotesProgress.run_serves v (Record.all c)
    rw [hrun] at huncounted hserves
    rw [hread]
    intro f hf
    obtain ⟨g, hg, rfl⟩ := List.mem_map.1 hf
    have hsolved := FlowGraph.solve_of_uncounted (hserves.routine g hg).flow (huncounted g hg)
    exact (congrArg FlowGraph.uncounted hsolved).trans ((huncounted g hg).trans hsolved.symm)

/-! ## Counts of lines -/

theorem Uncounted.flowOf (h : p.Uncounted) (i : Nat) :
    (p.flowOf i).uncounted = p.flowOf i := by
  unfold Profile.flowOf
  cases hf : p.routines[i]? with
  | none => rfl
  | some f => exact h f (List.mem_iff_getElem?.2 ⟨i, hf⟩)

theorem Uncounted.count_blockOf (h : p.Uncounted) (id : BlockId) : (p.blockOf id).count = 0 := by
  rw [blockOf, FlowGraph.block, List.getD_eq_getElem?_getD]
  cases hb : (p.flowOf id.routine).blocks[id.block]? with
  | none => rfl
  | some b =>
    exact FlowGraph.count_blocks_of_uncounted (h.flowOf id.routine) b
      (List.mem_iff_getElem?.2 ⟨id.block, hb⟩)

theorem Uncounted.entering (h : p.Uncounted) (line : SourceLine) (id : BlockId) :
    ∀ c ∈ p.entering line id, c = 0 := by
  unfold Profile.entering
  dsimp only
  split_ifs
  · intro c hc
    rw [List.mem_singleton.1 hc]
    exact h.count_blockOf id
  · intro c hc
    obtain ⟨a, ha, rfl⟩ := List.mem_map.1 hc
    obtain ⟨i, -, hi⟩ := List.mem_filterMap.1 (List.mem_of_mem_filter ha)
    exact FlowGraph.count_arcs_of_uncounted (h.flowOf id.routine) a
      (List.mem_iff_getElem?.2 ⟨i, hi⟩)

theorem foldl_eq_zero {op : Count → Count → Count} (hop : op 0 0 = 0) {counts : List Count}
    (h : ∀ c ∈ counts, c = 0) : counts.foldl op 0 = 0 := by
  induction counts with
  | nil => rfl
  | cons c counts ih =>
    rw [List.foldl_cons, h c List.mem_cons_self, hop]
    exact ih fun d hd => h d (List.mem_cons_of_mem c hd)

/-- **Without counts, no line ran.** -/
theorem Uncounted.lineCount (h : p.Uncounted) (line : SourceLine) (blocks : List BlockId) :
    p.lineCount line blocks = 0 := by
  have hflow : Count.total (blocks.flatMap (p.entering line)) = 0 :=
    foldl_eq_zero rfl fun c hc => by
      obtain ⟨id, -, hid⟩ := List.mem_flatMap.1 hc
      exact h.entering line id c hid
  have hbusiest : busiest (blocks.map fun id => (p.blockOf id).count) = 0 :=
    foldl_eq_zero rfl fun c hc => by
      obtain ⟨id, -, rfl⟩ := List.mem_map.1 hc
      exact h.count_blockOf id
  simp only [Profile.lineCount, hflow, if_true, hbusiest]

theorem Uncounted.count_line (h : p.Uncounted) {options : Options} {group : FileGroup}
    (hgroup : group ∈ p.fileGroups options) : ∀ l ∈ group.lines, l.count = 0 := by
  obtain ⟨⟨path, file⟩, -, rfl⟩ := List.mem_map.1 (List.mem_of_mem_filter hgroup)
  intro l hl
  obtain ⟨n, -, rfl⟩ := List.mem_map.1 hl
  exact h.lineCount _ _

/-- Covered lines are numbered from one. -/
theorem line_pos_of_mem_fileGroups (hserves : p.files.Serves p.routines) {options : Options}
    {group : FileGroup} (hgroup : group ∈ p.fileGroups options) : ∀ l ∈ group.lines, 1 ≤ l.line := by
  obtain ⟨⟨path, file⟩, -, rfl⟩ := List.mem_map.1 (List.mem_of_mem_filter hgroup)
  intro l hl
  obtain ⟨n, hn, rfl⟩ := List.mem_map.1 hl
  obtain ⟨line, hline, rfl⟩ := List.mem_map.1 (Order.mem_ascending.1 hn)
  obtain ⟨f, hf, hflow⟩ := List.mem_flatMap.1 (List.mem_of_mem_filter hline)
  exact (hserves.routine f hf).line_pos line hflow

end Profile

/-! ## Reports -/

namespace FileGroup

/-- **What a group knows of its lines,** if none of them ran. -/
theorem ofLine?_line? {group : FileGroup} (h : ∀ l ∈ group.lines, l.count = 0) (n : Nat) :
    Mark.ofLine? (group.line? n) =
      if n ∈ group.lines.map LineGroup.line then .ran 0 else .uncovered := by
  rw [line?]
  cases hfound : group.lines.find? fun l => l.line == n with
  | none =>
    have hnone : n ∉ group.lines.map LineGroup.line := by
      intro hn
      obtain ⟨l, hl, rfl⟩ := List.mem_map.1 hn
      exact List.find?_eq_none.1 hfound l hl (beq_self_eq_true l.line)
    rw [if_neg hnone]
    rfl
  | some l =>
    have hl := List.mem_of_find?_eq_some hfound
    have hline := List.find?_some hfound
    rw [if_pos (List.mem_map.2 ⟨l, hl, eq_of_beq hline⟩), Mark.ofLine?, h l hl]

end FileGroup

namespace Annotated

variable {options : Options} {p : Profile} {group : FileGroup} {source : List String} {n : Nat}
  {mark : Mark} {text : Option String}

theorem source_notMem_number (line : Nat) (before ds : List Detail) :
    Row.source n mark text ∉ number line before ds := by
  induction ds generalizing before with
  | nil => exact List.not_mem_nil
  | cons d ds ih => exact List.not_mem_cons_of_ne_of_not_mem Row.noConfusion (ih _)

/-- **The rows of source lines,** one for every line that has one. -/
theorem source_mem_body {lines : List Nat} {functions : List Routine} :
    Row.source n mark text ∈ body options p group source lines functions ↔
      n ∈ lines ∧ mark = .ofLine? (group.line? n) ∧ text = source[n - 1]? := by
  induction lines generalizing functions with
  | nil => simp [body]
  | cons line lines ih =>
    have hfunctions (fs : List Routine) : Row.source n mark text ∉
        if options.branchProbabilities then fs.map (functionRow options) else [] := by
      split_ifs
      · intro hmem
        obtain ⟨_, -, hrow⟩ := List.mem_map.1 hmem
        exact Row.noConfusion hrow
      · exact List.not_mem_nil
    have hrow : Row.source n mark text ∈ lineRows options p group source line ↔
        n = line ∧ mark = .ofLine? (group.line? n) ∧ text = source[n - 1]? := by
      rw [lineRows, List.mem_cons, or_iff_left (source_notMem_number line _ _), Row.source.injEq]
      constructor <;> (rintro ⟨rfl, h⟩; exact ⟨rfl, h⟩)
    rw [body, List.mem_append, List.mem_append, or_iff_right (hfunctions _), hrow, ih,
      List.mem_cons, or_and_right]

theorem source_mem_rows {origin : Provenance} :
    Row.source n mark text ∈ rows options p group source origin ↔
      n ∈ listed p group source.length ∧ mark = .ofLine? (group.line? n) ∧ text = source[n - 1]? := by
  have hheaders : Row.source n mark text ∉ headers group.display origin := by simp [headers]
  rw [rows, List.mem_append, or_iff_right hheaders, source_mem_body]

/-- Every covered line has a row, also past the end of the source. -/
theorem mem_listed {l : LineGroup} (hl : l ∈ group.lines) (hpos : 1 ≤ l.line) (length : Nat) :
    l.line ∈ listed p group length := by
  rw [listed, List.mem_append, List.mem_range'_1]
  rcases Nat.lt_or_ge length l.line with hpast | hwithin
  · refine .inr (Order.mem_ascending.2 (List.mem_filter.2 ⟨?_, decide_eq_true hpast⟩))
    exact List.mem_append_left _ (List.mem_map_of_mem hl)
  · exact .inl ⟨hpos, by omega⟩

end Annotated

namespace Intermediate

variable {options : Options} {p : Profile} {group : FileGroup}

/-- **The entries of lines,** one for every line that is covered. -/
theorem line_mem_entries {n : Nat} {count : Count} :
    .line n count ∈ entries options p group ↔ ∃ l ∈ group.lines, l.line = n ∧ l.count = count := by
  constructor
  · intro hentry
    rcases List.mem_append.1 hentry with hhead | hlines
    · simp [functionEntry] at hhead
    · obtain ⟨l, hl, hentry⟩ := List.mem_flatMap.1 hlines
      rcases List.mem_cons.1 hentry with hline | hbranch
      · obtain ⟨rfl, rfl⟩ := Entry.line.inj hline
        exact ⟨l, hl, rfl, rfl⟩
      · obtain ⟨_, -, hbranch⟩ := List.mem_map.1 hbranch
        exact Entry.noConfusion hbranch
  · rintro ⟨l, hl, rfl, rfl⟩
    exact List.mem_append_right _ (List.mem_flatMap.2 ⟨l, hl, List.mem_cons_self⟩)

end Intermediate

/-- **Reports on a file that never ran:** every covered line has a row with the mark `#####`, and an
entry with count zero; no line has another count. It is so written, and nothing else is read off the lines
of both. -/
structure FileGroup.ShownUnexecuted (group : FileGroup) (p : Profile) (options : Options) : Prop where
  row : ∀ source origin, ∀ l ∈ group.lines, ∃ mark text, mark.text = "#####" ∧
    Row.source l.line mark text ∈ Annotated.rows options p group source origin
  mark : ∀ source origin n mark text,
    Row.source n mark text ∈ Annotated.rows options p group source origin →
      mark.text = if n ∈ group.lines.map LineGroup.line then "#####" else "-"
  entry : ∀ l ∈ group.lines, .line l.line 0 ∈ Intermediate.entries options p group
  count : ∀ n c, .line n c ∈ Intermediate.entries options p group → c = 0
  row_text : ∀ source origin, ∀ l ∈ group.lines, ∃ text,
    "    #####:" ++ Text.padNat 5 l.line ++ ":" ++ text ∈
      (Annotated.rows options p group source origin).map Row.text
  read_rows : ∀ source origin, ∀ line ∈
    ((Annotated.rows options p group source origin).map Row.text).filterMap Written.line?, line.2 = 0
  entry_text : ∀ l ∈ group.lines, "lcount:" ++ toString l.line ++ ",0" ∈
    (Intermediate.entries options p group).map Intermediate.Entry.text
  read_entries : ∀ line ∈
    ((Intermediate.entries options p group).map Intermediate.Entry.text).filterMap Written.listedLine?,
      line.2 = 0

/-- **Without counts, no report shows a line as executed.** -/
theorem Profile.Uncounted.shownUnexecuted {p : Profile} (h : p.Uncounted)
    (hserves : p.files.Serves p.routines) {options : Options} {group : FileGroup}
    (hgroup : group ∈ p.fileGroups options) : group.ShownUnexecuted p options := by
  have hcount := h.count_line hgroup
  have hpos := line_pos_of_mem_fileGroups hserves hgroup
  have hrow (source : List String) (origin : Provenance) {l : LineGroup} (hl : l ∈ group.lines) :
      Row.source l.line (.ran 0) source[l.line - 1]? ∈ Annotated.rows options p group source origin := by
    refine Annotated.source_mem_rows.2 ⟨Annotated.mem_listed hl (hpos l hl) source.length, ?_, rfl⟩
    rw [FileGroup.ofLine?_line? hcount, if_pos (List.mem_map_of_mem hl)]
  have hentry {l : LineGroup} (hl : l ∈ group.lines) :
      .line l.line 0 ∈ Intermediate.entries options p group :=
    Intermediate.line_mem_entries.2 ⟨l, hl, rfl, hcount l hl⟩
  refine
    { row := fun source origin l hl => ⟨.ran 0, _, rfl, hrow source origin hl⟩
      mark := fun source origin n mark text hsource => ?_
      entry := fun l hl => hentry hl
      count := fun n c hline => ?_
      row_text := fun source origin l hl => ⟨_, List.mem_map_of_mem (hrow source origin hl)⟩
      read_rows := fun source origin line hline => ?_
      entry_text := fun l hl => ?_
      read_entries := fun line hline => ?_ }
  · rw [(Annotated.source_mem_rows.1 hsource).2.1, FileGroup.ofLine?_line? hcount]
    split_ifs <;> rfl
  · obtain ⟨l, hl, -, rfl⟩ := Intermediate.line_mem_entries.1 hline
    exact hcount l hl
  · -- a line is read off the row of a count, and only zero is one
    rw [List.filterMap_map, List.mem_filterMap] at hline
    obtain ⟨row, hmem, hread⟩ := hline
    obtain ⟨n, count, text, rfl, rfl⟩ := Row.exists_of_counted? ((Written.line?_text row).symm.trans hread)
    have hmark := (Annotated.source_mem_rows.1 hmem).2.1
    rw [FileGroup.ofLine?_line? hcount] at hmark
    split_ifs at hmark
    rw [Mark.ran.inj hmark]
    rfl
  · refine List.mem_map.2 ⟨.line l.line 0, hentry hl, ?_⟩
    change "lcount:" ++ toString l.line ++ "," ++ "0" = _
    rw [String.append_assoc]
    rfl
  · rw [List.filterMap_map, List.mem_filterMap] at hline
    obtain ⟨entry, hmem, hread⟩ := hline
    have hentry := (Intermediate.Entry.listedLine?_text entry).symm.trans hread
    cases entry with
    | line n count =>
      obtain rfl := Option.some.inj hentry
      obtain ⟨l, hl, -, rfl⟩ := Intermediate.line_mem_entries.1 hmem
      rw [hcount l hl]
      rfl
    | _ => cases hentry

end ArcCoverage

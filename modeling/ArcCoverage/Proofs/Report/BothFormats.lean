/-
# Both formats tell the same

An annotated source and the intermediate format are written from the same group in different ways: one
goes along the lines of the source and those past its end, the other along the covered lines. The lines of
both are read back, and tell the same story (`Story`), that of the file:

| told | row | entry |
| --- | --- | --- |
| a covered line | a count that is not `-`; `#####` stands for zero | `lcount` |
| a function | `function` | `function` |
| a branch | `branch`, with `never executed`, `taken 0` or `taken 0%`, or more | `notexec`, `nottaken`, `taken` |

What is read off a line is what its row or its entry tells, so both are first compared as rows and entries.
That no covered line lacks a row, and none has two, is `Annotated.filterMap_line?_listed`. A function has
a row since a listed line is not before its start (`Annotated.exists_listed`). A share shows as zero only
if it is zero (`Taken.state_taken`).
-/
import ArcCoverage.Format.Draft
import ArcCoverage.Proofs.Profile.Merging
import ArcCoverage.Proofs.Report.CoveredLines
import ArcCoverage.Proofs.Report.ReadEntries
import ArcCoverage.Proofs.Report.ReadRows
import ArcCoverage.Proofs.Report.Unexecuted

namespace ArcCoverage

/-- Only a part that is nothing shows as zero. -/
theorem Percent.whole_eq_zero_iff {num den : Nat} :
    Percent.whole num den = 0 ↔ num = 0 ∨ den = 0 := by
  unfold Percent.whole
  split_ifs with hzero hall
  · simpa using hzero
  · simpa using hzero
  · have hpos : ¬ (num = 0 ∨ den = 0) := by simpa using hzero
    rw [iff_false_right hpos]
    omega

namespace Taken

/-- **A part that is not zero never shows as zero,** however small a share it is. -/
theorem state_taken (options : Options) {ran part whole : Count} (hle : part ≤ whole) :
    (Detail.taken options ran part whole).state = .ofCounts ran part := by
  have hwhole : Percent.whole part.toNat whole.toNat = 0 ↔ part = 0 := by
    have hpart : part.toNat = 0 ↔ part = 0 := by
      rw [← UInt64.toNat_inj]
      rfl
    have hle' : part.toNat ≤ whole.toNat := UInt64.le_iff_toNat_le.1 hle
    rw [← hpart, Percent.whole_eq_zero_iff]
    omega
  rw [Detail.taken, Intermediate.BranchState.ofCounts]
  by_cases hran : ran = 0
  · rw [if_pos hran, if_pos hran]
    rfl
  · rw [if_neg hran, if_neg hran]
    split_ifs with hcounts hpart hpart
    · exact if_pos hpart
    · exact if_neg hpart
    · exact if_pos (hwhole.2 hpart)
    · exact if_neg (mt hwhole.1 hpart)

end Taken

/-! ## Lines that have a row -/

namespace Annotated

variable {p : Profile} {options : Options} {group : FileGroup} {source : List String} {length : Nat}

/-- **No line has two rows.** -/
theorem pairwise_listed (p : Profile) (group : FileGroup) (length : Nat) :
    (listed p group length).Pairwise (· < ·) := by
  refine List.pairwise_append.2 ⟨List.pairwise_lt_range', Order.pairwise_ascending _, ?_⟩
  intro n hn m hm
  have hwithin := (List.mem_range'_1.1 hn).2
  have hpast : length < m := by
    simpa using (List.mem_filter.1 (Order.mem_ascending.1 hm)).2
  omega

/-- **The lines that have a row find all covered lines,** each once and in order. -/
theorem filterMap_line?_listed (h : p.Reachable) (hgroup : group ∈ p.fileGroups options)
    (length : Nat) : (listed p group length).filterMap group.line? = group.lines := by
  have hlisted : ((listed p group length).filterMap group.line?).Pairwise
      fun l l' => l.line < l'.line := by
    refine (pairwise_listed p group length).filterMap _ fun n n' hlt l hl l' hl' => ?_
    have hn : l.line = n := by simpa using List.find?_some hl
    have hn' : l'.line = n' := by simpa using List.find?_some hl'
    omega
  have hlines : group.lines.Pairwise fun l l' => l.line < l'.line :=
    List.pairwise_map.1 (Profile.pairwise_lines hgroup)
  have hmem (l : LineGroup) : l ∈ (listed p group length).filterMap group.line? ↔ l ∈ group.lines := by
    rw [List.mem_filterMap]
    constructor
    · rintro ⟨n, -, hfound⟩
      exact List.mem_of_find?_eq_some hfound
    · intro hl
      have hpos := Profile.line_pos_of_mem_fileGroups h.serves hgroup l hl
      exact ⟨l.line, mem_listed hl hpos length, Profile.line?_of_mem hgroup hl⟩
  have hnodup {ls : List LineGroup} (hls : ls.Pairwise fun l l' => l.line < l'.line) : ls.Nodup := by
    refine hls.imp ?_
    rintro l l' hlt rfl
    exact Nat.lt_irrefl _ hlt
  have hperm := (List.perm_ext_iff_of_nodup (hnodup hlisted) (hnodup hlines)).2 hmem
  refine hperm.eq_of_pairwise ?_ hlisted hlines
  intro l l' _ _ hlt hlt'
  omega

/-- **Every function has a row before which it can stand:** there is a line that has one, and if the
function starts past the end of the source, its start has. -/
theorem exists_listed (h : p.Reachable) (hgroup : group ∈ p.fileGroups options) {f : Routine}
    (hf : f ∈ group.starting p) (length : Nat) :
    ∃ line ∈ listed p group length, f.startLine ≤ line := by
  obtain ⟨-, -, -, -, hnonempty⟩ := Profile.exists_eq_fileGroup hgroup
  obtain ⟨l, hl⟩ := List.exists_mem_of_ne_nil _ hnonempty
  have hpos := Profile.line_pos_of_mem_fileGroups h.serves hgroup l hl
  rcases Nat.lt_or_ge length f.startLine with hpast | hwithin
  · refine ⟨f.startLine, List.mem_append_right _ (Order.mem_ascending.2 ?_), Nat.le_refl _⟩
    have hmem := List.mem_append_right (group.lines.map LineGroup.line)
      (List.mem_map_of_mem (f := Routine.startLine) hf)
    exact List.mem_filter.2 ⟨hmem, decide_eq_true hpast⟩
  · rcases Nat.eq_zero_or_pos f.startLine with hzero | hstart
    · exact ⟨l.line, mem_listed hl hpos length, by omega⟩
    · exact ⟨f.startLine, List.mem_append_left _ (List.mem_range'_1.2 ⟨hstart, by omega⟩), Nat.le_refl _⟩

/-! ## What all rows tell -/

section Rows

variable {α : Type} {r : Row → Option α}

/-- Rows without what is read off them. -/
theorem filterMap_eq_nil {rows : List Row} (h : ∀ row ∈ rows, r row = none) :
    rows.filterMap r = [] :=
  List.filterMap_eq_nil_iff.2 h

/-- Details are numbered, and stay what they are. -/
theorem filterMap_number {f : Nat → Detail → Option α} (hr : ∀ line n d, r (.detail line n d) = f line d)
    (line : Nat) (before ds : List Detail) :
    (number line before ds).filterMap r = ds.filterMap (f line) := by
  induction ds generalizing before with
  | nil => rfl
  | cons d ds ih =>
    rw [number, List.filterMap_cons, List.filterMap_cons, hr, ih]

/-- What no detail tells is told by the row of the line itself. -/
theorem filterMap_lineRows (hr : ∀ line n d, r (.detail line n d) = none) (line : Nat) :
    (lineRows options p group source line).filterMap r =
      (r (.source line (.ofLine? (group.line? line)) source[line - 1]?)).toList := by
  have hdetails : (number line [] (details options p group line)).filterMap r = [] :=
    (filterMap_number hr line [] _).trans (List.filterMap_none _)
  rw [lineRows, List.filterMap_cons, hdetails]
  cases r (.source line (.ofLine? (group.line? line)) source[line - 1]?) <;> rfl

/-- **What is not told by rows of functions** is told line by line. -/
theorem filterMap_body (hr : ∀ f, r (functionRow options f) = none) (lines : List Nat)
    (functions : List Routine) :
    (body options p group source lines functions).filterMap r =
      lines.flatMap fun line => (lineRows options p group source line).filterMap r := by
  induction lines generalizing functions with
  | nil => rfl
  | cons line lines ih =>
    have hnone (fs : List Routine) :
        (if options.branchProbabilities then fs.map (functionRow options) else []).filterMap r = [] := by
      refine filterMap_eq_nil fun row hrow => ?_
      split_ifs at hrow
      · obtain ⟨f, -, rfl⟩ := List.mem_map.1 hrow
        exact hr f
      · exact absurd hrow List.not_mem_nil
    rw [body, List.filterMap_append, List.filterMap_append, hnone, ih, List.nil_append,
      List.flatMap_cons]

/-- The rows at the head tell nothing of lines. -/
theorem filterMap_rows (hheader : ∀ label value, r (.header label value) = none) (options : Options)
    (p : Profile) (group : FileGroup) (source : List String) (origin : Provenance) :
    (rows options p group source origin).filterMap r =
      (body options p group source (listed p group source.length) (group.starting p)).filterMap r := by
  have hheaders : (headers group.display origin).filterMap r = [] := by
    simp [headers, hheader]
  rw [rows, List.filterMap_append, hheaders, List.nil_append]

/-- **What is told of covered lines only** is told line by line, in their order. -/
theorem filterMap_rows_lines (h : p.Reachable) (hgroup : group ∈ p.fileGroups options)
    {options' : Options} {origin : Provenance} {g : LineGroup → List α}
    (hheader : ∀ label value, r (.header label value) = none)
    (hfunction : ∀ f, r (functionRow options' f) = none)
    (hline : ∀ n, (lineRows options' p group source n).filterMap r = (group.line? n).elim [] g) :
    (rows options' p group source origin).filterMap r = group.lines.flatMap g := by
  have hfound (ns : List Nat) :
      (ns.flatMap fun n => (group.line? n).elim [] g) = (ns.filterMap group.line?).flatMap g := by
    induction ns with
    | nil => rfl
    | cons n ns ih =>
      rw [List.flatMap_cons, ih, List.filterMap_cons]
      cases group.line? n <;> rfl
  rw [filterMap_rows hheader, filterMap_body hfunction]
  simp only [hline]
  rw [hfound, filterMap_line?_listed h hgroup]

/-- Of functions in order, those that are left over begin later. -/
theorem lt_startLine_of_mem_dropWhile {line : Nat} {functions : List Routine}
    (hsorted : functions.Pairwise fun f f' => f.startLine ≤ f'.startLine) {f : Routine}
    (hf : f ∈ functions.dropWhile fun f => f.startLine ≤ line) : line < f.startLine := by
  induction functions with
  | nil => exact absurd hf List.not_mem_nil
  | cons g gs ih =>
    obtain ⟨hg, hgs⟩ := List.pairwise_cons.1 hsorted
    by_cases hbegun : g.startLine ≤ line
    · rw [List.dropWhile_cons_of_pos (by simpa using hbegun)] at hf
      exact ih hgs hf
    · rw [List.dropWhile_cons_of_neg (by simpa using hbegun)] at hf
      rcases List.mem_cons.1 hf with rfl | hf
      · omega
      · have := hg f hf
        omega

/-- What begins behind a line can stand before one of those after it. -/
theorem exists_line_of_later {line : Nat} {lines : List Nat} {functions : List Routine}
    (hsorted : functions.Pairwise fun f f' => f.startLine ≤ f'.startLine)
    (hbefore : ∀ f ∈ functions, ∃ n ∈ line :: lines, f.startLine ≤ n) {f : Routine}
    (hf : f ∈ functions.dropWhile fun f => f.startLine ≤ line) : ∃ n ∈ lines, f.startLine ≤ n := by
  obtain ⟨n, hn, hle⟩ := hbefore f ((List.dropWhile_sublist _).subset hf)
  have hlt := lt_startLine_of_mem_dropWhile hsorted hf
  rcases List.mem_cons.1 hn with rfl | hn
  · omega
  · exact ⟨n, hn, hle⟩

/-- **Functions are told of one after the other,** if each can stand before some line. -/
theorem filterMap_body_functions (hoptions : options.branchProbabilities = true)
    (hline : ∀ n, (lineRows options p group source n).filterMap r = []) {lines : List Nat}
    {functions : List Routine}
    (hsorted : functions.Pairwise fun f f' => f.startLine ≤ f'.startLine)
    (hbefore : ∀ f ∈ functions, ∃ line ∈ lines, f.startLine ≤ line) :
    (body options p group source lines functions).filterMap r =
      (functions.map (functionRow options)).filterMap r := by
  induction lines generalizing functions with
  | nil =>
    cases functions with
    | nil => rfl
    | cons f fs =>
      obtain ⟨line, hline, -⟩ := hbefore f List.mem_cons_self
      exact absurd hline List.not_mem_nil
  | cons line lines ih =>
    let begun := functions.takeWhile fun f => f.startLine ≤ line
    let later := functions.dropWhile fun f => f.startLine ≤ line
    have hsplit : begun ++ later = functions := List.takeWhile_append_dropWhile
    have hlater := @ih later (hsorted.sublist (List.dropWhile_sublist _))
      fun f hf => exists_line_of_later hsorted hbefore hf
    rw [body, if_pos hoptions, List.filterMap_append, List.filterMap_append, hline, List.append_nil,
      hlater, ← List.filterMap_append, ← List.map_append, hsplit]

end Rows

end Annotated

/-! ## Branches of a block -/

theorem Count.le_total {c : Count} {counts : List Count} (hc : c ∈ counts) : c ≤ Count.total counts := by
  have hexact : c.toNat ≤ Count.exactTotal counts := by
    induction counts with
    | nil => exact absurd hc List.not_mem_nil
    | cons d counts ih =>
      rw [Count.exactTotal_cons]
      rcases List.mem_cons.1 hc with rfl | hc
      · omega
      · have := ih hc
        omega
  have hlimit := c.toNat_le_limit
  rw [UInt64.le_iff_toNat_le, Count.toNat_total]
  omega

namespace Detail

/-- The branches that a block shows. -/
def branches (options : Options) (g : FlowGraph) (b : Nat) : List Taken :=
  (ofBlock options g b).filterMap branch?

/-- **Both formats show the same branches of a block,** with the same states. -/
theorem map_state_branches {options : Options} (hoptions : options.branchProbabilities = true)
    (g : FlowGraph) (b : Nat) :
    (branches options g b).map Taken.state = Intermediate.branchStates g b := by
  have hblock : (if options.allBlocks then [block b (g.block b).count] else []).filterMap branch? =
      [] := by
    split_ifs <;> rfl
  have hcall : (ofCall options g b).filterMap branch? = [] := by
    unfold ofCall
    dsimp only
    split_ifs <;> rfl
  rw [branches, ofBlock, if_pos hoptions, List.filterMap_append, List.filterMap_append, hblock, hcall,
    List.nil_append, List.nil_append, ofArcs, Intermediate.branchStates]
  cases harcs : g.realOutArcs b with
  | nil => rfl
  | cons a arcs =>
    cases arcs with
    | nil =>
      -- A single arc is no branch, shown or not.
      have hone : [a].length < 2 := Nat.lt_succ_self 1
      rw [if_pos hone]
      dsimp only
      split_ifs <;> rfl
    | cons a' arcs =>
      have htwo : ¬ (a :: a' :: arcs).length < 2 := by simp
      rw [if_neg htwo, List.filterMap_map, List.map_filterMap]
      refine (List.filterMap_congr fun c hc => ?_).trans (congrFun List.filterMap_eq_map _)
      have hle := Count.le_total (List.mem_map_of_mem (f := Arc.count) hc)
      exact congrArg some (Taken.state_taken options hle)

end Detail

namespace FileGroup

/-- The branches that the annotated source shows at a line. -/
def branchesAt (options : Options) (p : Profile) (group : FileGroup) (l : LineGroup) : List Taken :=
  (group.attributed p l).flatMap fun id => Detail.branches options (p.flowOf id.routine) id.block

/-- The branches that the intermediate format shows at a line. -/
def statesAt (p : Profile) (group : FileGroup) (l : LineGroup) : List Intermediate.BranchState :=
  (group.attributed p l).flatMap fun id =>
    Intermediate.branchStates (p.flowOf id.routine) id.block

theorem map_state_branchesAt {options : Options} (hoptions : options.branchProbabilities = true)
    (p : Profile) (group : FileGroup) (l : LineGroup) :
    (group.branchesAt options p l).map Taken.state = group.statesAt p l := by
  rw [branchesAt, statesAt, List.map_flatMap]
  simp only [Detail.map_state_branches hoptions]

end FileGroup

/-! ## Both formats -/

/-- The same options, but branches are shown. -/
def Options.showingBranches (options : Options) : Options := { options with branchProbabilities := true }

theorem Symbol.shown_showingBranches (options : Options) (name : String) :
    Symbol.shown options.showingBranches name = Symbol.shown options name := by
  unfold Symbol.shown Options.showingBranches
  rfl

namespace Annotated

variable {p : Profile} {options : Options} {group : FileGroup} {source : List String}
  {origin : Provenance}

/-- **What is told of counts** is told of the covered lines. -/
theorem filterMap_rows_counts {α : Type} {r : Row → Option α} {g : Nat → Count → α} (h : p.Reachable)
    (hgroup : group ∈ p.fileGroups options) (options' : Options) (source : List String)
    (origin : Provenance) (hheader : ∀ label value, r (.header label value) = none)
    (hfunction : ∀ f, r (functionRow options' f) = none)
    (hdetail : ∀ line n d, r (.detail line n d) = none)
    (huncovered : ∀ n text, r (.source n .uncovered text) = none)
    (hran : ∀ n count text, r (.source n (.ran count) text) = some (g n count)) :
    (rows options' p group source origin).filterMap r =
      group.lines.map fun l => g l.line l.count := by
  have hline (n : Nat) : (lineRows options' p group source n).filterMap r =
      (group.line? n).elim [] fun l => [g l.line l.count] := by
    rw [filterMap_lineRows hdetail]
    cases hfound : group.line? n with
    | none => rw [Mark.ofLine?, huncovered, Option.elim_none, Option.toList_none]
    | some l =>
      have hn : l.line = n := by simpa using List.find?_some hfound
      rw [Mark.ofLine?, hran, Option.elim_some, Option.toList_some, hn]
  exact (filterMap_rows_lines h hgroup hheader hfunction hline).trans List.map_eq_flatMap.symm

theorem filterMap_branch?_lineRows (options : Options) (p : Profile) (group : FileGroup)
    (source : List String) (n : Nat) :
    (lineRows options p group source n).filterMap Row.branch? =
      (group.line? n).elim [] fun l =>
        (group.branchesAt options p l).map fun taken => (l.line, taken) := by
  rw [lineRows, List.filterMap_cons]
  change (number n [] (details options p group n)).filterMap Row.branch? = _
  rw [filterMap_number (f := fun line d => d.branch?.map fun taken => (line, taken)) fun _ _ _ => rfl,
    details]
  cases hfound : group.line? n with
  | none => rfl
  | some l =>
    have hline : l.line = n := by simpa using List.find?_some hfound
    rw [Option.elim_some, FileGroup.branchesAt, hline, List.filterMap_flatMap, List.map_flatMap]
    simp only [Detail.branches, List.map_filterMap]

/-- The branches of all rows, line by line. -/
theorem filterMap_branch?_rows (h : p.Reachable) (hgroup : group ∈ p.fileGroups options)
    (options' : Options) (source : List String) (origin : Provenance) :
    (rows options' p group source origin).filterMap Row.branch? =
      group.lines.flatMap fun l =>
        (group.branchesAt options' p l).map fun taken => (l.line, taken) :=
  filterMap_rows_lines h hgroup (fun _ _ => rfl) (fun _ => rfl)
    (filterMap_branch?_lineRows options' p group source)

/-- The covered lines of all rows, with their counts as they are written. -/
theorem filterMap_line?_rows (h : p.Reachable) (hgroup : group ∈ p.fileGroups options)
    (options' : Options) (source : List String) (origin : Provenance) :
    (rows options' p group source origin).filterMap Row.line? =
      group.lines.map fun l => (l.line, l.count.shown) :=
  filterMap_rows_counts (g := fun n count => (n, count.shown)) h hgroup options' source origin
    (fun _ _ => rfl) (fun _ => rfl) (fun _ _ _ => rfl) (fun _ _ => rfl)
    fun _ count _ => if_neg (Mark.text_ran_ne count)

theorem filterMap_counted?_rows (h : p.Reachable) (hgroup : group ∈ p.fileGroups options)
    (options' : Options) (source : List String) (origin : Provenance) :
    (rows options' p group source origin).filterMap Row.counted? =
      group.lines.map fun l => (l.line, l.count.toNat) :=
  filterMap_rows_counts (g := fun n count => (n, count.toNat)) h hgroup options' source origin
    (fun _ _ => rfl) (fun _ => rfl) (fun _ _ _ => rfl) (fun _ _ => rfl) fun _ _ _ => rfl

/-- The functions of all rows. -/
theorem filterMap_function?_rows (h : p.Reachable) (hgroup : group ∈ p.fileGroups options)
    {options' : Options} (hoptions : options'.branchProbabilities = true) (source : List String)
    (origin : Provenance) :
    (rows options' p group source origin).filterMap Row.function? =
      (group.starting p).map fun f => (Symbol.shown options' f.name, f.flow.entryCount) := by
  have hline (n : Nat) : (lineRows options' p group source n).filterMap Row.function? = [] :=
    filterMap_lineRows (fun _ _ _ => rfl) n
  rw [filterMap_rows fun _ _ => rfl, filterMap_body_functions hoptions hline
    (Profile.pairwise_starting hgroup) fun f hf => exists_listed h hgroup hf source.length,
    List.filterMap_map]
  exact congrFun List.filterMap_eq_map _

/-- The lines of all rows. -/
theorem filterMap_number?_rows (options : Options) (p : Profile) (group : FileGroup)
    (source : List String) (origin : Provenance) :
    (rows options p group source origin).filterMap Row.number? = listed p group source.length := by
  have hline (n : Nat) : (lineRows options p group source n).filterMap Row.number? = [n] :=
    filterMap_lineRows (fun _ _ _ => rfl) n
  rw [filterMap_rows fun _ _ => rfl, filterMap_body fun _ => rfl]
  simp only [hline]
  exact List.flatMap_singleton' _

/-- The numbers in front of all rows, of which those at the head are zero. -/
theorem map_fst_marked?_rows (options : Options) (p : Profile) (group : FileGroup)
    (source : List String) (origin : Provenance) :
    ((rows options p group source origin).filterMap Row.marked?).map Prod.fst =
      List.replicate 5 0 ++ listed p group source.length := by
  have hline (n : Nat) : (lineRows options p group source n).filterMap Row.marked? =
      [(n, (Mark.ofLine? (group.line? n)).text)] :=
    filterMap_lineRows (fun _ _ _ => rfl) n
  rw [rows, List.filterMap_append, filterMap_body fun _ => rfl, List.map_append, List.map_flatMap]
  simp only [hline]
  exact congrArg (List.replicate 5 0 ++ ·) (List.flatMap_singleton' _)

end Annotated

namespace Intermediate

variable {p : Profile} {options : Options} {group : FileGroup}

section Entries

variable {α : Type} {r : Entry → Option α}

/-- What entries tell, functions first and then line by line. -/
theorem filterMap_entries (hfile : ∀ path, r (.file path) = none) (options : Options) (p : Profile)
    (group : FileGroup) :
    (entries options p group).filterMap r =
      ((group.starting p).map (functionEntry options)).filterMap r ++
        group.lines.flatMap fun l => (lineEntries p group l).filterMap r := by
  rw [entries, List.cons_append, List.filterMap_cons, hfile, List.filterMap_append,
    List.filterMap_flatMap]

end Entries

/-- The branches of all entries, line by line. -/
theorem filterMap_branch?_entries (options : Options) (p : Profile) (group : FileGroup) :
    (entries options p group).filterMap Entry.branch? =
      group.lines.flatMap fun l => (group.statesAt p l).map fun state => (l.line, state) := by
  have hfunctions : ((group.starting p).map (functionEntry options)).filterMap Entry.branch? = [] := by
    simp [functionEntry, Entry.branch?]
  have hline (l : LineGroup) : (lineEntries p group l).filterMap Entry.branch? =
      (group.statesAt p l).map fun state => (l.line, state) := by
    rw [lineEntries, List.filterMap_cons, ← FileGroup.statesAt]
    exact List.filterMap_map.trans (congrFun List.filterMap_eq_map _)
  rw [filterMap_entries (fun _ => rfl), hfunctions, List.nil_append]
  simp only [hline]

theorem filterMap_line?_entries (options : Options) (p : Profile) (group : FileGroup) :
    (entries options p group).filterMap Entry.line? =
      group.lines.map fun l => (l.line, l.count) := by
  have hfunctions : ((group.starting p).map (functionEntry options)).filterMap Entry.line? = [] := by
    simp [functionEntry, Entry.line?]
  have hline (l : LineGroup) : (lineEntries p group l).filterMap Entry.line? = [(l.line, l.count)] := by
    simp [lineEntries, Entry.line?]
  rw [filterMap_entries (fun _ => rfl), hfunctions, List.nil_append]
  simp only [hline]
  exact List.map_eq_flatMap.symm

theorem filterMap_function?_entries (options : Options) (p : Profile) (group : FileGroup) :
    (entries options p group).filterMap Entry.function? =
      (group.starting p).map fun f => (Symbol.shown options f.name, f.flow.entryCount) := by
  have hline (l : LineGroup) : (lineEntries p group l).filterMap Entry.function? = [] := by
    rw [lineEntries, List.filterMap_cons, List.filterMap_map]
    exact List.filterMap_none _
  rw [filterMap_entries (fun _ => rfl)]
  simp [hline, functionEntry, Entry.function?, Function.comp_def]

end Intermediate

/-! ## Stories -/

/-- **What a report tells of a file.** -/
structure Story where
  /-- The covered lines, and the count of each. -/
  lines : List (Nat × Nat)
  /-- The functions, and how often each was entered. -/
  functions : List (String × Nat)
  /-- The branches, line by line, and what became of each. -/
  branches : List (Nat × Intermediate.BranchState)
  deriving DecidableEq, Repr

namespace Story

/-- The story that the lines of an annotated source tell. -/
def ofAnnotated (texts : List String) : Story where
  lines := texts.filterMap Written.line?
  functions := texts.filterMap Written.function?
  branches := (Written.numbered 0 texts).filterMap Written.branch?

/-- The story that the lines of the intermediate format tell. -/
def ofIntermediate (texts : List String) : Story where
  lines := texts.filterMap Written.listedLine?
  functions := texts.filterMap Written.listedFunction?
  branches := texts.filterMap Written.listedBranch?

end Story

namespace FileGroup

/-- The story of a file. -/
def story (options : Options) (p : Profile) (group : FileGroup) : Story where
  lines := group.lines.map fun l => (l.line, l.count.toNat)
  functions := (group.starting p).map fun f =>
    (Symbol.shown options f.name, f.flow.entryCount.toNat)
  branches := group.lines.flatMap fun l => (group.statesAt p l).map fun state => (l.line, state)

variable {p : Profile} {options : Options} {group : FileGroup}

/-- **An annotated source tells the story of its file.** -/
theorem ofAnnotated_text (h : p.Reachable) (hgroup : group ∈ p.fileGroups options)
    (source : List String) (origin : Provenance) :
    Story.ofAnnotated ((Annotated.rows options.showingBranches p group source origin).map Row.text) =
      group.story options p := by
  have hshown : options.showingBranches.branchProbabilities = true := rfl
  rw [Story.ofAnnotated, story, Story.mk.injEq]
  refine ⟨?_, ?_, ?_⟩
  · rw [List.filterMap_map, funext (f := Written.line? ∘ Row.text) Written.line?_text]
    exact Annotated.filterMap_counted?_rows h hgroup _ source origin
  · rw [List.filterMap_map, funext (f := Written.function? ∘ Row.text) Written.function?_text,
      ← List.map_filterMap, Annotated.filterMap_function?_rows h hgroup hshown, List.map_map]
    simp only [Symbol.shown_showingBranches]
    rfl
  · rw [Annotated.numbered_rows, List.filterMap_filterMap, funext Written.branch?_numbered,
      ← List.map_filterMap, Annotated.filterMap_branch?_rows h hgroup, List.map_flatMap]
    refine List.flatMap_congr fun l _ => ?_
    rw [← map_state_branchesAt hshown p group l, List.map_map, List.map_map]
    rfl

/-- **So does a listing.** -/
theorem ofIntermediate_text (options : Options) (p : Profile) (group : FileGroup) :
    Story.ofIntermediate ((Intermediate.entries options p group).map Intermediate.Entry.text) =
      group.story options p := by
  rw [Story.ofIntermediate, story, Story.mk.injEq]
  refine ⟨?_, ?_, ?_⟩
  · rw [List.filterMap_map,
      funext (f := Written.listedLine? ∘ Intermediate.Entry.text) Intermediate.Entry.listedLine?_text,
      ← List.map_filterMap, Intermediate.filterMap_line?_entries, List.map_map]
    rfl
  · rw [List.filterMap_map,
      funext (f := Written.listedFunction? ∘ Intermediate.Entry.text) Intermediate.Entry.listedFunction?_text,
      ← List.map_filterMap, Intermediate.filterMap_function?_entries, List.map_map]
    rfl
  · rw [List.filterMap_map,
      funext (f := Written.listedBranch? ∘ Intermediate.Entry.text) Intermediate.Entry.listedBranch?_text]
    exact Intermediate.filterMap_branch?_entries options p group

end FileGroup

/-- **Both formats tell the same of a file.** The texts of both are lines from which the same story is
read: the story of the file, with

* the covered lines, each with its count, which are those whose count is not `-`;
* the functions, in the same order, with the same names and entry counts;
* the branches, line by line, and what became of each.

No line is written twice in front of the source: behind the head of the annotated text its numbers
increase. Rows and entries agree in the same way. -/
theorem FileGroup.formats_agree {p : Profile} (h : p.Reachable) {options : Options}
    {group : FileGroup} (hgroup : group ∈ p.fileGroups options) (source : List String)
    (origin : Provenance) :
    let rows := Annotated.rows options.showingBranches p group source origin
    let entries := Intermediate.entries options p group
    let annotated := rows.map Row.text
    let listing := entries.map Intermediate.Entry.text
    Annotated.text options.showingBranches p group source origin = Text.unlines annotated ∧
      Intermediate.text options p [group] = Text.unlines listing ∧
      Story.ofAnnotated annotated = group.story options p ∧
      Story.ofIntermediate listing = group.story options p ∧
      (annotated.filterMap Written.source?).map Prod.fst =
        List.replicate 5 0 ++ rows.filterMap Row.number? ∧
      (rows.filterMap Row.number?).Pairwise (· < ·) ∧
      rows.filterMap Row.line? =
        (entries.filterMap Intermediate.Entry.line?).map (fun (n, count) => (n, count.shown)) ∧
      rows.filterMap Row.function? = entries.filterMap Intermediate.Entry.function? ∧
      (rows.filterMap Row.branch?).map (fun (n, taken) => (n, taken.word)) =
        (entries.filterMap Intermediate.Entry.branch?).map fun (n, state) => (n, state.text) := by
  intro rows entries annotated listing
  have hnumbers : rows.filterMap Row.number? = Annotated.listed p group source.length :=
    Annotated.filterMap_number?_rows _ p group source origin
  have hlines : rows.filterMap Row.line? = group.lines.map fun l => (l.line, l.count.shown) :=
    Annotated.filterMap_line?_rows h hgroup _ source origin
  have hshown : options.showingBranches.branchProbabilities = true := rfl
  have hfunctions := Annotated.filterMap_function?_rows h hgroup hshown source origin
  have hbranches := Annotated.filterMap_branch?_rows h hgroup options.showingBranches source origin
  refine ⟨rfl, ?_, ofAnnotated_text h hgroup source origin, ofIntermediate_text options p group,
    ?_, ?_, ?_, ?_, ?_⟩
  · rw [Intermediate.text, List.flatMap_singleton]
  · rw [List.filterMap_map, funext (f := Written.source? ∘ Row.text) Written.source?_text, hnumbers]
    exact Annotated.map_fst_marked?_rows _ p group source origin
  · rw [hnumbers]
    exact Annotated.pairwise_listed p group source.length
  · rw [hlines, Intermediate.filterMap_line?_entries, List.map_map]
    rfl
  · rw [hfunctions, Intermediate.filterMap_function?_entries]
    simp only [Symbol.shown_showingBranches]
  · rw [hbranches, Intermediate.filterMap_branch?_entries, List.map_flatMap, List.map_flatMap]
    refine List.flatMap_congr fun l _ => ?_
    rw [← FileGroup.map_state_branchesAt hshown p group l, List.map_map, List.map_map, List.map_map]
    exact List.map_congr_left fun taken _ => congrArg (Prod.mk l.line) taken.word_eq

/-- Notes of a function with a branch, and of one that starts past the end of a short source. -/
def Profile.branchingNotes : Draft :=
  let first := ((((((Draft.notes ⟨0x34, 0x30, 0x37, 0x2a⟩).function 1 5 6 "f" "a.c" 0).blocks 4).arcs 0
    [⟨1, 0⟩]).arcs 1 [⟨2, 0⟩, ⟨3, 0⟩]).arcs 2 [⟨3, 1⟩]).lines 1 "a.c" [1, 2]
  (((((first.lines 2 "a.c" [4]).function 2 5 6 "g" "a.c" 7).blocks 3).arcs 0 [⟨1, 1⟩]).arcs 1
    [⟨2, 0⟩]).lines 1 "a.c" [8]

/-- Data that count the arcs of the first. -/
def Profile.branchingData (counters : List Count) : Draft :=
  ((Draft.data ⟨0x34, 0x30, 0x37, 0x2a⟩).dataFunction 1 5 6).arcCounters counters

/-- The profile of both. -/
def Profile.ofBranching (counters : List Count) : Profile :=
  (({} : Profile).readNotes branchingNotes.encode).profile.readAll [(branchingData counters).encode]

theorem Profile.reachable_ofBranching (counters : List Count) : (ofBranching counters).Reachable :=
  (Reachable.notes .start branchingNotes.encode).readAll [(branchingData counters).encode]

/-- **Of a branch that is taken once in a thousand times,** beside a source of two lines. -/
theorem FileGroup.formats_agree_ofBranching :
    let p := Profile.ofBranching [1000, 1, 999]
    let group := p.fileGroup {} "a.c" 0
    let rows := Annotated.rows { branchProbabilities := true } p group ["int x;", "f"]
      ⟨"a.gcno", "a.gcda", 1, 1⟩
    let entries := Intermediate.entries {} p group
    let annotated := rows.map Row.text
    let listing := entries.map Intermediate.Entry.text
    annotated.drop 5 =
        ["function f called 1000 returned 100% blocks executed 100%", "     1000:    1:int x;",
          "     1000:    2:f", "branch  0 taken 1%", "branch  1 taken 99%", "        1:    4:/*EOF*/",
          "function g called 0 returned 0% blocks executed 0%", "        -:    7:/*EOF*/",
          "    #####:    8:/*EOF*/"] ∧
      listing =
        ["file:a.c", "function:0,1000,f", "function:7,0,g", "lcount:1,1000", "lcount:2,1000",
          "branch:2,taken", "branch:2,taken", "lcount:4,1", "lcount:8,0"] ∧
      Story.ofAnnotated annotated = Story.ofIntermediate listing ∧
      (annotated.filterMap Written.source?).map Prod.fst = [0, 0, 0, 0, 0, 1, 2, 4, 7, 8] ∧
      rows.filterMap Row.line? =
        (entries.filterMap Intermediate.Entry.line?).map (fun (n, count) => (n, count.shown)) ∧
      rows.filterMap Row.function? = entries.filterMap Intermediate.Entry.function? ∧
      rows.filterMap Row.branch? = [(2, .percent 1), (2, .percent 99)] ∧
      (rows.filterMap Row.branch?).map (fun (n, taken) => (n, taken.word)) =
        (entries.filterMap Intermediate.Entry.branch?).map fun (n, state) => (n, state.text) := by
  intro p group rows entries annotated listing
  have hgroup : group ∈ p.fileGroups {} := by decide +kernel
  obtain ⟨-, -, hannotated, hlisting, hnumbers, -, hlines, hfunctions, hbranches⟩ :=
    FileGroup.formats_agree (Profile.reachable_ofBranching [1000, 1, 999]) hgroup ["int x;", "f"]
      ⟨"a.gcno", "a.gcda", 1, 1⟩
  exact ⟨by decide +kernel, by decide +kernel, hannotated.trans hlisting.symm,
    hnumbers.trans (by decide +kernel), hlines, hfunctions, by decide +kernel, hbranches⟩

end ArcCoverage

/-
# Summaries of files and of functions

The summary of a file goes by lines: a line ran if flow enters it, and the branches and calls of a
block belong to its last line. The summary of a function goes by blocks: a line ran if a block on it
did. If blocks run as often as they are entered (`FlowGraph.CountsEntries`), both are the same where
they speak of the same code (`FileGroup.BelongsTo`):

| part | by lines | by blocks |
| --- | --- | --- |
| lines | line numbers of the file | distinct lines of the blocks |
| lines that ran | those that flow enters | distinct lines of the blocks that ran |
| branches and calls | blocks shown at some line | blocks that carry code |

The second row is `Profile.lineCount_eq_zero_iff`: flow that enters a line runs the block that it
enters, and if none enters the busiest block speaks for the line. The other two rest on
`FileGroup.BelongsTo.covers_iff`, which says what a block on a line of the file is.
-/
import ArcCoverage.Proofs.Flow.Balance
import ArcCoverage.Proofs.Report.Attribution
import ArcCoverage.Proofs.Report.BranchTotals

namespace ArcCoverage

/-! ## Counts that are zero -/

theorem Profile.busiest_eq_zero_iff {counts : List Count} :
    Profile.busiest counts = 0 ↔ ∀ c ∈ counts, c = 0 := by
  have hmax (a b : Count) : max a b = 0 ↔ a = 0 ∧ b = 0 := by
    change (if a ≤ b then b else a) = 0 ↔ _
    rw [← UInt64.toNat_inj, ← UInt64.toNat_inj, ← UInt64.toNat_inj, UInt64.toNat_zero]
    split_ifs with hle
    · rw [UInt64.le_iff_toNat_le] at hle
      omega
    · rw [UInt64.le_iff_toNat_le] at hle
      omega
  have hfold (a : Count) : counts.foldl max a = 0 ↔ a = 0 ∧ ∀ c ∈ counts, c = 0 := by
    induction counts generalizing a with
    | nil => simp
    | cons c counts ih => rw [List.foldl_cons, ih, hmax, List.forall_mem_cons, and_assoc]
  rw [Profile.busiest, hfold, and_iff_right rfl]

/-- **Blocks run as often as they are entered,** if anything enters them. -/
def FlowGraph.CountsEntries (g : FlowGraph) : Prop :=
  ∀ b ∈ g.blocks, b.inArcs ≠ [] → b.count = Count.total ((g.arcsOf b.inArcs).map Arc.count)

/-! ## Lines that ran -/

namespace Profile

variable {p : Profile} {line : SourceLine} {id : BlockId}

/-- **A block of the profile covers a line.** -/
def Covers (p : Profile) (id : BlockId) (line : SourceLine) : Prop :=
  id.Exists p ∧ line ∈ (p.blockOf id).lines

theorem mem_blocksOn : id ∈ p.blocksOn line ↔ p.Covers id line := by
  rw [blocksOn, List.mem_filter, mem_blockIds, Covers, Block.isOn, List.contains_iff_mem]

theorem mem_sourceLines : line ∈ p.sourceLines ↔ ∃ id, p.Covers id line := by
  constructor
  · intro hline
    obtain ⟨f, hf, hline⟩ := List.mem_flatMap.1 hline
    obtain ⟨b, hb, hline⟩ := List.mem_flatMap.1 hline
    obtain ⟨i, hi⟩ := List.mem_iff_getElem?.1 hf
    obtain ⟨n, hn⟩ := List.mem_iff_getElem?.1 hb
    have hblock : p.blockOf ⟨i, n⟩ = b := by
      simp [blockOf, flowOf, hi, FlowGraph.block, List.getD_eq_getElem?_getD, hn]
    refine ⟨⟨i, n⟩, ⟨f, hi, (List.getElem?_eq_some_iff.1 hn).1⟩, ?_⟩
    rw [hblock]
    exact hline
  · rintro ⟨id, hid, hline⟩
    exact mem_sourceLines_of_isOn hid (by simpa [Block.isOn] using hline)

/-- The flow graph of a block that exists is that of a function. -/
theorem exists_flowOf (hid : id.Exists p) :
    ∃ f ∈ p.routines, p.flowOf id.routine = f.flow ∧ p.blockOf id ∈ f.flow.blocks := by
  obtain ⟨f, hf, hblock⟩ := hid
  have hflow : p.flowOf id.routine = f.flow := by
    rw [flowOf, hf]
    rfl
  refine ⟨f, List.mem_iff_getElem?.2 ⟨_, hf⟩, hflow, ?_⟩
  rw [blockOf, hflow]
  exact List.mem_iff_getElem?.2 ⟨id.block, FlowGraph.getElem?_blocks hblock⟩

/-- **No flow enters a line at a block that did not run.** -/
theorem entering_eq_zero (hcounts : ∀ f ∈ p.routines, f.flow.CountsEntries) (hid : id.Exists p)
    (hzero : (p.blockOf id).count = 0) : ∀ c ∈ p.entering line id, c = 0 := by
  obtain ⟨f, hf, hflow, hmem⟩ := exists_flowOf hid
  intro c hc
  unfold entering at hc
  dsimp only at hc
  rw [← blockOf] at hc
  split_ifs at hc with hin
  · rw [List.mem_singleton.1 hc, hzero]
  · -- the arc that brings the flow is one of those that the block's count sums up
    obtain ⟨a, ha, rfl⟩ := List.mem_map.1 hc
    have harc := List.mem_map_of_mem (f := Arc.count) (List.mem_filter.1 ha).1
    have hsum := hcounts f hf _ hmem fun hnil => hin (List.isEmpty_iff.2 hnil)
    rw [hzero, ← hflow] at hsum
    exact Count.total_eq_zero_iff.1 hsum.symm _ harc

/-- **A line did not run exactly if none of its blocks did.** -/
theorem lineCount_eq_zero_iff (hcounts : ∀ f ∈ p.routines, f.flow.CountsEntries)
    {blocks : List BlockId} (hblocks : ∀ id ∈ blocks, id.Exists p) :
    p.lineCount line blocks = 0 ↔ ∀ id ∈ blocks, (p.blockOf id).count = 0 := by
  unfold lineCount
  dsimp only
  constructor
  · intro hnone
    split_ifs at hnone with hflow
    · exact List.forall_mem_map.1 (busiest_eq_zero_iff.1 hnone)
    · exact absurd hnone hflow
  · intro hzero
    have hflow : Count.total (blocks.flatMap (p.entering line)) = 0 := by
      refine Count.total_eq_zero_iff.2 fun c hc => ?_
      obtain ⟨id, hid, hc⟩ := List.mem_flatMap.1 hc
      exact entering_eq_zero hcounts (hblocks id hid) (hzero id hid) c hc
    rw [if_pos hflow]
    exact busiest_eq_zero_iff.2 (List.forall_mem_map.2 hzero)

end Profile

/-! ## The lines of a file -/

namespace FileGroup

variable {p : Profile} {options : Options} {group : FileGroup} {l : LineGroup}

/-- The line of a group, in its file. -/
def sourceLine (group : FileGroup) (l : LineGroup) : SourceLine := ⟨group.file, l.line⟩

/-- **A line of a group** is what is known of a covered line of its file. -/
theorem mem_lines_iff (hgroup : group ∈ p.fileGroups options) :
    l ∈ group.lines ↔ ∃ n, (⟨group.file, n⟩ : SourceLine) ∈ p.sourceLines ∧
      l = p.lineGroup ⟨group.file, n⟩ := by
  obtain ⟨path, file, -, rfl, -⟩ := Profile.exists_eq_fileGroup hgroup
  change l ∈ (p.lineNumbers file).map _ ↔ _
  rw [List.mem_map]
  constructor
  · rintro ⟨n, hn, rfl⟩
    exact ⟨n, Profile.mem_lineNumbers.1 hn, rfl⟩
  · rintro ⟨n, hn, rfl⟩
    exact ⟨n, Profile.mem_lineNumbers.2 hn, rfl⟩

/-- The blocks of a line of a group are those that cover it. -/
theorem mem_blocks_iff (hgroup : group ∈ p.fileGroups options) (hl : l ∈ group.lines)
    {id : BlockId} : id ∈ l.blocks ↔ p.Covers id (group.sourceLine l) := by
  obtain ⟨n, -, rfl⟩ := (mem_lines_iff hgroup).1 hl
  exact Profile.mem_blocksOn

/-- **A line of a group ran exactly if a block that covers it did.** -/
theorem count_pos_iff (hcounts : ∀ f ∈ p.routines, f.flow.CountsEntries)
    (hgroup : group ∈ p.fileGroups options) (hl : l ∈ group.lines) :
    0 < l.count ↔ ∃ id, p.Covers id (group.sourceLine l) ∧ 0 < (p.blockOf id).count := by
  obtain ⟨n, -, rfl⟩ := (mem_lines_iff hgroup).1 hl
  have hcovers {id : BlockId} : id ∈ p.blocksOn ⟨group.file, n⟩ ↔
      p.Covers id (group.sourceLine (p.lineGroup ⟨group.file, n⟩)) := Profile.mem_blocksOn
  have hexists : ∀ id ∈ p.blocksOn ⟨group.file, n⟩, id.Exists p := fun id hid =>
    (Profile.mem_blocksOn.1 hid).1
  have hzero : p.lineCount ⟨group.file, n⟩ (p.blocksOn ⟨group.file, n⟩) = 0 ↔
      ∀ id ∈ p.blocksOn ⟨group.file, n⟩, (p.blockOf id).count = 0 :=
    Profile.lineCount_eq_zero_iff hcounts hexists
  simp only [UInt64.pos_iff_ne_zero, ← hcovers]
  change p.lineCount ⟨group.file, n⟩ (p.blocksOn ⟨group.file, n⟩) ≠ 0 ↔ _
  rw [ne_eq, hzero]
  simp

theorem nodup_sourceLines (hgroup : group ∈ p.fileGroups options) :
    (group.lines.map group.sourceLine).Nodup := by
  have hnumbers := (Profile.pairwise_lines hgroup).imp Nat.ne_of_lt
  rw [List.pairwise_map] at hnumbers
  exact List.pairwise_map.2 (hnumbers.imp fun hne heq => hne (SourceLine.mk.inj heq).2)

theorem mem_map_sourceLine (hgroup : group ∈ p.fileGroups options) {line : SourceLine} :
    line ∈ group.lines.map group.sourceLine ↔ line.file = group.file ∧ line ∈ p.sourceLines := by
  rw [List.mem_map]
  constructor
  · rintro ⟨l, hl, rfl⟩
    obtain ⟨n, hn, rfl⟩ := (mem_lines_iff hgroup).1 hl
    exact ⟨rfl, hn⟩
  · rintro ⟨hfile, hline⟩
    obtain ⟨file, n⟩ := line
    obtain rfl : file = group.file := hfile
    exact ⟨_, (mem_lines_iff hgroup).2 ⟨n, hline, rfl⟩, rfl⟩

/-! ## A file of one function -/

/-- **A file that belongs to one function:** only blocks of the function that carry code cover its
lines, every such block covers a line, and the function has lines in no other file. So its first
block and those that nothing leaves cover no line. -/
structure BelongsTo (group : FileGroup) (p : Profile) (i : Nat) (f : Routine) : Prop where
  routine : p.routines[i]? = some f
  carries_code : ∀ id line, p.Covers id line → line.file = group.file →
    id.routine = i ∧ f.flow.isBody id.block = true
  lines_ne_nil : ∀ b ∈ f.flow.bodyBlocks, (f.flow.block b).lines ≠ []
  file_eq : ∀ line ∈ f.flow.lines, line.file = group.file

variable {i : Nat} {f : Routine}

theorem BelongsTo.flowOf_eq (h : group.BelongsTo p i f) : p.flowOf i = f.flow := by
  rw [Profile.flowOf, h.routine]
  rfl

theorem lt_of_isBody {g : FlowGraph} {b : Nat} (h : g.isBody b = true) : b < g.blocks.length := by
  rw [FlowGraph.isBody, Bool.and_eq_true, Bool.not_eq_true', List.isEmpty_eq_false_iff] at h
  by_contra hpast
  refine h.2 ?_
  rw [FlowGraph.block, List.getD_eq_getElem?_getD, List.getElem?_eq_none (by omega)]
  rfl

theorem mem_bodyBlocks {g : FlowGraph} {b : Nat} : b ∈ g.bodyBlocks ↔ g.isBody b = true := by
  rw [FlowGraph.bodyBlocks, List.mem_filter, List.mem_range]
  exact and_iff_right_of_imp lt_of_isBody

/-- **What covers a line of the file** is a block of the function that carries code. -/
theorem BelongsTo.covers_iff (h : group.BelongsTo p i f) {id : BlockId} {line : SourceLine} :
    line.file = group.file ∧ p.Covers id line ↔
      id.routine = i ∧ id.block ∈ f.flow.bodyBlocks ∧ line ∈ (f.flow.block id.block).lines := by
  rw [mem_bodyBlocks]
  constructor
  · rintro ⟨hfile, hcovers⟩
    obtain ⟨rfl, hbody⟩ := h.carries_code id line hcovers hfile
    have hline := hcovers.2
    rw [Profile.blockOf, h.flowOf_eq] at hline
    exact ⟨rfl, hbody, hline⟩
  · rintro ⟨rfl, hbody, hline⟩
    have hlt := lt_of_isBody hbody
    have hmem : line ∈ f.flow.lines :=
      List.mem_flatMap.2 ⟨_, List.mem_iff_getElem?.2 ⟨_, FlowGraph.getElem?_blocks hlt⟩, hline⟩
    refine ⟨h.file_eq line hmem, ⟨f, h.routine, hlt⟩, ?_⟩
    rw [Profile.blockOf, h.flowOf_eq]
    exact hline

theorem BelongsTo.covers (h : group.BelongsTo p i f) {b : Nat} {line : SourceLine}
    (hbody : b ∈ f.flow.bodyBlocks) (hline : line ∈ (f.flow.block b).lines) :
    line.file = group.file ∧ p.Covers ⟨i, b⟩ line :=
  h.covers_iff.2 ⟨rfl, hbody, hline⟩

/-- The lines of the file are those of the function's blocks. -/
theorem BelongsTo.mem_linesOfBlocks (h : group.BelongsTo p i f)
    (hgroup : group ∈ p.fileGroups options) {line : SourceLine} :
    line ∈ group.lines.map group.sourceLine ↔
      line ∈ Summary.linesOfBlocks f.flow f.flow.bodyBlocks := by
  rw [mem_map_sourceLine hgroup, Profile.mem_sourceLines, Summary.linesOfBlocks, List.mem_flatMap]
  constructor
  · rintro ⟨hfile, id, hcovers⟩
    obtain ⟨-, hbody, hline⟩ := h.covers_iff.1 ⟨hfile, hcovers⟩
    exact ⟨id.block, hbody, hline⟩
  · rintro ⟨b, hbody, hline⟩
    obtain ⟨hfile, hcovers⟩ := h.covers hbody hline
    exact ⟨hfile, ⟨i, b⟩, hcovers⟩

/-- The lines of the file that ran are those of the function's blocks that did. -/
theorem BelongsTo.mem_linesOfBlocks_ran (h : group.BelongsTo p i f)
    (hcounts : ∀ f ∈ p.routines, f.flow.CountsEntries) (hgroup : group ∈ p.fileGroups options)
    {line : SourceLine} :
    line ∈ (group.lines.filter fun l => l.count != 0).map group.sourceLine ↔
      line ∈ Summary.linesOfBlocks f.flow
        (f.flow.bodyBlocks.filter fun b => (f.flow.block b).count != 0) := by
  have hran {c : Count} : (c != 0) = true ↔ 0 < c := by rw [bne_iff_ne, UInt64.pos_iff_ne_zero]
  rw [List.mem_map, Summary.linesOfBlocks, List.mem_flatMap]
  simp only [List.mem_filter, hran]
  constructor
  · rintro ⟨l, ⟨hl, hpos⟩, rfl⟩
    obtain ⟨id, hcovers, hblock⟩ := (count_pos_iff hcounts hgroup hl).1 hpos
    obtain ⟨rfl, hbody, hline⟩ := h.covers_iff.1 ⟨rfl, hcovers⟩
    rw [Profile.blockOf, h.flowOf_eq] at hblock
    exact ⟨id.block, ⟨hbody, hblock⟩, hline⟩
  · rintro ⟨b, ⟨hbody, hblock⟩, hline⟩
    obtain ⟨hfile, hcovers⟩ := h.covers hbody hline
    have hmem := (mem_map_sourceLine hgroup).2 ⟨hfile, Profile.mem_sourceLines.2 ⟨_, hcovers⟩⟩
    obtain ⟨l, hl, rfl⟩ := List.mem_map.1 hmem
    refine ⟨l, ⟨hl, (count_pos_iff hcounts hgroup hl).2 ⟨⟨i, b⟩, hcovers, ?_⟩⟩, rfl⟩
    rw [Profile.blockOf, h.flowOf_eq]
    exact hblock

/-! ## The blocks that are shown -/

theorem nodup_shown (hgroup : group ∈ p.fileGroups options) : (group.shown p).Nodup := by
  refine List.nodup_flatMap.2 ⟨fun l hl => ?_, ?_⟩
  · obtain ⟨n, -, rfl⟩ := (mem_lines_iff hgroup).1 hl
    exact ((Profile.nodup_blockIds p).filter _).filter _
  · -- a block is shown at its last line, so no two lines show it
    refine (List.pairwise_map.1 (Profile.pairwise_lines hgroup)).imp ?_
    intro l l' hlt id hid hid'
    have hlast := (Bool.and_eq_true_iff.1 (List.mem_filter.1 hid).2).2
    have hlast' := (Bool.and_eq_true_iff.1 (List.mem_filter.1 hid').2).2
    rw [beq_iff_eq] at hlast hlast'
    have hsame := (SourceLine.mk.inj (Option.some.inj (hlast.symm.trans hlast'))).2
    omega

/-- **The blocks that are shown** are those of the function that carry code. -/
theorem BelongsTo.perm_shown (h : group.BelongsTo p i f) (hgroup : group ∈ p.fileGroups options) :
    (group.shown p).Perm (f.flow.bodyBlocks.map (BlockId.mk i)) := by
  have hbodies : (f.flow.bodyBlocks.map (BlockId.mk i)).Nodup :=
    (List.nodup_range.filter _).map fun b b' heq => (BlockId.mk.inj heq).2
  refine (List.perm_ext_iff_of_nodup (nodup_shown hgroup) hbodies).2 fun id => ?_
  rw [shown, List.mem_flatMap, List.mem_map]
  constructor
  · rintro ⟨l, hl, hid⟩
    obtain ⟨hmem, -⟩ := List.mem_filter.1 hid
    have hcovers := (mem_blocks_iff hgroup hl).1 hmem
    obtain ⟨rfl, hbody, -⟩ := h.covers_iff.1 ⟨rfl, hcovers⟩
    exact ⟨id.block, hbody, rfl⟩
  · rintro ⟨b, hbody, rfl⟩
    have hne := h.lines_ne_nil b hbody
    obtain ⟨hfile, hcovers⟩ := h.covers hbody (List.getLast_mem hne)
    have hmem := (mem_map_sourceLine hgroup).2 ⟨hfile, Profile.mem_sourceLines.2 ⟨_, hcovers⟩⟩
    obtain ⟨l, hl, hlast⟩ := List.mem_map.1 hmem
    rw [← hlast] at hcovers
    refine ⟨l, hl, List.mem_filter.2 ⟨(mem_blocks_iff hgroup hl).2 hcovers, ?_⟩⟩
    rw [isAttributed, Bool.and_eq_true, beq_iff_eq, Profile.blockOf, h.flowOf_eq]
    refine ⟨mem_bodyBlocks.1 hbody, ?_⟩
    change (f.flow.block b).lines.getLast? = some (group.sourceLine l)
    rw [hlast, List.getLast?_eq_getLast_of_ne_nil hne]

end FileGroup

/-! ## Both summaries -/

namespace Summary

variable {p : Profile} {options : Options} {group : FileGroup} {i : Nat} {f : Routine}

/-- **What the lines of a file add.** -/
theorem sum_ofLine (lines : List LineGroup) : (lines.map ofLine).sum =
    { lines := lines.length, linesExecuted := (lines.filter fun l => l.count != 0).length } := by
  induction lines with
  | nil => rfl
  | cons l lines ih =>
    rw [List.map_cons, List.sum_cons, ih]
    change plus _ _ = _
    by_cases hl : l.count = 0
    · simp [plus, ofLine, hl, Nat.add_comm]
    · simp [plus, ofLine, hl, Nat.add_comm]

theorem linesExecuted_ofBlock (g : FlowGraph) (b : Nat) : (ofBlock g b).linesExecuted = 0 := by
  have hcalls : (callsOfBlock g b).linesExecuted = 0 := by
    rw [callsOfBlock]
    split <;> rfl
  have hbranches : (branchesOfBlock g b).linesExecuted = 0 := by
    rw [branchesOfBlock]
    split <;> rfl
  rw [ofBlock, plus, hcalls, hbranches]

/-- Lines and blocks in one summary. -/
theorem lines_add_eq {blocks : Summary} (hlines : blocks.lines = 0)
    (hran : blocks.linesExecuted = 0) (m n : Nat) :
    ({ lines := m, linesExecuted := n } : Summary) + blocks =
      { blocks with lines := m, linesExecuted := n } := by
  change plus _ _ = _
  simp [plus, hlines, hran]

theorem nodup_distinct (lines : List SourceLine) : (distinct lines).Nodup := by
  induction lines with
  | nil => exact List.nodup_nil
  | cons line lines ih => exact ih.insert

theorem mem_distinct {lines : List SourceLine} {line : SourceLine} :
    line ∈ distinct lines ↔ line ∈ lines := by
  induction lines with
  | nil => rfl
  | cons first lines ih =>
    change line ∈ List.insert first (distinct lines) ↔ _
    rw [List.mem_insert_iff, List.mem_cons, ih]

/-- There are as many distinct lines as in a list of the same lines without repetition. -/
theorem length_distinct {lines lines' : List SourceLine} (hnodup : lines'.Nodup)
    (hmem : ∀ line, line ∈ lines' ↔ line ∈ lines) : (distinct lines).length = lines'.length := by
  refine List.Perm.length_eq ((List.perm_ext_iff_of_nodup (nodup_distinct lines) hnodup).2 ?_)
  intro line
  rw [mem_distinct, hmem]

/-- **A file of one function has its summary.** -/
theorem ofFile_eq_ofFlow (hcounts : ∀ f ∈ p.routines, f.flow.CountsEntries)
    (hgroup : group ∈ p.fileGroups options) (h : group.BelongsTo p i f) :
    ofFile p group = ofFlow f.flow := by
  have hblocks : ((group.shown p).map (ofId p)).sum =
      (f.flow.bodyBlocks.map (ofBlock f.flow)).sum := by
    rw [((h.perm_shown hgroup).map (ofId p)).sum_eq, List.map_map]
    refine congrArg List.sum (List.map_congr_left fun b _ => ?_)
    change ofBlock (p.flowOf i) b = _
    rw [h.flowOf_eq]
  have hlines : (distinct (linesOfBlocks f.flow f.flow.bodyBlocks)).length = group.lines.length := by
    rw [length_distinct (FileGroup.nodup_sourceLines hgroup) fun _ => h.mem_linesOfBlocks hgroup,
      List.length_map]
  have hran : (distinct (linesOfBlocks f.flow
      (f.flow.bodyBlocks.filter fun b => (f.flow.block b).count != 0))).length =
        (group.lines.filter fun l => l.count != 0).length := by
    have hnodup : ((group.lines.filter fun l => l.count != 0).map group.sourceLine).Nodup :=
      (List.filter_sublist.map group.sourceLine).nodup (FileGroup.nodup_sourceLines hgroup)
    rw [length_distinct hnodup fun _ => h.mem_linesOfBlocks_ran hcounts hgroup, List.length_map]
  have hnoLines : ∀ part ∈ f.flow.bodyBlocks.map (ofBlock f.flow),
      part.lines = 0 ∧ part.linesExecuted = 0 := by
    intro part hpart
    obtain ⟨b, -, rfl⟩ := List.mem_map.1 hpart
    exact ⟨lines_ofBlock f.flow b, linesExecuted_ofBlock f.flow b⟩
  have hsum := lines_add_eq
    (value_sum_eq_zero (f := Summary.lines) rfl (fun _ _ => rfl) fun part hp => (hnoLines part hp).1)
    (value_sum_eq_zero (f := Summary.linesExecuted) rfl (fun _ _ => rfl)
      fun part hp => (hnoLines part hp).2)
    group.lines.length (group.lines.filter fun l => l.count != 0).length
  calc ofFile p group
    _ = (group.lines.map ofLine).sum + ((group.shown p).map (ofId p)).sum := ofFile_eq p group
    _ = { (f.flow.bodyBlocks.map (ofBlock f.flow)).sum with
          lines := group.lines.length
          linesExecuted := (group.lines.filter fun l => l.count != 0).length } := by
      rw [hblocks, sum_ofLine, hsum]
    _ = ofFlow f.flow := by rw [ofFlow, hlines, hran, sum_eq]

/-- **Both summaries agree.** If blocks run as often as they are entered, a covered line ran exactly
if a block that covers it did, and a file that belongs to one function has the function's summary. -/
theorem summaries_agree (hcounts : ∀ f ∈ p.routines, f.flow.CountsEntries)
    (hgroup : group ∈ p.fileGroups options) :
    (∀ l ∈ group.lines, 0 < l.count ↔
      ∃ id, p.Covers id (group.sourceLine l) ∧ 0 < (p.blockOf id).count) ∧
      ∀ i f, group.BelongsTo p i f → ofFile p group = ofFlow f.flow :=
  ⟨fun _ hl => FileGroup.count_pos_iff hcounts hgroup hl,
    fun _ _ h => ofFile_eq_ofFlow hcounts hgroup h⟩

end Summary

/-- Notes of a function with a loop, whose blocks share a line and list it more than once. -/
def Profile.loopingNotes : Draft :=
  (((((((Draft.notes ⟨0x34, 0x30, 0x37, 0x2a⟩).function 1 5 6 "f" "a.c" 1).blocks 4).arcs 0
    [⟨1, 1⟩]).arcs 1 [⟨2, 0⟩, ⟨3, 0⟩]).arcs 2 [⟨1, 1⟩]).lines 1 "a.c" [1, 2, 1]).lines 2 "a.c" [2, 3, 2]

/-- The profile of one run that passes the loop five times. -/
def Profile.ofLooping : Profile :=
  ((({} : Profile).readNotes loopingNotes.encode).profile.readData
    (((Draft.data ⟨0x34, 0x30, 0x37, 0x2a⟩).dataFunction 1 5 6).arcCounters [5, 1]).encode).profile

/-- **Of a loop within a line:** three lines and one branch, by either way. -/
theorem Summary.summaries_agree_ofLooping :
    let p := Profile.ofLooping
    let group := p.fileGroup {} "a.c" 0
    p.Reachable ∧ group ∈ p.fileGroups {} ∧
      (∀ l ∈ group.lines, 0 < l.count ↔
        ∃ id, p.Covers id (group.sourceLine l) ∧ 0 < (p.blockOf id).count) ∧
      ∃ f, group.BelongsTo p 0 f ∧ ofFile p group = ofFlow f.flow ∧
        ofFlow f.flow = ⟨3, 3, 2, 2, 2, 0, 0⟩ := by
  intro p group
  have hreachable : p.Reachable := .data (.notes .start _) _
  have hgroup : group ∈ p.fileGroups {} := by decide +kernel
  have hcounts : ∀ f ∈ p.routines, f.flow.CountsEntries := by
    unfold FlowGraph.CountsEntries
    decide +kernel
  obtain ⟨f, hf⟩ : ∃ f, p.routines[0]? = some f := Option.isSome_iff_exists.1 (by decide +kernel)
  have hflow : f.flow = p.flowOf 0 := by
    rw [Profile.flowOf, hf]
    rfl
  have hcovers : ∀ id ∈ p.blockIds, ∀ line ∈ (p.blockOf id).lines,
      id.routine = 0 ∧ (p.flowOf 0).isBody id.block = true := by decide +kernel
  have hbelongs : group.BelongsTo p 0 f := by
    refine ⟨hf, ?_, ?_, ?_⟩ <;> rw [hflow]
    · intro id line h _
      exact hcovers id (Profile.mem_blockIds.2 h.1) line h.2
    · decide +kernel
    · decide +kernel
  obtain ⟨hlines, hfile⟩ := summaries_agree hcounts hgroup
  refine ⟨hreachable, hgroup, hlines, f, hbelongs, hfile 0 f hbelongs, ?_⟩
  rw [hflow]
  decide +kernel

end ArcCoverage

/-
# Every block is shown once

The branches and calls of a block are shown at its last line. `Profile.shownBlocks` lists, file by file
and line by line, what is shown where. A block that carries code and covers a line is in it once, with
its last line, and no other block is (`count_shownBlocks`): neither a line that a block covers twice, nor
lines in several files, nor blocks of several functions on one line make a difference.

So the blocks that are shown are those that carry code and cover a line, in another order
(`Profile.perm_carriers`), and the total of all files is that of all blocks
(`Profile.attribution_exact`).
-/
import ArcCoverage.Proofs.Report.Totals
import Mathlib.Data.Finset.Card

namespace ArcCoverage

namespace Profile

variable {p : Profile} {options : Options} {line : SourceLine} {id : BlockId}

/-! ## Blocks -/

theorem mem_blockIds : id ∈ p.blockIds ↔ id.Exists p := by
  refine ⟨Checked.exists_of_mem_blockIds, ?_⟩
  rintro ⟨f, hf, hblock⟩
  exact List.mem_flatMap.2 ⟨(f, id.routine), List.mem_zipIdx_iff_getElem?.2 hf,
    List.mem_map.2 ⟨id.block, List.mem_range.2 hblock, rfl⟩⟩

theorem nodup_blockIds (p : Profile) : p.blockIds.Nodup := by
  refine List.nodup_flatMap.2 ⟨fun v _ => ?_, ?_⟩
  · exact List.nodup_range.map fun b b' h => (BlockId.mk.inj h).2
  · have hnumbers : (p.routines.zipIdx.map Prod.snd).Nodup := by
      rw [List.zipIdx_map_snd]
      exact List.nodup_range'
    refine (List.pairwise_map.1 hnumbers).imp fun {v v'} hne id hid hid' => ?_
    obtain ⟨b, -, rfl⟩ := List.mem_map.1 hid
    obtain ⟨b', -, heq⟩ := List.mem_map.1 hid'
    exact hne (BlockId.mk.inj heq).1.symm

/-- A block carries code if it is not the first and something leaves it. -/
theorem isBody_iff : (p.flowOf id.routine).isBody id.block = true ↔
    id.block ≠ 0 ∧ (p.blockOf id).outArcs ≠ [] := by
  simp [FlowGraph.isBody, blockOf]

/-- A block that something leaves exists. -/
theorem exists_of_outArcs_ne_nil (h : (p.blockOf id).outArcs ≠ []) : id.Exists p := by
  rw [blockOf, flowOf] at h
  cases hf : p.routines[id.routine]? with
  | none =>
    rw [hf] at h
    exact absurd rfl h
  | some f =>
    rw [hf] at h
    refine ⟨f, hf, Nat.lt_of_not_le fun hpast => h ?_⟩
    have hnone : f.flow.blocks[id.block]? = none := List.getElem?_eq_none hpast
    simp [FlowGraph.block, List.getD_eq_getElem?_getD, hnone]

/-- The last line of a block is one that it covers. -/
theorem isOn_of_lastLine? {b : Block} (h : b.lastLine? = some line) : b.isOn line = true := by
  have hmem : line ∈ b.lines := List.mem_of_getLast? h
  simpa [Block.isOn] using hmem

theorem mem_sourceLines_of_isOn (hid : id.Exists p) (h : (p.blockOf id).isOn line = true) :
    line ∈ p.sourceLines := by
  obtain ⟨f, hf, hblock⟩ := hid
  have hflow : p.flowOf id.routine = f.flow := by
    rw [flowOf, hf]
    rfl
  have hmem : (p.blockOf id) ∈ f.flow.blocks := by
    rw [blockOf, hflow]
    exact List.mem_iff_getElem?.2 ⟨id.block, FlowGraph.getElem?_blocks hblock⟩
  have hline : line ∈ (p.blockOf id).lines := by simpa [Block.isOn] using h
  exact List.mem_flatMap.2 ⟨f, List.mem_iff_getElem?.2 ⟨id.routine, hf⟩,
    List.mem_flatMap.2 ⟨_, hmem, hline⟩⟩

/-! ## What is shown where -/

/-- **What is shown where:** the blocks whose branches and calls a report shows, each with the line at
which it does, in the order of the report. -/
def shownBlocks (p : Profile) (options : Options) : List (SourceLine × BlockId) :=
  (p.fileGroups options).flatMap fun group => group.lines.flatMap fun l =>
    (group.attributed p l).map fun id => (⟨group.file, l.line⟩, id)

/-- What is shown, by line. -/
theorem shownBlocks_eq (hall : options.relativeOnly = false) :
    p.shownBlocks options = p.coveredLines.flatMap fun line =>
      ((p.blocksOn line).filter (FileGroup.isAttributed p line)).map fun id => (line, id) := by
  have h := flatMap_fileGroups (p := p) hall fun file l =>
    (l.blocks.filter (FileGroup.isAttributed p ⟨file, l.line⟩)).map fun id =>
      ((⟨file, l.line⟩ : SourceLine), id)
  exact h

theorem nodup_shownBlocks (hall : options.relativeOnly = false) : (p.shownBlocks options).Nodup := by
  rw [shownBlocks_eq hall]
  refine List.nodup_flatMap.2 ⟨fun line _ => ?_, ?_⟩
  · have hblocks := ((nodup_blockIds p).filter fun id => (p.blockOf id).isOn line).filter
      (FileGroup.isAttributed p line)
    exact hblocks.map fun id id' h => (Prod.mk.inj h).2
  · refine (nodup_coveredLines p).imp fun {line line'} hne shown hshown hshown' => ?_
    obtain ⟨id, -, rfl⟩ := List.mem_map.1 hshown
    obtain ⟨id', -, heq⟩ := List.mem_map.1 hshown'
    exact hne (Prod.mk.inj heq).1.symm

/-- **A block is shown at its last line,** if it carries code. -/
theorem mem_shownBlocks (hserves : p.files.Serves p.routines) (hall : options.relativeOnly = false) :
    (line, id) ∈ p.shownBlocks options ↔
      id.block ≠ 0 ∧ (p.blockOf id).outArcs ≠ [] ∧ (p.blockOf id).lastLine? = some line := by
  have hattributed : FileGroup.isAttributed p line id = true ↔
      id.block ≠ 0 ∧ (p.blockOf id).outArcs ≠ [] ∧ (p.blockOf id).lastLine? = some line := by
    rw [FileGroup.isAttributed, Bool.and_eq_true, isBody_iff, beq_iff_eq, and_assoc]
  rw [shownBlocks_eq hall, List.mem_flatMap]
  constructor
  · rintro ⟨line', -, hmem⟩
    obtain ⟨id', hid, heq⟩ := List.mem_map.1 hmem
    obtain ⟨rfl, rfl⟩ := Prod.mk.inj heq
    exact hattributed.1 (List.mem_filter.1 hid).2
  · intro h
    have hexists := exists_of_outArcs_ne_nil h.2.1
    have hon := isOn_of_lastLine? h.2.2
    have hcovered := (mem_coveredLines hserves).2 (mem_sourceLines_of_isOn hexists hon)
    refine ⟨line, hcovered, List.mem_map.2 ⟨id, List.mem_filter.2 ⟨?_, hattributed.2 h⟩, rfl⟩⟩
    exact List.mem_filter.2 ⟨mem_blockIds.2 hexists, hon⟩

/-- **No block is shown twice,** and only those that carry code are, at their last line. -/
theorem count_shownBlocks (hserves : p.files.Serves p.routines) (hall : options.relativeOnly = false)
    (line : SourceLine) (id : BlockId) :
    (p.shownBlocks options).count (line, id) =
      if id.block ≠ 0 ∧ (p.blockOf id).outArcs ≠ [] ∧ (p.blockOf id).lastLine? = some line then 1
      else 0 := by
  rw [(nodup_shownBlocks hall).count]
  simp only [mem_shownBlocks hserves hall]

/-! ## What adds to the totals -/

/-- The blocks that carry code and cover a line, by function and then by number. -/
def carriers (p : Profile) : List BlockId :=
  p.blockIds.filter fun id =>
    (p.flowOf id.routine).isBody id.block && !(p.blockOf id).lines.isEmpty

/-- The blocks that carry code and cover a line are those that are shown. -/
theorem perm_carriers (hserves : p.files.Serves p.routines) (hall : options.relativeOnly = false) :
    ((p.shownBlocks options).map Prod.snd).Perm p.carriers := by
  have hshown : ((p.shownBlocks options).map Prod.snd).Nodup := by
    refine (nodup_shownBlocks hall).map_on ?_
    rintro ⟨line, id⟩ hmem ⟨line', id'⟩ hmem' rfl
    have hlast := ((mem_shownBlocks hserves hall).1 hmem).2.2
    have hlast' := ((mem_shownBlocks hserves hall).1 hmem').2.2
    rw [Option.some.inj (hlast.symm.trans hlast')]
  refine (List.perm_ext_iff_of_nodup hshown ((nodup_blockIds p).filter _)).2 fun id => ?_
  rw [List.mem_filter, mem_blockIds, Bool.and_eq_true, isBody_iff, List.mem_map]
  constructor
  · rintro ⟨⟨line, id'⟩, hmem, rfl⟩
    obtain ⟨hblock, hout, hlast⟩ := (mem_shownBlocks hserves hall).1 hmem
    have hlines : (p.blockOf id').lines ≠ [] := List.ne_nil_of_mem (List.mem_of_getLast? hlast)
    exact ⟨exists_of_outArcs_ne_nil hout, ⟨hblock, hout⟩, by simpa using hlines⟩
  · rintro ⟨-, ⟨hblock, hout⟩, hlines⟩
    have hne : (p.blockOf id).lines ≠ [] := by simpa using hlines
    exact ⟨((p.blockOf id).lines.getLast hne, id),
      (mem_shownBlocks hserves hall).2 ⟨hblock, hout, List.getLast?_eq_getLast_of_ne_nil hne⟩, rfl⟩

/-- What the carriers add is what the blocks of each function add that carry code and cover a line. -/
theorem map_ofId_carriers (p : Profile) :
    p.carriers.map (Summary.ofId p) = p.routines.flatMap fun f =>
      (f.flow.bodyBlocks.filter fun b => !(f.flow.block b).lines.isEmpty).map
        (Summary.ofBlock f.flow) := by
  -- A block is found by its function's number in the profile and by itself in the function.
  have hroutine (v : Routine × Nat) (hv : v ∈ p.routines.zipIdx) :
      (((List.range v.1.blockCount).map fun b => BlockId.mk v.2 b).filter fun id =>
        (p.flowOf id.routine).isBody id.block && !(p.blockOf id).lines.isEmpty).map
          (Summary.ofId p) =
        (v.1.flow.bodyBlocks.filter fun b => !(v.1.flow.block b).lines.isEmpty).map
          (Summary.ofBlock v.1.flow) := by
    have hflow : p.flowOf v.2 = v.1.flow := by
      rw [flowOf, List.mem_zipIdx_iff_getElem?.1 hv]
      rfl
    rw [List.filter_map, List.map_map, FlowGraph.bodyBlocks, List.filter_filter]
    simp only [Function.comp_def, Summary.ofId, blockOf, hflow, Routine.blockCount, Bool.and_comm]
  have hroutines : p.routines = p.routines.zipIdx.map Prod.fst := (List.zipIdx_map_fst ..).symm
  rw [carriers, blockIds, List.filter_flatMap, List.map_flatMap]
  conv_rhs => rw [hroutines, List.flatMap_map]
  exact List.flatMap_congr hroutine

/-- What the blocks that a report shows add, wherever it shows them. -/
theorem sum_ofId_shownBlocks (hserves : p.files.Serves p.routines)
    (hall : options.relativeOnly = false) :
    (((p.shownBlocks options).map Prod.snd).map (Summary.ofId p)).sum =
      (p.routines.flatMap fun f =>
        (f.flow.bodyBlocks.filter fun b => !(f.flow.block b).lines.isEmpty).map
          (Summary.ofBlock f.flow)).sum := by
  rw [((perm_carriers hserves hall).map _).sum_eq, map_ofId_carriers]

end Profile

/-! ## Totals -/

namespace Summary

variable {p : Profile} {options : Options}

/-- The total of all files of a report. -/
def ofFiles (p : Profile) (options : Options) : Summary :=
  Summary.sum ((p.fileGroups options).map (ofFile p))

/-- The total of the blocks of all functions that carry code and cover a line. -/
def ofRoutines (p : Profile) : Summary :=
  Summary.sum (p.routines.flatMap fun f =>
    (f.flow.bodyBlocks.filter fun b => !(f.flow.block b).lines.isEmpty).map (ofBlock f.flow))

/-- **What all files add:** the covered lines, and the blocks of all functions. -/
theorem ofFiles_eq (hserves : p.files.Serves p.routines) (hall : options.relativeOnly = false) :
    ofFiles p options =
      (p.coveredLines.map fun line => ofLine (p.lineGroup line)).sum + ofRoutines p := by
  have hshown : (p.shownBlocks options).map Prod.snd = p.coveredLines.flatMap fun line =>
      (p.blocksOn line).filter (FileGroup.isAttributed p line) := by
    rw [Profile.shownBlocks_eq hall, List.map_flatMap]
    simp only [List.map_map, Function.comp_def, List.map_id']
  rw [ofFiles, sum_files hall, ← hshown, Profile.sum_ofId_shownBlocks hserves hall]
  rfl

/-- A block adds no lines. -/
theorem lines_ofBlock (g : FlowGraph) (b : Nat) : (ofBlock g b).lines = 0 := by
  have hcalls : (callsOfBlock g b).lines = 0 := by
    rw [callsOfBlock]
    split <;> rfl
  have hbranches : (branchesOfBlock g b).lines = 0 := by
    rw [branchesOfBlock]
    split <;> rfl
  rw [ofBlock, plus, hcalls, hbranches]

theorem lines_ofRoutines (p : Profile) : (ofRoutines p).lines = 0 := by
  refine value_sum_eq_zero (f := Summary.lines) rfl (fun _ _ => rfl) fun part hpart => ?_
  obtain ⟨f, -, hpart⟩ := List.mem_flatMap.1 hpart
  obtain ⟨b, -, rfl⟩ := List.mem_map.1 hpart
  exact lines_ofBlock f.flow b

/-- A number to which lines add nothing is that of the blocks. -/
theorem value_ofFiles (hserves : p.files.Serves p.routines) (hall : options.relativeOnly = false)
    {f : Summary → Nat} (hzero : f 0 = 0) (hadd : ∀ a b, f (a + b) = f a + f b)
    (hline : ∀ l, f (ofLine l) = 0) : f (ofFiles p options) = f (ofRoutines p) := by
  have hlines : f (p.coveredLines.map fun line => ofLine (p.lineGroup line)).sum = 0 := by
    refine value_sum_eq_zero hzero hadd fun part hpart => ?_
    obtain ⟨line, -, rfl⟩ := List.mem_map.1 hpart
    exact hline (p.lineGroup line)
  rw [ofFiles_eq hserves hall, hadd, hlines, Nat.zero_add]

/-- The files have as many lines as are covered. -/
theorem lines_ofFiles (hserves : p.files.Serves p.routines) (hall : options.relativeOnly = false) :
    (ofFiles p options).lines = p.sourceLines.toFinset.card := by
  have hcovered : p.sourceLines.toFinset = p.coveredLines.toFinset := by
    ext line
    rw [List.mem_toFinset, List.mem_toFinset, Profile.mem_coveredLines hserves]
  have hone : ((p.coveredLines.map fun line => ofLine (p.lineGroup line)).map Summary.lines).sum =
      p.coveredLines.length := by
    rw [List.map_map]
    change (p.coveredLines.map fun _ => 1).sum = p.coveredLines.length
    rw [List.map_const', List.sum_const_nat, Nat.mul_one]
  have hblocks := lines_ofRoutines p
  rw [hcovered, List.toFinset_card_of_nodup (Profile.nodup_coveredLines p), ofFiles_eq hserves hall,
    ← hone, ← value_sum (f := Summary.lines) rfl fun _ _ => rfl]
  exact congrArg (_ + ·) hblocks

end Summary

/-- **Nothing is lost and nothing is counted twice.** A block that carries code is shown once, at its
last line, and the files of a report together have the branches and calls of all blocks that cover a
line, and every covered line once. -/
theorem Profile.attribution_exact {p : Profile} (h : p.Reachable) {options : Options}
    (hall : options.relativeOnly = false) :
    (∀ line id, (p.shownBlocks options).count (line, id) =
      if id.block ≠ 0 ∧ (p.blockOf id).outArcs ≠ [] ∧ (p.blockOf id).lastLine? = some line then 1
      else 0) ∧
    (Summary.ofFiles p options).branches = (Summary.ofRoutines p).branches ∧
    (Summary.ofFiles p options).branchesExecuted = (Summary.ofRoutines p).branchesExecuted ∧
    (Summary.ofFiles p options).branchesTaken = (Summary.ofRoutines p).branchesTaken ∧
    (Summary.ofFiles p options).calls = (Summary.ofRoutines p).calls ∧
    (Summary.ofFiles p options).callsExecuted = (Summary.ofRoutines p).callsExecuted ∧
    (Summary.ofFiles p options).lines = p.sourceLines.toFinset.card := by
  have hserves := h.serves
  refine ⟨count_shownBlocks hserves hall, ?_, ?_, ?_, ?_, ?_, Summary.lines_ofFiles hserves hall⟩ <;>
    exact Summary.value_ofFiles hserves hall rfl (fun _ _ => rfl) fun _ => rfl

/-- Notes of a function whose first block goes to another file and back, and of one beside it. -/
def Profile.spreadNotes : Draft :=
  let first := ((((((Draft.notes ⟨0x34, 0x30, 0x37, 0x2a⟩).function 1 5 6 "f" "a.c" 0).blocks 4).arcs 0
    [⟨1, 0⟩]).arcs 1 [⟨2, 0⟩, ⟨3, 0⟩]).arcs 2 [⟨3, 1⟩]).lines 1 "a.c" [1, 2]
  let second := ((((first.lines 1 "b.h" [5]).lines 1 "a.c" [1]).lines 2 "b.h" [5, 5]).function 2 5 6 "g"
    "a.c" 1).blocks 3
  ((second.arcs 0 [⟨1, 1⟩]).arcs 1 [⟨2, 0⟩, ⟨0, 2⟩]).lines 1 "a.c" [1]

/-- **Of lines that are listed twice,** in two files and by two functions. -/
theorem Profile.attribution_exact_ofSpread :
    let p := (({} : Profile).readNotes spreadNotes.encode).profile
    p.shownBlocks {} = [(⟨0, 1⟩, ⟨0, 1⟩), (⟨0, 1⟩, ⟨1, 1⟩), (⟨1, 5⟩, ⟨0, 2⟩)] ∧
      (p.shownBlocks {}).count (⟨0, 1⟩, ⟨0, 1⟩) = 1 ∧ (p.shownBlocks {}).count (⟨0, 2⟩, ⟨0, 1⟩) = 0 ∧
      (Summary.ofFiles p {}).branches = (Summary.ofRoutines p).branches ∧
      (Summary.ofRoutines p).branches = 2 ∧
      (Summary.ofFiles p {}).calls = (Summary.ofRoutines p).calls ∧ (Summary.ofRoutines p).calls = 1 ∧
      (Summary.ofFiles p {}).lines = p.sourceLines.toFinset.card ∧ p.sourceLines.length = 7 ∧
      p.sourceLines.toFinset.card = 3 := by
  intro p
  obtain ⟨hcount, hbranches, -, -, hcalls, -, hlines⟩ :=
    attribution_exact (Reachable.notes .start spreadNotes.encode)
      (show ({} : Options).relativeOnly = false from rfl)
  exact ⟨by decide +kernel, (hcount _ _).trans (by decide +kernel),
    (hcount _ _).trans (by decide +kernel), hbranches, by decide +kernel, hcalls, by decide +kernel,
    hlines, by decide +kernel, by decide +kernel⟩

end ArcCoverage

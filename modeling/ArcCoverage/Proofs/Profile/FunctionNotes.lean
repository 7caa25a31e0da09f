/-
# What notes say of a function

`FunctionNotes` is a function as someone who writes notes thinks of it: names instead of numbers of a
file table, and the arcs and lines in the groups in which they are written. `Routine.Matches` says that
a function which was read is the one described, piece by piece:

| of the function | is, by the notes |
| --- | --- |
| ident, checksums, name, file, start line | the same; the flow checksum is zero if the version has none |
| blocks | as many, each with its lines and their files in writing order |
| arcs | the same ends and flags in writing order |
| counts | all zero |

A function matches its notes from its blocks record on (`matches_begun`), and a group more on both
sides keeps the match (`Matches.addArcsFrom`, `Matches.addLinesOf`). More files in the table do not
disturb it (`Matches.mono`).
-/
import ArcCoverage.Format.Draft
import ArcCoverage.Proofs.Flow.Conservation
import ArcCoverage.Proofs.Profile.Reachable

namespace ArcCoverage

/-- **Arcs or lines of a function,** as one record holds them. -/
inductive NotesGroup where
  | arcs (source : UInt32) (specs : List ArcSpec)
  | lines (block : UInt32) (file : String) (numbers : List UInt32)
  deriving DecidableEq, Repr

/-- **A function, described.** -/
structure FunctionNotes where
  ident : UInt32
  lineChecksum : UInt32
  flowChecksum : UInt32
  name : String
  file : String
  startLine : UInt32
  /-- The number of blocks. -/
  blocks : Nat
  groups : List NotesGroup
  deriving DecidableEq, Repr

namespace NotesGroup

/-- The arcs of a group, not counted yet. -/
def arcList : NotesGroup → List Arc
  | .arcs source specs => specs.map fun a => ⟨source.toNat, a.destination.toNat, a.flags, 0⟩
  | .lines .. => []

/-- The lines that a group puts on a block, with the name of their file. -/
def linesOn (b : Nat) : NotesGroup → List (String × Nat)
  | .arcs .. => []
  | .lines block file numbers =>
    if block.toNat = b then numbers.map fun line => (file, line.toNat) else []

/-- The file that a group names. -/
def files : NotesGroup → List String
  | .arcs .. => []
  | .lines _ file _ => [file]

/-- **A group that a function of some blocks can have:** its block numbers are below their number, its
file has a name without the character zero, and no line is numbered zero. -/
def Valid (blocks : Nat) : NotesGroup → Prop
  | .arcs source specs => source.toNat < blocks ∧ ∀ a ∈ specs, a.destination.toNat < blocks
  | .lines block file numbers =>
    block.toNat < blocks ∧ file ≠ "" ∧ '\x00' ∉ file.toList ∧ 0 ∉ numbers

instance (blocks : Nat) (g : NotesGroup) : Decidable (g.Valid blocks) :=
  match g with
  | .arcs source specs =>
    inferInstanceAs (Decidable (source.toNat < blocks ∧ ∀ a ∈ specs, a.destination.toNat < blocks))
  | .lines block file numbers =>
    inferInstanceAs (Decidable (block.toNat < blocks ∧ file ≠ "" ∧ '\x00' ∉ file.toList ∧ 0 ∉ numbers))

end NotesGroup

namespace FunctionNotes

/-- All arcs of a function. -/
def arcs (notes : FunctionNotes) : List Arc := notes.groups.flatMap NotesGroup.arcList

/-- All lines of a block of a function. -/
def linesOn (notes : FunctionNotes) (b : Nat) : List (String × Nat) :=
  notes.groups.flatMap (NotesGroup.linesOn b)

/-- The files that a function names, in order. -/
def files (notes : FunctionNotes) : List String :=
  notes.file :: notes.groups.flatMap NotesGroup.files

/-- **A description that can be written down.** -/
structure Valid (notes : FunctionNotes) : Prop where
  name : '\x00' ∉ notes.name.toList
  file : '\x00' ∉ notes.file.toList
  group : ∀ g ∈ notes.groups, g.Valid notes.blocks

/-- The description with one more group. -/
def addGroup (notes : FunctionNotes) (g : NotesGroup) : FunctionNotes :=
  { notes with groups := notes.groups ++ [g] }

variable {notes : FunctionNotes}

theorem arcs_addGroup (g : NotesGroup) : (notes.addGroup g).arcs = notes.arcs ++ g.arcList := by
  simp [arcs, addGroup]

theorem linesOn_addGroup (g : NotesGroup) (b : Nat) :
    (notes.addGroup g).linesOn b = notes.linesOn b ++ g.linesOn b := by
  simp [linesOn, addGroup]

theorem files_addGroup (g : NotesGroup) : (notes.addGroup g).files = notes.files ++ g.files := by
  simp [files, addGroup]

end FunctionNotes

/-! ## Tables of files -/

namespace FileTable

variable {t t' : FileTable}

/-- A name that is entered is found under its number. -/
theorem getElem?_intern (t : FileTable) (name : String) :
    (t.intern name).2.names[(t.intern name).1]? = some name := by
  unfold intern
  cases h : t.number? name with
  | some i =>
    obtain ⟨hi, hname, -⟩ := List.idxOf?_eq_some_iff.1 h
    exact List.getElem?_eq_some_iff.2 ⟨hi, hname⟩
  | none => simp [size]

/-- A larger table has the same names under the numbers of the smaller one. -/
theorem getElem?_of_prefix (h : t.names <+: t'.names) {i : Nat} {name : String}
    (hi : t.names[i]? = some name) : t'.names[i]? = some name := by
  obtain ⟨more, hmore⟩ := h
  have hlt := (List.getElem?_eq_some_iff.1 hi).1
  rw [← hmore, List.getElem?_append_left hlt, hi]

/-- **The table lists names in the order of their first appearance.** -/
theorem names_intern_eraseDups {names : List String} (h : t.names = names.eraseDups)
    (name : String) : (t.intern name).2.names = (names ++ [name]).eraseDups := by
  rw [names_intern, h, List.eraseDups_append]
  by_cases hmem : name ∈ names <;> simp [hmem, List.removeAll, List.eraseDups_cons]

end FileTable

/-! ## Flow graphs -/

namespace FlowGraph

variable {g : FlowGraph}

/-- Arcs that leave one block, added in order. -/
def addArcsFrom (g : FlowGraph) (source : Nat) (arcs : List ArcSpec) : FlowGraph :=
  arcs.foldl (fun g a => g.addArc source a.destination.toNat a.flags) g

/-- Lines of one file, put on a block in order. -/
def addLinesOf (g : FlowGraph) (block file : Nat) (lines : List UInt32) : FlowGraph :=
  lines.foldl (fun g line => g.addLine block ⟨file, line.toNat⟩) g

theorem arcs_addArcsFrom (g : FlowGraph) (source : Nat) (arcs : List ArcSpec) :
    (g.addArcsFrom source arcs).arcs =
      g.arcs ++ arcs.map fun a => ⟨source, a.destination.toNat, a.flags, 0⟩ := by
  induction arcs generalizing g with
  | nil => exact (List.append_nil _).symm
  | cons a arcs ih =>
    rw [addArcsFrom, List.foldl_cons]
    refine (ih _).trans ?_
    simp [addArc]

theorem arcs_addLinesOf (g : FlowGraph) (block file : Nat) (lines : List UInt32) :
    (g.addLinesOf block file lines).arcs = g.arcs := by
  induction lines generalizing g with
  | nil => rfl
  | cons line lines ih => exact ih _

theorem addsArcs_addArcsFrom {source : Nat} (hs : source < g.blocks.length) {arcs : List ArcSpec}
    (hd : ∀ a ∈ arcs, a.destination.toNat < g.blocks.length) :
    AddsArcs g (g.addArcsFrom source arcs) := by
  induction arcs generalizing g with
  | nil => exact .refl
  | cons a arcs ih =>
    refine .head ⟨source, _, a.flags, hs, hd a List.mem_cons_self, rfl⟩ (ih ?_ fun b hb => ?_)
    · rwa [length_blocks_addArc]
    · rw [length_blocks_addArc]
      exact hd b (List.mem_cons_of_mem a hb)

theorem length_blocks_addArcsFrom (g : FlowGraph) (source : Nat) (arcs : List ArcSpec) :
    (g.addArcsFrom source arcs).blocks.length = g.blocks.length := by
  induction arcs generalizing g with
  | nil => rfl
  | cons a arcs ih => exact (ih _).trans (g.length_blocks_addArc ..)

theorem addsLines_addLinesOf {files : FileTable} {block file : Nat} (hfile : file < files.size)
    {lines : List UInt32} (hlines : 0 ∉ lines) :
    AddsLines files g (g.addLinesOf block file lines) := by
  induction lines generalizing g with
  | nil => exact .refl
  | cons line lines ih =>
    rw [List.mem_cons, not_or] at hlines
    have hpos : 1 ≤ line.toNat := by
      rw [Nat.one_le_iff_ne_zero]
      exact fun h0 => hlines.1 (UInt32.toNat_inj.1 h0).symm
    exact .head ⟨block, ⟨file, line.toNat⟩, hpos, hfile, rfl⟩ (ih hlines.2)

theorem length_blocks_addLinesOf (g : FlowGraph) (block file : Nat) (lines : List UInt32) :
    (g.addLinesOf block file lines).blocks.length = g.blocks.length := by
  induction lines generalizing g with
  | nil => rfl
  | cons line lines ih => exact (ih _).trans (g.length_blocks_addLine ..)

theorem lines_block_addArc (g : FlowGraph) (source destination : Nat) (flags : UInt32) (b : Nat) :
    ((g.addArc source destination flags).block b).lines = (g.block b).lines := by
  simp only [block, addArc, List.getD_eq_getElem?_getD, List.getElem?_modify]
  cases g.blocks[b]? with
  | none => rfl
  | some block => by_cases hs : source = b <;> by_cases hd : destination = b <;> simp [hs, hd]

/-- Arcs put no lines on blocks. -/
theorem lines_block_addArcsFrom (g : FlowGraph) (source : Nat) (arcs : List ArcSpec) (b : Nat) :
    ((g.addArcsFrom source arcs).block b).lines = (g.block b).lines := by
  induction arcs generalizing g with
  | nil => rfl
  | cons a arcs ih => exact (ih _).trans (g.lines_block_addArc ..)

theorem lines_block_addLine {b : Nat} (hb : b < g.blocks.length) (block : Nat) (line : SourceLine) :
    ((g.addLine block line).block b).lines =
      (g.block b).lines ++ if block = b then [line] else [] := by
  rw [block_eq_getElem (by rwa [length_blocks_addLine]), block_eq_getElem hb]
  simp only [addLine, List.getElem_modify]
  split_ifs <;> simp

/-- **Lines are put behind those that the block has.** -/
theorem lines_block_addLinesOf {b : Nat} (hb : b < g.blocks.length) (block file : Nat)
    (lines : List UInt32) :
    ((g.addLinesOf block file lines).block b).lines =
      (g.block b).lines ++
        if block = b then lines.map fun line => ⟨file, line.toNat⟩ else [] := by
  induction lines generalizing g with
  | nil => simp [addLinesOf]
  | cons line lines ih =>
    have hafter := ih (g := g.addLine block ⟨file, line.toNat⟩) (by rwa [length_blocks_addLine])
    refine hafter.trans ?_
    rw [lines_block_addLine hb]
    split_ifs <;> simp

/-- **A graph without counts is solved already.** -/
theorem solve_of_uncounted (hg : g.WellFormed) (hcounts : g.uncounted = g) : g.solve = g := by
  have harcs := count_arcs_of_uncounted hcounts
  have hblocks := count_blocks_of_uncounted hcounts
  obtain ⟨hsolvedArcs, hsolvedBlocks⟩ := solve_zero hg hblocks fun i a ha _ => by
    rw [harcs a (List.mem_iff_getElem?.2 ⟨i, ha⟩), UInt64.toNat_zero]
  have hkeepArc : ∀ a ∈ g.solve.arcs, a.uncounted = id a := fun a ha => by
    rw [Arc.uncounted, ← hsolvedArcs a ha]
    rfl
  have hkeepBlock : ∀ b ∈ g.solve.blocks, b.uncounted = id b := fun b hb => by
    rw [Block.uncounted, ← hsolvedBlocks b hb]
    rfl
  have hsame : g.solve.uncounted = g.solve := by
    rw [uncounted, List.map_congr_left hkeepArc, List.map_congr_left hkeepBlock, List.map_id,
      List.map_id]
  rw [← hsame, uncounted_solve, hcounts]

end FlowGraph

/-! ## Functions that match -/

namespace Routine

/-- **A function is the one described.** -/
structure Matches (f : Routine) (files : FileTable) (v : Version) (notes : FunctionNotes) : Prop where
  ident : f.ident = notes.ident
  lineChecksum : f.lineChecksum = notes.lineChecksum
  flowChecksum : f.flowChecksum = if v.hasFlowChecksum then notes.flowChecksum else 0
  name : f.name = notes.name
  file : files.names[f.file]? = some notes.file
  startLine : f.startLine = notes.startLine.toNat
  blockCount : f.blockCount = notes.blocks
  /-- The blocks list the arcs that enter and leave them. -/
  wellFormed : f.flow.WellFormed
  arcs : f.flow.arcs = notes.arcs
  lines : ∀ b < notes.blocks, (f.flow.block b).lines.map (fun l => (files.names[l.file]?, l.line)) =
    (notes.linesOn b).map fun (file, line) => (some file, line)
  /-- No arc and no block is counted. -/
  uncounted : f.flow.uncounted = f.flow

variable {f : Routine} {files files' : FileTable} {v : Version} {notes : FunctionNotes}

/-- **A larger table serves as well.** -/
theorem Matches.mono (h : f.Matches files v notes) (hgrown : files.names <+: files'.names) :
    f.Matches files' v notes where
  ident := h.ident
  lineChecksum := h.lineChecksum
  flowChecksum := h.flowChecksum
  name := h.name
  file := FileTable.getElem?_of_prefix hgrown h.file
  startLine := h.startLine
  blockCount := h.blockCount
  wellFormed := h.wellFormed
  arcs := h.arcs
  lines b hb := by
    rw [← h.lines b hb]
    refine List.map_congr_left fun l hl => ?_
    have hmem := List.mem_map_of_mem (f := fun l : SourceLine => (files.names[l.file]?, l.line)) hl
    rw [h.lines b hb] at hmem
    obtain ⟨⟨name, line⟩, -, heq⟩ := List.mem_map.1 hmem
    obtain ⟨hname, -⟩ := Prod.mk.inj heq
    rw [← hname, FileTable.getElem?_of_prefix hgrown hname.symm]
  uncounted := h.uncounted

/-- **A function matches from its blocks on.** -/
theorem matches_begun (r : FunctionRecord) {file : Nat} (blocks : Nat)
    (hfile : files.names[file]? = some r.file) {flowChecksum : UInt32}
    (hflow : r.flowChecksum = if v.hasFlowChecksum then flowChecksum else 0) :
    Matches { ofRecord r file with flow := .empty blocks } files v
      ⟨r.ident, r.lineChecksum, flowChecksum, r.name, r.file, r.startLine, blocks, []⟩ where
  ident := rfl
  lineChecksum := rfl
  flowChecksum := hflow
  name := rfl
  file := hfile
  startLine := rfl
  blockCount := List.length_replicate
  wellFormed := FlowGraph.wellFormed_empty blocks
  arcs := rfl
  lines b hb := by
    have hempty : ((FlowGraph.empty blocks).block b).lines = [] := by
      rw [FlowGraph.block_eq_getElem (by simpa [FlowGraph.empty] using hb)]
      simp [FlowGraph.empty]
    rw [hempty]
    rfl
  uncounted := by
    simp only [FlowGraph.empty, FlowGraph.uncounted, List.map_replicate, List.map_nil]
    rfl

/-- **Arcs on both sides.** -/
theorem Matches.addArcsFrom (h : f.Matches files v notes) {source : UInt32} {arcs : List ArcSpec}
    (hvalid : (NotesGroup.arcs source arcs).Valid notes.blocks) :
    Matches { f with flow := f.flow.addArcsFrom source.toNat arcs } files v
      (notes.addGroup (.arcs source arcs)) := by
  obtain ⟨hs, hd⟩ := hvalid
  rw [← h.blockCount] at hs hd
  have hadds := FlowGraph.addsArcs_addArcsFrom hs hd
  exact
    { h with
      blockCount := (f.flow.length_blocks_addArcsFrom ..).trans h.blockCount
      wellFormed := hadds.wellFormed h.wellFormed
      arcs := by rw [FlowGraph.arcs_addArcsFrom, FunctionNotes.arcs_addGroup, h.arcs]; rfl
      lines := fun b hb => by
        rw [FlowGraph.lines_block_addArcsFrom, FunctionNotes.linesOn_addGroup, h.lines b hb]
        exact congrArg _ (List.append_nil _).symm
      uncounted := hadds.uncounted h.uncounted }

/-- **Lines on both sides.** -/
theorem Matches.addLinesOf (h : f.Matches files v notes) {block : UInt32} {name : String} {file : Nat}
    {lines : List UInt32} (hvalid : (NotesGroup.lines block name lines).Valid notes.blocks)
    (hfile : files.names[file]? = some name) :
    Matches { f with flow := f.flow.addLinesOf block.toNat file lines } files v
      (notes.addGroup (.lines block name lines)) := by
  obtain ⟨-, -, -, hlines⟩ := hvalid
  have hadds : FlowGraph.AddsLines files f.flow (f.flow.addLinesOf block.toNat file lines) :=
    FlowGraph.addsLines_addLinesOf (List.getElem?_eq_some_iff.1 hfile).1 hlines
  exact
    { h with
      blockCount := (f.flow.length_blocks_addLinesOf ..).trans h.blockCount
      wellFormed := hadds.wellFormed h.wellFormed
      arcs := by
        rw [FlowGraph.arcs_addLinesOf, FunctionNotes.arcs_addGroup, h.arcs]
        exact (List.append_nil _).symm
      lines := fun b hb => by
        have hlt : b < f.flow.blocks.length := Nat.lt_of_lt_of_eq hb h.blockCount.symm
        rw [FlowGraph.lines_block_addLinesOf hlt, FunctionNotes.linesOn_addGroup, List.map_append,
          List.map_append, h.lines b hb, NotesGroup.linesOn]
        split_ifs
        · simp [hfile]
        · rfl
      uncounted := hadds.uncounted h.uncounted }

/-- **Solving changes nothing** before anything is counted. -/
theorem Matches.solve_eq (h : f.Matches files v notes) : f.solve = f :=
  congrArg (fun g => { f with flow := g }) (FlowGraph.solve_of_uncounted h.wellFormed h.uncounted)

end Routine

end ArcCoverage

/-
# Listings and groups, read with checks

As for flow graphs, the functions here do what those of `Profile` do, but have no result if a number
names no function, block, arc or file:

| with checks | without |
| --- | --- |
| `Checked.listing` | `Profile.listing` |
| `Checked.lineCount`, `Checked.lineGroup` | `Profile.lineCount`, `Profile.lineGroup` |
| `Checked.fileGroups` | `Profile.fileGroups` |
| `Checked.attributed` | `FileGroup.attributed` |

With a table of files that serves the functions of a profile, both give the same
(`Checked.listing_eq`, `Checked.fileGroups_eq`, `Checked.attributed_eq`). The blocks that a line group
names are those of the profile (`BlockId.Exists`), which is all that lines need.
-/
import ArcCoverage.Profile.Listing
import ArcCoverage.Proofs.Flow.Checked
import ArcCoverage.Proofs.Profile.Reachable
import ArcCoverage.Report.Grouping

namespace ArcCoverage

namespace Checked

/-! ## Listing -/

/-- The name of a file, if there is one of this number. -/
def fileName (p : Profile) (file : Nat) : Option String := p.files.names[file]?

/-- The lines of one block. -/
def listBlock (p : Profile) (g : FlowGraph) (b : Block) (number : Nat) : Option (List String) := do
  let arcsIn ← arcsOf g b.inArcs
  let arcsOut ← arcsOf g b.outArcs
  let names ← b.lines.mapM fun l => (fileName p l.file).map fun name => s!"{name}:{l.line}"
  return s!"Block : {number} Counter : {b.count}" ::
    Profile.listEntries "Source Edges" (arcsIn.map fun a => s!"{a.source} ({a.count})") ++
    Profile.listEntries "Destination Edges"
      (arcsOut.map fun a => s!"{a.destination} ({a.count})") ++
    Profile.listEntries "Lines" names

/-- The lines of one function. -/
def listRoutine (p : Profile) (f : Routine) : Option (List String) := do
  let name ← fileName p f.file
  let blocks ← f.flow.blocks.zipIdx.mapM fun (b, number) => listBlock p f.flow b number
  return s!"===== {f.name} ({f.ident}) @ {name}:{f.startLine}" :: blocks.flatten

/-- The listing of a profile. -/
def listing (p : Profile) : Option String := do
  let routines ← p.routines.mapM (listRoutine p)
  return Text.unlines (p.listHeader ++ routines.flatten)

/-! ## Groups -/

/-- The flow graph of a function, by number. -/
def flowOf (p : Profile) (routine : Nat) : Option FlowGraph := (p.routines[routine]?).map (·.flow)

/-- A block with its flow graph. -/
def blockOf (p : Profile) (id : BlockId) : Option Block := do
  let g ← flowOf p id.routine
  block g id.block

/-- The blocks that cover a line. -/
def blocksOn (p : Profile) (line : SourceLine) : Option (List BlockId) :=
  keep (fun id => (blockOf p id).map (·.isOn line)) p.blockIds

/-- The counts with which flow enters a line at one of its blocks. -/
def entering (p : Profile) (line : SourceLine) (id : BlockId) : Option (List Count) := do
  let g ← flowOf p id.routine
  let b ← block g id.block
  if b.inArcs.isEmpty then return [b.count]
  let arcs ← arcsOf g b.inArcs
  let outside ← keep (fun a => (block g a.source).map fun source => !source.isOn line) arcs
  return outside.map Arc.count

/-- How often a line ran. -/
def lineCount (p : Profile) (line : SourceLine) (blocks : List BlockId) : Option Count := do
  let entered ← blocks.mapM (entering p line)
  let covering ← blocks.mapM (blockOf p)
  let flow := Count.total entered.flatten
  return if flow = 0 then Profile.busiest (covering.map Block.count) else flow

/-- One covered line. -/
def lineGroup (p : Profile) (line : SourceLine) : Option LineGroup := do
  let blocks ← blocksOn p line
  let count ← lineCount p line blocks
  return { line := line.line, count, blocks }

/-- The functions that start in a file, each of which exists to be sorted. -/
def routinesIn (p : Profile) (file : Nat) : Option (List Nat) := do
  let starting := (p.routines.zipIdx.filter fun (f, _) => f.file == file).map fun (_, i) => i
  let _ ← starting.mapM (p.routines[·]?)
  return Order.sortBy p.startLine starting

/-- What is known of one file. -/
def fileGroup (p : Profile) (options : Options) (path : String) (file : Nat) :
    Option FileGroup := do
  let lines ← (p.lineNumbers file).mapM fun line => lineGroup p ⟨file, line⟩
  let routines ← routinesIn p file
  return { file, path, display := elide path options.sourcePrefix, lines, routines }

/-- The files of a report, among which are those of every function and every line. -/
def fileGroups (p : Profile) (options : Options) : Option (List FileGroup) := do
  let _ ← p.routines.mapM fun f => fileName p f.file
  let _ ← p.sourceLines.mapM fun l => fileName p l.file
  let groups ← p.files.names.zipIdx.mapM fun (path, file) => fileGroup p options path file
  return groups.filter fun group =>
    !group.lines.isEmpty && !(options.relativeOnly && startsAtRoot group.display)

/-- Whether the branches of a block belong to a line. -/
def isAttributed (p : Profile) (line : SourceLine) (id : BlockId) : Option Bool := do
  let g ← flowOf p id.routine
  let body ← isBody g id.block
  let b ← block g id.block
  return body && b.lastLine? == some line

/-- The blocks whose branches are shown at a line. -/
def attributed (p : Profile) (group : FileGroup) (line : LineGroup) : Option (List BlockId) :=
  keep (isAttributed p ⟨group.file, line.line⟩) line.blocks

/-- The functions that start in a file. -/
def starting (p : Profile) (group : FileGroup) : Option (List Routine) :=
  group.routines.mapM (p.routines[·]?)

end Checked

/-- A block of a profile, by a number of a function and of a block that exist. -/
def BlockId.Exists (id : BlockId) (p : Profile) : Prop :=
  ∃ f, p.routines[id.routine]? = some f ∧ id.block < f.blockCount

namespace Checked

variable {p : Profile} {f : Routine} {id : BlockId} {line : SourceLine}

/-! ## The listing has a result -/

theorem fileName_eq {file : Nat} (h : file < p.files.size) :
    fileName p file = some (p.files.name file) := by
  rw [fileName, FileTable.name, List.getD_eq_getElem?_getD, List.getElem?_eq_getElem h]
  rfl

theorem listBlock_eq (hf : f.WellFormed p.files) {b : Block} (hb : b ∈ f.flow.blocks)
    (number : Nat) : listBlock p f.flow b number = some (p.listBlock f.flow b number) := by
  have hnames : b.lines.mapM (fun l => (fileName p l.file).map fun name => s!"{name}:{l.line}") =
      some (b.lines.map fun l => s!"{p.files.name l.file}:{l.line}") :=
    mapM_eq_some_map fun l hl => by
      rw [fileName_eq (hf.line_file_lt l (List.mem_flatMap.2 ⟨b, hb, hl⟩)), Option.map_some]
  rw [listBlock, arcsOf_eq (hf.flow.inArcs_lt hb), arcsOf_eq (hf.flow.outArcs_lt hb), hnames]
  rfl

theorem listRoutine_eq (hf : f.WellFormed p.files) :
    listRoutine p f = some (p.listRoutine f) := by
  have hblocks : f.flow.blocks.zipIdx.mapM (fun (b, number) => listBlock p f.flow b number) =
      some (f.flow.blocks.zipIdx.map fun (b, number) => p.listBlock f.flow b number) :=
    mapM_eq_some_map fun ⟨b, number⟩ hv =>
      listBlock_eq hf (List.mem_iff_getElem?.2 ⟨number, List.mem_zipIdx_iff_getElem?.1 hv⟩) number
  rw [listRoutine, fileName_eq hf.file_lt, hblocks, Profile.listRoutine, List.flatMap_def]
  rfl

/-- **The listing meets no number that does not exist.** -/
theorem listing_eq (hp : p.files.Serves p.routines) : listing p = some p.listing := by
  have hroutines : p.routines.mapM (listRoutine p) = some (p.routines.map p.listRoutine) :=
    mapM_eq_some_map fun f hf => listRoutine_eq (hp.routine f hf)
  rw [listing, hroutines, Profile.listing, List.flatMap_def]
  rfl

/-! ## Groups have a result -/

theorem exists_of_mem_blockIds (h : id ∈ p.blockIds) : id.Exists p := by
  obtain ⟨⟨f, i⟩, hf, hid⟩ := List.mem_flatMap.1 h
  obtain ⟨b, hb, rfl⟩ := List.mem_map.1 hid
  exact ⟨f, List.mem_zipIdx_iff_getElem?.1 hf, List.mem_range.1 hb⟩

/-- A block that exists, with its graph. -/
theorem flowOf_eq (h : id.Exists p) : flowOf p id.routine = some (p.flowOf id.routine) := by
  obtain ⟨f, hf, -⟩ := h
  rw [flowOf, Profile.flowOf, hf]
  rfl

theorem lt_length_blocks (h : id.Exists p) :
    id.block < (p.flowOf id.routine).blocks.length := by
  obtain ⟨f, hf, hb⟩ := h
  rw [Profile.flowOf, hf]
  exact hb

theorem wellFormed_flowOf (hp : p.files.Serves p.routines) (h : id.Exists p) :
    (p.flowOf id.routine).WellFormed := by
  obtain ⟨f, hf, -⟩ := h
  rw [Profile.flowOf, hf]
  exact (hp.routine f (List.mem_iff_getElem?.2 ⟨_, hf⟩)).flow

theorem blockOf_eq (h : id.Exists p) : blockOf p id = some (p.blockOf id) := by
  rw [blockOf, flowOf_eq h]
  exact block_eq (lt_length_blocks h)

theorem blocksOn_eq (p : Profile) (line : SourceLine) :
    blocksOn p line = some (p.blocksOn line) :=
  keep_eq fun id hid => by rw [blockOf_eq (exists_of_mem_blockIds hid), Option.map_some]

theorem exists_of_mem_blocksOn (h : id ∈ p.blocksOn line) : id.Exists p :=
  exists_of_mem_blockIds (List.mem_of_mem_filter h)

theorem entering_eq (hp : p.files.Serves p.routines) (line : SourceLine) (h : id.Exists p) :
    entering p line id = some (p.entering line id) := by
  have hg := wellFormed_flowOf hp h
  have hlt := lt_length_blocks h
  have hmem : (p.flowOf id.routine).block id.block ∈ (p.flowOf id.routine).blocks :=
    List.mem_iff_getElem?.2 ⟨id.block, FlowGraph.getElem?_blocks hlt⟩
  rw [entering, flowOf_eq h, Profile.entering]
  simp only [Option.bind_eq_bind, Option.bind_some, block_eq hlt]
  split_ifs
  · rfl
  · rw [arcsOf_eq (hg.inArcs_lt hmem)]
    have houtside : ∀ a ∈ (p.flowOf id.routine).arcsOf
        ((p.flowOf id.routine).block id.block).inArcs,
        ((block (p.flowOf id.routine) a.source).map fun source => !source.isOn line) =
          some (!((p.flowOf id.routine).block a.source).isOn line) := by
      intro a ha
      obtain ⟨i, -, hi⟩ := List.mem_filterMap.1 ha
      rw [block_eq (hg.source_lt a (List.mem_iff_getElem?.2 ⟨i, hi⟩)), Option.map_some]
    simp only [Option.bind_some, keep_eq houtside]
    rfl

/-- **The count of a line meets no number that does not exist.** -/
theorem lineCount_eq (hp : p.files.Serves p.routines) (line : SourceLine) {blocks : List BlockId}
    (h : ∀ id ∈ blocks, id.Exists p) :
    lineCount p line blocks = some (p.lineCount line blocks) := by
  have hentered : blocks.mapM (entering p line) = some (blocks.map (p.entering line)) :=
    mapM_eq_some_map fun id hid => entering_eq hp line (h id hid)
  have hcovering : blocks.mapM (blockOf p) = some (blocks.map p.blockOf) :=
    mapM_eq_some_map fun id hid => blockOf_eq (h id hid)
  rw [lineCount, hentered, hcovering, Profile.lineCount, List.flatMap_def]
  simp only [Option.bind_eq_bind, Option.bind_some, List.map_map]
  rfl

theorem lineGroup_eq (hp : p.files.Serves p.routines) (line : SourceLine) :
    lineGroup p line = some (p.lineGroup line) := by
  have hcount := lineCount_eq hp line fun id (hid : id ∈ p.blocksOn line) =>
    exists_of_mem_blocksOn hid
  rw [lineGroup, blocksOn_eq]
  simp only [Option.bind_eq_bind, Option.bind_some, hcount]
  rfl

theorem lt_of_mem_routinesIn {file i : Nat} (h : i ∈ p.routinesIn file) :
    i < p.routines.length := by
  have hmem := (Order.perm_sortBy p.startLine _).mem_iff.1 h
  obtain ⟨⟨f, j⟩, hf, rfl⟩ := List.mem_map.1 hmem
  have hj := List.mem_zipIdx_iff_getElem?.1 (List.mem_of_mem_filter hf)
  exact (List.getElem?_eq_some_iff.1 hj).1

theorem routinesIn_eq (p : Profile) (file : Nat) :
    routinesIn p file = some (p.routinesIn file) := by
  have hstarting : ((p.routines.zipIdx.filter fun (f, _) => f.file == file).map
      fun (_, i) => i).mapM (p.routines[·]?) = some _ :=
    mapM_eq_filterMap fun i hi => by
      have hmem := (Order.perm_sortBy p.startLine _).mem_iff.2 hi
      rw [List.getElem?_eq_getElem (lt_of_mem_routinesIn hmem)]
      rfl
  rw [routinesIn, hstarting]
  rfl

theorem fileGroup_eq (hp : p.files.Serves p.routines) (options : Options) (path : String)
    (file : Nat) : fileGroup p options path file = some (p.fileGroup options path file) := by
  have hlines : (p.lineNumbers file).mapM (fun line => lineGroup p ⟨file, line⟩) =
      some ((p.lineNumbers file).map fun line => p.lineGroup ⟨file, line⟩) :=
    mapM_eq_some_map fun line _ => lineGroup_eq hp ⟨file, line⟩
  rw [fileGroup, hlines, routinesIn_eq]
  rfl

/-- **Grouping meets no number that does not exist.** -/
theorem fileGroups_eq (hp : p.files.Serves p.routines) (options : Options) :
    fileGroups p options = some (p.fileGroups options) := by
  have hroutines : p.routines.mapM (fun f => fileName p f.file) = some _ :=
    mapM_eq_some_map fun f hf => fileName_eq (hp.routine f hf).file_lt
  have hlines : p.sourceLines.mapM (fun l => fileName p l.file) = some _ :=
    mapM_eq_some_map fun l hl => by
      obtain ⟨f, hf, hl⟩ := List.mem_flatMap.1 hl
      exact fileName_eq ((hp.routine f hf).line_file_lt l hl)
  have hgroups : p.files.names.zipIdx.mapM (fun (path, file) => fileGroup p options path file) =
      some (p.files.names.zipIdx.map fun (path, file) => p.fileGroup options path file) :=
    mapM_eq_some_map fun ⟨path, file⟩ _ => fileGroup_eq hp options path file
  rw [fileGroups, hroutines, hlines, hgroups]
  rfl

/-! ## Groups of a profile -/

end Checked

/-- **A group of a profile:** the blocks and functions that it names exist. -/
structure FileGroup.Exists (group : FileGroup) (p : Profile) : Prop where
  block : ∀ line ∈ group.lines, ∀ id ∈ line.blocks, id.Exists p
  routine : ∀ i ∈ group.routines, i < p.routines.length

namespace Checked

variable {group : FileGroup}

theorem exists_of_mem_fileGroups {options : Options} (h : group ∈ p.fileGroups options) :
    group.Exists p := by
  obtain ⟨⟨path, file⟩, -, rfl⟩ := List.mem_map.1 (List.mem_of_mem_filter h)
  refine ⟨fun line hline id hid => ?_, fun i hi => lt_of_mem_routinesIn hi⟩
  obtain ⟨n, -, rfl⟩ := List.mem_map.1 hline
  exact exists_of_mem_blocksOn hid

theorem attributed_eq (hgroup : group.Exists p) {line : LineGroup} (hline : line ∈ group.lines) :
    attributed p group line = some (group.attributed p line) := by
  refine keep_eq fun id hid => ?_
  have h := hgroup.block line hline id hid
  have hlt := lt_length_blocks h
  rw [isAttributed, flowOf_eq h]
  simp only [Option.bind_eq_bind, Option.bind_some, isBody_eq hlt, block_eq hlt]
  rfl

theorem starting_eq (hgroup : group.Exists p) : starting p group = some (group.starting p) := by
  refine mapM_eq_filterMap fun i hi => ?_
  rw [List.getElem?_eq_getElem (hgroup.routine i hi)]
  rfl

end Checked

end ArcCoverage

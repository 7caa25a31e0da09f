/-
# Coverage by file and line

A report turns the profile around: from blocks that cover lines to files whose lines are covered by
blocks. `Profile.fileGroups` lists the files in the order of the file table, and of each

* its lines in increasing order, with every block that covers them (by function, then by block) and
  the line's count;
* the functions that start in it, by start line.

A line's count is the flow that enters its blocks from elsewhere: arcs between blocks of the line are
left out, and a block that nothing enters brings its own count. If that is zero the largest count of
its blocks stands in.
-/
import ArcCoverage.Order.Insertion
import ArcCoverage.Profile.Basic
import ArcCoverage.Report.Options

namespace ArcCoverage

/-- A block of a profile, by the number of its function and its number there. -/
structure BlockId where
  routine : Nat
  block : Nat
  deriving DecidableEq, Repr

/-- A covered line. -/
structure LineGroup where
  line : Nat
  count : Count
  /-- Every block that covers the line. -/
  blocks : List BlockId
  deriving DecidableEq, Repr

/-- A file with covered lines. -/
structure FileGroup where
  /-- Its number in the file table. -/
  file : Nat
  /-- The path that the notes record; the source is read from there. -/
  path : String
  /-- The path that reports show. -/
  display : String
  lines : List LineGroup
  /-- The numbers of the functions that start in the file, by start line. -/
  routines : List Nat
  deriving DecidableEq, Repr

/-- Whether a path starts at the root. -/
def startsAtRoot (path : String) : Bool := path.toList.head? == some '/'

/-- **A path without the part that reports leave out,** and without the slashes behind it. -/
def elide (path leading : String) : String :=
  if leading.isEmpty || !leading.toList.isPrefixOf path.toList then path
  else String.ofList ((path.toList.drop leading.toList.length).dropWhile (· == '/'))

namespace Profile

/-- Every block, by function and then by number. -/
def blockIds (p : Profile) : List BlockId :=
  p.routines.zipIdx.flatMap fun (f, i) => (List.range f.blockCount).map fun b => ⟨i, b⟩

/-- The flow graph of a function, by number. -/
def flowOf (p : Profile) (routine : Nat) : FlowGraph := ((p.routines[routine]?).map (·.flow)).getD {}

/-- A block with its flow graph. -/
def blockOf (p : Profile) (id : BlockId) : Block := (p.flowOf id.routine).block id.block

/-- Every line that some block covers, as often as it is listed. -/
def sourceLines (p : Profile) : List SourceLine :=
  p.routines.flatMap fun f => f.flow.blocks.flatMap Block.lines

/-- **The blocks that cover a line.** -/
def blocksOn (p : Profile) (line : SourceLine) : List BlockId :=
  p.blockIds.filter fun id => (p.blockOf id).isOn line

/-- The counts with which flow enters a line at one of its blocks. -/
def entering (p : Profile) (line : SourceLine) (id : BlockId) : List Count :=
  let g := p.flowOf id.routine
  let b := g.block id.block
  if b.inArcs.isEmpty then [b.count]
  else ((g.arcsOf b.inArcs).filter fun a => !(g.block a.source).isOn line).map Arc.count

/-- The largest of some counts. -/
def busiest (counts : List Count) : Count := counts.foldl max 0

/-- **How often a line ran.** -/
def lineCount (p : Profile) (line : SourceLine) (blocks : List BlockId) : Count :=
  let flow := Count.total (blocks.flatMap (p.entering line))
  if flow = 0 then busiest (blocks.map fun id => (p.blockOf id).count) else flow

/-- One covered line. -/
def lineGroup (p : Profile) (line : SourceLine) : LineGroup :=
  let blocks := p.blocksOn line
  { line := line.line, count := p.lineCount line blocks, blocks }

/-- The numbers of a file's covered lines. -/
def lineNumbers (p : Profile) (file : Nat) : List Nat :=
  Order.ascending ((p.sourceLines.filter (·.file == file)).map SourceLine.line)

/-- The start line of a function, by number. -/
def startLine (p : Profile) (routine : Nat) : Nat := ((p.routines[routine]?).map (·.startLine)).getD 0

/-- The functions that start in a file. -/
def routinesIn (p : Profile) (file : Nat) : List Nat :=
  Order.sortBy p.startLine
    ((p.routines.zipIdx.filter fun (f, _) => f.file == file).map fun (_, i) => i)

/-- What is known of one file. -/
def fileGroup (p : Profile) (options : Options) (path : String) (file : Nat) : FileGroup where
  file
  path
  display := elide path options.sourcePrefix
  lines := (p.lineNumbers file).map fun line => p.lineGroup ⟨file, line⟩
  routines := p.routinesIn file

/-- **The files of a report:** those with covered lines, without those that the options leave out. -/
def fileGroups (p : Profile) (options : Options) : List FileGroup :=
  (p.files.names.zipIdx.map fun (path, file) => p.fileGroup options path file).filter fun group =>
    !group.lines.isEmpty && !(options.relativeOnly && startsAtRoot group.display)

end Profile

namespace FileGroup

/-- What is known of a line, by number. -/
def line? (group : FileGroup) (line : Nat) : Option LineGroup :=
  group.lines.find? fun l => l.line == line

/-- Whether the branches of a block belong to a line: it carries code, and this is its last line. -/
def isAttributed (p : Profile) (line : SourceLine) (id : BlockId) : Bool :=
  (p.flowOf id.routine).isBody id.block && (p.blockOf id).lastLine? == some line

/-- **The blocks whose branches are shown at a line.** -/
def attributed (p : Profile) (group : FileGroup) (line : LineGroup) : List BlockId :=
  line.blocks.filter (isAttributed p ⟨group.file, line.line⟩)

/-- The functions that start in the file. -/
def starting (p : Profile) (group : FileGroup) : List Routine :=
  group.routines.filterMap (p.routines[·]?)

end FileGroup

end ArcCoverage

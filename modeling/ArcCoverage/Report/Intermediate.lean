/-
# The intermediate format

A line-oriented listing that other tools read. Each entry stands on a line of its own:

| entry | written as |
| --- | --- |
| file | `file:path` |
| function | `function:start line,entry count,name` |
| line | `lcount:line,count` |
| branch | `branch:line,state` with `taken`, `nottaken` or `notexec` |

The branches of a line stand behind its entry, in the order in which an annotated source shows them.
-/
import ArcCoverage.Report.Grouping
import ArcCoverage.Symbol.Demangle
import ArcCoverage.Text.Layout

namespace ArcCoverage.Intermediate

/-- What became of a branch. -/
inductive BranchState where
  | notExecuted
  | notTaken
  | taken
  deriving DecidableEq, Repr

/-- A line of the listing. -/
inductive Entry where
  | file (path : String)
  | function (startLine : Nat) (entered : Count) (name : String)
  | line (line : Nat) (count : Count)
  | branch (line : Nat) (state : BranchState)
  deriving DecidableEq, Repr

namespace BranchState

/-- The state of a branch, from the count of its block and its own. -/
def ofCounts (block arc : Count) : BranchState :=
  if block = 0 then notExecuted else if arc = 0 then notTaken else taken

/-- A state as it is written. -/
def text : BranchState → String
  | notExecuted => "notexec"
  | notTaken => "nottaken"
  | taken => "taken"

end BranchState

/-- An entry as it is written. -/
def Entry.text : Entry → String
  | file path => s!"file:{path}"
  | function startLine entered name => s!"function:{startLine},{entered},{name}"
  | line n count => s!"lcount:{n},{count}"
  | branch n state => s!"branch:{n},{state.text}"

/-- The entry of a function. -/
def functionEntry (options : Options) (f : Routine) : Entry :=
  .function f.startLine f.flow.entryCount (Symbol.shown options f.name)

/-- The states of a block's branches, of which there are two or more or none. -/
def branchStates (g : FlowGraph) (b : Nat) : List BranchState :=
  let arcs := g.realOutArcs b
  if arcs.length < 2 then [] else arcs.map fun a => .ofCounts (g.block b).count a.count

/-- The entry of a line, and those of the branches shown at it. -/
def lineEntries (p : Profile) (group : FileGroup) (line : LineGroup) : List Entry :=
  .line line.line line.count ::
    ((group.attributed p line).flatMap fun id => branchStates (p.flowOf id.routine) id.block).map
      (.branch line.line)

/-- **The entries of a file.** -/
def entries (options : Options) (p : Profile) (group : FileGroup) : List Entry :=
  .file group.display :: (group.starting p).map (functionEntry options) ++
    group.lines.flatMap (lineEntries p group)

/-- The listing of some files as text. -/
def text (options : Options) (p : Profile) (groups : List FileGroup) : String :=
  Text.unlines ((groups.flatMap (entries options p)).map Entry.text)

end ArcCoverage.Intermediate

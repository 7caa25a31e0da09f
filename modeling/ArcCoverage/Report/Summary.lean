/-
# Summaries

A summary counts lines, branches and calls of a file or a function, and how many of them ran. A block
adds to it (`Summary.ofBlock`):

* a call, if a fake arc leaves it;
* its real arcs out as branches, if there are two or more.

Branches count as executed if their block ran, and as taken if they were taken themselves.
-/
import ArcCoverage.Report.Grouping
import ArcCoverage.Report.Percent
import ArcCoverage.Text.Layout

namespace ArcCoverage

/-- How many lines, branches and calls there are, and how many of them ran. -/
structure Summary where
  lines : Nat := 0
  linesExecuted : Nat := 0
  branches : Nat := 0
  branchesExecuted : Nat := 0
  branchesTaken : Nat := 0
  calls : Nat := 0
  callsExecuted : Nat := 0
  deriving DecidableEq, Repr

namespace Summary

/-- Two summaries in one. -/
def plus (a b : Summary) : Summary where
  lines := a.lines + b.lines
  linesExecuted := a.linesExecuted + b.linesExecuted
  branches := a.branches + b.branches
  branchesExecuted := a.branchesExecuted + b.branchesExecuted
  branchesTaken := a.branchesTaken + b.branchesTaken
  calls := a.calls + b.calls
  callsExecuted := a.callsExecuted + b.callsExecuted

/-- Summaries in one. -/
def sum (parts : List Summary) : Summary := parts.foldr plus {}

/-- What a covered line adds. -/
def ofLine (line : LineGroup) : Summary :=
  { lines := 1, linesExecuted := if line.count = 0 then 0 else 1 }

/-- The calls that a block adds. -/
def callsOfBlock (g : FlowGraph) (b : Nat) : Summary :=
  if g.isCallSite b then { calls := 1, callsExecuted := if (g.block b).count = 0 then 0 else 1 } else {}

/-- The branches that a block adds. -/
def branchesOfBlock (g : FlowGraph) (b : Nat) : Summary :=
  let real := g.realOutArcs b
  if real.length < 2 then {}
  else
    { branches := real.length
      branchesExecuted := if (g.block b).count = 0 then 0 else real.length
      branchesTaken := real.countP fun a => a.count != 0 }

/-- **What a block adds.** -/
def ofBlock (g : FlowGraph) (b : Nat) : Summary := (callsOfBlock g b).plus (branchesOfBlock g b)

/-- **The summary of a file:** its covered lines, and the blocks that are shown at them. -/
def ofFile (p : Profile) (group : FileGroup) : Summary :=
  sum (group.lines.map fun line =>
    (ofLine line).plus
      (sum ((group.attributed p line).map fun id => ofBlock (p.flowOf id.routine) id.block)))

/-- Lines without repetition. -/
def distinct (lines : List SourceLine) : List SourceLine := lines.foldr List.insert []

/-- The lines of some blocks of a flow graph. -/
def linesOfBlocks (g : FlowGraph) (blocks : List Nat) : List SourceLine :=
  blocks.flatMap fun b => (g.block b).lines

/-- **The summary of a function:** the blocks that carry code, and the lines they cover. -/
def ofFlow (g : FlowGraph) : Summary :=
  { sum (g.bodyBlocks.map (ofBlock g)) with
    lines := (distinct (linesOfBlocks g g.bodyBlocks)).length
    linesExecuted :=
      (distinct (linesOfBlocks g (g.bodyBlocks.filter fun b => (g.block b).count != 0))).length }

/-- A share as it is shown, such as `Calls executed:50.00% of 2`. -/
def share (label : String) (part whole : Nat) : String :=
  label ++ ":" ++ Percent.twoPlaces part whole ++ "% of " ++ toString whole

/-- The lines that say what part of the branches ran. -/
def branchLines (s : Summary) : List String :=
  if s.branches = 0 then ["No branches"]
  else
    [share "Branches executed" s.branchesExecuted s.branches,
      share "Taken at least once" s.branchesTaken s.branches]

/-- The line that says what part of the calls ran. -/
def callLine (s : Summary) : String :=
  if s.calls = 0 then "No calls" else share "Calls executed" s.callsExecuted s.calls

/-- The line that says what part of the lines ran. -/
def lineLine (s : Summary) : String :=
  if s.lines = 0 then "No executable lines" else share "Lines executed" s.linesExecuted s.lines

/-- **The lines of a summary;** branches and calls only if the options show them. -/
def toLines (s : Summary) (options : Options) : List String :=
  s.lineLine :: if options.branchProbabilities then s.branchLines ++ [s.callLine] else []

end Summary

end ArcCoverage

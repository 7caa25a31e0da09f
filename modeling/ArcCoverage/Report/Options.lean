/-
# Report options

The switches that choose what a report shows and how its files are named.
-/

namespace ArcCoverage

/-- The switches of a report. -/
structure Options where
  /-- Show every basic block. -/
  allBlocks : Bool := false
  /-- Show how often branches and calls are taken. -/
  branchProbabilities : Bool := false
  /-- Show branch counts instead of percentages. -/
  branchCounts : Bool := false
  /-- Summarise every function. -/
  functionSummaries : Bool := false
  /-- Write the intermediate format. -/
  intermediateFormat : Bool := false
  /-- Begin the names of report files with the name of the main source. -/
  longFileNames : Bool := false
  /-- Show functions by the names that the source gives them. -/
  demangledNames : Bool := false
  /-- Write no report files. -/
  noOutput : Bool := false
  /-- Keep directories in the names of report files. -/
  preservePaths : Bool := false
  /-- Leave out sources whose shown path is absolute. -/
  relativeOnly : Bool := false
  /-- Write reports to standard output. -/
  useStdout : Bool := false
  /-- Show unconditional branches too. -/
  unconditionalBranches : Bool := false
  /-- Shorten the names of report files by a hash. -/
  hashFilenames : Bool := false
  /-- What is cut off the front of paths; nothing if empty. -/
  sourcePrefix : String := ""
  deriving DecidableEq, Repr

end ArcCoverage

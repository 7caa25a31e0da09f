/-
# Command-line options

Switches are given or not, settings have a value. Every option has a long name, most have a letter.
The tables here are all that the parser and the help text know of them.
-/
import ArcCoverage.Report.Options

namespace ArcCoverage.CommandLine

/-- An option without a value. -/
inductive Switch where
  | allBlocks
  | branchProbabilities
  | branchCounts
  | functionSummaries
  | intermediateFormat
  | longFileNames
  | demangledNames
  | noOutput
  | preservePaths
  | relativeOnly
  | stdout
  | unconditionalBranches
  | hashFilenames
  | dump
  deriving DecidableEq, Repr

/-- An option with a value. -/
inductive Setting where
  | objectDirectory
  | sourcePrefix
  | gcno
  | gcda
  | logLevel
  deriving DecidableEq, Repr

/-- An option. -/
inductive Opt where
  | switch (s : Switch)
  | setting (s : Setting)
  | help
  | version
  deriving DecidableEq, Repr

namespace Switch

/-- All switches. -/
def all : List Switch :=
  [allBlocks, branchProbabilities, branchCounts, functionSummaries, intermediateFormat,
    longFileNames, demangledNames, noOutput, preservePaths, relativeOnly, stdout,
    unconditionalBranches, hashFilenames, dump]

/-- The long name of a switch. -/
def name : Switch → String
  | allBlocks => "all-blocks"
  | branchProbabilities => "branch-probabilities"
  | branchCounts => "branch-counts"
  | functionSummaries => "function-summaries"
  | intermediateFormat => "intermediate-format"
  | longFileNames => "long-file-names"
  | demangledNames => "demangled-names"
  | noOutput => "no-output"
  | preservePaths => "preserve-paths"
  | relativeOnly => "relative-only"
  | stdout => "stdout"
  | unconditionalBranches => "unconditional-branches"
  | hashFilenames => "hash-filenames"
  | dump => "dump"

/-- The letter of a switch. -/
def letter? : Switch → Option Char
  | allBlocks => some 'a'
  | branchProbabilities => some 'b'
  | branchCounts => some 'c'
  | functionSummaries => some 'f'
  | intermediateFormat => some 'i'
  | longFileNames => some 'l'
  | demangledNames => some 'm'
  | noOutput => some 'n'
  | preservePaths => some 'p'
  | relativeOnly => some 'r'
  | stdout => some 't'
  | unconditionalBranches => some 'u'
  | hashFilenames => some 'x'
  | dump => none

/-- What a switch does. -/
def purpose : Switch → String
  | allBlocks => "Display all basic blocks"
  | branchProbabilities => "Display branch probabilities"
  | branchCounts => "Display branch counts instead of percentages (requires -b)"
  | functionSummaries => "Show a coverage summary for each function"
  | intermediateFormat => "Write the intermediate text format"
  | longFileNames => "Prefix output file names with the main source file name"
  | demangledNames => "Demangle function names"
  | noOutput => "Do not write any .gcov files"
  | preservePaths => "Preserve path components in output file names"
  | relativeOnly => "Only report sources with relative paths"
  | stdout => "Write reports to standard output instead of .gcov files"
  | unconditionalBranches => "Display unconditional branch counts too (requires -b)"
  | hashFilenames => "Hash long output file names"
  | dump => "Dump the coverage graph to standard error"

end Switch

namespace Setting

/-- All settings. -/
def all : List Setting := [objectDirectory, sourcePrefix, gcno, gcda, logLevel]

/-- The long names of a setting; the first is the one that is shown. -/
def names : Setting → List String
  | objectDirectory => ["object-directory", "object-file"]
  | sourcePrefix => ["source-prefix"]
  | gcno => ["gcno"]
  | gcda => ["gcda"]
  | logLevel => ["log-level"]

/-- The letter of a setting. -/
def letter? : Setting → Option Char
  | objectDirectory => some 'o'
  | sourcePrefix => some 's'
  | _ => none

/-- What stands for the value of a setting. -/
def placeholder : Setting → String
  | objectDirectory => "DIR|FILE"
  | sourcePrefix => "DIR"
  | gcno | gcda => "FILE"
  | logLevel => "LEVEL"

/-- What a setting does. -/
def purpose : Setting → String
  | objectDirectory => "Find objects in DIR, or in FILE stripped of its extension"
  | sourcePrefix => "Prefix to elide from source file names"
  | gcno => "Override the notes file name; `-` reads standard input"
  | gcda => "Override the data file name; `-` reads standard input"
  | logLevel => "Log level for diagnostic output"

end Setting

namespace Opt

/-- All options. -/
def all : List Opt := Switch.all.map switch ++ Setting.all.map setting ++ [help, version]

/-- The long names of an option; the first is the one that is shown. -/
def names : Opt → List String
  | switch s => [s.name]
  | setting s => s.names
  | help => ["help"]
  | version => ["version"]

/-- The letter of an option. -/
def letter? : Opt → Option Char
  | switch s => s.letter?
  | setting s => s.letter?
  | help => some 'h'
  | version => some 'V'

/-- What an option does. -/
def purpose : Opt → String
  | switch s => s.purpose
  | setting s => s.purpose
  | help => "Print help"
  | version => "Print version"

/-- An option as messages show it. -/
def shown (o : Opt) : String :=
  let name := "--" ++ o.names.headD ""
  match o with
  | setting s => name ++ " <" ++ s.placeholder ++ ">"
  | _ => name

/-- The option of a letter. -/
def ofLetter? (c : Char) : Option Opt := all.find? fun o => o.letter? == some c

/-- The option of a long name. Names are not abbreviated. -/
def ofName? (name : String) : Option Opt := all.find? fun o => o.names.contains name

end Opt

end ArcCoverage.CommandLine

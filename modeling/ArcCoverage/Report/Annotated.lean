/-
# Annotated sources

The report of a file is its source, each line behind a count and its number:

| row | written as |
| --- | --- |
| header | `        -:    0:Label:value` |
| function | `function name called 4 returned 75% blocks executed 100%` |
| source line | `        3:   12:text`, the count `-` if no block covers the line, `#####` if it did not run |
| block | `        3:   12-block  5`, the count `$$$$$` if it did not run |
| call | `call  0 returned 75%` |
| branch | `branch  0 taken 80% (fallthrough)` |
| unconditional | `unconditional  0 taken 3` |

A report is first a list of rows, `Annotated.rows`, and then text. Every line of the source has a row,
and so have the lines past its end that are covered or start a function. A function's row stands
before the first row whose line is not before its start. Calls, branches and unconditional arcs of a
line are numbered from zero, each kind on its own.
-/
import ArcCoverage.Report.Grouping
import ArcCoverage.Report.Percent
import ArcCoverage.Symbol.Demangle
import ArcCoverage.Text.Layout

namespace ArcCoverage

/-- What a report says about a line. -/
inductive Mark where
  /-- No block covers the line. -/
  | uncovered
  | ran (count : Count)
  deriving DecidableEq, Repr

/-- How often an arc was taken. -/
inductive Taken where
  /-- Its block did not run. -/
  | never
  | times (count : Count)
  | percent (n : Nat)
  deriving DecidableEq, Repr

/-- What a block shows at its last line. -/
inductive Detail where
  | block (number : Nat) (count : Count)
  | call (returned : Taken)
  | branch (taken : Taken) (fallthrough : Bool)
  | unconditional (taken : Taken)
  deriving DecidableEq, Repr

/-- A row of an annotated source. -/
inductive Row where
  | header (label value : String)
  | function (name : String) (entered : Count) (returned executed : Nat)
  /-- A source line; past the end of the source it has no text. -/
  | source (line : Nat) (mark : Mark) (text : Option String)
  /-- A detail of a line, with its number among those of its kind. -/
  | detail (line number : Nat) (detail : Detail)
  deriving DecidableEq, Repr

/-- What stands at the head of every report on one source. -/
structure Provenance where
  notesName : String
  dataName : String
  runs : Tally
  programs : Tally
  deriving DecidableEq, Repr

namespace Mark

/-- The mark of a line that may be covered. -/
def ofLine? : Option LineGroup → Mark
  | none => uncovered
  | some line => ran line.count

/-- A mark as it is written. -/
def text : Mark → String
  | uncovered => "-"
  | ran count => if count = 0 then "#####" else toString count

end Mark

namespace Taken

/-- How often an arc was taken, as it is written after `verb`. -/
def text (verb : String) : Taken → String
  | never => "never executed"
  | times count => s!"{verb} {count}"
  | percent n => s!"{verb} {n}%"

end Taken

namespace Detail

/-- What a detail is about. Details of a line that are about the same share a numbering. -/
inductive Kind where
  | block
  | call
  | branch
  | unconditional
  deriving DecidableEq, Repr

/-- The kind of a detail. -/
def kind : Detail → Kind
  | block .. => .block
  | call .. => .call
  | branch .. => .branch
  | unconditional .. => .unconditional

/-- A part of a block's count, as the options show it. -/
def taken (options : Options) (ran : Count) (part whole : Count) : Taken :=
  if ran = 0 then .never
  else if options.branchCounts then .times part
  else .percent (Percent.whole part.toNat whole.toNat)

/-- The call that a block ends in. -/
def ofCall (options : Options) (g : FlowGraph) (b : Nat) : List Detail :=
  let count := (g.block b).count
  if g.isCallSite b then
    [.call (taken options count (Count.total ((g.realOutArcs b).map Arc.count)) count)]
  else []

/-- The branches of a block, and its unconditional arc if the options show it. -/
def ofArcs (options : Options) (g : FlowGraph) (b : Nat) : List Detail :=
  let count := (g.block b).count
  match g.realOutArcs b with
  | [] => []
  | [a] =>
    if options.unconditionalBranches then
      [.unconditional (if count = 0 then .never else .times a.count)]
    else []
  | arcs =>
    let total := Count.total (arcs.map Arc.count)
    arcs.map fun a => .branch (taken options count a.count total) a.fallthrough

/-- **What a block shows at its last line.** -/
def ofBlock (options : Options) (g : FlowGraph) (b : Nat) : List Detail :=
  (if options.allBlocks then [.block b (g.block b).count] else []) ++
    if options.branchProbabilities then ofCall options g b ++ ofArcs options g b else []

/-- A detail as it is written. -/
def text (line number : Nat) : Detail → String
  | block b count =>
    Text.padLeft 9 (if count = 0 then "$$$$$" else toString count) ++ ":" ++ Text.padNat 5 line ++
      "-block " ++ Text.padNat 2 b
  | call returned => "call " ++ Text.padNat 2 number ++ " " ++ returned.text "returned"
  | branch taken fallthrough =>
    "branch " ++ Text.padNat 2 number ++ " " ++ taken.text "taken" ++
      if fallthrough && taken != .never then " (fallthrough)" else ""
  | unconditional taken => "unconditional " ++ Text.padNat 2 number ++ " " ++ taken.text "taken"

end Detail

namespace Row

/-- The start of a row with a count and a line number. -/
def gutter (count : String) (line : Nat) : String :=
  Text.padLeft 9 count ++ ":" ++ Text.padNat 5 line ++ ":"

/-- **A row as it is written.** -/
def text : Row → String
  | header label value => gutter "-" 0 ++ label ++ ":" ++ value
  | function name entered returned executed =>
    s!"function {name} called {entered} returned {returned}% blocks executed {executed}%"
  | source line mark text => gutter mark.text line ++ text.getD "/*EOF*/"
  | detail line number d => d.text line number

end Row

namespace Annotated

/-- The rows at the head of a report. -/
def headers (display : String) (origin : Provenance) : List Row :=
  [.header "Source" display, .header "Graph" origin.notesName, .header "Data" origin.dataName,
    .header "Runs" (toString origin.runs), .header "Programs" (toString origin.programs)]

/-- The row of a function. -/
def functionRow (options : Options) (f : Routine) : Row :=
  let body := f.flow.bodyBlocks
  let ran := body.countP fun b => (f.flow.block b).count != 0
  let entered := f.flow.entryCount
  .function (Symbol.shown options f.name) entered
    (Percent.whole f.flow.returnCount.toNat entered.toNat) (Percent.whole ran body.length)

/-- Details numbered within their kinds; `before` are those that stand in front of them. -/
def number (line : Nat) : List Detail → List Detail → List Row
  | _, [] => []
  | before, d :: ds =>
    .detail line (before.countP fun e => e.kind == d.kind) d :: number line (before ++ [d]) ds

/-- What the blocks of a line show at it. -/
def details (options : Options) (p : Profile) (group : FileGroup) (line : Nat) : List Detail :=
  match group.line? line with
  | none => []
  | some l => (group.attributed p l).flatMap fun id =>
      Detail.ofBlock options (p.flowOf id.routine) id.block

/-- The row of a line, and those of its details. -/
def lineRows (options : Options) (p : Profile) (group : FileGroup) (source : List String)
    (line : Nat) : List Row :=
  .source line (.ofLine? (group.line? line)) source[line - 1]? ::
    number line [] (details options p group line)

/-- The lines past the end of the source that have a row. -/
def pastEnd (p : Profile) (group : FileGroup) (length : Nat) : List Nat :=
  Order.ascending
    ((group.lines.map LineGroup.line ++ (group.starting p).map Routine.startLine).filter (length < ·))

/-- **The lines that have a row.** -/
def listed (p : Profile) (group : FileGroup) (length : Nat) : List Nat :=
  List.range' 1 length ++ pastEnd p group length

/-- The rows of some lines, each function before the first line that is not before its start. -/
def body (options : Options) (p : Profile) (group : FileGroup) (source : List String) :
    List Nat → List Routine → List Row
  | [], _ => []
  | line :: lines, functions =>
    let begun := functions.takeWhile fun f => f.startLine ≤ line
    let later := functions.dropWhile fun f => f.startLine ≤ line
    (if options.branchProbabilities then begun.map (functionRow options) else []) ++
      lineRows options p group source line ++ body options p group source lines later

/-- **The rows of an annotated source.** -/
def rows (options : Options) (p : Profile) (group : FileGroup) (source : List String)
    (origin : Provenance) : List Row :=
  headers group.display origin ++
    body options p group source (listed p group source.length) (group.starting p)

/-- An annotated source as text. -/
def text (options : Options) (p : Profile) (group : FileGroup) (source : List String)
    (origin : Provenance) : String :=
  Text.unlines ((rows options p group source origin).map Row.text)

end Annotated

end ArcCoverage

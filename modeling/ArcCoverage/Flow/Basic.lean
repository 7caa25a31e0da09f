/-
# Control-flow graphs

A function's flow graph has numbered blocks and numbered arcs between them. Each block keeps the
numbers of the arcs that enter and leave it, in the order in which they were added, and the source
lines it covers.

| flag | meaning |
| ---: | --- |
| 1 | on the spanning tree: the arc has no counter, its count is derived |
| 2 | fake: models a call that does not return |
| 4 | falls through to the next block |

`FlowGraph.WellFormed` states what the two arc lists of a block have to do with the arcs;
`FlowGraph.empty` and `FlowGraph.addArc` build graphs for which it holds.
-/
import ArcCoverage.Count

namespace ArcCoverage

/-- A line of a file, which is a number in a file table. -/
structure SourceLine where
  file : Nat
  line : Nat
  deriving DecidableEq, Repr

/-- An arc between two blocks. -/
structure Arc where
  source : Nat
  destination : Nat
  flags : UInt32
  count : Count
  deriving DecidableEq, Repr

namespace Arc

/-- Whether one of the flags is set. -/
def hasFlag (a : Arc) (flag : UInt32) : Bool := a.flags &&& flag != 0

/-- On-tree arcs are not instrumented. -/
def onTree (a : Arc) : Bool := a.hasFlag 1

/-- Fake arcs model calls that may not return. -/
def fake (a : Arc) : Bool := a.hasFlag 2

/-- The arc falls through to the next block. -/
def fallthrough (a : Arc) : Bool := a.hasFlag 4

end Arc

/-- A basic block. -/
structure Block where
  lines : List SourceLine := []
  inArcs : List Nat := []
  outArcs : List Nat := []
  count : Count := 0
  deriving DecidableEq, Repr

namespace Block

/-- Whether the block covers a line. -/
def isOn (b : Block) (line : SourceLine) : Bool := b.lines.contains line

/-- The line that the block's branches belong to. -/
def lastLine? (b : Block) : Option SourceLine := b.lines.getLast?

end Block

/-- Blocks and the arcs between them. -/
structure FlowGraph where
  blocks : List Block := []
  arcs : List Arc := []
  deriving DecidableEq, Repr

namespace FlowGraph

/-- `n` blocks without arcs. -/
def empty (n : Nat) : FlowGraph := { blocks := List.replicate n {} }

/-- The block of a number; one without arcs and lines if there is none. -/
def block (g : FlowGraph) (b : Nat) : Block := g.blocks.getD b {}

/-- The arcs of a list of numbers. -/
def arcsOf (g : FlowGraph) (numbers : List Nat) : List Arc := numbers.filterMap (g.arcs[·]?)

/-- **The graph with one more arc,** entered in the lists of both its ends. -/
def addArc (g : FlowGraph) (source destination : Nat) (flags : UInt32) : FlowGraph :=
  let number := g.arcs.length
  let leave : Block → Block := fun b => { b with outArcs := b.outArcs ++ [number] }
  let enter : Block → Block := fun b => { b with inArcs := b.inArcs ++ [number] }
  { blocks := (g.blocks.modify source leave).modify destination enter
    arcs := g.arcs ++ [{ source, destination, flags, count := 0 }] }

/-- The graph with one more line on a block. -/
def addLine (g : FlowGraph) (b : Nat) (line : SourceLine) : FlowGraph :=
  { g with blocks := g.blocks.modify b fun block => { block with lines := block.lines ++ [line] } }

/-- The numbers of the arcs with a property, in increasing order. -/
def arcNumbers (g : FlowGraph) (p : Arc → Bool) : List Nat :=
  (List.range g.arcs.length).filter fun i => (g.arcs[i]?).any p

/-- **The arc lists are right:** the ends of every arc exist, and each block lists the arcs that
leave it and those that enter it, once and in increasing order. -/
structure WellFormed (g : FlowGraph) : Prop where
  source_lt : ∀ a ∈ g.arcs, a.source < g.blocks.length
  destination_lt : ∀ a ∈ g.arcs, a.destination < g.blocks.length
  outArcs_eq : ∀ b < g.blocks.length, (g.block b).outArcs = g.arcNumbers (·.source == b)
  inArcs_eq : ∀ b < g.blocks.length, (g.block b).inArcs = g.arcNumbers (·.destination == b)

/-! ## What a report asks -/

/-- The number of arcs that have a counter. -/
def instrumentedCount (g : FlowGraph) : Nat := g.arcs.countP (!·.onTree)

/-- How often the function was entered. -/
def entryCount (g : FlowGraph) : Count := (g.block 0).count

/-- Whether an arc returns to the caller: it is real and leads to a block, other than the first,
that nothing leaves. -/
def isReturn (g : FlowGraph) (a : Arc) : Bool :=
  !a.fake && a.destination != 0 && (g.block a.destination).outArcs.isEmpty

/-- How often the function returned. -/
def returnCount (g : FlowGraph) : Count := Count.total ((g.arcs.filter g.isReturn).map Arc.count)

/-- Whether a block carries code: it is not the first, and something leaves it. -/
def isBody (g : FlowGraph) (b : Nat) : Bool := b != 0 && !(g.block b).outArcs.isEmpty

/-- The numbers of the blocks that carry code. -/
def bodyBlocks (g : FlowGraph) : List Nat := (List.range g.blocks.length).filter g.isBody

/-- The arcs that leave a block. -/
def outArcs (g : FlowGraph) (b : Nat) : List Arc := g.arcsOf (g.block b).outArcs

/-- The arcs that leave a block and model control flow. -/
def realOutArcs (g : FlowGraph) (b : Nat) : List Arc := (g.outArcs b).filter (!·.fake)

/-- Whether a block ends in a call, which a fake arc marks. -/
def isCallSite (g : FlowGraph) (b : Nat) : Bool := (g.outArcs b).any Arc.fake

/-! ## Counters -/

/-- Counters added to the instrumented arcs of a list, in order; the list ends the shorter of both. -/
def addToArcs : List Arc → List Count → List Arc
  | [], _ => []
  | a :: as, counters =>
    if a.onTree then a :: addToArcs as counters
    else
      match counters with
      | [] => a :: as
      | c :: cs => { a with count := a.count.plus c } :: addToArcs as cs

/-- The graph with counters added to its instrumented arcs. -/
def addCounters (g : FlowGraph) (counters : List Count) : FlowGraph :=
  { g with arcs := addToArcs g.arcs counters }

end FlowGraph

end ArcCoverage

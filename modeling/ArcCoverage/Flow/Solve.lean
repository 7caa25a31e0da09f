/-
# Solving the flow

Only the arcs off the spanning tree are counted while a program runs. The other counts follow from
the conservation of flow: a block runs as often as its arcs in, and its arcs out, are taken.

`Knowledge` holds the counts known so far, `none` for the others. Two rules add to it:

* a block is known once all arcs of its in-list, or else of its out-list, are (and the list is not
  empty): its count is their saturating sum;
* an arc is known once it is the only unknown one in a list of a known block: its count is the
  block's, less the saturating sum of the others.

`pass` applies both to every block in order, `settle` repeats it until nothing changes. What is
unknown then counts as not taken.
-/
import ArcCoverage.Flow.Basic

namespace ArcCoverage

/-- The counts that are known, by number. -/
structure Knowledge where
  arcs : List (Option Count)
  blocks : List (Option Count)
  deriving DecidableEq, Repr

namespace Knowledge

/-- What is known of an arc. -/
def arc (k : Knowledge) (a : Nat) : Option Count := (k.arcs[a]?).join

/-- What is known of a block. -/
def block (k : Knowledge) (b : Nat) : Option Count := (k.blocks[b]?).join

/-- **The sum of a list of arcs,** if it is not empty and all are known. -/
def sum? (k : Knowledge) (numbers : List Nat) : Option Count :=
  if numbers.isEmpty then none else (numbers.mapM k.arc).map Count.total

/-- **The only unknown arc of a list.** -/
def missing? (k : Knowledge) (numbers : List Nat) : Option Nat :=
  match numbers.filter fun a => (k.arc a).isNone with
  | [a] => some a
  | _ => none

/-- The sum of what is known of the arcs of a list other than one. -/
def others (k : Knowledge) (numbers : List Nat) (a : Nat) : Count :=
  Count.total ((numbers.filter (· != a)).map fun b => (k.arc b).getD 0)

/-- The arc that a list of a block with a known count leaves open, filled in. -/
def fillArc (k : Knowledge) (count : Count) (numbers : List Nat) : Knowledge :=
  match k.missing? numbers with
  | none => k
  | some a => { k with arcs := k.arcs.set a (some (count.minus (k.others numbers a))) }

/-- A block's count, from its arcs in or else from its arcs out. -/
def fillBlock (k : Knowledge) (number : Nat) (b : Block) : Knowledge :=
  if (k.block number).isSome then k
  else { k with blocks := k.blocks.set number ((k.sum? b.inArcs).or (k.sum? b.outArcs)) }

/-- Both rules at one block. -/
def visit (k : Knowledge) (b : Block) (number : Nat) : Knowledge :=
  let k := k.fillBlock number b
  match k.block number with
  | none => k
  | some count => (k.fillArc count b.inArcs).fillArc count b.outArcs

/-- Both rules at every block, in order. -/
def pass (blocks : List Block) (k : Knowledge) : Knowledge :=
  blocks.zipIdx.foldl (fun k (b, number) => k.visit b number) k

/-- Passes until nothing changes, at most `fuel` of them. -/
def settle (blocks : List Block) : Nat → Knowledge → Knowledge
  | 0, k => k
  | fuel + 1, k =>
    let k' := k.pass blocks
    if k' = k then k else settle blocks fuel k'

end Knowledge

namespace FlowGraph

/-- What is known before the first pass: the instrumented arcs. -/
def measured (g : FlowGraph) : Knowledge where
  arcs := g.arcs.map fun a => if a.onTree then none else some a.count
  blocks := g.blocks.map fun _ => none

/-- What is known in the end. Each pass but the last adds a count, so there are at most as many as
arcs and blocks. -/
def derived (g : FlowGraph) : Knowledge :=
  g.measured.settle g.blocks (g.arcs.length + g.blocks.length)

/-- The graph with the counts that are known. Other arcs count as not taken, other blocks keep the
count they had. -/
def withCounts (g : FlowGraph) (k : Knowledge) : FlowGraph where
  arcs := g.arcs.zipIdx.map fun (a, i) => { a with count := (k.arc i).getD 0 }
  blocks := g.blocks.zipIdx.map fun (b, i) => { b with count := (k.block i).getD b.count }

/-- **All counts that follow from those of the instrumented arcs.** -/
def solve (g : FlowGraph) : FlowGraph := g.withCounts g.derived

end FlowGraph

end ArcCoverage

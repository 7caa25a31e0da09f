/-
# Listing a profile

A plain listing of everything a profile knows, block by block: first the header, then for each
function its blocks with their arcs in, arcs out and lines. A list that is empty gets no line.
-/
import ArcCoverage.Profile.Basic
import ArcCoverage.Text.Layout

namespace ArcCoverage.Profile

open Text

/-- The line of the listing that says what was loaded. -/
def listHeader (p : Profile) : List String :=
  match p.version with
  | none => []
  | some v =>
    [s!"gcov {v.text}, stamp {hexWord p.stamp}, runs {p.runs}, programs {p.programs}"]

/-- A labelled list of entries, each followed by a comma; nothing if there are none. -/
def listEntries (label : String) (entries : List String) : List String :=
  if entries.isEmpty then [] else ["\t" ++ label ++ " : " ++ String.join (entries.map (· ++ ", "))]

/-- The lines of one block. -/
def listBlock (p : Profile) (g : FlowGraph) (b : Block) (number : Nat) : List String :=
  s!"Block : {number} Counter : {b.count}" ::
    listEntries "Source Edges" ((g.arcsOf b.inArcs).map fun a => s!"{a.source} ({a.count})") ++
    listEntries "Destination Edges"
      ((g.arcsOf b.outArcs).map fun a => s!"{a.destination} ({a.count})") ++
    listEntries "Lines" (b.lines.map fun l => s!"{p.files.name l.file}:{l.line}")

/-- The lines of one function. -/
def listRoutine (p : Profile) (f : Routine) : List String :=
  s!"===== {f.name} ({f.ident}) @ {p.files.name f.file}:{f.startLine}" ::
    f.flow.blocks.zipIdx.flatMap fun (b, number) => p.listBlock f.flow b number

/-- **The listing of a profile.** -/
def listing (p : Profile) : String :=
  unlines (p.listHeader ++ p.routines.flatMap p.listRoutine)

end ArcCoverage.Profile

/-
# Annotated sources, written with checks

`Checked.rows` writes the rows of an annotated source as `Annotated.rows` does, but has no result if a
number names no function, block or arc, or if the text of line zero is asked for, which would be the
one before the first. No such number is met in a group of the profile (`Checked.rows_eq`): its blocks
and functions exist, and the lines that have a row begin at one (`Checked.pos_of_mem_listed`).

`Profile.InRange` collects what was said of all indices. It holds of any profile that files can make
(`Profile.Reachable.wellFormed_and_inRange`).
-/
import ArcCoverage.Format.Draft
import ArcCoverage.Proofs.Report.CheckedGroups
import ArcCoverage.Report.Annotated

namespace ArcCoverage

namespace Checked

/-! ## Rows -/

/-- The call that a block ends in. -/
def ofCall (options : Options) (g : FlowGraph) (b : Nat) : Option (List Detail) := do
  let here ← block g b
  let arcs ← realOutArcs g b
  let call ← isCallSite g b
  return if call then
      [.call (Detail.taken options here.count (Count.total (arcs.map Arc.count)) here.count)]
    else []

/-- The branches of a block, and its unconditional arc if the options show it. -/
def ofArcs (options : Options) (g : FlowGraph) (b : Nat) : Option (List Detail) := do
  let here ← block g b
  let arcs ← realOutArcs g b
  return match arcs with
    | [] => []
    | [a] =>
      if options.unconditionalBranches then
        [.unconditional (if here.count = 0 then .never else .times a.count)]
      else []
    | arcs =>
      let total := Count.total (arcs.map Arc.count)
      arcs.map fun a => .branch (Detail.taken options here.count a.count total) a.fallthrough

/-- What a block shows at its last line. -/
def ofBlock (options : Options) (g : FlowGraph) (b : Nat) : Option (List Detail) := do
  let here ← block g b
  let call ← ofCall options g b
  let branches ← ofArcs options g b
  return (if options.allBlocks then [.block b here.count] else []) ++
    if options.branchProbabilities then call ++ branches else []

/-- The row of a function. -/
def functionRow (options : Options) (f : Routine) : Option Row := do
  let body ← bodyBlocks f.flow
  let ran ← keep (fun b => (block f.flow b).map fun here => here.count != 0) body
  let returned ← returnCount f.flow
  let entered := f.flow.entryCount
  return .function (Symbol.shown options f.name) entered
    (Percent.whole returned.toNat entered.toNat) (Percent.whole ran.length body.length)

/-- What a block of the profile shows at its last line. -/
def detailsAt (options : Options) (p : Profile) (id : BlockId) : Option (List Detail) := do
  let g ← flowOf p id.routine
  ofBlock options g id.block

/-- What the blocks of a line show at it. -/
def details (options : Options) (p : Profile) (group : FileGroup) (line : Nat) :
    Option (List Detail) :=
  match group.line? line with
  | none => return []
  | some l => do
    let ids ← attributed p group l
    let shown ← ids.mapM (detailsAt options p)
    return shown.flatten

/-- The text of a line that is numbered from one; past the end of the source it has none. -/
def lineText (source : List String) (line : Nat) : Option (Option String) :=
  if line = 0 then none else return source[line - 1]?

/-- The row of a line, and those of its details. -/
def lineRows (options : Options) (p : Profile) (group : FileGroup) (source : List String)
    (line : Nat) : Option (List Row) := do
  let text ← lineText source line
  let shown ← details options p group line
  return .source line (.ofLine? (group.line? line)) text :: Annotated.number line [] shown

/-- The lines that have a row. -/
def listed (p : Profile) (group : FileGroup) (length : Nat) : Option (List Nat) := do
  let functions ← starting p group
  return List.range' 1 length ++
    Order.ascending
      ((group.lines.map LineGroup.line ++ functions.map Routine.startLine).filter (length < ·))

/-- The rows of some lines, each function before the first line that is not before its start. -/
def body (options : Options) (p : Profile) (group : FileGroup) (source : List String) :
    List Nat → List Routine → Option (List Row)
  | [], _ => return []
  | line :: lines, functions => do
    let begun ← (functions.takeWhile fun f => f.startLine ≤ line).mapM (functionRow options)
    let here ← lineRows options p group source line
    let rest ← body options p group source lines
      (functions.dropWhile fun f => f.startLine ≤ line)
    return (if options.branchProbabilities then begun else []) ++ here ++ rest

/-- The rows of an annotated source. -/
def rows (options : Options) (p : Profile) (group : FileGroup) (source : List String)
    (origin : Provenance) : Option (List Row) := do
  let lines ← listed p group source.length
  let functions ← starting p group
  let shown ← body options p group source lines functions
  return Annotated.headers group.display origin ++ shown

variable {p : Profile} {group : FileGroup} {g : FlowGraph} {options : Options} {b line : Nat}
  {source : List String}

/-! ## Rows have a result -/

theorem ofCall_eq (hg : g.WellFormed) (hb : b < g.blocks.length) :
    ofCall options g b = some (Detail.ofCall options g b) := by
  rw [ofCall, block_eq hb, realOutArcs_eq hg hb, isCallSite_eq hg hb]
  rfl

theorem ofArcs_eq (hg : g.WellFormed) (hb : b < g.blocks.length) :
    ofArcs options g b = some (Detail.ofArcs options g b) := by
  rw [ofArcs, block_eq hb, realOutArcs_eq hg hb, Detail.ofArcs]
  rfl

theorem ofBlock_eq (hg : g.WellFormed) (hb : b < g.blocks.length) :
    ofBlock options g b = some (Detail.ofBlock options g b) := by
  rw [ofBlock, block_eq hb, ofCall_eq hg hb, ofArcs_eq hg hb]
  rfl

theorem functionRow_eq {f : Routine} (hg : f.flow.WellFormed) :
    functionRow options f = some (Annotated.functionRow options f) := by
  have hran : keep (fun b => (block f.flow b).map fun here => here.count != 0) f.flow.bodyBlocks =
      some (f.flow.bodyBlocks.filter fun b => (f.flow.block b).count != 0) :=
    keep_eq fun b hb => by
      rw [block_eq (List.mem_range.1 (List.mem_of_mem_filter hb)), Option.map_some]
  rw [functionRow, bodyBlocks_eq, returnCount_eq hg]
  simp only [Option.bind_eq_bind, Option.bind_some, hran, ← List.countP_eq_length_filter]
  rfl

theorem detailsAt_eq (hp : p.files.Serves p.routines) {id : BlockId} (h : id.Exists p) :
    detailsAt options p id = some (Detail.ofBlock options (p.flowOf id.routine) id.block) := by
  rw [detailsAt, flowOf_eq h]
  exact ofBlock_eq (wellFormed_flowOf hp h) (lt_length_blocks h)

theorem details_eq (hp : p.files.Serves p.routines) (hgroup : group.Exists p) :
    details options p group line = some (Annotated.details options p group line) := by
  rw [details, Annotated.details]
  cases hline : group.line? line with
  | none => rfl
  | some l =>
    have hmem : l ∈ group.lines := List.mem_of_find?_eq_some hline
    have hshown : (group.attributed p l).mapM (detailsAt options p) =
        some ((group.attributed p l).map fun id =>
          Detail.ofBlock options (p.flowOf id.routine) id.block) :=
      mapM_eq_some_map fun id hid =>
        detailsAt_eq hp (hgroup.block l hmem id (List.mem_of_mem_filter hid))
    simp only [attributed_eq hgroup hmem, Option.bind_eq_bind, Option.bind_some, hshown,
      List.flatMap_def]
    rfl

theorem lineRows_eq (hp : p.files.Serves p.routines) (hgroup : group.Exists p)
    (hline : 1 ≤ line) :
    lineRows options p group source line =
      some (Annotated.lineRows options p group source line) := by
  have hpos : line ≠ 0 := Nat.one_le_iff_ne_zero.1 hline
  rw [lineRows, lineText, if_neg hpos, details_eq hp hgroup]
  rfl

/-- **The lines that have a row are numbered from one.** -/
theorem pos_of_mem_listed {length : Nat} (h : line ∈ Annotated.listed p group length) :
    1 ≤ line := by
  rcases List.mem_append.1 h with h | h
  · exact (List.mem_range'_1.1 h).1
  · have hpast := (List.mem_filter.1 (Order.mem_ascending.1 h)).2
    exact Nat.lt_of_le_of_lt (Nat.zero_le length) (of_decide_eq_true hpast)

theorem listed_eq (hgroup : group.Exists p) (length : Nat) :
    listed p group length = some (Annotated.listed p group length) := by
  rw [listed, starting_eq hgroup]
  rfl

theorem body_eq (hp : p.files.Serves p.routines) (hgroup : group.Exists p) {lines : List Nat}
    (hlines : ∀ line ∈ lines, 1 ≤ line) {functions : List Routine}
    (hfunctions : ∀ f ∈ functions, f ∈ p.routines) :
    body options p group source lines functions =
      some (Annotated.body options p group source lines functions) := by
  induction lines generalizing functions with
  | nil => rfl
  | cons line lines ih =>
    have hbegun : (functions.takeWhile fun f => f.startLine ≤ line).mapM (functionRow options) =
        some ((functions.takeWhile fun f => f.startLine ≤ line).map
          (Annotated.functionRow options)) :=
      mapM_eq_some_map fun f hf => functionRow_eq
        (hp.routine f (hfunctions f ((List.takeWhile_sublist _).mem hf))).flow
    have hlater := List.dropWhile_sublist (l := functions) fun f => decide (f.startLine ≤ line)
    have hrest := ih (fun l hl => hlines l (List.mem_cons_of_mem line hl))
      fun f hf => hfunctions f (hlater.mem hf)
    rw [body, hbegun, lineRows_eq hp hgroup (hlines line List.mem_cons_self), hrest]
    rfl

/-- **An annotated source meets no number that does not exist.** -/
theorem rows_eq (hp : p.files.Serves p.routines) (hgroup : group.Exists p) (origin : Provenance) :
    rows options p group source origin = some (Annotated.rows options p group source origin) := by
  have hfunctions : ∀ f ∈ group.starting p, f ∈ p.routines := by
    intro f hf
    obtain ⟨i, -, hi⟩ := List.mem_filterMap.1 hf
    exact List.mem_iff_getElem?.2 ⟨i, hi⟩
  have hlines : ∀ line ∈ Annotated.listed p group source.length, 1 ≤ line := fun _ =>
    pos_of_mem_listed
  rw [rows, listed_eq hgroup, starting_eq hgroup]
  simp only [Option.bind_eq_bind, Option.bind_some, body_eq hp hgroup hlines hfunctions]
  rfl

end Checked

/-- **No index of a profile is ever out of range,** in whatever is asked of it: reading it with checks
has a result, and the same as without. -/
structure Profile.InRange (p : Profile) : Prop where
  flow : ∀ f ∈ p.routines, f.flow.InRange
  listing : Checked.listing p = some p.listing
  lineGroup : ∀ line, Checked.lineGroup p line = some (p.lineGroup line)
  fileGroups : ∀ options, Checked.fileGroups p options = some (p.fileGroups options)
  attributed : ∀ options, ∀ group ∈ p.fileGroups options, ∀ line ∈ group.lines,
    Checked.attributed p group line = some (group.attributed p line)
  rows : ∀ options, ∀ group ∈ p.fileGroups options, ∀ source origin,
    Checked.rows options p group source origin =
      some (Annotated.rows options p group source origin)

/-- **What a table of files serves is read within range.** -/
theorem FileTable.Serves.inRange {p : Profile} (hp : p.files.Serves p.routines) : p.InRange where
  flow f hf := (hp.routine f hf).flow.inRange
  listing := Checked.listing_eq hp
  lineGroup := Checked.lineGroup_eq hp
  fileGroups := Checked.fileGroups_eq hp
  attributed _ _ hgroup _ hline :=
    Checked.attributed_eq (Checked.exists_of_mem_fileGroups hgroup) hline
  rows _ _ hgroup _ origin :=
    Checked.rows_eq hp (Checked.exists_of_mem_fileGroups hgroup) origin

/-- **Every profile that files can make is well-formed:** its functions and their lines refer to its
files only, which are all different; arcs join existing blocks, whose lists of arcs are complete and
in order. So no index is ever out of range, of a solved graph, a listing or a report. -/
theorem Profile.Reachable.wellFormed_and_inRange {p : Profile} (h : p.Reachable) :
    p.files.names.Nodup ∧
      (∀ f ∈ p.routines, f.flow.WellFormed ∧ f.file < p.files.size ∧
        ∀ l ∈ f.flow.lines, 1 ≤ l.line ∧ l.file < p.files.size) ∧
      p.InRange := by
  have hp := h.serves
  refine ⟨hp.nodup, fun f hf => ?_, hp.inRange⟩
  obtain ⟨hflow, hfile, hpos, hlines⟩ := hp.routine f hf
  exact ⟨hflow, hfile, fun l hl => ⟨hpos l hl, hlines l hl⟩⟩

/-- Notes of one function, whose first arc is on the tree and whose middle block covers two lines. -/
def Profile.mainNotes : Draft :=
  ((((((Draft.notes ⟨0x34, 0x30, 0x37, 0x2a⟩).function 1 5 6 "main" "a.c" 1).blocks 3).arcs 0
    [⟨1, 1⟩]).arcs 1 [⟨2, 0⟩]).lines 1 "a.c" [2, 3])

/-- Data that count its second arc. -/
def Profile.mainData : Draft :=
  ((Draft.data ⟨0x34, 0x30, 0x37, 0x2a⟩).dataFunction 1 5 6).arcCounters [4]

/-- The profile of both. -/
def Profile.ofMain : Profile :=
  ((({} : Profile).readNotes mainNotes.encode).profile.readData mainData.encode).profile

/-- **A profile with counts is well-formed.** -/
theorem Profile.wellFormed_and_inRange_ofMain :
    (ofMain.routines.map fun f => f.flow.arcs.map Arc.count) = [[4, 4]] ∧
      ofMain.files.names.Nodup ∧
      (∀ f ∈ ofMain.routines, f.flow.WellFormed ∧ f.file < ofMain.files.size ∧
        ∀ l ∈ f.flow.lines, 1 ≤ l.line ∧ l.file < ofMain.files.size) ∧
      ofMain.InRange := by
  have hreachable : ofMain.Reachable := .data (.notes .start mainNotes.encode) mainData.encode
  exact ⟨by decide +kernel, hreachable.wellFormed_and_inRange⟩

end ArcCoverage

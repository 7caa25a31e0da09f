/-
# Flow graphs, read with checks

A number that names no block or no arc has a harmless meaning in `FlowGraph`: an empty block, no arc
at all. The functions of the namespace `Checked` do the same work, but have no result if they meet
such a number:

| with checks | without |
| --- | --- |
| `Checked.block`, `Checked.arcsOf` | `FlowGraph.block`, `FlowGraph.arcsOf` |
| `Checked.returnCount`, `Checked.bodyBlocks` | `FlowGraph.returnCount`, `FlowGraph.bodyBlocks` |
| `Checked.realOutArcs`, `Checked.isCallSite` | `FlowGraph.realOutArcs`, `FlowGraph.isCallSite` |
| `Checked.solve` | `FlowGraph.solve` |

In a well-formed graph they never meet one: both give the same (`FlowGraph.WellFormed.inRange`). For
solving, the invariant is that knowledge covers a graph (`Knowledge.Covers`), kept by every visit
(`Checked.visit_eq`).
-/
import ArcCoverage.Proofs.Flow.ArcLists
import ArcCoverage.Proofs.Flow.Inference

namespace ArcCoverage

namespace Checked

/-! ## Lists -/

section Lists

variable {α β : Type}

/-- The elements with a property, if it can be told of each. -/
def keep (p : α → Option Bool) : List α → Option (List α)
  | [] => some []
  | a :: as => do
    let here ← p a
    let rest ← keep p as
    return if here then a :: rest else rest

theorem keep_eq {p : α → Option Bool} {q : α → Bool} {as : List α}
    (h : ∀ a ∈ as, p a = some (q a)) : keep p as = some (as.filter q) := by
  induction as with
  | nil => rfl
  | cons a as ih =>
    rw [keep, h a List.mem_cons_self, ih fun b hb => h b (List.mem_cons_of_mem a hb),
      List.filter_cons]
    rfl

/-- The values of a list's elements, if each has one. -/
theorem mapM_eq_filterMap {f : α → Option β} {as : List α} (h : ∀ a ∈ as, (f a).isSome) :
    as.mapM f = some (as.filterMap f) := by
  induction as with
  | nil => rfl
  | cons a as ih =>
    obtain ⟨b, hb⟩ := Option.isSome_iff_exists.1 (h a List.mem_cons_self)
    rw [List.mapM_cons, hb, ih fun c hc => h c (List.mem_cons_of_mem a hc),
      List.filterMap_cons_some hb]
    rfl

/-- Steps with a result, as long as an invariant holds. -/
theorem foldlM_eq {f : β → α → Option β} {g : β → α → β} {P : β → Prop} {as : List α} {s : β}
    (hstep : ∀ s, ∀ a ∈ as, P s → f s a = some (g s a) ∧ P (g s a)) (h : P s) :
    as.foldlM f s = some (as.foldl g s) ∧ P (as.foldl g s) := by
  induction as generalizing s with
  | nil => exact ⟨rfl, h⟩
  | cons a as ih =>
    obtain ⟨hresult, hnext⟩ := hstep s a List.mem_cons_self h
    rw [List.foldlM_cons, hresult, List.foldl_cons]
    exact ih (fun s b hb => hstep s b (List.mem_cons_of_mem a hb)) hnext

end Lists

/-! ## What a report asks -/

/-- The block of a number, if there is one. -/
def block (g : FlowGraph) (b : Nat) : Option Block := g.blocks[b]?

/-- The arcs of a list of numbers, if there is one for each. -/
def arcsOf (g : FlowGraph) (numbers : List Nat) : Option (List Arc) := numbers.mapM (g.arcs[·]?)

/-- Whether an arc returns to the caller. -/
def isReturn (g : FlowGraph) (a : Arc) : Option Bool := do
  let b ← block g a.destination
  return !a.fake && a.destination != 0 && b.outArcs.isEmpty

/-- How often the function returned. -/
def returnCount (g : FlowGraph) : Option Count := do
  let returns ← keep (isReturn g) g.arcs
  return Count.total (returns.map Arc.count)

/-- Whether a block carries code. -/
def isBody (g : FlowGraph) (b : Nat) : Option Bool := do
  let body ← block g b
  return b != 0 && !body.outArcs.isEmpty

/-- The numbers of the blocks that carry code. -/
def bodyBlocks (g : FlowGraph) : Option (List Nat) := keep (isBody g) (List.range g.blocks.length)

/-- The arcs that leave a block. -/
def outArcs (g : FlowGraph) (b : Nat) : Option (List Arc) := do
  let left ← block g b
  arcsOf g left.outArcs

/-- The arcs that leave a block and model control flow. -/
def realOutArcs (g : FlowGraph) (b : Nat) : Option (List Arc) := do
  let arcs ← outArcs g b
  return arcs.filter (!·.fake)

/-- Whether a block ends in a call. -/
def isCallSite (g : FlowGraph) (b : Nat) : Option Bool := do
  let arcs ← outArcs g b
  return arcs.any Arc.fake

section Graphs

variable {g : FlowGraph} {b : Nat}

theorem block_eq (hb : b < g.blocks.length) : block g b = some (g.block b) :=
  FlowGraph.getElem?_blocks hb

theorem arcsOf_eq {numbers : List Nat} (h : ∀ a ∈ numbers, a < g.arcs.length) :
    arcsOf g numbers = some (g.arcsOf numbers) := by
  refine mapM_eq_filterMap fun a ha => ?_
  rw [List.getElem?_eq_getElem (h a ha)]
  rfl

theorem outArcs_eq (hg : g.WellFormed) (hb : b < g.blocks.length) :
    outArcs g b = some (g.outArcs b) := by
  have hmem : g.block b ∈ g.blocks := List.mem_iff_getElem?.2 ⟨b, FlowGraph.getElem?_blocks hb⟩
  rw [outArcs, block_eq hb]
  exact arcsOf_eq (hg.outArcs_lt hmem)

theorem realOutArcs_eq (hg : g.WellFormed) (hb : b < g.blocks.length) :
    realOutArcs g b = some (g.realOutArcs b) := by
  rw [realOutArcs, outArcs_eq hg hb]
  rfl

theorem isCallSite_eq (hg : g.WellFormed) (hb : b < g.blocks.length) :
    isCallSite g b = some (g.isCallSite b) := by
  rw [isCallSite, outArcs_eq hg hb]
  rfl

theorem returnCount_eq (hg : g.WellFormed) : returnCount g = some g.returnCount := by
  have hreturn : ∀ a ∈ g.arcs, isReturn g a = some (g.isReturn a) := by
    intro a ha
    rw [isReturn, block_eq (hg.destination_lt a ha)]
    rfl
  rw [returnCount, keep_eq hreturn]
  rfl

theorem isBody_eq (hb : b < g.blocks.length) : isBody g b = some (g.isBody b) := by
  rw [isBody, block_eq hb]
  rfl

theorem bodyBlocks_eq (g : FlowGraph) : bodyBlocks g = some g.bodyBlocks :=
  keep_eq fun _ hb => isBody_eq (List.mem_range.1 hb)

end Graphs

/-! ## Solving -/

/-- The sum of a list of arcs, if it is not empty and all are known; each of them exists. -/
def sum (k : Knowledge) (numbers : List Nat) : Option (Option Count) := do
  let counts ← numbers.mapM (k.arcs[·]?)
  return if numbers.isEmpty then none else (counts.mapM id).map Count.total

/-- The only unknown arc of a list. -/
def missing (k : Knowledge) (numbers : List Nat) : Option (Option Nat) := do
  let unknown ← keep (fun a => (k.arcs[a]?).map Option.isNone) numbers
  return match unknown with
    | [a] => some a
    | _ => none

/-- The sum of what is known of the arcs of a list other than one. -/
def others (k : Knowledge) (numbers : List Nat) (a : Nat) : Option Count := do
  let counts ← (numbers.filter (· != a)).mapM (k.arcs[·]?)
  return Count.total (counts.map (·.getD 0))

/-- The arc that a list of a block with a known count leaves open, filled in. -/
def fillArc (k : Knowledge) (count : Count) (numbers : List Nat) : Option Knowledge := do
  match ← missing k numbers with
  | none => return k
  | some a =>
    let rest ← others k numbers a
    if a < k.arcs.length then
      return { k with arcs := k.arcs.set a (some (count.minus rest)) }
    else none

/-- A block's count, from its arcs in or else from its arcs out. -/
def fillBlock (k : Knowledge) (number : Nat) (b : Block) : Option Knowledge := do
  let known ← k.blocks[number]?
  if known.isSome then return k
  let taken ← sum k b.inArcs
  let given ← sum k b.outArcs
  return { k with blocks := k.blocks.set number (taken.or given) }

/-- Both rules at one block. -/
def visit (k : Knowledge) (b : Block) (number : Nat) : Option Knowledge := do
  let k ← fillBlock k number b
  match ← k.blocks[number]? with
  | none => return k
  | some count =>
    let k ← fillArc k count b.inArcs
    fillArc k count b.outArcs

/-- Both rules at every block, in order. -/
def pass (blocks : List Block) (k : Knowledge) : Option Knowledge :=
  blocks.zipIdx.foldlM (fun k (b, number) => visit k b number) k

/-- Passes until nothing changes. -/
def settle (blocks : List Block) : Nat → Knowledge → Option Knowledge
  | 0, k => return k
  | fuel + 1, k => do
    let k' ← pass blocks k
    if k' = k then return k else settle blocks fuel k'

/-- The graph with the counts that are known. -/
def withCounts (g : FlowGraph) (k : Knowledge) : Option FlowGraph := do
  let arcs ← g.arcs.zipIdx.mapM fun (a, i) =>
    (k.arcs[i]?).map fun known => { a with count := known.getD 0 }
  let blocks ← g.blocks.zipIdx.mapM fun (b, i) =>
    (k.blocks[i]?).map fun known => { b with count := known.getD b.count }
  return { arcs, blocks }

/-- All counts that follow from those of the instrumented arcs. -/
def solve (g : FlowGraph) : Option FlowGraph := do
  let k ← settle g.blocks (g.arcs.length + g.blocks.length) g.measured
  withCounts g k

end Checked

/-- **Knowledge that covers some blocks:** there is an entry for each of them, and for each arc that
they list. -/
structure Knowledge.Covers (k : Knowledge) (blocks : List Block) : Prop where
  length_blocks : k.blocks.length = blocks.length
  inArcs_lt : ∀ b ∈ blocks, ∀ a ∈ b.inArcs, a < k.arcs.length
  outArcs_lt : ∀ b ∈ blocks, ∀ a ∈ b.outArcs, a < k.arcs.length

namespace Checked

variable {k k' : Knowledge} {blocks : List Block} {b : Block} {n : Nat} {numbers : List Nat}

/-- **Inferences keep what is covered.** -/
theorem covers_of_derives (h : k.Covers blocks) (hsteps : Knowledge.Derives blocks k k') :
    k'.Covers blocks where
  length_blocks := hsteps.length_blocks.trans h.length_blocks
  inArcs_lt b hb a ha := hsteps.length_arcs.symm ▸ h.inArcs_lt b hb a ha
  outArcs_lt b hb a ha := hsteps.length_arcs.symm ▸ h.outArcs_lt b hb a ha

theorem getElem?_arcs {a : Nat} (ha : a < k.arcs.length) : k.arcs[a]? = some (k.arc a) := by
  rw [Knowledge.arc, List.getElem?_eq_getElem ha]
  rfl

theorem getElem?_blocks (hn : n < k.blocks.length) : k.blocks[n]? = some (k.block n) := by
  rw [Knowledge.block, List.getElem?_eq_getElem hn]
  rfl

theorem sum_eq (h : ∀ a ∈ numbers, a < k.arcs.length) : sum k numbers = some (k.sum? numbers) := by
  have hcounts : numbers.mapM (k.arcs[·]?) = some (numbers.map k.arc) :=
    mapM_eq_some_map fun a ha => getElem?_arcs (h a ha)
  rw [sum, hcounts, Knowledge.sum?]
  simp only [Option.bind_eq_bind, Option.bind_some, List.mapM_map]
  rfl

theorem missing_eq (h : ∀ a ∈ numbers, a < k.arcs.length) :
    missing k numbers = some (k.missing? numbers) := by
  have hunknown : keep (fun a => (k.arcs[a]?).map Option.isNone) numbers =
      some (numbers.filter fun a => (k.arc a).isNone) :=
    keep_eq fun a ha => by rw [getElem?_arcs (h a ha), Option.map_some]
  rw [missing, hunknown]
  rfl

theorem others_eq (h : ∀ a ∈ numbers, a < k.arcs.length) (a : Nat) :
    others k numbers a = some (k.others numbers a) := by
  have hcounts : (numbers.filter (· != a)).mapM (k.arcs[·]?) =
      some ((numbers.filter (· != a)).map k.arc) :=
    mapM_eq_some_map fun c hc => getElem?_arcs (h c (List.mem_of_mem_filter hc))
  rw [others, hcounts, Knowledge.others]
  simp only [Option.bind_eq_bind, Option.bind_some, List.map_map]
  rfl

theorem fillArc_eq (h : ∀ a ∈ numbers, a < k.arcs.length) (count : Count) :
    fillArc k count numbers = some (k.fillArc count numbers) := by
  rw [fillArc, missing_eq h, Knowledge.fillArc]
  cases hm : k.missing? numbers with
  | none => rfl
  | some a =>
    have ha := h a (Knowledge.mem_of_missing? hm).1
    simp only [Option.bind_eq_bind, Option.bind_some, others_eq h, if_pos ha]
    rfl

theorem fillBlock_eq (hn : n < k.blocks.length) (hin : ∀ a ∈ b.inArcs, a < k.arcs.length)
    (hout : ∀ a ∈ b.outArcs, a < k.arcs.length) :
    fillBlock k n b = some (k.fillBlock n b) := by
  rw [fillBlock, getElem?_blocks hn, Knowledge.fillBlock, sum_eq hin, sum_eq hout]
  simp only [Option.bind_eq_bind, Option.bind_some]
  split_ifs <;> rfl

/-- **A visit meets no number that does not exist.** -/
theorem visit_eq (h : k.Covers blocks) (hb : blocks[n]? = some b) :
    visit k b n = some (k.visit b n) := by
  have hmem : b ∈ blocks := List.mem_iff_getElem?.2 ⟨n, hb⟩
  have hn : n < k.blocks.length := h.length_blocks ▸ (List.getElem?_eq_some_iff.1 hb).1
  have hfilled := covers_of_derives h (Knowledge.derives_fillBlock hb)
  have hfill := fillBlock_eq hn (h.inArcs_lt b hmem) (h.outArcs_lt b hmem)
  have hknown : (k.fillBlock n b).blocks[n]? = some ((k.fillBlock n b).block n) :=
    getElem?_blocks (by rw [hfilled.length_blocks, ← h.length_blocks]; exact hn)
  rw [visit, hfill]
  simp only [Option.bind_eq_bind, Option.bind_some, hknown]
  cases hc : (k.fillBlock n b).block n with
  | none => rw [Knowledge.visit_of_none hc]; rfl
  | some c =>
    have hentered := covers_of_derives hfilled (Knowledge.derives_fillArc hb hc (.inl rfl))
    simp only [fillArc_eq (hfilled.inArcs_lt b hmem), Option.bind_some,
      fillArc_eq (hentered.outArcs_lt b hmem), Knowledge.visit_of_some hc]

theorem pass_eq (h : k.Covers blocks) : pass blocks k = some (k.pass blocks) := by
  refine (foldlM_eq (P := fun k => k.Covers blocks) (fun k v hv hk => ?_) h).1
  have hb := Knowledge.getElem?_of_mem_zipIdx hv
  exact ⟨visit_eq hk hb, covers_of_derives hk (Knowledge.derives_visit hb)⟩

/-- **Nor do all passes.** -/
theorem settle_eq (h : k.Covers blocks) (fuel : Nat) :
    settle blocks fuel k = some (k.settle blocks fuel) := by
  induction fuel generalizing k with
  | zero => rfl
  | succ fuel ih =>
    rw [settle, pass_eq h, Knowledge.settle]
    simp only [Option.bind_eq_bind, Option.bind_some]
    split_ifs
    · rfl
    · exact ih (covers_of_derives h (Knowledge.derives_pass blocks k))

theorem withCounts_eq {g : FlowGraph} (harcs : k.arcs.length = g.arcs.length)
    (hblocks : k.blocks.length = g.blocks.length) : withCounts g k = some (g.withCounts k) := by
  have hlt {α : Type} {as : List α} {v : α × Nat} (hv : v ∈ as.zipIdx) : v.2 < as.length :=
    (List.getElem?_eq_some_iff.1 (List.mem_zipIdx_iff_getElem?.1 hv)).1
  have ha : g.arcs.zipIdx.mapM (fun (a, i) =>
      (k.arcs[i]?).map fun known => { a with count := known.getD 0 }) =
      some (g.withCounts k).arcs :=
    mapM_eq_some_map fun ⟨a, i⟩ hv => by
      have hi : i < k.arcs.length := harcs ▸ hlt hv
      simp only [getElem?_arcs hi, Option.map_some]
  have hb : g.blocks.zipIdx.mapM (fun (b, i) =>
      (k.blocks[i]?).map fun known => { b with count := known.getD b.count }) =
      some (g.withCounts k).blocks :=
    mapM_eq_some_map fun ⟨b, i⟩ hv => by
      have hi : i < k.blocks.length := hblocks ▸ hlt hv
      simp only [getElem?_blocks hi, Option.map_some]
  rw [withCounts, ha, hb]
  rfl

theorem covers_measured {g : FlowGraph} (hg : g.WellFormed) : g.measured.Covers g.blocks := by
  have harcs : g.measured.arcs.length = g.arcs.length := List.length_map _
  exact ⟨List.length_map _, fun b hb a ha => harcs ▸ hg.inArcs_lt hb a ha,
    fun b hb a ha => harcs ▸ hg.outArcs_lt hb a ha⟩

theorem solve_eq {g : FlowGraph} (hg : g.WellFormed) : solve g = some g.solve := by
  rw [solve, settle_eq (covers_measured hg)]
  exact withCounts_eq g.length_arcs_derived g.length_blocks_derived

end Checked

/-- **No index of a graph is ever out of range:** reading it with checks has a result, the same as
without. Solving has one whatever the counts are. -/
structure FlowGraph.InRange (g : FlowGraph) : Prop where
  solve : ∀ g', g'.uncounted = g.uncounted → Checked.solve g' = some g'.solve
  returnCount : Checked.returnCount g = some g.returnCount
  bodyBlocks : Checked.bodyBlocks g = some g.bodyBlocks
  realOutArcs : ∀ b < g.blocks.length, Checked.realOutArcs g b = some (g.realOutArcs b)
  isCallSite : ∀ b < g.blocks.length, Checked.isCallSite g b = some (g.isCallSite b)

/-- **Well-formed graphs are read within range.** -/
theorem FlowGraph.WellFormed.inRange {g : FlowGraph} (hg : g.WellFormed) : g.InRange where
  solve _ hshape := Checked.solve_eq ((wellFormed_congr hshape).2 hg)
  returnCount := Checked.returnCount_eq hg
  bodyBlocks := Checked.bodyBlocks_eq g
  realOutArcs _ hb := Checked.realOutArcs_eq hg hb
  isCallSite _ hb := Checked.isCallSite_eq hg hb

end ArcCoverage

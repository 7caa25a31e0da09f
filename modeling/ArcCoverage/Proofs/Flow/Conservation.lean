/-
# Conserved flows

A flow says of every arc how often it was taken. A graph conserves it if at every block with arcs on
both sides as much comes in as goes out; a block then runs as often as flow passes it
(`FlowGraph.throughput`):

| block | runs as often as |
| --- | --- |
| with arcs in | those are taken |
| without arcs in | its arcs out are taken |

If the instrumented arcs count a conserved flow, whose sums fit into a count, every inference repeats
it: the invariant is `Knowledge.Agrees`, kept by each inference (`Infers.agrees`). So solving invents
nothing, whichever arcs are on the tree: what it cannot derive is zero
(`solve_invents_nothing`).
-/
import ArcCoverage.Proofs.Flow.Inference
import ArcCoverage.Proofs.Profile.Assembly

namespace ArcCoverage

/-- **The sum of a flow** over some arcs. -/
def carried (flow : Nat → Nat) (numbers : List Nat) : Nat :=
  numbers.foldr (fun a n => flow a + n) 0

section Carried

variable {flow : Nat → Nat}

theorem carried_cons (a : Nat) (numbers : List Nat) :
    carried flow (a :: numbers) = flow a + carried flow numbers := rfl

theorem le_carried {numbers : List Nat} {a : Nat} (h : a ∈ numbers) :
    flow a ≤ carried flow numbers := by
  induction numbers with
  | nil => exact absurd h List.not_mem_nil
  | cons b numbers ih =>
    rw [carried_cons]
    rcases List.mem_cons.1 h with rfl | h
    · omega
    · have := ih h
      omega

/-- A list without repetition carries what one arc of it does, and what the others do. -/
theorem carried_eq_add_others {numbers : List Nat} {a : Nat} (hnodup : numbers.Nodup)
    (h : a ∈ numbers) :
    carried flow numbers = flow a + carried flow (numbers.filter (· != a)) := by
  induction numbers with
  | nil => exact absurd h List.not_mem_nil
  | cons b numbers ih =>
    obtain ⟨hb, hnodup⟩ := List.nodup_cons.1 hnodup
    rcases List.mem_cons.1 h with rfl | h
    · have hrest : numbers.filter (· != a) = numbers :=
        List.filter_eq_self.2 fun c hc => by simpa using fun he : c = a => hb (he ▸ hc)
      rw [List.filter_cons_of_neg (by simp), hrest, carried_cons]
    · have hne : b ≠ a := fun he => hb (he ▸ h)
      rw [List.filter_cons_of_pos (by simpa using hne), carried_cons, carried_cons, ih hnodup h]
      omega

/-- A list of counts that are those of a flow adds up to what the flow carries. -/
theorem exactTotal_map_eq_carried {count : Nat → Count} {numbers : List Nat}
    (h : ∀ a ∈ numbers, (count a).toNat = flow a) :
    Count.exactTotal (numbers.map count) = carried flow numbers := by
  induction numbers with
  | nil => rfl
  | cons a numbers ih =>
    rw [List.map_cons, Count.exactTotal_cons, carried_cons, h a List.mem_cons_self,
      ih fun b hb => h b (List.mem_cons_of_mem _ hb)]

end Carried

namespace FlowGraph

/-- The arcs that enter a block. -/
def arcsInto (g : FlowGraph) (b : Nat) : List Nat := g.arcNumbers (·.destination == b)

/-- The arcs that leave a block. -/
def arcsFrom (g : FlowGraph) (b : Nat) : List Nat := g.arcNumbers (·.source == b)

/-- What a flow brings into a block. -/
def inflow (g : FlowGraph) (flow : Nat → Nat) (b : Nat) : Nat := carried flow (g.arcsInto b)

/-- What a flow takes out of a block. -/
def outflow (g : FlowGraph) (flow : Nat → Nat) (b : Nat) : Nat := carried flow (g.arcsFrom b)

/-- **What passes a block:** what comes in, or what goes out if no arc enters it. -/
def throughput (g : FlowGraph) (flow : Nat → Nat) (b : Nat) : Nat :=
  if g.arcsInto b = [] then g.outflow flow b else g.inflow flow b

/-- **A conserved flow:** blocks with arcs on both sides take in what they give out, and no sum is
larger than a count can be. -/
structure Conserves (g : FlowGraph) (flow : Nat → Nat) : Prop where
  balanced : ∀ b < g.blocks.length, g.arcsInto b ≠ [] → g.arcsFrom b ≠ [] →
    g.inflow flow b = g.outflow flow b
  inflow_le : ∀ b < g.blocks.length, g.inflow flow b ≤ Count.limit
  outflow_le : ∀ b < g.blocks.length, g.outflow flow b ≤ Count.limit

variable {g g' : FlowGraph} {flow : Nat → Nat} {b : Nat}

theorem Conserves.throughput_le (h : g.Conserves flow) (hb : b < g.blocks.length) :
    g.throughput flow b ≤ Count.limit := by
  unfold throughput
  split_ifs
  · exact h.outflow_le b hb
  · exact h.inflow_le b hb

/-- A block with arcs in lets through what they bring. -/
theorem throughput_eq_inflow (hin : g.arcsInto b ≠ []) : g.throughput flow b = g.inflow flow b :=
  if_neg hin

/-- A block with arcs out lets through what they take. -/
theorem Conserves.throughput_eq_outflow (h : g.Conserves flow) (hb : b < g.blocks.length)
    (hout : g.arcsFrom b ≠ []) : g.throughput flow b = g.outflow flow b := by
  unfold throughput
  split_ifs with hin
  · rfl
  · exact h.balanced b hb hin hout

/-- A list of a block, with what a conserved flow carries over it. -/
theorem Conserves.carried_list (h : g.Conserves flow) (hg : g.WellFormed)
    {block : Block} {numbers : List Nat} (hb : g.blocks[b]? = some block)
    (hl : numbers = block.inArcs ∨ numbers = block.outArcs) (hne : numbers ≠ []) :
    numbers.Nodup ∧ carried flow numbers = g.throughput flow b := by
  obtain ⟨hlt, rfl⟩ := List.getElem?_eq_some_iff.1 hb
  rw [← block_eq_getElem hlt] at hl
  rcases hl with rfl | rfl
  · rw [hg.inArcs_eq b hlt] at hne ⊢
    exact ⟨nodup_arcNumbers _, (throughput_eq_inflow hne).symm⟩
  · rw [hg.outArcs_eq b hlt] at hne ⊢
    exact ⟨nodup_arcNumbers _, (h.throughput_eq_outflow hlt hne).symm⟩

end FlowGraph

/-! ## Inferences repeat a conserved flow -/

namespace Knowledge

/-- **All that is known is true of a flow.** -/
structure Agrees (k : Knowledge) (g : FlowGraph) (flow : Nat → Nat) : Prop where
  arc : ∀ a c, k.arc a = some c → c.toNat = flow a
  block : ∀ n c, k.block n = some c → c.toNat = g.throughput flow n

variable {k k' : Knowledge} {g : FlowGraph} {flow : Nat → Nat}

theorem Agrees.toNat_getD (h : k.Agrees g flow) {a : Nat} (ha : (k.arc a).isSome) :
    ((k.arc a).getD 0).toNat = flow a := by
  obtain ⟨c, hc⟩ := Option.isSome_iff_exists.1 ha
  rw [hc, Option.getD_some]
  exact h.arc a c hc

/-- A known sum is what the flow carries. -/
theorem Agrees.toNat_sum? (h : k.Agrees g flow) {numbers : List Nat} {c : Count}
    (hsum : k.sum? numbers = some c) (hle : carried flow numbers ≤ Count.limit) :
    c.toNat = carried flow numbers := by
  obtain ⟨-, hall, rfl⟩ := sum?_eq_some.1 hsum
  rw [Count.toNat_total, exactTotal_map_eq_carried fun a ha => h.toNat_getD (hall a ha)]
  exact Nat.min_eq_left hle

/-- The others of a list, if one arc of it is not known, are what the flow carries over them. -/
theorem Agrees.toNat_others (h : k.Agrees g flow) {numbers : List Nat} {a : Nat}
    (hm : k.missing? numbers = some a)
    (hle : carried flow (numbers.filter (· != a)) ≤ Count.limit) :
    (k.others numbers a).toNat = carried flow (numbers.filter (· != a)) := by
  have hknown : ∀ b ∈ numbers.filter (· != a), ((k.arc b).getD 0).toNat = flow b := by
    intro b hb
    obtain ⟨hmem, hne⟩ := List.mem_filter.1 hb
    exact h.toNat_getD (isSome_of_missing? hm hmem (bne_iff_ne.1 hne))
  rw [others, Count.toNat_total, exactTotal_map_eq_carried hknown]
  exact Nat.min_eq_left hle

/-- **An inference repeats the flow.** -/
theorem Infers.agrees (hg : g.WellFormed) (hflow : g.Conserves flow)
    (hstep : Infers g.blocks k k') (h : k.Agrees g flow) : k'.Agrees g flow := by
  cases hstep with
  | @block n b c at_block _ sum =>
    refine ⟨h.arc, fun n' c' hc' => ?_⟩
    rw [block_learnBlock] at hc'
    split_ifs at hc' with hn
    · obtain ⟨rfl, -⟩ := hn
      obtain rfl := Option.some.inj hc'
      obtain ⟨numbers, hl, hsum⟩ := exists_known_list sum
      obtain ⟨-, hcarried⟩ := hflow.carried_list hg at_block hl (sum?_eq_some.1 hsum).1
      have hlt := (List.getElem?_eq_some_iff.1 at_block).1
      rw [h.toNat_sum? hsum (hcarried ▸ hflow.throughput_le hlt), hcarried]
    · exact h.block n' c' hc'
  | @arc n b c numbers a at_block known list missing =>
    refine ⟨fun a' c' hc' => ?_, h.block⟩
    rw [arc_learnArc] at hc'
    split_ifs at hc' with ha
    · obtain ⟨rfl, -⟩ := ha
      obtain rfl := Option.some.inj hc'
      have hmem := (mem_of_missing? missing).1
      obtain ⟨hnodup, hcarried⟩ := hflow.carried_list hg at_block list (List.ne_nil_of_mem hmem)
      -- the block's count is what the whole list carries, so the others leave the arc's part of it
      have hsplit : carried flow numbers = flow a + carried flow (numbers.filter (· != a)) :=
        carried_eq_add_others hnodup hmem
      have hle := hflow.throughput_le (List.getElem?_eq_some_iff.1 at_block).1
      have hothers := h.toNat_others missing (by omega)
      rw [Count.toNat_minus, h.block n c known, hothers]
      omega
    · exact h.arc a' c' hc'

/-- **A run of inferences repeats the flow.** -/
theorem Derives.agrees (hg : g.WellFormed) (hflow : g.Conserves flow)
    (hsteps : Derives g.blocks k k') (h : k.Agrees g flow) : k'.Agrees g flow := by
  induction hsteps with
  | refl => exact h
  | tail _ hstep ih => exact hstep.agrees hg hflow ih

end Knowledge

/-! ## Solving repeats it -/

namespace FlowGraph

variable {g g' : FlowGraph} {flow : Nat → Nat}

theorem arcsInto_congr (h : g.uncounted = g'.uncounted) (b : Nat) :
    g.arcsInto b = g'.arcsInto b := by
  have hfree (g : FlowGraph) : g.uncounted.arcsInto b = g.arcsInto b :=
    arcNumbers_uncounted fun _ => rfl
  rw [← hfree g, h, hfree g']

theorem arcsFrom_congr (h : g.uncounted = g'.uncounted) (b : Nat) :
    g.arcsFrom b = g'.arcsFrom b := by
  have hfree (g : FlowGraph) : g.uncounted.arcsFrom b = g.arcsFrom b :=
    arcNumbers_uncounted fun _ => rfl
  rw [← hfree g, h, hfree g']

theorem throughput_congr (h : g.uncounted = g'.uncounted) (b : Nat) :
    g.throughput flow b = g'.throughput flow b := by
  simp only [throughput, inflow, outflow, arcsInto_congr h, arcsFrom_congr h]

/-- **What a graph conserves depends on its shape only.** -/
theorem Conserves.congr (hflow : g.Conserves flow) (h : g.uncounted = g'.uncounted) :
    g'.Conserves flow := by
  have hlength : g.blocks.length = g'.blocks.length := by
    rw [← length_blocks_uncounted, h, length_blocks_uncounted]
  obtain ⟨balanced, inflow_le, outflow_le⟩ := hflow
  simp only [inflow, outflow, arcsInto_congr h, arcsFrom_congr h, hlength] at *
  exact ⟨balanced, inflow_le, outflow_le⟩

/-- **If the counters count a conserved flow, all that is derived is true of it.** -/
theorem agrees_derived (hg : g.WellFormed) (hflow : g.Conserves flow)
    (hcounted : ∀ i a, g.arcs[i]? = some a → a.onTree = false → a.count.toNat = flow i) :
    g.derived.Agrees g flow := by
  refine g.derives_derived.agrees hg hflow ⟨fun i c hc => ?_, fun n c hc => ?_⟩
  · cases ha : g.arcs[i]? with
    | none =>
      rw [Knowledge.arc, measured, List.getElem?_map, ha] at hc
      exact absurd hc (Option.some_ne_none c).symm
    | some a =>
      rw [arc_measured ha] at hc
      split_ifs at hc with htree
      exact Option.some.inj hc ▸ hcounted i a ha (Bool.eq_false_iff.2 htree)
  · rw [block_measured] at hc
    exact absurd hc (Option.some_ne_none c).symm

/-- A count that is true of the flow where it is known is the flow's or zero. -/
theorem toNat_getD_or_zero {o : Option Count} {n : Nat} (h : ∀ c, o = some c → c.toNat = n) :
    (o.getD 0).toNat = n ∨ o.getD 0 = 0 := by
  cases o with
  | none => exact .inr rfl
  | some c => exact .inl (h c rfl)

/-- **Solving invents no count of an arc.** -/
theorem count_arcs_solve (hg : g.WellFormed) (hflow : g.Conserves flow)
    (hcounted : ∀ i a, g.arcs[i]? = some a → a.onTree = false → a.count.toNat = flow i)
    {i : Nat} {a : Arc} (ha : g.solve.arcs[i]? = some a) :
    (a.onTree = false → a.count.toNat = flow i) ∧ (a.count.toNat = flow i ∨ a.count = 0) := by
  have hagrees := agrees_derived hg hflow hcounted
  rw [getElem?_arcs_solve] at ha
  obtain ⟨before, hbefore, rfl⟩ := Option.map_eq_some_iff.1 ha
  refine ⟨fun htree => ?_, toNat_getD_or_zero (hagrees.arc i)⟩
  change ((g.derived.arc i).getD 0).toNat = flow i
  rw [arc_derived_of_counted hbefore htree]
  exact hcounted i before hbefore htree

/-- **Solving invents no count of a block.** -/
theorem count_blocks_solve (hg : g.WellFormed) (hflow : g.Conserves flow)
    (hcounted : ∀ i a, g.arcs[i]? = some a → a.onTree = false → a.count.toNat = flow i)
    (hzero : ∀ b ∈ g.blocks, b.count = 0) {n : Nat} {b : Block} (hb : g.solve.blocks[n]? = some b) :
    b.count.toNat = g.throughput flow n ∨ b.count = 0 := by
  have hagrees := agrees_derived hg hflow hcounted
  rw [getElem?_blocks_solve] at hb
  obtain ⟨before, hbefore, rfl⟩ := Option.map_eq_some_iff.1 hb
  change ((g.derived.block n).getD before.count).toNat = _ ∨
    (g.derived.block n).getD before.count = 0
  rw [hzero before (List.mem_iff_getElem?.2 ⟨n, hbefore⟩)]
  exact toNat_getD_or_zero (hagrees.block n)

theorem carried_zero (numbers : List Nat) : carried (fun _ => 0) numbers = 0 := by
  induction numbers with
  | nil => rfl
  | cons a numbers ih => rw [carried_cons, ih]

theorem conserves_zero (g : FlowGraph) : g.Conserves fun _ => 0 where
  balanced _ _ _ _ := by rw [inflow, outflow, carried_zero, carried_zero]
  inflow_le _ _ := by rw [inflow, carried_zero]; exact Nat.zero_le _
  outflow_le _ _ := by rw [outflow, carried_zero]; exact Nat.zero_le _

theorem throughput_zero (g : FlowGraph) (b : Nat) : g.throughput (fun _ => 0) b = 0 := by
  unfold throughput inflow outflow
  rw [carried_zero, carried_zero, ite_self]

/-- **Nothing comes of nothing.** -/
theorem solve_zero (hg : g.WellFormed) (hzero : ∀ b ∈ g.blocks, b.count = 0)
    (hcounted : ∀ (i : Nat) (a : Arc), g.arcs[i]? = some a → a.onTree = false →
      a.count.toNat = 0) :
    (∀ a ∈ g.solve.arcs, a.count = 0) ∧ ∀ b ∈ g.solve.blocks, b.count = 0 := by
  refine ⟨fun a ha => ?_, fun b hb => ?_⟩
  · obtain ⟨i, hi⟩ := List.mem_iff_getElem?.1 ha
    have := (count_arcs_solve hg g.conserves_zero hcounted hi).2
    exact this.elim (fun h => UInt64.toNat_inj.1 (h.trans UInt64.toNat_zero.symm)) id
  · obtain ⟨n, hn⟩ := List.mem_iff_getElem?.1 hb
    have := count_blocks_solve hg g.conserves_zero hcounted hzero hn
    rw [throughput_zero] at this
    exact this.elim (fun h => UInt64.toNat_inj.1 (h.trans UInt64.toNat_zero.symm)) id

/-- **The graph whose arcs hold some counts,** by their numbers. -/
def holding (g : FlowGraph) (held : Nat → Count) : FlowGraph :=
  { g with arcs := g.arcs.zipIdx.map fun (a, i) => { a with count := held i } }

variable {held : Nat → Count}

theorem getElem?_arcs_holding (g : FlowGraph) (held : Nat → Count) (i : Nat) :
    (g.holding held).arcs[i]? = (g.arcs[i]?).map fun a => { a with count := held i } := by
  simp only [holding, List.getElem?_map, List.getElem?_zipIdx, Option.map_map, Function.comp_def,
    Nat.zero_add]

theorem uncounted_holding (g : FlowGraph) (held : Nat → Count) :
    (g.holding held).uncounted = g.uncounted := by
  have harcs : (g.holding held).arcs.map Arc.uncounted = g.arcs.map Arc.uncounted := by
    rw [holding, List.map_map]
    refine map_zipIdx_eq_map (fun _ => ?_) g.arcs
    rfl
  rw [uncounted, harcs]
  rfl

/-- Counters that hold a flow count it. -/
theorem count_holding (hheld : ∀ i a, g.arcs[i]? = some a → a.onTree = false →
    (held i).toNat = flow i) {i : Nat} {a : Arc} (ha : (g.holding held).arcs[i]? = some a)
    (htree : a.onTree = false) : a.count.toNat = flow i := by
  rw [getElem?_arcs_holding] at ha
  obtain ⟨before, hbefore, rfl⟩ := Option.map_eq_some_iff.1 ha
  exact hheld i before hbefore htree

end FlowGraph

/-- **Solving never invents a count.** Whatever arcs of an assembled function are on the tree, and
whatever stale counts those hold: if its instrumented arcs hold a conserved flow, solving keeps what
they hold, gives every arc on the tree what the flow carries over it or zero, and every block what
passes it or zero. If the counters are all zero, so is everything. -/
theorem Routine.Assembled.solve_invents_nothing {f : Routine} (hf : f.Assembled) {flow : Nat → Nat}
    (hflow : f.flow.Conserves flow) {held : Nat → Count}
    (hheld : ∀ i a, f.flow.arcs[i]? = some a → a.onTree = false → (held i).toNat = flow i) :
    let solved := (f.flow.holding held).solve
    solved.uncounted = f.flow ∧
      (∀ i a, solved.arcs[i]? = some a → a.onTree = false → a.count.toNat = flow i) ∧
      (∀ i a, solved.arcs[i]? = some a → a.onTree = true →
        a.count.toNat = flow i ∨ a.count = 0) ∧
      (∀ n b, solved.blocks[n]? = some b →
        b.count.toNat = f.flow.throughput flow n ∨ b.count = 0) ∧
      ((∀ i a, f.flow.arcs[i]? = some a → a.onTree = false → held i = 0) →
        (∀ a ∈ solved.arcs, a.count = 0) ∧ ∀ b ∈ solved.blocks, b.count = 0) := by
  intro solved
  have hshape := f.flow.uncounted_holding held
  have hg := (FlowGraph.wellFormed_congr hshape).2 hf.wellFormed
  have hcount : ∀ i a, (f.flow.holding held).arcs[i]? = some a → a.onTree = false →
      a.count.toNat = flow i := fun _ _ => FlowGraph.count_holding hheld
  have hzero : ∀ b ∈ (f.flow.holding held).blocks, b.count = 0 := hf.count_blocks
  have harcs := fun i a => FlowGraph.count_arcs_solve hg (hflow.congr hshape.symm) hcount (i := i)
    (a := a)
  refine ⟨?_, fun i a ha => (harcs i a ha).1, fun i a ha _ => (harcs i a ha).2, fun n b hb => ?_,
    fun hnone => ?_⟩
  · rw [FlowGraph.uncounted_solve, hshape, hf.uncounted_flow]
  · rw [← FlowGraph.throughput_congr hshape]
    exact FlowGraph.count_blocks_solve hg (hflow.congr hshape.symm) hcount hzero hb
  · have hheld₀ : ∀ i a, f.flow.arcs[i]? = some a → a.onTree = false → (held i).toNat = 0 := by
      intro i a ha htree
      rw [hnone i a ha htree, UInt64.toNat_zero]
    exact FlowGraph.solve_zero hg hzero fun _ _ => FlowGraph.count_holding hheld₀

/-- **A whirl:** the loop at the second block is on the tree, so its count stays unknown. -/
def Routine.whirl : Routine where
  ident := 7
  lineChecksum := 1
  flowChecksum := 2
  name := "whirl"
  file := 0
  startLine := 3
  flow := (((FlowGraph.empty 3).addArc 0 1 1).addArc 1 1 1).addArc 1 2 0

theorem Routine.assembled_whirl : Routine.whirl.Assembled := by
  have hbegun := Assembled.begun ⟨7, 1, 2, "whirl", "whirl.c", 3⟩ 0
  have hblocks : Assembled { whirl with flow := .empty 3 } := hbegun.blocks (n := 3) rfl
  have hinto := hblocks.addArc 0 1 1 (by decide) (by decide)
  have hloop := hinto.addArc 1 1 1 (by decide) (by decide)
  exact hloop.addArc 1 2 0 (by decide) (by decide)

/-- **The whirl's stale counts of nine** do not stay. -/
theorem Routine.solve_invents_nothing_of_whirl :
    let flow := fun a => [3, 4, 3].getD a 0
    let held : Nat → Count := fun a => [9, 9, 3].getD a 0
    let solved := (whirl.flow.holding held).solve
    solved.uncounted = whirl.flow ∧
      (∀ i a, solved.arcs[i]? = some a → a.onTree = false → a.count.toNat = flow i) ∧
      (∀ i a, solved.arcs[i]? = some a → a.onTree = true →
        a.count.toNat = flow i ∨ a.count = 0) ∧
      (∀ n b, solved.blocks[n]? = some b →
        b.count.toNat = whirl.flow.throughput flow n ∨ b.count = 0) ∧
      ((∀ i a, whirl.flow.arcs[i]? = some a → a.onTree = false → held i = 0) →
        (∀ a ∈ solved.arcs, a.count = 0) ∧ ∀ b ∈ solved.blocks, b.count = 0) := by
  intro flow held
  have hheld : ∀ v ∈ whirl.flow.arcs.zipIdx, v.1.onTree = false → (held v.2).toNat = flow v.2 := by
    decide
  exact assembled_whirl.solve_invents_nothing ⟨by decide, by decide, by decide⟩
    fun i a ha => hheld (a, i) (List.mem_zipIdx_iff_getElem?.2 ha)

end ArcCoverage

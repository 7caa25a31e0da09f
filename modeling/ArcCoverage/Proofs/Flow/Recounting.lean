/-
# Solving again

A graph is solved after the notes and after every data file, each time over the counts that the last
solving left. What comes out does not depend on them:

| depends on | only on |
| --- | --- |
| which counts become known (`KnowsAlike`) | the shape of the graph |
| the counts that become known (`derived_congr`) | the shape and the instrumented arcs |
| the solved graph (`SolvesAlike.solve_eq`) | these, and the counts of blocks that never become known |

`SolvesAlike` relates graphs that agree in the last row. A graph and what solving makes of it are
alike (`solvesAlike_solve`), and counters keep graphs alike (`SolvesAlike.addCounters`), so solving
between two files could as well be left out (`solve_addCounters_solve`).
-/
import ArcCoverage.Proofs.Flow.ArcLists
import ArcCoverage.Proofs.Flow.Conservation
import ArcCoverage.Proofs.Flow.Inference
import Mathlib.Data.List.Perm.Basic

namespace ArcCoverage

namespace Knowledge

variable {k k' : Knowledge} {b : Block} {blocks : List Block}

/-! ## What becomes known -/

/-- **The same counts are known,** whatever they are. -/
structure KnowsAlike (k k' : Knowledge) : Prop where
  arcs : k.arcs.map Option.isSome = k'.arcs.map Option.isSome
  blocks : k.blocks.map Option.isSome = k'.blocks.map Option.isSome

theorem isSome_join_of_map_eq {entries entries' : List (Option Count)}
    (h : entries.map Option.isSome = entries'.map Option.isSome) (i : Nat) :
    (entries[i]?.join).isSome = (entries'[i]?.join).isSome := by
  have hi := congrArg (·[i]?) h
  simp only [List.getElem?_map] at hi
  cases he : entries[i]? <;> cases he' : entries'[i]? <;> simp_all

theorem KnowsAlike.isSome_arc (h : k.KnowsAlike k') (a : Nat) :
    (k.arc a).isSome = (k'.arc a).isSome :=
  isSome_join_of_map_eq h.arcs a

theorem KnowsAlike.isSome_block (h : k.KnowsAlike k') (n : Nat) :
    (k.block n).isSome = (k'.block n).isSome :=
  isSome_join_of_map_eq h.blocks n

/-- A list has a sum or has none, whatever its arcs count. -/
theorem KnowsAlike.isSome_sum? (h : k.KnowsAlike k') (numbers : List Nat) :
    (k.sum? numbers).isSome = (k'.sum? numbers).isSome := by
  have hiff (k : Knowledge) : (k.sum? numbers).isSome = true ↔
      numbers ≠ [] ∧ ∀ a ∈ numbers, (k.arc a).isSome = true := by
    rw [Option.isSome_iff_exists]
    constructor
    · rintro ⟨c, hc⟩
      exact ⟨(sum?_eq_some.1 hc).1, (sum?_eq_some.1 hc).2.1⟩
    · rintro ⟨hne, hall⟩
      exact ⟨_, sum?_eq_some.2 ⟨hne, hall, rfl⟩⟩
  rw [Bool.eq_iff_iff, hiff, hiff]
  simp only [h.isSome_arc]

/-- A list misses one arc or does not, whatever its arcs count. -/
theorem KnowsAlike.missing?_eq (h : k.KnowsAlike k') (numbers : List Nat) :
    k.missing? numbers = k'.missing? numbers := by
  have hfilter : (numbers.filter fun a => (k.arc a).isNone) =
      numbers.filter fun a => (k'.arc a).isNone := by
    refine List.filter_congr fun a _ => ?_
    rw [← Option.not_isSome, ← Option.not_isSome, h.isSome_arc]
  unfold missing?
  rw [hfilter]

theorem KnowsAlike.fillBlock (h : k.KnowsAlike k') (n : Nat) (b : Block) :
    (k.fillBlock n b).KnowsAlike (k'.fillBlock n b) := by
  unfold Knowledge.fillBlock
  rw [h.isSome_block n]
  split_ifs
  · exact h
  · refine ⟨h.arcs, ?_⟩
    rw [List.map_set, List.map_set, h.blocks, Option.isSome_or, Option.isSome_or, h.isSome_sum?,
      h.isSome_sum?]

theorem KnowsAlike.fillArc (h : k.KnowsAlike k') (c c' : Count) (numbers : List Nat) :
    (k.fillArc c numbers).KnowsAlike (k'.fillArc c' numbers) := by
  unfold Knowledge.fillArc
  rw [h.missing?_eq numbers]
  split
  · exact h
  · refine ⟨?_, h.blocks⟩
    rw [List.map_set, List.map_set, h.arcs]
    rfl

/-- **A visit learns the same,** whatever is known. -/
theorem KnowsAlike.visit (h : k.KnowsAlike k') (b : Block) (n : Nat) :
    (k.visit b n).KnowsAlike (k'.visit b n) := by
  have hfilled := h.fillBlock n b
  have hsome := hfilled.isSome_block n
  cases hc : (k.fillBlock n b).block n with
  | none =>
    cases hc' : (k'.fillBlock n b).block n with
    | none =>
      rw [visit_of_none hc, visit_of_none hc']
      exact hfilled
    | some c' => simp [hc, hc'] at hsome
  | some c =>
    cases hc' : (k'.fillBlock n b).block n with
    | none => simp [hc, hc'] at hsome
    | some c' =>
      rw [visit_of_some hc, visit_of_some hc']
      exact (hfilled.fillArc c c' b.inArcs).fillArc c c' b.outArcs

theorem KnowsAlike.pass (h : k.KnowsAlike k') (blocks : List Block) :
    (k.pass blocks).KnowsAlike (k'.pass blocks) := by
  rw [pass_eq_foldl, pass_eq_foldl]
  induction blocks.zipIdx generalizing k k' with
  | nil => exact h
  | cons v vs ih => exact ih (h.visit v.1 v.2)

/-- As many counts are open. -/
theorem KnowsAlike.unknown_eq (h : k.KnowsAlike k') : k.unknown = k'.unknown := by
  have hopen (entries : List (Option Count)) :
      entries.countP Option.isNone = (entries.map Option.isSome).countP (!·) := by
    rw [List.countP_map]
    refine List.countP_congr fun o _ => ?_
    cases o <;> simp
  unfold unknown
  rw [hopen, hopen, hopen, hopen, h.arcs, h.blocks]

/-- **The passes end together.** -/
theorem KnowsAlike.pass_eq (h : k.KnowsAlike k') (hk : k.pass blocks = k) :
    k'.pass blocks = k' := by
  rcases (derives_pass blocks k').eq_or_unknown_lt with he | hlt
  · exact he
  · have hafter := (h.pass blocks).unknown_eq
    rw [hk, h.unknown_eq] at hafter
    omega

theorem KnowsAlike.symm (h : k.KnowsAlike k') : k'.KnowsAlike k := ⟨h.arcs.symm, h.blocks.symm⟩

/-- **Solving learns the same,** whatever is known. -/
theorem KnowsAlike.settle (h : k.KnowsAlike k') (blocks : List Block) (fuel : Nat) :
    (k.settle blocks fuel).KnowsAlike (k'.settle blocks fuel) := by
  induction fuel generalizing k k' with
  | zero => exact h
  | succ fuel ih =>
    rw [settle_succ, settle_succ]
    by_cases hk : k.pass blocks = k
    · rw [if_pos hk, if_pos (h.pass_eq hk)]
      exact h
    · rw [if_neg hk, if_neg fun hk' => hk (h.symm.pass_eq hk')]
      exact ih (h.pass blocks)

/-! ## Solving looks at the lists of blocks only -/

theorem pass_uncounted (blocks : List Block) (k : Knowledge) :
    k.pass (blocks.map Block.uncounted) = k.pass blocks := by
  rw [pass_eq_foldl, pass_eq_foldl, List.zipIdx_map, List.foldl_map]
  rfl

theorem settle_uncounted (blocks : List Block) (fuel : Nat) (k : Knowledge) :
    k.settle (blocks.map Block.uncounted) fuel = k.settle blocks fuel := by
  induction fuel generalizing k with
  | zero => rfl
  | succ fuel ih => rw [settle_succ, settle_succ, pass_uncounted, ih]

end Knowledge

/-! ## What is measured -/

/-- **What an arc measures:** its count, if it is instrumented. -/
def Arc.reading (a : Arc) : Option Count := if a.onTree then none else some a.count

theorem Arc.reading_with_count (a : Arc) (c : Count) :
    ({ a with count := c } : Arc).reading = if a.onTree then none else some c := rfl

theorem Count.plus_right_comm (a b c : Count) : (a.plus b).plus c = (a.plus c).plus b := by
  apply UInt64.toNat_inj.1
  rw [toNat_plus, toNat_plus, toNat_plus, toNat_plus]
  omega

theorem Count.plus_zero (a : Count) : a.plus 0 = a := by
  apply UInt64.toNat_inj.1
  have := a.toNat_le_limit
  rw [toNat_plus, UInt64.toNat_zero]
  omega

namespace FlowGraph

variable {g g' : FlowGraph}

theorem measured_congr (harcs : g.arcs.map Arc.reading = g'.arcs.map Arc.reading)
    (hblocks : g.blocks.length = g'.blocks.length) : g.measured = g'.measured := by
  change Knowledge.mk (g.arcs.map Arc.reading) _ = Knowledge.mk (g'.arcs.map Arc.reading) _
  rw [harcs, List.map_const', List.map_const', hblocks]

/-! ## Graphs of one shape -/

/-- Solving, in terms of the shape and of what is measured. -/
theorem derived_eq (g : FlowGraph) : g.derived =
    g.measured.settle g.uncounted.blocks
      (g.uncounted.arcs.length + g.uncounted.blocks.length) := by
  rw [derived, uncounted, Knowledge.settle_uncounted, List.length_map, List.length_map]

/-- **What is derived** depends on the shape and on the instrumented arcs only. -/
theorem derived_congr (hshape : g.uncounted = g'.uncounted) (hmeasured : g.measured = g'.measured) :
    g.derived = g'.derived := by
  rw [derived_eq, hshape, hmeasured, derived_eq]

theorem knowsAlike_measured (hshape : g.uncounted = g'.uncounted) :
    g.measured.KnowsAlike g'.measured := by
  have harcs (g : FlowGraph) :
      g.measured.arcs.map Option.isSome = g.uncounted.arcs.map (!·.onTree) := by
    rw [measured, uncounted, List.map_map, List.map_map]
    refine List.map_congr_left fun a _ => ?_
    change (if a.onTree then none else some a.count).isSome = !a.onTree
    cases a.onTree <;> rfl
  have hblocks (g : FlowGraph) :
      g.measured.blocks.map Option.isSome = g.uncounted.blocks.map fun _ => false := by
    rw [measured, uncounted, List.map_map, List.map_map]
    rfl
  exact ⟨by rw [harcs, harcs, hshape], by rw [hblocks, hblocks, hshape]⟩

/-- **Which counts are derived** depends on the shape only. -/
theorem knowsAlike_derived (hshape : g.uncounted = g'.uncounted) :
    g.derived.KnowsAlike g'.derived := by
  rw [derived_eq, derived_eq, hshape]
  exact (knowsAlike_measured hshape).settle _ _

theorem block_derived_eq_none_iff (hshape : g.uncounted = g'.uncounted) (n : Nat) :
    g.derived.block n = none ↔ g'.derived.block n = none := by
  rw [← Option.not_isSome_iff_eq_none, (knowsAlike_derived hshape).isSome_block n,
    Option.not_isSome_iff_eq_none]

/-! ## Graphs that are solved alike -/

/-- **Graphs of one shape with the same counters,** and with the same counts at blocks whose counts
are not derived. -/
structure SolvesAlike (g g' : FlowGraph) : Prop where
  shape : g.uncounted = g'.uncounted
  measured : g.measured = g'.measured
  block : ∀ n, g.derived.block n = none → (g.block n).count = (g'.block n).count

theorem length_blocks_congr (h : g.uncounted = g'.uncounted) :
    g.blocks.length = g'.blocks.length := by
  rw [← length_blocks_uncounted, h, length_blocks_uncounted]

/-- Arcs of one shape differ in their counts only. -/
theorem getElem?_arcs_uncounted (h : g.uncounted = g'.uncounted) (i : Nat) :
    (g.arcs[i]?).map Arc.uncounted = (g'.arcs[i]?).map Arc.uncounted := by
  have harcs := congrArg (fun g : FlowGraph => g.arcs[i]?) h
  simpa only [uncounted, List.getElem?_map] using harcs

theorem getElem?_blocks_uncounted (h : g.uncounted = g'.uncounted) (n : Nat) :
    (g.blocks[n]?).map Block.uncounted = (g'.blocks[n]?).map Block.uncounted := by
  have hblocks := congrArg (fun g : FlowGraph => g.blocks[n]?) h
  simpa only [uncounted, List.getElem?_map] using hblocks

/-- **Alike graphs are solved to the same graph.** -/
theorem SolvesAlike.solve_eq (h : g.SolvesAlike g') : g.solve = g'.solve := by
  have hderived := derived_congr h.shape h.measured
  have harcs : g.solve.arcs = g'.solve.arcs := by
    refine List.ext_getElem? fun i => ?_
    have hforget (g : FlowGraph) : g.solve.arcs[i]? = ((g.arcs[i]?).map Arc.uncounted).map
        fun a => { a with count := (g.derived.arc i).getD 0 } := by
      rw [getElem?_arcs_solve, Option.map_map]
      rfl
    rw [hforget, hforget, getElem?_arcs_uncounted h.shape, hderived]
  have hblocks : g.solve.blocks = g'.solve.blocks := by
    refine List.ext_getElem? fun n => ?_
    rw [getElem?_blocks_solve, getElem?_blocks_solve, ← hderived]
    have hn := getElem?_blocks_uncounted h.shape n
    cases hb : g.blocks[n]? with
    | none =>
      rw [hb] at hn
      rw [Option.map_eq_none_iff.1 hn.symm]
    | some b =>
      rw [hb] at hn
      obtain ⟨b', hb', hshape⟩ := Option.map_eq_some_iff.1 hn.symm
      rw [hb', Option.map_some, Option.map_some]
      have hforget (b : Block) (c : Count) :
          { b with count := c } = { b.uncounted with count := c } := rfl
      rw [hforget b, hforget b', hshape]
      cases hc : g.derived.block n with
      | some c => rfl
      | none =>
        have hcount := h.block n hc
        simp only [FlowGraph.block, List.getD_eq_getElem?_getD, hb, hb', Option.getD_some] at hcount
        rw [Option.getD_none, Option.getD_none, hcount]
  calc g.solve
    _ = ⟨g.solve.blocks, g.solve.arcs⟩ := rfl
    _ = ⟨g'.solve.blocks, g'.solve.arcs⟩ := by rw [harcs, hblocks]
    _ = g'.solve := rfl

theorem SolvesAlike.symm (h : g.SolvesAlike g') : g'.SolvesAlike g where
  shape := h.shape.symm
  measured := h.measured.symm
  block n hn := (h.block n ((block_derived_eq_none_iff h.shape n).2 hn)).symm

/-- Solving keeps what was measured. -/
theorem measured_solve (g : FlowGraph) : g.solve.measured = g.measured := by
  have harcs : g.solve.arcs.map Arc.reading = g.arcs.map Arc.reading := by
    refine List.ext_getElem? fun i => ?_
    rw [List.getElem?_map, List.getElem?_map, getElem?_arcs_solve]
    cases ha : g.arcs[i]? with
    | none => rfl
    | some a =>
      rw [Option.map_some, Option.map_some, Option.map_some, Arc.reading_with_count, Arc.reading]
      cases htree : a.onTree with
      | true => rfl
      | false =>
        rw [arc_derived_of_counted ha htree]
        rfl
  exact measured_congr harcs (length_blocks_congr g.uncounted_solve)

/-- **Solving leaves a graph that is solved alike:** it changes no count but those it derives. -/
theorem solvesAlike_solve (g : FlowGraph) : g.solve.SolvesAlike g where
  shape := g.uncounted_solve
  measured := g.measured_solve
  block n hn := by
    have hnone := (block_derived_eq_none_iff g.uncounted_solve n).1 hn
    simp only [FlowGraph.block, List.getD_eq_getElem?_getD, getElem?_blocks_solve, hnone]
    cases g.blocks[n]? <;> rfl

/-- **Solving twice** is solving once. -/
theorem solve_solve (g : FlowGraph) : g.solve.solve = g.solve := g.solvesAlike_solve.solve_eq

/-! ## Counters -/

theorem addToArcs_nil (arcs : List Arc) : addToArcs arcs [] = arcs := by
  induction arcs with
  | nil => rfl
  | cons a arcs ih =>
    rw [addToArcs, ih]
    split_ifs <;> rfl

/-- Counters are added to what is measured. -/
theorem map_reading_addToArcs {arcs arcs' : List Arc}
    (h : arcs.map Arc.reading = arcs'.map Arc.reading) (counters : List Count) :
    (addToArcs arcs counters).map Arc.reading = (addToArcs arcs' counters).map Arc.reading := by
  induction arcs generalizing arcs' counters with
  | nil =>
    rw [List.map_eq_nil_iff.1 h.symm]
  | cons a arcs ih =>
    obtain ⟨a', arcs', rfl⟩ : ∃ a' as', arcs' = a' :: as' :=
      List.exists_cons_of_ne_nil fun hnil => by simp [hnil] at h
    rw [List.map_cons, List.map_cons, List.cons.injEq] at h
    obtain ⟨hreading, hrest⟩ := h
    cases htree : a.onTree with
    | true =>
      have htree' : a'.onTree = true := by
        by_contra hne
        simp [Arc.reading, htree, hne] at hreading
      simp only [addToArcs, htree, htree', if_true, List.map_cons, hreading, ih hrest]
    | false =>
      have htree' : a'.onTree = false := by
        by_contra hne
        simp [Arc.reading, htree, hne] at hreading
      have hcount : a.count = a'.count := by simpa [Arc.reading, htree, htree'] using hreading
      cases counters with
      | nil => simp [addToArcs, htree, htree', hreading, hrest]
      | cons c counters =>
        simp only [addToArcs, htree, htree', Bool.false_eq_true, if_false, List.map_cons,
          Arc.reading_with_count, hcount, ih hrest]

/-- **Counters keep graphs alike.** -/
theorem SolvesAlike.addCounters (h : g.SolvesAlike g') (counters : List Count) :
    (g.addCounters counters).SolvesAlike (g'.addCounters counters) where
  shape := by rw [uncounted_addCounters, uncounted_addCounters, h.shape]
  measured := by
    have harcs : g.arcs.map Arc.reading = g'.arcs.map Arc.reading := congrArg Knowledge.arcs h.measured
    have hblocks : g.blocks.length = g'.blocks.length := length_blocks_congr h.shape
    exact measured_congr (map_reading_addToArcs harcs counters) hblocks
  block n hn :=
    h.block n ((block_derived_eq_none_iff (g.uncounted_addCounters counters) n).1 hn)

theorem SolvesAlike.foldl_addCounters (h : g.SolvesAlike g') (lists : List (List Count)) :
    (lists.foldl FlowGraph.addCounters g).SolvesAlike (lists.foldl FlowGraph.addCounters g') := by
  induction lists generalizing g g' with
  | nil => exact h
  | cons counters lists ih => exact ih (h.addCounters counters)

/-- **Solving in between can be left out:** what is added to a solved graph, and then solved, might
have been added before. -/
theorem solve_foldl_addCounters_solve (g : FlowGraph) (lists : List (List Count)) :
    (lists.foldl FlowGraph.addCounters g.solve).solve =
      (lists.foldl FlowGraph.addCounters g).solve :=
  (g.solvesAlike_solve.foldl_addCounters lists).solve_eq

/-- The order of additions does not matter. -/
theorem addToArcs_comm (arcs : List Arc) (cs ds : List Count) :
    addToArcs (addToArcs arcs cs) ds = addToArcs (addToArcs arcs ds) cs := by
  induction arcs generalizing cs ds with
  | nil => rfl
  | cons a arcs ih =>
    cases htree : a.onTree with
    | true => simp only [addToArcs, htree, if_true, ih]
    | false =>
      cases cs with
      | nil => rw [addToArcs_nil, addToArcs_nil]
      | cons c cs =>
        cases ds with
        | nil => rw [addToArcs_nil, addToArcs_nil]
        | cons d ds =>
          have hcs : ({ a with count := a.count.plus c } : Arc).onTree = false := htree
          have hds : ({ a with count := a.count.plus d } : Arc).onTree = false := htree
          simp only [addToArcs, htree, hcs, hds, Bool.false_eq_true, if_false, ih,
            Count.plus_right_comm a.count c d]

theorem addCounters_comm (g : FlowGraph) (cs ds : List Count) :
    (g.addCounters cs).addCounters ds = (g.addCounters ds).addCounters cs := by
  simp only [addCounters, addToArcs_comm g.arcs cs ds]

/-- **Counters may be added in any order.** -/
theorem foldl_addCounters_perm {lists lists' : List (List Count)} (h : lists.Perm lists')
    (g : FlowGraph) :
    lists.foldl FlowGraph.addCounters g = lists'.foldl FlowGraph.addCounters g :=
  haveI : RightCommutative FlowGraph.addCounters := ⟨addCounters_comm⟩
  h.foldl_eq g

/-! ## What the instrumented arcs count -/

/-- **The counts of the instrumented arcs,** in arc order. -/
def counters (g : FlowGraph) : List Count := (g.arcs.filter (!·.onTree)).map Arc.count

theorem counters_eq_filterMap (g : FlowGraph) :
    g.counters = g.measured.arcs.filterMap id := by
  change (g.arcs.filter (!·.onTree)).map Arc.count = (g.arcs.map Arc.reading).filterMap id
  induction g.arcs with
  | nil => rfl
  | cons a arcs ih =>
    cases htree : a.onTree <;> simp [Arc.reading, htree, ih]

/-- Solving leaves them as they are. -/
theorem counters_solve (g : FlowGraph) : g.solve.counters = g.counters := by
  rw [counters_eq_filterMap, measured_solve, counters_eq_filterMap]

/-- **One addition:** each instrumented arc takes its counter; one without a counter stays. -/
theorem getElem?_counters_addCounters (g : FlowGraph) (added : List Count) (k : Nat) :
    (g.addCounters added).counters[k]? = (g.counters[k]?).map (·.plus (added.getD k 0)) := by
  change (((addToArcs g.arcs added).filter (!·.onTree)).map Arc.count)[k]? =
    (((g.arcs.filter (!·.onTree)).map Arc.count)[k]?).map _
  induction g.arcs generalizing added k with
  | nil => rfl
  | cons a arcs ih =>
    cases htree : a.onTree with
    | true => simpa [addToArcs, htree] using ih added k
    | false =>
      cases added with
      | nil => simp [addToArcs, htree, Count.plus_zero]
      | cons c added =>
        have hafter : ({ a with count := a.count.plus c } : Arc).onTree = false := htree
        cases k with
        | zero => simp [addToArcs, htree, hafter]
        | succ k => simpa [addToArcs, htree, hafter] using ih added k

/-- **Any number of additions** add up at each instrumented arc. -/
theorem getElem?_counters_foldl_addCounters (g : FlowGraph) (lists : List (List Count)) (k : Nat) :
    (lists.foldl FlowGraph.addCounters g).counters[k]? =
      (g.counters[k]?).map fun c => (lists.map (·.getD k 0)).foldl Count.plus c := by
  induction lists generalizing g with
  | nil => simp
  | cons added lists ih =>
    rw [List.foldl_cons, ih, getElem?_counters_addCounters, Option.map_map]
    rfl

end FlowGraph

end ArcCoverage

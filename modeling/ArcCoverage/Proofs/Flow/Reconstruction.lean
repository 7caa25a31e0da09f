/-
# Counts recovered from a spanning forest

If the arcs without a counter form a forest with one end, their counters are not missed: solving
finds every count. The argument has two halves that do not know of each other:

| half | statement |
| --- | --- |
| everything is derived | `isSome_arc_derived`, `isSome_block_derived` |
| what is derived is true | `agrees_derived` |

For the first, look at the arcs that are unknown when the passes have come to rest. They are on the
tree, so they have a leaf with arcs on both sides (`exists_leaf`): one of its lists is known, hence
the block, and the other list misses one arc, which the rules would have filled in
(`Settled.isSome_of_unique`).
-/
import ArcCoverage.Proofs.Flow.Forest

namespace ArcCoverage

/-- **In the end a block with a known list knows the other,** if one arc of it at most is in doubt. -/
theorem Knowledge.Settled.isSome_of_unique {blocks : List Block} {k : Knowledge}
    (h : k.Settled blocks) {n : Nat} {b : Block} (hb : blocks[n]? = some b)
    (hn : n < k.blocks.length) {full part : List Nat}
    (hlists : full = b.inArcs ∧ part = b.outArcs ∨ full = b.outArcs ∧ part = b.inArcs)
    (hne : full ≠ []) (hknown : ∀ a ∈ full, (k.arc a).isSome) (hnodup : part.Nodup)
    (hlt : ∀ a ∈ part, a < k.arcs.length) {a : Nat} (ha : a ∈ part)
    (hunique : ∀ c ∈ part, k.arc c = none → c = a) : (k.arc a).isSome := by
  have hsum := sum?_eq_some.2 ⟨hne, hknown, rfl⟩
  have hblock : (k.block n).isSome := by
    rcases hlists with ⟨rfl, -⟩ | ⟨rfl, -⟩
    · exact h.isSome_block hb hn (.inl hsum)
    · exact h.isSome_block hb hn (.inr hsum)
  have hpart : part = b.inArcs ∨ part = b.outArcs := by
    rcases hlists with ⟨-, rfl⟩ | ⟨-, rfl⟩
    · exact .inr rfl
    · exact .inl rfl
  obtain ⟨c, hc⟩ := Option.isSome_iff_exists.1 hblock
  refine Option.isSome_iff_ne_none.2 fun hnone => ?_
  have hmissing := missing?_of_unique hnodup ha hnone hunique
  rw [h.missing?_eq_none hb hc hpart hlt] at hmissing
  exact Option.some_ne_none a hmissing.symm

namespace FlowGraph

variable {g : FlowGraph} {flow : Nat → Nat}

/-! ## Everything is derived -/

/-- An arc that is not derived is on the tree. -/
theorem treeArc_of_arc_derived_eq_none {i : Nat} {a : Arc} (ha : g.arcs[i]? = some a)
    (hnone : g.derived.arc i = none) : g.TreeArc i a.source a.destination := by
  refine ⟨a, ha, ?_, .inl ⟨rfl, rfl⟩⟩
  by_contra htree
  rw [arc_derived_of_counted ha (Bool.eq_false_iff.2 htree)] at hnone
  exact Option.some_ne_none _ hnone

/-- Forests have no loops. -/
theorem IsForest.ne (hforest : g.IsForest) {a u v : Nat} (h : g.TreeArc a u v) : u ≠ v := by
  rintro rfl
  exact List.cons_ne_nil _ _ (hforest u [a] (.cons h (.nil u)) (List.nodup_singleton a))

/-- An arc that is no loop touches a block on one side. -/
theorem TreeArc.side {a u v : Nat} (h : g.TreeArc a u v) (hne : u ≠ v) :
    (a ∈ g.arcsFrom u ∧ a ∉ g.arcsInto u) ∨ (a ∈ g.arcsInto u ∧ a ∉ g.arcsFrom u) := by
  obtain ⟨arc, harc, -, hends⟩ := h
  have hinto : a ∈ g.arcsInto u ↔ arc.destination = u := by
    rw [arcsInto, mem_arcNumbers, harc]
    simp
  have hfrom : a ∈ g.arcsFrom u ↔ arc.source = u := by
    rw [arcsFrom, mem_arcNumbers, harc]
    simp
  rw [hinto, hfrom]
  omega

/-- **At a leaf that is not open nothing stays unknown.** -/
theorem isSome_arc_derived_of_leaf (hg : g.WellFormed) (hforest : g.IsForest) {a u v : Nat}
    (hopen : ¬ g.IsOpen u) (h : g.TreeArc a u v)
    (hunique : ∀ b x, g.derived.arc b = none → g.TreeArc b u x → b = a) :
    (g.derived.arc a).isSome := by
  have hinto : ∀ c ∈ g.arcsInto u, g.derived.arc c = none → c = a := by
    intro c hc hnone
    obtain ⟨d, hd, hdest⟩ := mem_arcNumbers.1 hc
    exact hunique c d.source hnone
      (beq_iff_eq.1 hdest ▸ (treeArc_of_arc_derived_eq_none hd hnone).symm)
  have hfrom : ∀ c ∈ g.arcsFrom u, g.derived.arc c = none → c = a := by
    intro c hc hnone
    obtain ⟨d, hd, hsource⟩ := mem_arcNumbers.1 hc
    exact hunique c d.destination hnone
      (beq_iff_eq.1 hsource ▸ treeArc_of_arc_derived_eq_none hd hnone)
  have hknown {numbers : List Nat} (hnumbers : ∀ c ∈ numbers, g.derived.arc c = none → c = a)
      (hnot : a ∉ numbers) : ∀ c ∈ numbers, (g.derived.arc c).isSome := fun c hc =>
    Option.isSome_iff_ne_none.2 fun hnone => hnot (hnumbers c hc hnone ▸ hc)
  have hu := h.lt_length_blocks hg
  have hun : u < g.derived.blocks.length := g.length_blocks_derived ▸ hu
  have hlt {p : Arc → Bool} : ∀ c ∈ g.arcNumbers p, c < g.derived.arcs.length := fun c hc =>
    g.length_arcs_derived ▸ lt_of_mem_arcNumbers hc
  unfold IsOpen at hopen
  push Not at hopen
  -- the list without `a` is known, hence the block is, and the other list misses `a` only
  rcases h.side (hforest.ne h) with ⟨hmem, hnot⟩ | ⟨hmem, hnot⟩
  · exact g.settled_derived.isSome_of_unique (getElem?_blocks hu) hun
      (.inl ⟨(hg.inArcs_eq u hu).symm, (hg.outArcs_eq u hu).symm⟩) hopen.1
      (hknown hinto hnot) (nodup_arcNumbers _) hlt hmem hfrom
  · exact g.settled_derived.isSome_of_unique (getElem?_blocks hu) hun
      (.inr ⟨(hg.outArcs_eq u hu).symm, (hg.inArcs_eq u hu).symm⟩) hopen.2
      (hknown hfrom hnot) (nodup_arcNumbers _) hlt hmem hinto

/-- **All arcs are derived** if those on the tree form a forest with one end. -/
theorem isSome_arc_derived (hg : g.WellFormed) (hforest : g.IsForest) (hend : g.HasOneEnd)
    {i : Nat} (hi : i < g.arcs.length) : (g.derived.arc i).isSome := by
  refine Option.isSome_iff_ne_none.2 fun hnone => ?_
  let S : Nat → Prop := fun a => g.derived.arc a = none
  have hS : ∃ a u v, S a ∧ g.TreeArc a u v :=
    ⟨i, _, _, hnone, treeArc_of_arc_derived_eq_none (List.getElem?_eq_getElem hi) hnone⟩
  obtain ⟨u, a, v, hopen, ha, hauv, hunique⟩ := exists_leaf hforest hend hS
  exact Option.isSome_iff_ne_none.1 (isSome_arc_derived_of_leaf hg hforest hopen hauv hunique) ha

/-- **All blocks with arcs are derived** where all arcs are. -/
theorem isSome_block_derived (hg : g.WellFormed)
    (harcs : ∀ i < g.arcs.length, (g.derived.arc i).isSome) {n : Nat} (hn : n < g.blocks.length)
    (htouched : g.arcsInto n ≠ [] ∨ g.arcsFrom n ≠ []) : (g.derived.block n).isSome := by
  have hsum {p : Arc → Bool} (hne : g.arcNumbers p ≠ []) := Knowledge.sum?_eq_some.2
    ⟨hne, fun a ha => harcs a (lt_of_mem_arcNumbers ha), rfl⟩
  have hlength : n < g.derived.blocks.length := g.length_blocks_derived ▸ hn
  rcases htouched with hin | hout
  · exact g.settled_derived.isSome_block (getElem?_blocks hn) hlength
      (.inl (hg.inArcs_eq n hn ▸ hsum hin))
  · exact g.settled_derived.isSome_block (getElem?_blocks hn) hlength
      (.inr (hg.outArcs_eq n hn ▸ hsum hout))

/-! ## Counters that count a flow -/

/-- **What the counters of a graph read** after a flow, in the order of the arcs. -/
def readings (g : FlowGraph) (flow : Nat → Nat) : List Count :=
  (g.arcNumbers (!·.onTree)).map fun i => UInt64.ofNat (flow i)

theorem arcNumbers_eq_map_zipIdx (g : FlowGraph) (p : Arc → Bool) :
    g.arcNumbers p = (g.arcs.zipIdx.filter fun v => p v.1).map Prod.snd := by
  have hrange : List.range g.arcs.length = g.arcs.zipIdx.map Prod.snd := by
    rw [List.zipIdx_map_snd, List.range_eq_range']
  rw [arcNumbers, hrange, List.filter_map]
  congr 1
  refine List.filter_congr fun v hv => ?_
  rw [Function.comp_apply, List.mem_zipIdx_iff_getElem?.1 hv, Option.any_some]

theorem addToArcs_readings (arcs : List Arc) (count : Nat → Count) (start : Nat) :
    addToArcs arcs (((arcs.zipIdx start).filter fun v => !v.1.onTree).map fun v => count v.2) =
      (arcs.zipIdx start).map fun v =>
        if v.1.onTree then v.1 else { v.1 with count := v.1.count.plus (count v.2) } := by
  induction arcs generalizing start with
  | nil => rfl
  | cons a arcs ih =>
    rw [List.zipIdx_cons, List.map_cons, ← ih (start + 1)]
    by_cases htree : a.onTree = true
    · rw [List.filter_cons_of_neg (by simp [htree]), if_pos htree]
      simp only [addToArcs, htree, if_true]
    · rw [List.filter_cons_of_pos (by simpa using htree), if_neg htree, List.map_cons]
      simp only [addToArcs, htree, if_false, Bool.false_eq_true]

theorem length_readings (g : FlowGraph) (flow : Nat → Nat) :
    (g.readings flow).length = g.instrumentedCount := by
  have hcount : g.arcs.zipIdx.countP (fun v => !v.1.onTree) = g.arcs.countP (!·.onTree) := by
    conv_rhs => rw [← List.zipIdx_map_fst 0 g.arcs, List.countP_map]
    rfl
  rw [readings, List.length_map, arcNumbers_eq_map_zipIdx, List.length_map,
    ← List.countP_eq_length_filter, hcount, instrumentedCount]

theorem getElem?_arcs_addCounters_readings (g : FlowGraph) (flow : Nat → Nat) (i : Nat) :
    (g.addCounters (g.readings flow)).arcs[i]? = (g.arcs[i]?).map fun a =>
      if a.onTree then a else { a with count := a.count.plus (UInt64.ofNat (flow i)) } := by
  have hcounters : g.readings flow =
      (g.arcs.zipIdx.filter fun v => !v.1.onTree).map fun v => UInt64.ofNat (flow v.2) := by
    rw [readings, arcNumbers_eq_map_zipIdx, List.map_map]
    rfl
  have harcs := addToArcs_readings g.arcs (fun i => UInt64.ofNat (flow i)) 0
  rw [addCounters, hcounters, harcs, List.getElem?_map, List.getElem?_zipIdx, Option.map_map,
    Nat.zero_add]
  rfl

/-- A conserved flow fits into counts. -/
theorem Conserves.flow_le (hflow : g.Conserves flow) (hg : g.WellFormed) {i : Nat}
    (hi : i < g.arcs.length) : flow i ≤ Count.limit := by
  have hmem : i ∈ g.arcsInto g.arcs[i].destination :=
    mem_arcNumbers.2 ⟨_, List.getElem?_eq_getElem hi, beq_self_eq_true _⟩
  exact Nat.le_trans (le_carried hmem)
    (hflow.inflow_le _ (hg.destination_lt _ (List.getElem_mem hi)))

/-- **Counters read into an uncounted graph** are the flow they count. -/
theorem count_addCounters_readings (hg : g.WellFormed) (hflow : g.Conserves flow)
    (hzero : ∀ a ∈ g.arcs, a.count = 0) {i : Nat} {a : Arc}
    (ha : (g.addCounters (g.readings flow)).arcs[i]? = some a) (htree : a.onTree = false) :
    a.count.toNat = flow i := by
  rw [getElem?_arcs_addCounters_readings] at ha
  obtain ⟨before, hbefore, rfl⟩ := Option.map_eq_some_iff.1 ha
  split_ifs at htree ⊢ with honTree
  · exact absurd (honTree.symm.trans htree) Bool.noConfusion
  · have hi := (List.getElem?_eq_some_iff.1 hbefore).1
    have hle := hflow.flow_le hg hi
    have hfits : flow i < 2 ^ 64 := by
      unfold Count.limit at hle
      omega
    have hcount : before.count = 0 := hzero before (List.mem_iff_getElem?.2 ⟨i, hbefore⟩)
    change (before.count.plus (UInt64.ofNat (flow i))).toNat = flow i
    rw [Count.toNat_plus, hcount, UInt64.toNat_zero, UInt64.toNat_ofNat', Nat.mod_eq_of_lt hfits,
      Nat.zero_add, Nat.min_eq_left hle]

/-! ## Forests do not depend on counts -/

variable {g' : FlowGraph}

theorem TreeArc.congr {a u v : Nat} (h : g.TreeArc a u v) (hshape : g.uncounted = g'.uncounted) :
    g'.TreeArc a u v := by
  obtain ⟨arc, harc, htree, hends⟩ := h
  have hforgotten : (g'.arcs[a]?).map Arc.uncounted = some arc.uncounted := by
    have := congrArg (fun g : FlowGraph => g.arcs[a]?) hshape
    simp only [uncounted, List.getElem?_map, harc, Option.map_some] at this
    exact this.symm
  obtain ⟨arc', harc', hsame⟩ := Option.map_eq_some_iff.1 hforgotten
  obtain ⟨source, destination, flags, _⟩ := arc
  obtain ⟨source', destination', flags', _⟩ := arc'
  obtain ⟨rfl, rfl, rfl, -⟩ := Arc.mk.inj hsame
  exact ⟨_, harc', htree, hends⟩

theorem TreeWalk.congr {u v : Nat} {walk : List Nat} (h : g.TreeWalk u walk v)
    (hshape : g.uncounted = g'.uncounted) : g'.TreeWalk u walk v := by
  induction h with
  | nil u => exact .nil u
  | cons first _ ih => exact .cons (first.congr hshape) ih

theorem IsForest.congr (h : g.IsForest) (hshape : g.uncounted = g'.uncounted) : g'.IsForest :=
  fun u walk hwalk => h u walk (hwalk.congr hshape.symm)

theorem HasOneEnd.congr (h : g.HasOneEnd) (hshape : g.uncounted = g'.uncounted) :
    g'.HasOneEnd := by
  intro u walk v hwalk hu hv
  unfold IsOpen at hu hv
  rw [← arcsInto_congr hshape, ← arcsFrom_congr hshape] at hu hv
  exact h u walk v (hwalk.congr hshape.symm) hu hv

end FlowGraph

/-- **A spanning forest loses nothing.** If the on-tree arcs of an assembled function form a forest
with one end, the counters of any conserved flow are accepted, and solving then gives every arc what
the flow carries over it and every block with arcs what passes it. -/
theorem Routine.Assembled.solve_recovers_flow {f : Routine} (hf : f.Assembled)
    (hforest : f.flow.IsForest) (hend : f.flow.HasOneEnd) {flow : Nat → Nat}
    (hflow : f.flow.Conserves flow) :
    ∃ counted, f.addCounters (f.flow.readings flow) = .ok counted ∧
      counted.solve.flow.uncounted = f.flow ∧
      (∀ i a, counted.solve.flow.arcs[i]? = some a → a.count.toNat = flow i) ∧
      ∀ n b, counted.solve.flow.blocks[n]? = some b →
        f.flow.arcsInto n ≠ [] ∨ f.flow.arcsFrom n ≠ [] →
        b.count.toNat = f.flow.throughput flow n := by
  have hshape := f.flow.uncounted_addCounters (f.flow.readings flow)
  refine ⟨_, if_pos (f.flow.length_readings flow), ?_⟩
  set g := f.flow.addCounters (f.flow.readings flow) with hgdef
  have hg : g.WellFormed := (FlowGraph.wellFormed_congr hshape).2 hf.wellFormed
  have harcs : ∀ i < g.arcs.length, (g.derived.arc i).isSome := fun i hi =>
    FlowGraph.isSome_arc_derived hg (hforest.congr hshape.symm) (hend.congr hshape.symm) hi
  have hagrees : g.derived.Agrees g flow :=
    FlowGraph.agrees_derived hg (hflow.congr hshape.symm) fun i a =>
      FlowGraph.count_addCounters_readings hf.wellFormed hflow hf.count_arcs
  refine ⟨?_, fun i a ha => ?_, fun n b hb htouched => ?_⟩
  · exact (g.uncounted_solve.trans hshape).trans hf.uncounted_flow
  · rw [Routine.solve, FlowGraph.getElem?_arcs_solve] at ha
    obtain ⟨before, hbefore, rfl⟩ := Option.map_eq_some_iff.1 ha
    exact hagrees.toNat_getD (harcs i (List.getElem?_eq_some_iff.1 hbefore).1)
  · rw [Routine.solve, FlowGraph.getElem?_blocks_solve] at hb
    obtain ⟨before, hbefore, rfl⟩ := Option.map_eq_some_iff.1 hb
    rw [← FlowGraph.arcsInto_congr hshape, ← FlowGraph.arcsFrom_congr hshape] at htouched
    have hn := (List.getElem?_eq_some_iff.1 hbefore).1
    obtain ⟨c, hc⟩ := Option.isSome_iff_exists.1
      (FlowGraph.isSome_block_derived hg harcs hn htouched)
    change ((g.derived.block n).getD before.count).toNat = _
    rw [hc, Option.getD_some, hagrees.block n c hc, FlowGraph.throughput_congr hshape]

/-- **A loop:** the arcs to and inside it are on the tree, those out of it and back are counted. -/
def Routine.loop : Routine where
  ident := 7
  lineChecksum := 1
  flowChecksum := 2
  name := "loop"
  file := 0
  startLine := 3
  flow := ((((FlowGraph.empty 4).addArc 0 1 1).addArc 1 2 1).addArc 1 3 0).addArc 2 1 0

theorem Routine.assembled_loop : Routine.loop.Assembled := by
  have hbegun := Assembled.begun ⟨7, 1, 2, "loop", "loop.c", 3⟩ 0
  have hblocks : Assembled { loop with flow := .empty 4 } := hbegun.blocks (n := 4) rfl
  have hinto := hblocks.addArc 0 1 1 (by decide) (by decide)
  have hbody := hinto.addArc 1 2 1 (by decide) (by decide)
  have hout := hbody.addArc 1 3 0 (by decide) (by decide)
  exact hout.addArc 2 1 0 (by decide) (by decide)

theorem FlowGraph.isForest_loop : Routine.loop.flow.IsForest := by
  have hinto : ((empty 4).addArc 0 1 1).IsForest :=
    (isForest_empty 4).addArc id (fun _ ha => absurd ha List.not_mem_nil) (by decide) 1
  have hbody : (((empty 4).addArc 0 1 1).addArc 1 2 1).IsForest :=
    hinto.addArc (fun b => b / 2) (by unfold LabelsParts; decide) (by decide) 1
  exact (hbody.addArc_of_counted 1 3 rfl).addArc_of_counted 2 1 rfl

theorem FlowGraph.hasOneEnd_loop : Routine.loop.flow.HasOneEnd := by
  have hlabel : Routine.loop.flow.LabelsParts fun b => b / 3 := by unfold LabelsParts; decide
  refine hasOneEnd_of_label Routine.assembled_loop.wellFormed hlabel ?_
  unfold IsOpen
  decide

/-- **The loop is recovered** from one pass through it with five rounds. -/
theorem Routine.solve_recovers_loop_flow :
    let flow := fun a => [1, 5, 1, 5].getD a 0
    ∃ counted, loop.addCounters (loop.flow.readings flow) = .ok counted ∧
      counted.solve.flow.uncounted = loop.flow ∧
      (∀ i a, counted.solve.flow.arcs[i]? = some a → a.count.toNat = flow i) ∧
      ∀ n b, counted.solve.flow.blocks[n]? = some b →
        loop.flow.arcsInto n ≠ [] ∨ loop.flow.arcsFrom n ≠ [] →
        b.count.toNat = loop.flow.throughput flow n :=
  assembled_loop.solve_recovers_flow FlowGraph.isForest_loop FlowGraph.hasOneEnd_loop
    ⟨by decide, by decide, by decide⟩

end ArcCoverage

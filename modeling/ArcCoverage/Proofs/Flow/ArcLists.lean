/-
# The arc lists of a flow graph

`FlowGraph.WellFormed` says that every block lists the arcs that leave and enter it. It is about the
shape of a graph, so it is settled in two steps:

| step | what it says |
| --- | --- |
| `wellFormed_empty`, `WellFormed.addArc`, `WellFormed.addLine` | building a graph keeps it |
| `wellFormed_congr` | graphs that differ in counts alone have it or lack it together |

`Arc.uncounted`, `Block.uncounted` and `FlowGraph.uncounted` set all counts to zero; what is done to
the counts of a graph (`uncounted_addCounters`, `uncounted_solve`) leaves the rest as it was.
-/
import ArcCoverage.Flow.Solve
import Mathlib.Data.List.Nodup

namespace ArcCoverage

/-- An arc with its count forgotten. -/
def Arc.uncounted (a : Arc) : Arc := { a with count := 0 }

/-- A block with its count forgotten. -/
def Block.uncounted (b : Block) : Block := { b with count := 0 }

/-- What is done to numbered elements, if it does not depend on their numbers. -/
theorem map_zipIdx_eq_map {α β : Type} {f : α → β} {f' : α × Nat → β} (h : ∀ v, f' v = f v.1)
    (as : List α) : as.zipIdx.map f' = as.map f :=
  calc as.zipIdx.map f'
    _ = as.zipIdx.map (f ∘ Prod.fst) := List.map_congr_left fun v _ => h v
    _ = (as.zipIdx.map Prod.fst).map f := List.map_map.symm
    _ = as.map f := by rw [List.zipIdx_map_fst]

namespace FlowGraph

variable {g g' : FlowGraph}

/-! ## Numbers of arcs -/

theorem mem_arcNumbers {p : Arc → Bool} {i : Nat} :
    i ∈ g.arcNumbers p ↔ ∃ a, g.arcs[i]? = some a ∧ p a = true := by
  rw [arcNumbers, List.mem_filter, List.mem_range, Option.any_eq_true]
  refine ⟨fun h => h.2, fun h => ⟨?_, h⟩⟩
  obtain ⟨a, ha, -⟩ := h
  exact (List.getElem?_eq_some_iff.1 ha).1

theorem nodup_arcNumbers (p : Arc → Bool) : (g.arcNumbers p).Nodup :=
  List.nodup_range.filter _

theorem lt_of_mem_arcNumbers {p : Arc → Bool} {i : Nat} (h : i ∈ g.arcNumbers p) :
    i < g.arcs.length :=
  List.mem_range.1 (List.mem_filter.1 h).1

/-- One more arc is the last one, if it has the property. -/
theorem arcNumbers_append (p : Arc → Bool) (a : Arc) (blocks : List Block) :
    FlowGraph.arcNumbers ⟨blocks, g.arcs ++ [a]⟩ p =
      g.arcNumbers p ++ if p a then [g.arcs.length] else [] := by
  have hold : (List.range g.arcs.length).filter (fun i => ((g.arcs ++ [a])[i]?).any p) =
      g.arcNumbers p := by
    refine List.filter_congr fun i hi => ?_
    rw [List.getElem?_append_left (List.mem_range.1 hi)]
  rw [arcNumbers, List.length_append, List.length_singleton, List.range_succ, List.filter_append,
    hold, List.filter_singleton]
  simp

/-! ## Building a graph -/

theorem length_blocks_addArc (source destination : Nat) (flags : UInt32) :
    (g.addArc source destination flags).blocks.length = g.blocks.length := by
  simp [addArc]

theorem length_blocks_addLine (b : Nat) (line : SourceLine) :
    (g.addLine b line).blocks.length = g.blocks.length := by
  simp [addLine]

theorem block_eq_getElem {b : Nat} (hb : b < g.blocks.length) : g.block b = g.blocks[b] := by
  rw [block, List.getD_eq_getElem?_getD, List.getElem?_eq_getElem hb, Option.getD_some]

theorem getElem?_blocks {b : Nat} (hb : b < g.blocks.length) : g.blocks[b]? = some (g.block b) := by
  rw [List.getElem?_eq_getElem hb, block_eq_getElem hb]

/-- The arcs that a block lists exist. -/
theorem WellFormed.inArcs_lt (h : g.WellFormed) {b : Block} (hb : b ∈ g.blocks) :
    ∀ a ∈ b.inArcs, a < g.arcs.length := by
  obtain ⟨n, hn, rfl⟩ := List.mem_iff_getElem.1 hb
  rw [← block_eq_getElem hn, h.inArcs_eq n hn]
  exact fun a ha => lt_of_mem_arcNumbers ha

theorem WellFormed.outArcs_lt (h : g.WellFormed) {b : Block} (hb : b ∈ g.blocks) :
    ∀ a ∈ b.outArcs, a < g.arcs.length := by
  obtain ⟨n, hn, rfl⟩ := List.mem_iff_getElem.1 hb
  rw [← block_eq_getElem hn, h.outArcs_eq n hn]
  exact fun a ha => lt_of_mem_arcNumbers ha

theorem outArcs_block_addArc {b : Nat} (hb : b < g.blocks.length) (source destination : Nat)
    (flags : UInt32) :
    ((g.addArc source destination flags).block b).outArcs =
      (g.block b).outArcs ++ if source = b then [g.arcs.length] else [] := by
  rw [block_eq_getElem (by rwa [length_blocks_addArc]), block_eq_getElem hb]
  simp only [addArc, List.getElem_modify]
  split_ifs <;> simp_all

theorem inArcs_block_addArc {b : Nat} (hb : b < g.blocks.length) (source destination : Nat)
    (flags : UInt32) :
    ((g.addArc source destination flags).block b).inArcs =
      (g.block b).inArcs ++ if destination = b then [g.arcs.length] else [] := by
  rw [block_eq_getElem (by rwa [length_blocks_addArc]), block_eq_getElem hb]
  simp only [addArc, List.getElem_modify]
  split_ifs <;> simp_all

/-- Blocks without arcs list none. -/
theorem wellFormed_empty (n : Nat) : (empty n).WellFormed where
  source_lt := fun _ h => absurd h List.not_mem_nil
  destination_lt := fun _ h => absurd h List.not_mem_nil
  outArcs_eq b hb := by
    rw [block_eq_getElem hb]
    simp [empty, arcNumbers]
  inArcs_eq b hb := by
    rw [block_eq_getElem hb]
    simp [empty, arcNumbers]

/-- **An arc between two blocks of the graph keeps the lists right.** -/
theorem WellFormed.addArc (h : g.WellFormed) {source destination : Nat} (flags : UInt32)
    (hs : source < g.blocks.length) (hd : destination < g.blocks.length) :
    (g.addArc source destination flags).WellFormed := by
  have hmem : ∀ a ∈ (g.addArc source destination flags).arcs,
      a ∈ g.arcs ∨ a = ⟨source, destination, flags, 0⟩ := by
    intro a ha
    simpa [FlowGraph.addArc] using ha
  refine ⟨fun a ha => ?_, fun a ha => ?_, fun b hb => ?_, fun b hb => ?_⟩
  · rw [length_blocks_addArc]
    rcases hmem a ha with ha | rfl
    · exact h.source_lt a ha
    · exact hs
  · rw [length_blocks_addArc]
    rcases hmem a ha with ha | rfl
    · exact h.destination_lt a ha
    · exact hd
  · rw [length_blocks_addArc] at hb
    rw [outArcs_block_addArc hb, h.outArcs_eq b hb]
    simp [FlowGraph.addArc, arcNumbers_append]
  · rw [length_blocks_addArc] at hb
    rw [inArcs_block_addArc hb, h.inArcs_eq b hb]
    simp [FlowGraph.addArc, arcNumbers_append]

/-- A line changes no list of arcs. -/
theorem WellFormed.addLine (h : g.WellFormed) (b : Nat) (line : SourceLine) :
    (g.addLine b line).WellFormed := by
  have hblock (c : Nat) : ((g.addLine b line).block c).outArcs = (g.block c).outArcs ∧
      ((g.addLine b line).block c).inArcs = (g.block c).inArcs := by
    simp only [block, FlowGraph.addLine, List.getD_eq_getElem?_getD, List.getElem?_modify]
    cases g.blocks[c]? with
    | none => exact ⟨rfl, rfl⟩
    | some block => by_cases hc : b = c <;> simp [hc]
  refine ⟨fun a ha => ?_, fun a ha => ?_, fun c hc => ?_, fun c hc => ?_⟩ <;>
    rw [length_blocks_addLine] at *
  · exact h.source_lt a ha
  · exact h.destination_lt a ha
  · exact (hblock c).1.trans (h.outArcs_eq c hc)
  · exact (hblock c).2.trans (h.inArcs_eq c hc)

/-! ## Counts do not matter -/

/-- **The shape of a graph:** all its counts forgotten. -/
def uncounted (g : FlowGraph) : FlowGraph where
  blocks := g.blocks.map Block.uncounted
  arcs := g.arcs.map Arc.uncounted

theorem length_blocks_uncounted : g.uncounted.blocks.length = g.blocks.length := List.length_map _

theorem block_uncounted (b : Nat) : g.uncounted.block b = (g.block b).uncounted := by
  simp only [block, uncounted, List.getD_eq_getElem?_getD, List.getElem?_map]
  cases g.blocks[b]? <;> rfl

theorem arcNumbers_uncounted {p : Arc → Bool} (hp : ∀ a, p a.uncounted = p a) :
    g.uncounted.arcNumbers p = g.arcNumbers p := by
  simp only [arcNumbers, uncounted, List.length_map, List.getElem?_map]
  refine List.filter_congr fun i _ => ?_
  cases g.arcs[i]? with
  | none => rfl
  | some a => exact hp a

theorem wellFormed_uncounted : g.uncounted.WellFormed ↔ g.WellFormed := by
  have hout (b : Nat) : g.uncounted.arcNumbers (·.source == b) = g.arcNumbers (·.source == b) :=
    arcNumbers_uncounted fun _ => rfl
  have hin (b : Nat) :
      g.uncounted.arcNumbers (·.destination == b) = g.arcNumbers (·.destination == b) :=
    arcNumbers_uncounted fun _ => rfl
  constructor
  · rintro ⟨hs, hd, ho, hi⟩
    simp only [length_blocks_uncounted, block_uncounted, hout, hin] at hs hd ho hi
    exact ⟨fun a ha => hs a.uncounted (List.mem_map_of_mem ha),
      fun a ha => hd a.uncounted (List.mem_map_of_mem ha), ho, hi⟩
  · rintro ⟨hs, hd, ho, hi⟩
    refine ⟨?_, ?_, ?_, ?_⟩ <;>
      simp only [length_blocks_uncounted, block_uncounted, hout, hin]
    · exact fun a ha => by obtain ⟨c, hc, rfl⟩ := List.mem_map.1 ha; exact hs c hc
    · exact fun a ha => by obtain ⟨c, hc, rfl⟩ := List.mem_map.1 ha; exact hd c hc
    · exact ho
    · exact hi

/-- **Graphs of one shape are well-formed together.** -/
theorem wellFormed_congr (h : g.uncounted = g'.uncounted) : g.WellFormed ↔ g'.WellFormed := by
  rw [← wellFormed_uncounted, h, wellFormed_uncounted]

theorem uncounted_addToArcs (arcs : List Arc) (counters : List Count) :
    (addToArcs arcs counters).map Arc.uncounted = arcs.map Arc.uncounted := by
  fun_induction addToArcs arcs counters with
  | case1 => rfl
  | case2 a as counters _ ih => rw [List.map_cons, ih, List.map_cons]
  | case3 a as => rfl
  | case4 a as _ c cs ih => rw [List.map_cons, ih, List.map_cons]; rfl

/-- Counters change counts only. -/
theorem uncounted_addCounters (g : FlowGraph) (counters : List Count) :
    (g.addCounters counters).uncounted = g.uncounted := by
  rw [uncounted, addCounters, uncounted_addToArcs]
  rfl

theorem uncounted_withCounts (g : FlowGraph) (k : Knowledge) :
    (g.withCounts k).uncounted = g.uncounted := by
  have harcs : (g.withCounts k).arcs.map Arc.uncounted = g.arcs.map Arc.uncounted := by
    rw [withCounts, List.map_map]
    refine map_zipIdx_eq_map (fun _ => ?_) g.arcs
    rfl
  have hblocks : (g.withCounts k).blocks.map Block.uncounted = g.blocks.map Block.uncounted := by
    rw [withCounts, List.map_map]
    refine map_zipIdx_eq_map (fun _ => ?_) g.blocks
    rfl
  rw [uncounted, harcs, hblocks, uncounted]

/-- Solving changes counts only. -/
theorem uncounted_solve (g : FlowGraph) : g.solve.uncounted = g.uncounted :=
  uncounted_withCounts g _

end FlowGraph

end ArcCoverage

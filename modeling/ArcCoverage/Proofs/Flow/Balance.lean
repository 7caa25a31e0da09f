/-
# Entries balance returns

What enters a function leaves it again. If nothing leads back to the first block and every other
block with arcs has one that enters it, a conserved flow is added up over all blocks:

| block | brings in | takes out |
| --- | --- | --- |
| the first | what enters the function | its arcs out |
| with arcs on both sides | its arcs in | its arcs out |
| that nothing leaves | its arcs in | what leaves the function |

Every arc enters one block and leaves one (`carried_grouped`), so the arcs cancel and what enters is
what leaves (`outflow_entry_eq`): by real arcs, which are returns, and by fake ones, which mark calls
that did not come back (`FlowGraph.isLost`).
-/
import ArcCoverage.Proofs.Flow.Conservation
import ArcCoverage.Proofs.Flow.Reconstruction

namespace ArcCoverage

/-! ## Adding up flows -/

section Carried

variable {flow flow' : Nat → Nat} {numbers : List Nat}

theorem carried_congr (h : ∀ a ∈ numbers, flow a = flow' a) :
    carried flow numbers = carried flow' numbers := by
  induction numbers with
  | nil => rfl
  | cons a numbers ih =>
    rw [carried_cons, carried_cons, h a List.mem_cons_self,
      ih fun b hb => h b (List.mem_cons_of_mem a hb)]

theorem carried_plus (flow flow' : Nat → Nat) (numbers : List Nat) :
    carried (fun a => flow a + flow' a) numbers = carried flow numbers + carried flow' numbers := by
  induction numbers with
  | nil => rfl
  | cons a numbers ih =>
    rw [carried_cons, carried_cons, carried_cons, ih]
    omega

/-- A flow over one arc only. -/
theorem carried_single {a : Nat} (hnodup : numbers.Nodup) (ha : a ∈ numbers) (amount : Nat) :
    carried (fun b => if b = a then amount else 0) numbers = amount := by
  have hothers : carried (fun b => if b = a then amount else 0) (numbers.filter (· != a)) = 0 := by
    refine Eq.trans (carried_congr fun b hb => ?_) (FlowGraph.carried_zero _)
    exact if_neg (bne_iff_ne.1 (List.mem_filter.1 hb).2)
  rw [carried_eq_add_others hnodup ha, hothers, if_pos rfl, Nat.add_zero]

/-- **Grouping changes no sum,** if every arc belongs to one group. -/
theorem carried_grouped {place : Nat → Nat} {places : List Nat} (hplaces : places.Nodup)
    (h : ∀ a ∈ numbers, place a ∈ places) :
    carried (fun p => carried flow (numbers.filter (place · == p))) places =
      carried flow numbers := by
  induction numbers with
  | nil => exact FlowGraph.carried_zero places
  | cons a numbers ih =>
    have hrest := ih fun b hb => h b (List.mem_cons_of_mem a hb)
    have hgroup : ∀ p, carried flow ((a :: numbers).filter (place · == p)) =
        (if p = place a then flow a else 0) +
          carried flow (numbers.filter (place · == p)) := by
      intro p
      rcases eq_or_ne (place a) p with rfl | hne
      · rw [List.filter_cons_of_pos (by simp), carried_cons, if_pos rfl]
      · rw [List.filter_cons_of_neg (by simpa using hne), if_neg hne.symm, Nat.zero_add]
    simp only [hgroup]
    rw [carried_plus, hrest, carried_single hplaces (h a List.mem_cons_self), carried_cons]

end Carried

namespace Count

theorem exactTotal_eq_zero_iff {counts : List Count} :
    exactTotal counts = 0 ↔ ∀ c ∈ counts, c = 0 := by
  induction counts with
  | nil => simp [exactTotal]
  | cons c counts ih =>
    have hzero : c.toNat = 0 ↔ c = 0 := by rw [← UInt64.toNat_zero, UInt64.toNat_inj]
    rw [exactTotal_cons, Nat.add_eq_zero_iff, hzero, ih, List.forall_mem_cons]

theorem total_eq_zero_iff {counts : List Count} : total counts = 0 ↔ ∀ c ∈ counts, c = 0 := by
  rw [← exactTotal_eq_zero_iff, ← UInt64.toNat_inj, toNat_total, UInt64.toNat_zero]
  unfold limit
  omega

/-- A property splits a sum in two. -/
theorem exactTotal_filter_add (p : Arc → Bool) (arcs : List Arc) :
    exactTotal ((arcs.filter p).map Arc.count) +
        exactTotal ((arcs.filter (!p ·)).map Arc.count) = exactTotal (arcs.map Arc.count) := by
  induction arcs with
  | nil => rfl
  | cons a arcs ih =>
    rw [List.map_cons, exactTotal_cons]
    cases hp : p a with
    | true =>
      rw [List.filter_cons_of_pos hp, List.filter_cons_of_neg (by simp [hp]), List.map_cons,
        exactTotal_cons]
      omega
    | false =>
      rw [List.filter_cons_of_neg (by simp [hp]), List.filter_cons_of_pos (by simp [hp]),
        List.map_cons, exactTotal_cons]
      omega

end Count

namespace FlowGraph

variable {g : FlowGraph} {flow : Nat → Nat}

/-! ## Arcs by their blocks -/

/-- The block at one end of an arc, by the number of the arc. -/
def endOf (g : FlowGraph) (side : Arc → Nat) (i : Nat) : Nat := ((g.arcs[i]?).map side).getD 0

/-- **The arcs with a property, block by block.** -/
theorem carried_by_block (flow : Nat → Nat) (side : Arc → Nat)
    (hlt : ∀ a ∈ g.arcs, side a < g.blocks.length) (p : Arc → Bool) :
    carried (fun b => carried flow (g.arcNumbers fun a => p a && side a == b))
        (List.range g.blocks.length) = carried flow (g.arcNumbers p) := by
  have hgroup : ∀ b, g.arcNumbers (fun a => p a && side a == b) =
      (g.arcNumbers p).filter (g.endOf side · == b) := by
    intro b
    rw [arcNumbers, arcNumbers, List.filter_filter]
    refine List.filter_congr fun i hi => ?_
    rw [endOf, List.getElem?_eq_getElem (List.mem_range.1 hi)]
    exact Bool.and_comm _ _
  simp only [hgroup]
  refine carried_grouped List.nodup_range fun i hi => ?_
  obtain ⟨a, ha, -⟩ := mem_arcNumbers.1 hi
  rw [endOf, ha, List.mem_range]
  exact hlt a (List.mem_iff_getElem?.2 ⟨i, ha⟩)

/-- The counts of the arcs with a property are what the flow carries over them. -/
theorem exactTotal_filter (hcount : ∀ (i : Nat) (a : Arc), g.arcs[i]? = some a →
    a.count.toNat = flow i) (p : Arc → Bool) :
    Count.exactTotal ((g.arcs.filter p).map Arc.count) = carried flow (g.arcNumbers p) := by
  have hnumbered : g.arcs.filter p = (g.arcs.zipIdx.filter fun v => p v.1).map Prod.fst := by
    conv_lhs => rw [← List.zipIdx_map_fst 0 g.arcs, List.filter_map]
    rfl
  have hmem : ∀ v ∈ g.arcs.zipIdx.filter (fun v => p v.1), v.1.count.toNat = flow v.2 :=
    fun v hv => hcount v.2 v.1 (List.mem_zipIdx_iff_getElem?.1 (List.mem_filter.1 hv).1)
  rw [hnumbered, arcNumbers_eq_map_zipIdx]
  generalize g.arcs.zipIdx.filter (fun v => p v.1) = numbered at hmem
  induction numbered with
  | nil => rfl
  | cons v vs ih =>
    rw [List.map_cons, List.map_cons, List.map_cons, Count.exactTotal_cons, carried_cons,
      hmem v List.mem_cons_self, ih fun w hw => hmem w (List.mem_cons_of_mem v hw)]

/-! ## What enters leaves -/

/-- Whether an arc leads to a block that nothing leaves. -/
def isFinal (g : FlowGraph) (a : Arc) : Bool := (g.block a.destination).outArcs.isEmpty

/-- **Whether an arc marks a call that does not come back:** it is fake, and leads to a block that
nothing leaves. -/
def isLost (g : FlowGraph) (a : Arc) : Bool := a.fake && g.isFinal a

/-- What a block takes in and what enters the function there is what it gives out and what leaves
the function there. -/
theorem inflow_add_eq (hg : g.WellFormed) (hflow : g.Conserves flow) (hentry : g.arcsInto 0 = [])
    (hentered : ∀ b < g.blocks.length, b ≠ 0 → g.arcsFrom b ≠ [] → g.arcsInto b ≠ [])
    {b : Nat} (hb : b < g.blocks.length) :
    g.inflow flow b + (if b = 0 then g.outflow flow 0 else 0) =
      g.outflow flow b + carried flow (g.arcNumbers fun a => g.isFinal a && a.destination == b) := by
  -- the arcs into a block leave the function if nothing leaves the block
  have hfinal : g.arcNumbers (fun a => g.isFinal a && a.destination == b) =
      if g.arcsFrom b = [] then g.arcsInto b else [] := by
    have hout : (g.block b).outArcs = g.arcsFrom b := hg.outArcs_eq b hb
    have hiff : ∀ a : Arc, (g.isFinal a && a.destination == b) =
        (decide (g.arcsFrom b = []) && a.destination == b) := by
      intro a
      rcases eq_or_ne a.destination b with rfl | hne
      · rw [isFinal, hout]
        cases g.arcsFrom a.destination <;> simp
      · rw [beq_eq_false_iff_ne.2 hne, Bool.and_false, Bool.and_false]
    simp only [hiff]
    split_ifs with hnil
    · simp [hnil, arcsInto]
    · simp [hnil, arcNumbers]
  rw [hfinal]
  rcases eq_or_ne b 0 with rfl | hne
  · have hin : g.inflow flow 0 = 0 := by
      rw [inflow, hentry]
      rfl
    have hempty : (if g.arcsFrom 0 = [] then g.arcsInto 0 else []) = [] := by
      rw [hentry, ite_self]
    rw [hempty, hin, if_pos rfl, Nat.zero_add]
    rfl
  · rw [if_neg hne, Nat.add_zero]
    split_ifs with hnil
    · rw [outflow, hnil, inflow]
      exact (Nat.zero_add _).symm
    · exact hflow.balanced b hb (hentered b hb hne hnil) hnil

/-- **What enters a function leaves it.** -/
theorem outflow_entry_eq (hg : g.WellFormed) (hflow : g.Conserves flow)
    (hentry : g.arcsInto 0 = [])
    (hentered : ∀ b < g.blocks.length, b ≠ 0 → g.arcsFrom b ≠ [] → g.arcsInto b ≠ []) :
    g.outflow flow 0 = carried flow (g.arcNumbers g.isFinal) := by
  have hblocks := List.nodup_range (n := g.blocks.length)
  have hin := carried_by_block flow Arc.destination hg.destination_lt fun _ => true
  have hout := carried_by_block flow Arc.source hg.source_lt fun _ => true
  have hfinal := carried_by_block flow Arc.destination hg.destination_lt g.isFinal
  have hsum := carried_congr fun b hb =>
    inflow_add_eq hg hflow hentry hentered (List.mem_range.1 hb)
  rw [carried_plus, carried_plus, hfinal] at hsum
  have hcancel : carried (g.inflow flow) (List.range g.blocks.length) =
      carried (g.outflow flow) (List.range g.blocks.length) := hin.trans hout.symm
  rcases Nat.eq_zero_or_pos g.blocks.length with hnone | hsome
  · -- without blocks there are no arcs
    have harcs : g.arcs = [] := by
      refine List.eq_nil_iff_forall_not_mem.2 fun a ha => ?_
      have := hg.source_lt a ha
      omega
    simp [outflow, arcsFrom, arcNumbers, harcs]
  · rw [carried_single hblocks (List.mem_range.2 hsome)] at hsum
    omega

/-- Arcs that leave the function are returns, or lost. -/
theorem exactTotal_isFinal (hentry : ∀ a ∈ g.arcs, a.destination ≠ 0) :
    Count.exactTotal ((g.arcs.filter g.isFinal).map Arc.count) =
      Count.exactTotal ((g.arcs.filter g.isReturn).map Arc.count) +
        Count.exactTotal ((g.arcs.filter g.isLost).map Arc.count) := by
  have hlost : g.arcs.filter g.isLost = (g.arcs.filter g.isFinal).filter Arc.fake := by
    rw [List.filter_filter]
    rfl
  have hreturn : g.arcs.filter g.isReturn = (g.arcs.filter g.isFinal).filter (!Arc.fake ·) := by
    rw [List.filter_filter]
    refine List.filter_congr fun a ha => ?_
    rw [isReturn, isFinal, bne_iff_ne.2 (hentry a ha), Bool.and_true]
  rw [hlost, hreturn, Nat.add_comm]
  exact (Count.exactTotal_filter_add Arc.fake _).symm

/-- **Entries balance returns.** Nothing leads back to the first block, and an arc enters every
other block that has arcs. If what comes out of solving is a conserved flow, the entries are the
returns and the calls that did not come back; so there are no more returns than entries, and as many
exactly if every call came back. -/
theorem WellFormed.entries_balance (hg : g.WellFormed) (hentry : g.arcsInto 0 = [])
    (hentered : ∀ b < g.blocks.length, b ≠ 0 → g.arcsFrom b ≠ [] → g.arcsInto b ≠ [])
    (hflow : g.Conserves flow)
    (harcs : ∀ (i : Nat) (a : Arc), g.solve.arcs[i]? = some a → a.count.toNat = flow i)
    (hfirst : (g.solve.block 0).count.toNat = g.outflow flow 0) :
    let solved := g.solve
    let lost := (solved.arcs.filter solved.isLost).map Arc.count
    solved.entryCount.toNat = solved.returnCount.toNat + Count.exactTotal lost ∧
      solved.returnCount ≤ solved.entryCount ∧
      (solved.returnCount = solved.entryCount ↔
        ∀ a ∈ solved.arcs, solved.isLost a → a.count = 0) := by
  intro solved lost
  have hshape : g.uncounted = solved.uncounted := g.uncounted_solve.symm
  have hwell : solved.WellFormed := (wellFormed_congr hshape).1 hg
  have hlength : g.blocks.length = solved.blocks.length := by
    rw [← length_blocks_uncounted, hshape, length_blocks_uncounted]
  have hentry' : solved.arcsInto 0 = [] := by rw [← arcsInto_congr hshape, hentry]
  have hdestination : ∀ a ∈ solved.arcs, a.destination ≠ 0 := by
    intro a ha hzero
    obtain ⟨i, hi⟩ := List.mem_iff_getElem?.1 ha
    have hmem : i ∈ solved.arcsInto 0 := mem_arcNumbers.2 ⟨a, hi, by rw [hzero]; rfl⟩
    rw [hentry'] at hmem
    exact List.not_mem_nil hmem
  have hentered' : ∀ b < solved.blocks.length, b ≠ 0 → solved.arcsFrom b ≠ [] →
      solved.arcsInto b ≠ [] := by
    intro b hb hne hout
    rw [← hlength] at hb
    rw [← arcsFrom_congr hshape] at hout
    rw [← arcsInto_congr hshape]
    exact hentered b hb hne hout
  -- what enters, by the flow and by the counts
  have hleaves := outflow_entry_eq hwell (hflow.congr hshape) hentry' hentered'
  rw [← exactTotal_filter harcs, exactTotal_isFinal hdestination] at hleaves
  have hentries : solved.entryCount.toNat = solved.outflow flow 0 := by
    rw [outflow, ← arcsFrom_congr hshape]
    exact hfirst
  have hlimit := solved.entryCount.toNat_le_limit
  have hreturns : solved.returnCount.toNat =
      Count.exactTotal ((solved.arcs.filter solved.isReturn).map Arc.count) := by
    rw [returnCount, Count.toNat_total]
    omega
  have hbalance : solved.entryCount.toNat = solved.returnCount.toNat + Count.exactTotal lost := by
    rw [hentries, hreturns]
    exact hleaves
  refine ⟨hbalance, ?_, ?_⟩
  · rw [UInt64.le_iff_toNat_le]
    omega
  · have hlost : Count.exactTotal lost = 0 ↔ ∀ a ∈ solved.arcs, solved.isLost a → a.count = 0 := by
      rw [Count.exactTotal_eq_zero_iff]
      simp only [lost, List.forall_mem_map, List.mem_filter, and_imp]
    rw [← hlost, ← UInt64.toNat_inj]
    omega

/-- **A function with a call that may not come back:** of five entries four return. -/
def lossy : FlowGraph :=
  ((((empty 4).addArc 0 1 1).addArc 1 2 0).addArc 1 3 2).addArc 2 3 1 |>.addCounters [4, 1]

/-- **The fifth entry is the call that was lost.** -/
theorem entries_balance_of_lossy :
    let flow := fun a => [5, 4, 1, 4].getD a 0
    let solved := lossy.solve
    let lost := (solved.arcs.filter solved.isLost).map Arc.count
    solved.entryCount.toNat = solved.returnCount.toNat + Count.exactTotal lost ∧
      solved.returnCount ≤ solved.entryCount ∧
      (solved.returnCount = solved.entryCount ↔
        ∀ a ∈ solved.arcs, solved.isLost a → a.count = 0) ∧
      lossy.Conserves flow ∧ solved.entryCount = 5 ∧ solved.returnCount = 4 := by
  intro flow solved lost
  have hflow : lossy.Conserves flow := ⟨by decide, by decide, by decide⟩
  have hcount : ∀ v ∈ lossy.solve.arcs.zipIdx, v.1.count.toNat = flow v.2 := by decide
  obtain ⟨hbalance, hle, hiff⟩ :=
    WellFormed.entries_balance (g := lossy) ⟨by decide, by decide, by decide, by decide⟩ (by decide)
      (by decide) hflow (fun i a ha => hcount (a, i) (List.mem_zipIdx_iff_getElem?.2 ha)) (by decide)
  exact ⟨hbalance, hle, hiff, hflow, by decide, by decide⟩

end FlowGraph

end ArcCoverage

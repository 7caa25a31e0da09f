/-
# What solving knows, and why

Counters need not count a flow that is conserved; a data file may hold any. Solving then still has a
meaning that does not depend on the order of its visits:

| question | answer |
| --- | --- |
| which counts are known? | the least sets of arcs and blocks that are closed under the two rules |
| what is a known count? | what one of the rules gives, if it reads the counts that come out |
| what is any other count? | zero |

The first is `FlowGraph.isLeast_derived`: an inference stays inside every closed pair of sets
(`Infers.within`), and in the end the known ones are such a pair (`FlowGraph.closed_derived`). The
second is an invariant of single inferences (`Justified`): a count that was right when it was
inferred stays right, since all that it was inferred from is known and known counts are kept.
-/
import ArcCoverage.Proofs.Flow.Recounting
import Mathlib.Logic.Function.Iterate
import Mathlib.Order.Bounds.Basic

namespace ArcCoverage

/-- **One of the two arc lists** of the block of a number. -/
def IsListAt (blocks : List Block) (n : Nat) (numbers : List Nat) : Prop :=
  ∃ b, blocks[n]? = some b ∧ (numbers = b.inArcs ∨ numbers = b.outArcs)

namespace Knowledge

variable {start k k' : Knowledge} {blocks : List Block} {numbers : List Nat}

/-! ## The number of passes -/

/-- **Settling is a number of passes,** no more than it may make. -/
theorem exists_iterate_eq_settle (blocks : List Block) (fuel : Nat) (k : Knowledge) :
    ∃ passes ≤ fuel, (pass blocks)^[passes] k = k.settle blocks fuel := by
  induction fuel generalizing k with
  | zero => exact ⟨0, Nat.le_refl 0, rfl⟩
  | succ fuel ih =>
    rw [settle_succ]
    split_ifs
    · exact ⟨0, Nat.zero_le _, rfl⟩
    · obtain ⟨passes, hle, heq⟩ := ih (k.pass blocks)
      exact ⟨passes + 1, by omega, heq⟩

/-! ## Known counts stay what they were inferred to be -/

/-- The others of a list keep their sum, if they are known. -/
theorem Infers.others_eq (h : Infers blocks k k') {a : Nat}
    (hknown : ∀ j ∈ numbers, j ≠ a → (k.arc j).isSome) :
    k'.others numbers a = k.others numbers a := by
  unfold others
  congr 1
  refine List.map_congr_left fun j hj => ?_
  rw [List.mem_filter, bne_iff_ne] at hj
  obtain ⟨c, hc⟩ := Option.isSome_iff_exists.1 (hknown j hj.1 hj.2)
  rw [hc, h.mono_arc hc]

/-- A known list keeps its sum. -/
theorem Infers.sum?_eq (h : Infers blocks k k') {c : Count} (hsum : k.sum? numbers = some c) :
    k'.sum? numbers = some c := by
  obtain ⟨hne, hall, rfl⟩ := sum?_eq_some.1 hsum
  have hkept : ∀ a ∈ numbers, k'.arc a = k.arc a := by
    intro a ha
    obtain ⟨c, hc⟩ := Option.isSome_iff_exists.1 (hall a ha)
    rw [hc, h.mono_arc hc]
  refine sum?_eq_some.2 ⟨hne, fun a ha => ?_, ?_⟩
  · rw [hkept a ha]
    exact hall a ha
  · congr 1
    exact List.map_congr_left fun a ha => by rw [hkept a ha]

theorem Infers.isSome_arc (h : Infers blocks k k') {a : Nat} (ha : (k.arc a).isSome) :
    (k'.arc a).isSome := by
  obtain ⟨c, hc⟩ := Option.isSome_iff_exists.1 ha
  rw [h.mono_arc hc]
  rfl

/-- **What is known is what a rule gives,** or was known at the start. -/
structure Justified (k start : Knowledge) (blocks : List Block) : Prop where
  arc : ∀ a c, k.arc a = some c → start.arc a = some c ∨
    ∃ n numbers count, IsListAt blocks n numbers ∧ k.block n = some count ∧ a ∈ numbers ∧
      (∀ j ∈ numbers, j ≠ a → (k.arc j).isSome) ∧ c = count.minus (k.others numbers a)
  block : ∀ n c, k.block n = some c → ∃ numbers, IsListAt blocks n numbers ∧
    k.sum? numbers = some c

/-- An arc's reason stays a reason. -/
theorem Justified.arc_of_infers (h : k.Justified start blocks) (hstep : Infers blocks k k')
    {a : Nat} {c : Count} (ha : k.arc a = some c) : start.arc a = some c ∨
      ∃ n numbers count, IsListAt blocks n numbers ∧ k'.block n = some count ∧ a ∈ numbers ∧
        (∀ j ∈ numbers, j ≠ a → (k'.arc j).isSome) ∧ c = count.minus (k'.others numbers a) := by
  rcases h.arc a c ha with hstart | ⟨n, numbers, count, hl, hn, hmem, hknown, rfl⟩
  · exact .inl hstart
  · refine .inr ⟨n, numbers, count, hl, hstep.mono_block hn, hmem, ?_, ?_⟩
    · exact fun j hj hne => hstep.isSome_arc (hknown j hj hne)
    · rw [hstep.others_eq hknown]

/-- A block's reason stays a reason. -/
theorem Justified.block_of_infers (h : k.Justified start blocks) (hstep : Infers blocks k k')
    {n : Nat} {c : Count} (hn : k.block n = some c) :
    ∃ numbers, IsListAt blocks n numbers ∧ k'.sum? numbers = some c := by
  obtain ⟨numbers, hl, hsum⟩ := h.block n c hn
  exact ⟨numbers, hl, hstep.sum?_eq hsum⟩

/-- **An inference is justified,** and leaves justified what was. -/
theorem Infers.justified (hstep : Infers blocks k k') (h : k.Justified start blocks) :
    k'.Justified start blocks := by
  -- the new count is read off the knowledge before, which the step leaves as it was
  cases hstep with
  | @block n b c at_block unknown sum =>
    have hstep := Infers.block at_block unknown sum
    refine ⟨fun a d ha => h.arc_of_infers hstep ha, fun m d hm => ?_⟩
    rw [block_learnBlock] at hm
    split_ifs at hm with hn
    · obtain ⟨rfl, -⟩ := hn
      obtain rfl := Option.some.inj hm
      obtain ⟨numbers, hl, hsum⟩ := exists_known_list sum
      exact ⟨numbers, ⟨b, at_block, hl⟩, hstep.sum?_eq hsum⟩
    · exact h.block_of_infers hstep hm
  | @arc n b c numbers a at_block known list missing =>
    have hstep := Infers.arc at_block known list missing
    refine ⟨fun i d hi => ?_, fun m d hm => h.block_of_infers hstep hm⟩
    have hothers : ∀ j ∈ numbers, j ≠ a → (k.arc j).isSome := fun j hj hne =>
      isSome_of_missing? missing hj hne
    rw [arc_learnArc] at hi
    split_ifs at hi with ha
    · obtain ⟨rfl, -⟩ := ha
      obtain rfl := Option.some.inj hi
      refine .inr ⟨n, numbers, c, ⟨b, at_block, list⟩, known, (mem_of_missing? missing).1, ?_, ?_⟩
      · exact fun j hj hne => hstep.isSome_arc (hothers j hj hne)
      · rw [hstep.others_eq hothers]
    · exact h.arc_of_infers hstep hi

/-- **Everything inferred is justified.** -/
theorem Derives.justified (h : Derives blocks start k) (hblocks : ∀ n, start.block n = none) :
    k.Justified start blocks := by
  induction h with
  | refl =>
    refine ⟨fun a c ha => .inl ha, fun n c hn => ?_⟩
    rw [hblocks n] at hn
    exact absurd hn (Option.some_ne_none c).symm
  | tail _ hstep ih => exact hstep.justified ih

end Knowledge

namespace FlowGraph

variable {g : FlowGraph}

/-! ## The least closed sets -/

/-- **Sets of arcs and blocks that are closed** under the two rules. They hold

* every instrumented arc,
* a block, if they hold all arcs of one of its lists and the list is not empty,
* an arc, if they hold a block and all other arcs of a list of it.
-/
structure Closed (g : FlowGraph) (arcs blocks : Set Nat) : Prop where
  counted : ∀ i a, g.arcs[i]? = some a → a.onTree = false → i ∈ arcs
  block : ∀ n numbers, IsListAt g.blocks n numbers → numbers ≠ [] → (∀ i ∈ numbers, i ∈ arcs) →
    n ∈ blocks
  arc : ∀ n numbers i, IsListAt g.blocks n numbers → n ∈ blocks → i ∈ numbers →
    (∀ j ∈ numbers, j ≠ i → j ∈ arcs) → i ∈ arcs

/-- The arcs whose counts solving finds. -/
def knownArcs (g : FlowGraph) : Set Nat := {i | (g.derived.arc i).isSome}

/-- The blocks whose counts solving finds. -/
def knownBlocks (g : FlowGraph) : Set Nat := {n | (g.derived.block n).isSome}

theorem WellFormed.nodup_list (hg : g.WellFormed) {n : Nat} {numbers : List Nat}
    (hl : IsListAt g.blocks n numbers) : numbers.Nodup := by
  obtain ⟨b, hb, hl⟩ := hl
  obtain ⟨hn, rfl⟩ := List.getElem?_eq_some_iff.1 hb
  rw [← block_eq_getElem hn, hg.inArcs_eq n hn, hg.outArcs_eq n hn] at hl
  rcases hl with rfl | rfl
  · exact nodup_arcNumbers _
  · exact nodup_arcNumbers _

theorem WellFormed.list_lt (hg : g.WellFormed) {n : Nat} {numbers : List Nat}
    (hl : IsListAt g.blocks n numbers) : ∀ i ∈ numbers, i < g.arcs.length := by
  obtain ⟨b, hb, hl⟩ := hl
  have hmem : b ∈ g.blocks := List.mem_iff_getElem?.2 ⟨n, hb⟩
  rcases hl with rfl | rfl
  · exact hg.inArcs_lt hmem
  · exact hg.outArcs_lt hmem

/-- **What solving knows is closed:** a rule that still applied would have been used. -/
theorem closed_derived (hg : g.WellFormed) : g.Closed g.knownArcs g.knownBlocks where
  counted i a ha htree := by
    change (g.derived.arc i).isSome
    rw [arc_derived_of_counted ha htree]
    rfl
  block n numbers hl hne hknown := by
    obtain ⟨b, hb, hl⟩ := hl
    have hlength : n < g.derived.blocks.length := by
      rw [length_blocks_derived]
      exact (List.getElem?_eq_some_iff.1 hb).1
    have hsum := Knowledge.sum?_eq_some.2 ⟨hne, hknown, rfl⟩
    rcases hl with rfl | rfl
    · exact g.settled_derived.isSome_block hb hlength (.inl hsum)
    · exact g.settled_derived.isSome_block hb hlength (.inr hsum)
  arc n numbers i hl hn hi hothers := by
    obtain ⟨c, hc⟩ := Option.isSome_iff_exists.1 hn
    have hlt : ∀ a ∈ numbers, a < g.derived.arcs.length := by
      rw [length_arcs_derived]
      exact hg.list_lt hl
    have hnodup := hg.nodup_list hl
    obtain ⟨b, hb, hl⟩ := hl
    have hnone := g.settled_derived.missing?_eq_none hb hc hl hlt
    by_contra hopen
    have hi' : g.derived.arc i = none := Option.not_isSome_iff_eq_none.1 hopen
    -- the only arc of the list that may be open is open: the rule for arcs would apply
    have hmissing : g.derived.missing? numbers = some i := by
      refine Knowledge.missing?_of_unique hnodup hi hi' fun j hj hj' => ?_
      by_contra hne
      have hsome : (g.derived.arc j).isSome := hothers j hj hne
      rw [hj'] at hsome
      cases hsome
    rw [hnone] at hmissing
    cases hmissing

end FlowGraph

/-- **An inference stays inside closed sets.** -/
theorem Knowledge.Infers.within {g : FlowGraph} {k k' : Knowledge} {arcs blocks : Set Nat}
    (hclosed : g.Closed arcs blocks) (hstep : Infers g.blocks k k')
    (harcs : ∀ i, (k.arc i).isSome → i ∈ arcs) (hblocks : ∀ n, (k.block n).isSome → n ∈ blocks) :
    (∀ i, (k'.arc i).isSome → i ∈ arcs) ∧ ∀ n, (k'.block n).isSome → n ∈ blocks := by
  cases hstep with
  | @block n b c at_block _ sum =>
    refine ⟨harcs, fun m hm => ?_⟩
    rw [block_learnBlock] at hm
    split_ifs at hm with hn
    · obtain ⟨rfl, -⟩ := hn
      obtain ⟨numbers, hl, hsum⟩ := exists_known_list sum
      obtain ⟨hne, hknown, -⟩ := sum?_eq_some.1 hsum
      exact hclosed.block n numbers ⟨b, at_block, hl⟩ hne fun i hi => harcs i (hknown i hi)
    · exact hblocks m hm
  | @arc n b c numbers a at_block known list missing =>
    refine ⟨fun i hi => ?_, hblocks⟩
    rw [arc_learnArc] at hi
    split_ifs at hi with ha
    · obtain ⟨rfl, -⟩ := ha
      have hn : n ∈ blocks := hblocks n (by rw [known]; rfl)
      refine hclosed.arc n numbers a ⟨b, at_block, list⟩ hn (mem_of_missing? missing).1 ?_
      exact fun j hj hne => harcs j (isSome_of_missing? missing hj hne)
    · exact harcs i hi

namespace FlowGraph

variable {g : FlowGraph}

/-- **What solving knows is in every closed pair of sets.** -/
theorem known_subset {arcs blocks : Set Nat} (hclosed : g.Closed arcs blocks) :
    g.knownArcs ⊆ arcs ∧ g.knownBlocks ⊆ blocks := by
  have hrun {k : Knowledge} (h : Knowledge.Derives g.blocks g.measured k) :
      (∀ i, (k.arc i).isSome → i ∈ arcs) ∧ ∀ n, (k.block n).isSome → n ∈ blocks := by
    induction h with
    | refl =>
      refine ⟨fun i hi => ?_, fun n hn => ?_⟩
      · cases ha : g.arcs[i]? with
        | none =>
          rw [Knowledge.arc, measured, List.getElem?_map, ha] at hi
          cases hi
        | some a =>
          rw [arc_measured ha] at hi
          split_ifs at hi with htree
          · cases hi
          · exact hclosed.counted i a ha (Bool.eq_false_iff.2 htree)
      · rw [block_measured] at hn
        cases hn
    | tail _ hstep ih => exact hstep.within hclosed ih.1 ih.2
  exact hrun g.derives_derived

/-- **Solving knows the least closed sets.** -/
theorem isLeast_derived (hg : g.WellFormed) :
    IsLeast {known : Set Nat × Set Nat | g.Closed known.1 known.2}
      (g.knownArcs, g.knownBlocks) :=
  ⟨closed_derived hg, fun _ hclosed => known_subset hclosed⟩

/-! ## The counts that come out -/

/-- The counts of a list of arcs, after solving. -/
theorem map_count_arcsOf_solve {numbers : List Nat} (hlt : ∀ i ∈ numbers, i < g.arcs.length) :
    (g.solve.arcsOf numbers).map Arc.count = numbers.map fun i => (g.derived.arc i).getD 0 := by
  induction numbers with
  | nil => rfl
  | cons i numbers ih =>
    obtain ⟨a, ha⟩ : ∃ a, g.arcs[i]? = some a :=
      ⟨_, List.getElem?_eq_getElem (hlt i List.mem_cons_self)⟩
    have hi : g.solve.arcs[i]? = some { a with count := (g.derived.arc i).getD 0 } := by
      rw [getElem?_arcs_solve, ha, Option.map_some]
    have hrest := ih fun j hj => hlt j (List.mem_cons_of_mem i hj)
    rw [arcsOf] at hrest ⊢
    rw [List.filterMap_cons_some hi, List.map_cons, List.map_cons, hrest]

/-- **The counts of a solved graph are justified** by sets of known arcs and blocks. -/
structure JustifiedBy (g : FlowGraph) (arcs blocks : Set Nat) : Prop where
  /-- The sets are the least that are closed. -/
  least : IsLeast {known : Set Nat × Set Nat | g.Closed known.1 known.2} (arcs, blocks)
  /-- Instrumented arcs stay as they are. -/
  counted : ∀ (i : Nat) (a : Arc), g.arcs[i]? = some a → a.onTree = false → g.solve.arcs[i]? = some a
  /-- An arc that is not known counts zero. -/
  open_arc : ∀ (i : Nat) (a : Arc), g.solve.arcs[i]? = some a → i ∉ arcs → a.count = 0
  /-- A block that is not known counts zero. -/
  open_block : ∀ (n : Nat) (b : Block), g.solve.blocks[n]? = some b → n ∉ blocks → b.count = 0
  /-- A known block counts the sum of all arcs in, or of all arcs out. -/
  block : ∀ (n : Nat) (b : Block), g.solve.blocks[n]? = some b → n ∈ blocks →
    ∃ numbers, (numbers = b.inArcs ∨ numbers = b.outArcs) ∧ numbers ≠ [] ∧
      b.count = Count.total ((g.solve.arcsOf numbers).map Arc.count)
  /-- A known arc on the tree counts what the other arcs leave of a known block's count. -/
  arc : ∀ (i : Nat) (a : Arc), g.solve.arcs[i]? = some a → a.onTree = true → i ∈ arcs →
    ∃ n b numbers, n ∈ blocks ∧ g.solve.blocks[n]? = some b ∧
      (numbers = b.inArcs ∨ numbers = b.outArcs) ∧ i ∈ numbers ∧
      a.count = b.count.minus
        (Count.total ((g.solve.arcsOf (numbers.filter (· != i))).map Arc.count))
  /-- Solving again changes nothing. -/
  again : g.solve.solve = g.solve

/-- A known block of a solved graph, with one of its lists. -/
theorem exists_block_solve {n : Nat} {numbers : List Nat} {c : Count}
    (hl : IsListAt g.blocks n numbers) (hc : g.derived.block n = some c) :
    ∃ b, g.solve.blocks[n]? = some b ∧ b.count = c ∧
      (numbers = b.inArcs ∨ numbers = b.outArcs) := by
  obtain ⟨b, hb, hl⟩ := hl
  refine ⟨{ b with count := c }, ?_, rfl, hl⟩
  rw [getElem?_blocks_solve, hb, Option.map_some, hc, Option.getD_some]

/-- **Solving ends in a justified least fixpoint.** On right arc lists, with any flags, any counters
and blocks that count zero, passes come to rest; what is known then are the least sets closed under
the two rules, and every count is the counter's, what a rule gives, or zero. -/
theorem WellFormed.solve_least_fixpoint (hg : g.WellFormed)
    (hzero : ∀ b ∈ g.blocks, b.count = 0) :
    (∃ passes ≤ g.arcs.length + g.blocks.length,
      (Knowledge.pass g.blocks)^[passes] g.measured = g.derived ∧
        g.derived.pass g.blocks = g.derived) ∧
      ∃ arcs blocks : Set Nat, g.JustifiedBy arcs blocks := by
  have hjustified := g.derives_derived.justified g.block_measured
  constructor
  · obtain ⟨passes, hle, heq⟩ := Knowledge.exists_iterate_eq_settle g.blocks
      (g.arcs.length + g.blocks.length) g.measured
    exact ⟨passes, hle, heq, Knowledge.pass_settle unknown_measured_le⟩
  refine ⟨g.knownArcs, g.knownBlocks, isLeast_derived hg, ?_, ?_, ?_, ?_, ?_, g.solve_solve⟩
  · intro i a ha htree
    rw [getElem?_arcs_solve, ha, Option.map_some, arc_derived_of_counted ha htree]
    rfl
  · intro i a ha hopen
    rw [getElem?_arcs_solve] at ha
    obtain ⟨before, -, rfl⟩ := Option.map_eq_some_iff.1 ha
    have hnone : g.derived.arc i = none := Option.not_isSome_iff_eq_none.1 hopen
    simp [hnone]
  · intro n b hb hopen
    rw [getElem?_blocks_solve] at hb
    obtain ⟨before, hbefore, rfl⟩ := Option.map_eq_some_iff.1 hb
    have hnone : g.derived.block n = none := Option.not_isSome_iff_eq_none.1 hopen
    simpa [hnone] using hzero before (List.mem_iff_getElem?.2 ⟨n, hbefore⟩)
  · intro n b hb hknown
    obtain ⟨c, hc⟩ := Option.isSome_iff_exists.1 hknown
    obtain ⟨numbers, hl, hsum⟩ := hjustified.block n c hc
    obtain ⟨b', hb', hcount, hlist⟩ := exists_block_solve hl hc
    obtain rfl := Option.some.inj (hb.symm.trans hb')
    obtain ⟨hne, -, hc'⟩ := Knowledge.sum?_eq_some.1 hsum
    exact ⟨numbers, hlist, hne, by rw [map_count_arcsOf_solve (hg.list_lt hl), hcount, hc']⟩
  · intro i a ha htree hknown
    rw [getElem?_arcs_solve] at ha
    obtain ⟨before, hbefore, rfl⟩ := Option.map_eq_some_iff.1 ha
    obtain ⟨c, hc⟩ := Option.isSome_iff_exists.1 hknown
    rcases hjustified.arc i c hc with hstart | ⟨n, numbers, count, hl, hn, hi, -, hcount⟩
    · have hon : before.onTree = true := htree
      rw [arc_measured hbefore, hon] at hstart
      cases hstart
    · obtain ⟨b, hb, hbcount, hlist⟩ := exists_block_solve hl hn
      have hlt : ∀ j ∈ numbers.filter (· != i), j < g.arcs.length := fun j hj =>
        hg.list_lt hl j (List.mem_filter.1 hj).1
      refine ⟨n, b, numbers, Option.isSome_iff_exists.2 ⟨count, hn⟩, hb, hlist, hi, ?_⟩
      change (g.derived.arc i).getD 0 = _
      rw [map_count_arcsOf_solve hlt, hc, hbcount, Option.getD_some, hcount]
      rfl

/-- **A leaking graph:** more leaves its second block by one arc than comes in, and a loop at its
third keeps the rest from being known. -/
def leaking : FlowGraph :=
  (((((empty 4).addArc 0 1 0).addArc 1 2 1).addArc 1 3 0).addArc 2 2 1).addArc 2 3 1 |>.addCounters
    [5, 7]

/-- **The leak stops at zero,** and behind it nothing is known. -/
theorem solve_least_fixpoint_of_leaking :
    leaking.WellFormed ∧ (∀ b ∈ leaking.blocks, b.count = 0) ∧
      (∃ passes ≤ 9, (Knowledge.pass leaking.blocks)^[passes] leaking.measured = leaking.derived ∧
        leaking.derived.pass leaking.blocks = leaking.derived) ∧
      (∃ arcs blocks : Set Nat, leaking.JustifiedBy arcs blocks) ∧
      leaking.solve.arcs.map Arc.count = [5, 0, 7, 0, 0] ∧
      leaking.solve.blocks.map Block.count = [5, 5, 0, 0] := by
  have hg : leaking.WellFormed := ⟨by decide, by decide, by decide, by decide⟩
  have hzero : ∀ b ∈ leaking.blocks, b.count = 0 := by decide
  obtain ⟨hpasses, hleast⟩ := hg.solve_least_fixpoint hzero
  exact ⟨hg, hzero, hpasses, hleast, by decide, by decide⟩

end FlowGraph

end ArcCoverage

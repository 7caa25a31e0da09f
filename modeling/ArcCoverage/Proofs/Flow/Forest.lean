/-
# Forests of on-tree arcs

The on-tree arcs of a graph, taken without their directions, join its blocks. They are numbered, so
two arcs between the same blocks stay apart; a walk (`FlowGraph.TreeWalk`) is known by the blocks it
begins and ends at and by the numbers of its arcs, and a walk that takes no arc twice is a trail.

| term | meaning |
| --- | --- |
| `FlowGraph.IsForest` | no trail leads back to where it began, but for the empty one |
| `FlowGraph.IsOpen` | no arc of any kind enters the block, or none leaves it |
| `FlowGraph.HasOneEnd` | no two open blocks are joined by a walk |

A loop at one block and two arcs between the same blocks are such trails, of one arc and of two.

Any set of on-tree arcs of a forest has a leaf: the first block of a longest trail through the set
(`eq_head_of_longest`). The last block is another one, so a forest with one end has a leaf that is
not open (`exists_leaf`).

Forests grow by arcs between parts that are not joined yet. Labels that on-tree arcs do not change
tell such parts apart (`IsForest.addArc`), and open blocks too (`hasOneEnd_of_label`).
-/
import ArcCoverage.Proofs.Flow.Conservation
import Mathlib.Data.List.Perm.Subperm
import Mathlib.Data.Nat.Find

namespace ArcCoverage

namespace FlowGraph

/-- **An on-tree arc between two blocks,** in one direction or the other. -/
def TreeArc (g : FlowGraph) (a u v : Nat) : Prop :=
  ∃ arc, g.arcs[a]? = some arc ∧ arc.onTree = true ∧
    (arc.source = u ∧ arc.destination = v ∨ arc.source = v ∧ arc.destination = u)

/-- **A walk along on-tree arcs,** with their numbers. -/
inductive TreeWalk (g : FlowGraph) : Nat → List Nat → Nat → Prop
  | nil (u : Nat) : TreeWalk g u [] u
  | cons {u v w a : Nat} {walk : List Nat} (first : g.TreeArc a u v) (rest : TreeWalk g v walk w) :
      TreeWalk g u (a :: walk) w

/-- **The on-tree arcs have no cycle.** -/
def IsForest (g : FlowGraph) : Prop :=
  ∀ u walk, g.TreeWalk u walk u → walk.Nodup → walk = []

/-- A block that no arc enters, or that none leaves. -/
def IsOpen (g : FlowGraph) (b : Nat) : Prop := g.arcsInto b = [] ∨ g.arcsFrom b = []

/-- **No two open blocks are joined** by on-tree arcs. -/
def HasOneEnd (g : FlowGraph) : Prop :=
  ∀ u walk v, g.TreeWalk u walk v → g.IsOpen u → g.IsOpen v → u = v

variable {g : FlowGraph} {a u v w : Nat} {walk walk' : List Nat}

/-! ## Walks -/

theorem TreeArc.symm (h : g.TreeArc a u v) : g.TreeArc a v u := by
  obtain ⟨arc, ha, htree, hends⟩ := h
  exact ⟨arc, ha, htree, hends.symm⟩

theorem TreeArc.lt_length (h : g.TreeArc a u v) : a < g.arcs.length := by
  obtain ⟨arc, ha, -, -⟩ := h
  exact (List.getElem?_eq_some_iff.1 ha).1

theorem TreeArc.lt_length_blocks (hg : g.WellFormed) (h : g.TreeArc a u v) :
    u < g.blocks.length := by
  obtain ⟨arc, harc, -, hends⟩ := h
  have hmem : arc ∈ g.arcs := List.mem_iff_getElem?.2 ⟨a, harc⟩
  rcases hends with ⟨rfl, -⟩ | ⟨-, rfl⟩
  · exact hg.source_lt arc hmem
  · exact hg.destination_lt arc hmem

/-- An arc has two ends only. -/
theorem TreeArc.ends (h : g.TreeArc a u v) {x y : Nat} (h' : g.TreeArc a x y) :
    x = u ∧ y = v ∨ x = v ∧ y = u := by
  obtain ⟨arc, ha, -, hends⟩ := h
  obtain ⟨arc', ha', -, hends'⟩ := h'
  obtain rfl : arc = arc' := Option.some.inj (ha.symm.trans ha')
  omega

theorem TreeWalk.append (h : g.TreeWalk u walk v) (h' : g.TreeWalk v walk' w) :
    g.TreeWalk u (walk ++ walk') w := by
  induction h with
  | nil => exact h'
  | cons first _ ih => exact .cons first (ih h')

theorem TreeWalk.reverse (h : g.TreeWalk u walk v) : g.TreeWalk v walk.reverse u := by
  induction h with
  | nil u => exact .nil u
  | cons first _ ih =>
    rw [List.reverse_cons]
    exact ih.append (.cons first.symm (.nil _))

/-- A walk can be cut anywhere. -/
theorem TreeWalk.cut (h : g.TreeWalk u (walk ++ walk') w) :
    ∃ v, g.TreeWalk u walk v ∧ g.TreeWalk v walk' w := by
  induction walk generalizing u with
  | nil => exact ⟨u, .nil u, h⟩
  | cons a walk ih =>
    obtain _ | ⟨first, rest⟩ := h
    obtain ⟨v, hleft, hright⟩ := ih rest
    exact ⟨v, .cons first hleft, hright⟩

theorem TreeWalk.lt_length (h : g.TreeWalk u walk v) : ∀ a ∈ walk, a < g.arcs.length := by
  induction h with
  | nil => exact fun _ ha => absurd ha List.not_mem_nil
  | cons first _ ih =>
    intro a ha
    rcases List.mem_cons.1 ha with rfl | ha
    · exact first.lt_length
    · exact ih a ha

/-- A walk that goes anywhere begins at a block. -/
theorem TreeWalk.lt_length_blocks (hg : g.WellFormed) (h : g.TreeWalk u walk v)
    (hne : walk ≠ []) : u < g.blocks.length := by
  cases h with
  | nil => exact absurd rfl hne
  | cons first _ => exact first.lt_length_blocks hg

/-! ## Leaves -/

/-- A trail within a set of arcs. -/
def TrailIn (g : FlowGraph) (S : Nat → Prop) (u : Nat) (walk : List Nat) (v : Nat) : Prop :=
  g.TreeWalk u walk v ∧ walk.Nodup ∧ ∀ a ∈ walk, S a

/-- **A longest trail** within a set of arcs. -/
def LongestIn (g : FlowGraph) (S : Nat → Prop) (u : Nat) (walk : List Nat) (v : Nat) : Prop :=
  g.TrailIn S u walk v ∧
    ∀ u' walk' v', g.TrailIn S u' walk' v' → walk'.length ≤ walk.length

variable {S : Nat → Prop}

theorem TrailIn.length_le (h : g.TrailIn S u walk v) : walk.length ≤ g.arcs.length := by
  have hsub : walk ⊆ List.range g.arcs.length := fun a ha =>
    List.mem_range.2 (h.1.lt_length a ha)
  simpa using (List.subperm_of_subset h.2.1 hsub).length_le

theorem TrailIn.reverse (h : g.TrailIn S u walk v) : g.TrailIn S v walk.reverse u :=
  ⟨h.1.reverse, List.nodup_reverse.2 h.2.1, fun a ha => h.2.2 a (List.mem_reverse.1 ha)⟩

theorem LongestIn.reverse (h : g.LongestIn S u walk v) : g.LongestIn S v walk.reverse u :=
  ⟨h.1.reverse, fun u' walk' v' h' => by rw [List.length_reverse]; exact h.2 u' walk' v' h'⟩

theorem exists_longest (g : FlowGraph) (S : Nat → Prop) : ∃ u walk v, g.LongestIn S u walk v := by
  classical
  let P := fun n => ∃ u walk v, g.TrailIn S u walk v ∧ walk.length = n
  have hempty : P 0 :=
    ⟨0, [], 0, ⟨.nil 0, List.nodup_nil, fun _ ha => absurd ha List.not_mem_nil⟩, rfl⟩
  obtain ⟨u, walk, v, htrail, hlength⟩ : P (Nat.findGreatest P g.arcs.length) :=
    Nat.findGreatest_spec (Nat.zero_le _) hempty
  refine ⟨u, walk, v, htrail, fun u' walk' v' h' => ?_⟩
  rw [hlength]
  exact Nat.le_findGreatest h'.length_le ⟨u', walk', v', h', rfl⟩

/-- **The first block of a longest trail is a leaf.** Another arc of the set there would make the
trail longer, or, as the trail comes past that arc, close a cycle. -/
theorem eq_head_of_longest (hforest : g.IsForest) (h : g.LongestIn S u (a :: walk) w) {b x : Nat}
    (hb : S b) (hbx : g.TreeArc b u x) : b = a := by
  obtain ⟨⟨htrail, hnodup, hS⟩, hlongest⟩ := h
  by_contra hne
  have hmem : b ∈ walk := by
    by_contra hnot
    have hlonger : g.TrailIn S x (b :: a :: walk) w := by
      refine ⟨.cons hbx.symm htrail, List.nodup_cons.2 ⟨?_, hnodup⟩, fun c hc => ?_⟩
      · rw [List.mem_cons]
        exact fun hor => hor.elim hne hnot
      · rcases List.mem_cons.1 hc with rfl | hc
        · exact hb
        · exact hS c hc
    have := hlongest _ _ _ hlonger
    rw [List.length_cons] at this
    omega
  -- the trail up to `b`, which stands at one end of `b` and steps to the other
  obtain ⟨before, after, rfl⟩ := List.append_of_mem hmem
  have hsplit : (a :: before ++ b :: after).Nodup := hnodup
  have hwhole : g.TreeWalk u (a :: before ++ b :: after) w := htrail
  obtain ⟨y, hbefore, hafter⟩ := hwhole.cut
  obtain _ | ⟨hbyz, -⟩ := hafter
  rcases hbx.ends hbyz with ⟨rfl, rfl⟩ | ⟨rfl, rfl⟩
  · have hclosed := hforest _ _ hbefore (List.nodup_append.1 hsplit).1
    exact List.cons_ne_nil _ _ hclosed
  · have hcycle : g.TreeWalk _ (a :: before ++ [b]) _ := hbefore.append (.cons hbyz (.nil _))
    have hsub : (a :: before ++ [b]).Sublist (a :: before ++ b :: after) :=
      (List.Sublist.refl _).append (List.singleton_sublist.2 List.mem_cons_self)
    have hclosed := hforest _ _ hcycle (hsub.nodup hsplit)
    simp at hclosed

theorem LongestIn.ne_nil (h : g.LongestIn S u walk w) {x y : Nat} (ha : S a)
    (hxy : g.TreeArc a x y) : walk ≠ [] := by
  rintro rfl
  have := h.2 x [a] y ⟨.cons hxy (.nil y), List.nodup_singleton a,
    fun b hb => List.mem_singleton.1 hb ▸ ha⟩
  exact Nat.not_succ_le_zero _ this

theorem LongestIn.exists_leaf (hforest : g.IsForest) (h : g.LongestIn S u walk w)
    (hne : walk ≠ []) : ∃ a v, S a ∧ g.TreeArc a u v ∧ ∀ b x, S b → g.TreeArc b u x → b = a := by
  cases h.1.1 with
  | nil => exact absurd rfl hne
  | @cons _ v _ a walk first rest =>
    exact ⟨a, v, h.1.2.2 a List.mem_cons_self, first,
      fun b x hb hbx => eq_head_of_longest hforest h hb hbx⟩

/-- **A set of on-tree arcs has a leaf that is not open:** a block with arcs in and out that one arc
of the set touches, and no other. -/
theorem exists_leaf (hforest : g.IsForest) (hend : g.HasOneEnd)
    (hS : ∃ a u v, S a ∧ g.TreeArc a u v) :
    ∃ u a v, ¬ g.IsOpen u ∧ S a ∧ g.TreeArc a u v ∧
      ∀ b x, S b → g.TreeArc b u x → b = a := by
  obtain ⟨c, x, y, hc, hxy⟩ := hS
  obtain ⟨u, walk, w, hlongest⟩ := exists_longest g S
  have hnil := hlongest.ne_nil hc hxy
  -- the two ends of a longest trail are different leaves, and one of them is not open
  by_cases hopen : g.IsOpen u
  · have hclosed : ¬ g.IsOpen w := by
      intro hw
      obtain rfl := hend u walk w hlongest.1.1 hopen hw
      exact hnil (hforest u walk hlongest.1.1 hlongest.1.2.1)
    have hreverse : walk.reverse ≠ [] := fun h => hnil (List.reverse_eq_nil_iff.1 h)
    obtain ⟨a, v, hleaf⟩ := hlongest.reverse.exists_leaf hforest hreverse
    exact ⟨w, a, v, hclosed, hleaf⟩
  · obtain ⟨a, v, hleaf⟩ := hlongest.exists_leaf hforest hnil
    exact ⟨u, a, v, hopen, hleaf⟩

/-! ## Growing a forest -/

/-- Blocks that on-tree arcs join have one label. -/
def LabelsParts (g : FlowGraph) (label : Nat → Nat) : Prop :=
  ∀ arc ∈ g.arcs, arc.onTree = true → label arc.source = label arc.destination

variable {label : Nat → Nat}

theorem LabelsParts.eq_of_treeWalk (hlabel : g.LabelsParts label) (h : g.TreeWalk u walk v) :
    label u = label v := by
  induction h with
  | nil => rfl
  | cons first _ ih =>
    obtain ⟨arc, harc, htree, hends⟩ := first
    have hsame := hlabel arc (List.mem_iff_getElem?.2 ⟨_, harc⟩) htree
    rcases hends with ⟨rfl, rfl⟩ | ⟨rfl, rfl⟩
    · exact hsame.trans ih
    · exact hsame.symm.trans ih

theorem isForest_empty (n : Nat) : (empty n).IsForest := by
  intro u walk h _
  cases h with
  | nil => rfl
  | cons first _ => exact absurd first.lt_length (Nat.not_lt_zero _)

/-- A walk that keeps off a new arc was there before. -/
theorem TreeWalk.of_addArc {s d : Nat} {flags : UInt32}
    (h : (g.addArc s d flags).TreeWalk u walk v) (hnew : g.arcs.length ∉ walk) :
    g.TreeWalk u walk v := by
  induction h with
  | nil u => exact .nil u
  | @cons u v w a walk first _ ih =>
    obtain ⟨hne, hrest⟩ := not_or.1 fun h => hnew (List.mem_cons.2 h)
    have hlt := first.lt_length
    rw [addArc, List.length_append, List.length_singleton] at hlt
    obtain ⟨arc, harc, htree, hends⟩ := first
    rw [addArc, List.getElem?_append_left (by omega)] at harc
    exact .cons ⟨arc, harc, htree, hends⟩ (ih hrest)

/-- **An arc between parts that are not joined keeps a forest.** -/
theorem IsForest.addArc (h : g.IsForest) (label : Nat → Nat) (hlabel : g.LabelsParts label)
    {s d : Nat} (hne : label s ≠ label d) (flags : UInt32) : (g.addArc s d flags).IsForest := by
  intro u walk hwalk hnodup
  by_cases hnew : g.arcs.length ∈ walk
  · -- the rest of the trail would join the ends of the new arc
    obtain ⟨before, after, rfl⟩ := List.append_of_mem hnew
    obtain ⟨x, hbefore, hafter⟩ := hwalk.cut
    obtain _ | ⟨hxy, hrest⟩ := hafter
    obtain ⟨-, hnodup', hdisjoint⟩ := List.nodup_append.1 hnodup
    have hback := (hrest.of_addArc (List.nodup_cons.1 hnodup').1).append
      (hbefore.of_addArc fun hmem => hdisjoint _ hmem _ List.mem_cons_self rfl)
    have hsame := hlabel.eq_of_treeWalk hback
    obtain ⟨arc, harc, -, hends⟩ := hxy
    rw [FlowGraph.addArc, List.getElem?_concat_length] at harc
    obtain rfl := Option.some.inj harc
    rcases hends with ⟨rfl, rfl⟩ | ⟨rfl, rfl⟩
    · exact absurd hsame.symm hne
    · exact absurd hsame hne
  · exact h u walk (hwalk.of_addArc hnew) hnodup

/-- **An arc that is not on the tree keeps a forest.** -/
theorem IsForest.addArc_of_counted (h : g.IsForest) (s d : Nat) {flags : UInt32}
    (hflags : flags &&& 1 = 0) : (g.addArc s d flags).IsForest := by
  intro u walk hwalk hnodup
  refine h u walk (hwalk.of_addArc fun hmem => ?_) hnodup
  obtain ⟨before, after, rfl⟩ := List.append_of_mem hmem
  obtain ⟨x, -, hafter⟩ := hwalk.cut
  obtain _ | ⟨⟨arc, harc, htree, -⟩, -⟩ := hafter
  rw [FlowGraph.addArc, List.getElem?_concat_length] at harc
  obtain rfl := Option.some.inj harc
  simp [Arc.onTree, Arc.hasFlag, hflags] at htree

/-- **Labels tell open blocks apart.** -/
theorem hasOneEnd_of_label (hg : g.WellFormed) (hlabel : g.LabelsParts label)
    (hopen : ∀ u < g.blocks.length, ∀ v < g.blocks.length, g.IsOpen u → g.IsOpen v →
      label u = label v → u = v) : g.HasOneEnd := by
  intro u walk v h hu hv
  by_cases hnil : walk = []
  · subst hnil
    cases h
    rfl
  · have hreverse : walk.reverse ≠ [] := fun h => hnil (List.reverse_eq_nil_iff.1 h)
    exact hopen u (h.lt_length_blocks hg hnil) v (h.reverse.lt_length_blocks hg hreverse) hu hv
      (hlabel.eq_of_treeWalk h)

end FlowGraph

end ArcCoverage

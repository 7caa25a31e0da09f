/-
# Inferences and the end of solving

Whatever a visit, a pass or the whole of `Knowledge.settle` does is a sequence of single inferences:

| inference | needs | adds |
| --- | --- | --- |
| a block | one of its lists is not empty and known | the sum of the list |
| an arc | a known block with a list whose only unknown arc it is | the block's count less the others |

`Infers` is one of them and `Derives` any number. A statement about solving is proved of one inference
and carried along by induction: here that counts are never taken back (`Derives.mono_arc`,
`Derives.mono_block`) and that an inference changes nothing or leaves fewer counts open
(`Infers.eq_or_unknown_lt`). So the passes come to rest (`pass_settle`): in the end no visit changes
anything, and a block or arc that a rule applies to is known (`Settled.isSome_block`,
`Settled.missing?_eq_none`).
-/
import ArcCoverage.Flow.Solve
import Mathlib.Logic.Relation
import Mathlib.Data.List.Nodup

namespace ArcCoverage

section Options

variable {α β : Type} {f : α → Option β} {as : List α}

/-- A list of values, if there is one for each. -/
theorem mapM_eq_some_map {g : α → β} (h : ∀ a ∈ as, f a = some (g a)) :
    as.mapM f = some (as.map g) := by
  induction as with
  | nil => rfl
  | cons a as ih =>
    rw [List.mapM_cons, h a List.mem_cons_self, ih fun b hb => h b (List.mem_cons_of_mem _ hb)]
    rfl

theorem isSome_of_mapM_eq_some {bs : List β} (h : as.mapM f = some bs) :
    ∀ a ∈ as, (f a).isSome := by
  induction as generalizing bs with
  | nil => exact fun _ ha => absurd ha List.not_mem_nil
  | cons a as ih =>
    simp only [List.mapM_cons, Option.bind_eq_bind, Option.bind_eq_some_iff] at h
    obtain ⟨b, hb, rest, hrest, -⟩ := h
    intro c hc
    rcases List.mem_cons.1 hc with rfl | hc
    · rw [hb]
      rfl
    · exact ih hrest c hc

end Options

namespace Knowledge

variable {k k' : Knowledge} {b : Block} {blocks : List Block}

/-- One more arc known. -/
def learnArc (k : Knowledge) (a : Nat) (c : Count) : Knowledge :=
  { k with arcs := k.arcs.set a (some c) }

/-- One more block known. -/
def learnBlock (k : Knowledge) (n : Nat) (c : Count) : Knowledge :=
  { k with blocks := k.blocks.set n (some c) }

theorem arc_learnArc (k : Knowledge) (a a' : Nat) (c : Count) :
    (k.learnArc a c).arc a' = if a = a' ∧ a < k.arcs.length then some c else k.arc a' := by
  unfold arc learnArc
  rw [List.getElem?_set]
  by_cases ha : a = a'
  · subst ha
    by_cases hlt : a < k.arcs.length <;> simp [hlt]
  · simp [ha]

theorem block_learnBlock (k : Knowledge) (n n' : Nat) (c : Count) :
    (k.learnBlock n c).block n' = if n = n' ∧ n < k.blocks.length then some c else k.block n' := by
  unfold block learnBlock
  rw [List.getElem?_set]
  by_cases hn : n = n'
  · subst hn
    by_cases hlt : n < k.blocks.length <;> simp [hlt]
  · simp [hn]

/-! ## The steps of solving -/

theorem visit_of_none {n : Nat} (h : (k.fillBlock n b).block n = none) :
    k.visit b n = k.fillBlock n b := by
  unfold visit
  simp only [h]

theorem visit_of_some {n : Nat} {c : Count} (h : (k.fillBlock n b).block n = some c) :
    k.visit b n = ((k.fillBlock n b).fillArc c b.inArcs).fillArc c b.outArcs := by
  unfold visit
  simp only [h]

theorem pass_eq_foldl (blocks : List Block) (k : Knowledge) :
    k.pass blocks = blocks.zipIdx.foldl (fun k v => k.visit v.1 v.2) k := rfl

theorem settle_succ (blocks : List Block) (fuel : Nat) (k : Knowledge) :
    k.settle blocks (fuel + 1) =
      if k.pass blocks = k then k else (k.pass blocks).settle blocks fuel := rfl

/-! ## A list with all arcs known, or all but one -/

/-- A list has a sum if it is not empty and all its arcs are known. -/
theorem sum?_eq_some {numbers : List Nat} {c : Count} :
    k.sum? numbers = some c ↔ numbers ≠ [] ∧ (∀ a ∈ numbers, (k.arc a).isSome) ∧
      c = Count.total (numbers.map fun a => (k.arc a).getD 0) := by
  have hmapM (hall : ∀ a ∈ numbers, (k.arc a).isSome) :
      numbers.mapM k.arc = some (numbers.map fun a => (k.arc a).getD 0) := by
    refine mapM_eq_some_map fun a ha => ?_
    obtain ⟨d, hd⟩ := Option.isSome_iff_exists.1 (hall a ha)
    rw [hd, Option.getD_some]
  unfold sum?
  split_ifs with hnil
  · simp [List.isEmpty_iff.1 hnil]
  · rw [List.isEmpty_iff] at hnil
    constructor
    · intro h
      obtain ⟨cs, hcs, rfl⟩ := Option.map_eq_some_iff.1 h
      have hall := isSome_of_mapM_eq_some hcs
      rw [hmapM hall] at hcs
      exact ⟨hnil, hall, congrArg _ (Option.some.inj hcs).symm⟩
    · rintro ⟨-, hall, rfl⟩
      rw [hmapM hall, Option.map_some]

theorem missing?_eq_some {numbers : List Nat} {a : Nat} :
    k.missing? numbers = some a ↔ (numbers.filter fun a => (k.arc a).isNone) = [a] := by
  unfold missing?
  split <;> simp_all

theorem mem_of_missing? {numbers : List Nat} {a : Nat} (h : k.missing? numbers = some a) :
    a ∈ numbers ∧ k.arc a = none := by
  have : a ∈ numbers.filter fun a => (k.arc a).isNone := by
    rw [missing?_eq_some.1 h]
    exact List.mem_singleton_self a
  simpa using this

/-- The others are known. -/
theorem isSome_of_missing? {numbers : List Nat} {a a' : Nat} (h : k.missing? numbers = some a)
    (hmem : a' ∈ numbers) (hne : a' ≠ a) : (k.arc a').isSome := by
  by_contra hopen
  have hfilter : a' ∈ numbers.filter fun a => (k.arc a).isNone :=
    List.mem_filter.2 ⟨hmem, by rw [Option.not_isSome_iff_eq_none.1 hopen]; rfl⟩
  rw [missing?_eq_some.1 h] at hfilter
  exact hne (List.mem_singleton.1 hfilter)

/-- A count for a block comes from one of its lists. -/
theorem exists_known_list {b : Block} {c : Count}
    (h : (k.sum? b.inArcs).or (k.sum? b.outArcs) = some c) :
    ∃ numbers, (numbers = b.inArcs ∨ numbers = b.outArcs) ∧ k.sum? numbers = some c := by
  rcases Option.or_eq_some_iff.1 h with hin | ⟨-, hout⟩
  · exact ⟨_, .inl rfl, hin⟩
  · exact ⟨_, .inr rfl, hout⟩

/-- A list without repetition misses the one arc of it that is not known. -/
theorem missing?_of_unique {numbers : List Nat} {a : Nat} (hnodup : numbers.Nodup)
    (hmem : a ∈ numbers) (hnone : k.arc a = none)
    (hunique : ∀ a' ∈ numbers, k.arc a' = none → a' = a) : k.missing? numbers = some a := by
  have hfilter : (numbers.filter fun a => (k.arc a).isNone) = numbers.filter (· == a) := by
    refine List.filter_congr fun a' ha' => ?_
    by_cases he : a' = a
    · simp [he, hnone]
    · have : (k.arc a').isNone = false := by
        rw [← Bool.not_eq_true, Option.isNone_iff_eq_none]
        exact fun h => he (hunique a' ha' h)
      simp [this, he]
  rw [missing?_eq_some, hfilter, List.filter_beq, List.count_eq_one_of_mem hnodup hmem]
  rfl

/-! ## One inference -/

/-- **One inference** at a block of a graph. -/
inductive Infers (blocks : List Block) (k : Knowledge) : Knowledge → Prop
  | block {n : Nat} {b : Block} {c : Count} (at_block : blocks[n]? = some b)
      (unknown : k.block n = none) (sum : (k.sum? b.inArcs).or (k.sum? b.outArcs) = some c) :
      Infers blocks k (k.learnBlock n c)
  | arc {n : Nat} {b : Block} {c : Count} {numbers : List Nat} {a : Nat}
      (at_block : blocks[n]? = some b) (known : k.block n = some c)
      (list : numbers = b.inArcs ∨ numbers = b.outArcs) (missing : k.missing? numbers = some a) :
      Infers blocks k (k.learnArc a (c.minus (k.others numbers a)))

/-- **Any number of inferences.** -/
abbrev Derives (blocks : List Block) : Knowledge → Knowledge → Prop :=
  Relation.ReflTransGen (Infers blocks)

theorem derives_fillBlock {n : Nat} (hb : blocks[n]? = some b) :
    Derives blocks k (k.fillBlock n b) := by
  unfold fillBlock
  split
  · exact .refl
  · next hknown =>
    have hnone : k.block n = none := by simpa using hknown
    cases hsum : (k.sum? b.inArcs).or (k.sum? b.outArcs) with
    | some c => exact .single (.block hb hnone hsum)
    | none =>
      have hset : k.blocks.set n none = k.blocks := by
        refine List.ext_getElem? fun i => ?_
        rw [List.getElem?_set]
        split_ifs with hi hlt
        · subst hi
          have := List.getElem?_eq_getElem hlt
          rw [block, this, Option.join_some] at hnone
          rw [this, hnone]
        · rw [List.getElem?_eq_none (by omega)]
        · rfl
      rw [hset]

theorem derives_fillArc {n : Nat} {c : Count} {numbers : List Nat} (hb : blocks[n]? = some b)
    (hc : k.block n = some c) (hl : numbers = b.inArcs ∨ numbers = b.outArcs) :
    Derives blocks k (k.fillArc c numbers) := by
  unfold fillArc
  split
  · exact .refl
  · next a ha => exact .single (.arc hb hc hl ha)

theorem block_fillArc (c : Count) (numbers : List Nat) (n : Nat) :
    (k.fillArc c numbers).block n = k.block n := by
  unfold fillArc
  split <;> rfl

/-- **A visit makes inferences only.** -/
theorem derives_visit {n : Nat} (hb : blocks[n]? = some b) : Derives blocks k (k.visit b n) := by
  have hblock := derives_fillBlock (k := k) hb
  cases hc : (k.fillBlock n b).block n with
  | none => rwa [visit_of_none hc]
  | some c =>
    rw [visit_of_some hc]
    have hin := derives_fillArc hb hc (.inl rfl)
    exact (hblock.trans hin).trans (derives_fillArc hb ((block_fillArc ..).trans hc) (.inr rfl))

/-- The steps of a pass, as visits to some of the blocks. -/
theorem derives_foldl_visit (visits : List (Block × Nat))
    (hvisits : ∀ v ∈ visits, blocks[v.2]? = some v.1) (k : Knowledge) :
    Derives blocks k (visits.foldl (fun k v => k.visit v.1 v.2) k) := by
  induction visits generalizing k with
  | nil => exact .refl
  | cons v vs ih =>
    have hfirst := derives_visit (k := k) (hvisits v List.mem_cons_self)
    exact hfirst.trans (ih (fun w hw => hvisits w (List.mem_cons_of_mem _ hw)) _)

theorem getElem?_of_mem_zipIdx {v : Block × Nat} (hv : v ∈ blocks.zipIdx) :
    blocks[v.2]? = some v.1 :=
  List.mem_zipIdx_iff_getElem?.1 hv

theorem derives_pass (blocks : List Block) (k : Knowledge) : Derives blocks k (k.pass blocks) :=
  pass_eq_foldl blocks k ▸ derives_foldl_visit _ (fun _ hv => getElem?_of_mem_zipIdx hv) k

/-- **Solving makes inferences only.** -/
theorem derives_settle (blocks : List Block) (fuel : Nat) (k : Knowledge) :
    Derives blocks k (k.settle blocks fuel) := by
  induction fuel generalizing k with
  | zero => exact .refl
  | succ fuel ih =>
    rw [settle_succ]
    split_ifs
    · exact .refl
    · exact (derives_pass blocks k).trans (ih _)

/-! ## Knowledge grows -/

theorem Infers.length_arcs (h : Infers blocks k k') : k'.arcs.length = k.arcs.length := by
  cases h with
  | block => rfl
  | arc => exact List.length_set

theorem Infers.length_blocks (h : Infers blocks k k') : k'.blocks.length = k.blocks.length := by
  cases h with
  | block => exact List.length_set
  | arc => rfl

theorem Infers.mono_arc (h : Infers blocks k k') {a : Nat} {c : Count} (ha : k.arc a = some c) :
    k'.arc a = some c := by
  cases h with
  | block => exact ha
  | @arc _ _ _ _ a' _ _ _ missing =>
    have hne : a' ≠ a := by
      rintro rfl
      exact absurd ((mem_of_missing? missing).2.symm.trans ha) (Option.some_ne_none c).symm
    rw [arc_learnArc, if_neg fun h => hne h.1]
    exact ha

theorem Infers.mono_block (h : Infers blocks k k') {n : Nat} {c : Count}
    (hn : k.block n = some c) : k'.block n = some c := by
  cases h with
  | arc => exact hn
  | @block n' _ _ _ unknown =>
    have hne : n' ≠ n := by
      rintro rfl
      exact absurd (unknown.symm.trans hn) (Option.some_ne_none c).symm
    rw [block_learnBlock, if_neg fun h => hne h.1]
    exact hn

/-- How many counts are open. -/
def unknown (k : Knowledge) : Nat :=
  k.arcs.countP Option.isNone + k.blocks.countP Option.isNone

/-- An open entry that is filled in is open no longer. -/
theorem countP_set_lt {entries : List (Option Count)} {i : Nat} (hi : i < entries.length)
    (hnone : entries[i]?.join = none) (c : Count) :
    (entries.set i (some c)).countP Option.isNone < entries.countP Option.isNone := by
  rw [List.getElem?_eq_getElem hi, Option.join_some] at hnone
  have hpos : 0 < entries.countP Option.isNone :=
    List.countP_pos_iff.2 ⟨_, List.getElem_mem hi, by rw [hnone]; rfl⟩
  rw [List.countP_set hi, hnone]
  simp only [Option.isNone_none, Option.isNone_some, if_true, Bool.false_eq_true, if_false]
  omega

/-- **An inference changes nothing or leaves fewer counts open.** -/
theorem Infers.eq_or_unknown_lt (h : Infers blocks k k') : k' = k ∨ k'.unknown < k.unknown := by
  cases h with
  | @block n _ c _ hnone =>
    rcases Nat.lt_or_ge n k.blocks.length with hlt | hge
    · exact .inr (Nat.add_lt_add_left (countP_set_lt hlt hnone c) _)
    · exact .inl (by rw [learnBlock, List.set_eq_of_length_le hge])
  | @arc _ _ _ _ a _ _ _ missing =>
    rcases Nat.lt_or_ge a k.arcs.length with hlt | hge
    · exact .inr (Nat.add_lt_add_right (countP_set_lt hlt (mem_of_missing? missing).2 _) _)
    · exact .inl (by rw [learnArc, List.set_eq_of_length_le hge])

theorem Derives.length_arcs (h : Derives blocks k k') : k'.arcs.length = k.arcs.length := by
  induction h with
  | refl => rfl
  | tail _ hstep ih => exact hstep.length_arcs.trans ih

theorem Derives.length_blocks (h : Derives blocks k k') : k'.blocks.length = k.blocks.length := by
  induction h with
  | refl => rfl
  | tail _ hstep ih => exact hstep.length_blocks.trans ih

/-- **A known arc keeps its count.** -/
theorem Derives.mono_arc (h : Derives blocks k k') {a : Nat} {c : Count} (ha : k.arc a = some c) :
    k'.arc a = some c := by
  induction h with
  | refl => exact ha
  | tail _ hstep ih => exact hstep.mono_arc ih

/-- **A known block keeps its count.** -/
theorem Derives.mono_block (h : Derives blocks k k') {n : Nat} {c : Count}
    (hn : k.block n = some c) : k'.block n = some c := by
  induction h with
  | refl => exact hn
  | tail _ hstep ih => exact hstep.mono_block ih

theorem Derives.eq_or_unknown_lt (h : Derives blocks k k') : k' = k ∨ k'.unknown < k.unknown := by
  induction h with
  | refl => exact .inl rfl
  | tail _ hstep ih =>
    rcases hstep.eq_or_unknown_lt with rfl | hlt
    · exact ih
    · rcases ih with rfl | hlt'
      · exact .inr hlt
      · exact .inr (Nat.lt_trans hlt hlt')

/-- Inferences that lead back have changed nothing on the way. -/
theorem Derives.antisymm (h : Derives blocks k k') (hback : Derives blocks k' k) : k' = k := by
  rcases h.eq_or_unknown_lt with he | hlt
  · exact he
  · rcases hback.eq_or_unknown_lt with he | hlt'
    · exact he.symm
    · omega

/-! ## The end -/

/-- **No visit changes anything.** -/
def Settled (blocks : List Block) (k : Knowledge) : Prop :=
  ∀ n b, blocks[n]? = some b → k.visit b n = k

theorem visit_eq_of_foldl_eq {visits : List (Block × Nat)}
    (hvisits : ∀ v ∈ visits, blocks[v.2]? = some v.1)
    (h : visits.foldl (fun k v => k.visit v.1 v.2) k = k) : ∀ v ∈ visits, k.visit v.1 v.2 = k := by
  induction visits with
  | nil => exact fun _ hv => absurd hv List.not_mem_nil
  | cons w ws ih =>
    have hrest : ∀ v ∈ ws, blocks[v.2]? = some v.1 := fun v hv =>
      hvisits v (List.mem_cons_of_mem _ hv)
    have hfirst : k.visit w.1 w.2 = k := by
      refine (derives_visit (hvisits w List.mem_cons_self)).antisymm ?_
      have := derives_foldl_visit ws hrest (k.visit w.1 w.2)
      rwa [show ws.foldl _ _ = k from h] at this
    intro v hv
    rcases List.mem_cons.1 hv with rfl | hv
    · exact hfirst
    · rw [List.foldl_cons, hfirst] at h
      exact ih hrest h v hv

theorem settled_of_pass_eq (h : k.pass blocks = k) : Settled blocks k := fun _ _ hb =>
  visit_eq_of_foldl_eq (fun _ hv => getElem?_of_mem_zipIdx hv) h (_, _)
    (List.mem_zipIdx_iff_getElem?.2 hb)

/-- **The passes come to rest** once there is one for each open count. -/
theorem pass_settle {fuel : Nat} (h : k.unknown ≤ fuel) :
    (k.settle blocks fuel).pass blocks = k.settle blocks fuel := by
  -- a pass that changes anything closes a count, and takes one from the fuel
  induction fuel generalizing k with
  | zero =>
    rcases (derives_pass blocks k).eq_or_unknown_lt with he | hlt
    · exact he
    · omega
  | succ fuel ih =>
    rw [settle_succ]
    split_ifs with he
    · exact he
    · rcases (derives_pass blocks k).eq_or_unknown_lt with he' | hlt
      · exact absurd he' he
      · exact ih (by omega)

theorem Settled.fillBlock_eq (h : Settled blocks k) {n : Nat} (hb : blocks[n]? = some b) :
    k.fillBlock n b = k := by
  refine (derives_fillBlock hb).antisymm ?_
  have hvisit := h n b hb
  cases hc : (k.fillBlock n b).block n with
  | none =>
    rw [visit_of_none hc] at hvisit
    rw [hvisit]
  | some c =>
    rw [visit_of_some hc] at hvisit
    have hin := derives_fillArc hb hc (.inl rfl)
    have hout := derives_fillArc hb ((block_fillArc c b.inArcs n).trans hc) (.inr rfl)
    rw [hvisit] at hout
    exact hin.trans hout

theorem Settled.fillArc_eq (h : Settled blocks k) {n : Nat} {c : Count} {numbers : List Nat}
    (hb : blocks[n]? = some b) (hc : k.block n = some c)
    (hl : numbers = b.inArcs ∨ numbers = b.outArcs) : k.fillArc c numbers = k := by
  have hfill := h.fillBlock_eq hb
  have hvisit := h n b hb
  rw [visit_of_some (by rwa [hfill]), hfill] at hvisit
  have hin : k.fillArc c b.inArcs = k := by
    refine (derives_fillArc hb hc (.inl rfl)).antisymm ?_
    have hout := derives_fillArc (k := k.fillArc c b.inArcs) hb ((block_fillArc ..).trans hc)
      (.inr rfl)
    rwa [hvisit] at hout
  rcases hl with rfl | rfl
  · exact hin
  · rwa [hin] at hvisit

/-- **In the end a block with a known list is known.** -/
theorem Settled.isSome_block (h : Settled blocks k) {n : Nat} (hb : blocks[n]? = some b)
    (hlt : n < k.blocks.length) {c : Count}
    (hsum : k.sum? b.inArcs = some c ∨ k.sum? b.outArcs = some c) : (k.block n).isSome := by
  by_contra hnone
  have hfill := h.fillBlock_eq hb
  rw [fillBlock, if_neg hnone] at hfill
  have hblock : k.block n = (k.sum? b.inArcs).or (k.sum? b.outArcs) := by
    conv_lhs => rw [← hfill]
    rw [block, List.getElem?_set_self hlt, Option.join_some]
  rw [hblock] at hnone
  rcases hsum with hsum | hsum
  · simp [hsum] at hnone
  · cases hin : k.sum? b.inArcs <;> simp [hsum, hin] at hnone

/-- **In the end a list of a known block does not miss one arc.** -/
theorem Settled.missing?_eq_none (h : Settled blocks k) {n : Nat} {c : Count} {numbers : List Nat}
    (hb : blocks[n]? = some b) (hc : k.block n = some c)
    (hl : numbers = b.inArcs ∨ numbers = b.outArcs)
    (hlt : ∀ a ∈ numbers, a < k.arcs.length) : k.missing? numbers = none := by
  cases hm : k.missing? numbers with
  | none => rfl
  | some a =>
    obtain ⟨hmem, hnone⟩ := mem_of_missing? hm
    have hfill : k.learnArc a (c.minus (k.others numbers a)) = k := by
      have := h.fillArc_eq hb hc hl
      rwa [fillArc, hm] at this
    have harc := arc_learnArc k a a (c.minus (k.others numbers a))
    rw [hfill, if_pos ⟨rfl, hlt a hmem⟩] at harc
    exact absurd (hnone.symm.trans harc) (Option.some_ne_none _).symm

end Knowledge

namespace FlowGraph

variable {g : FlowGraph}

/-! ## Solving a graph -/

theorem arc_measured {i : Nat} {a : Arc} (h : g.arcs[i]? = some a) :
    g.measured.arc i = if a.onTree then none else some a.count := by
  rw [Knowledge.arc, measured, List.getElem?_map, h, Option.map_some, Option.join_some]

theorem block_measured (n : Nat) : g.measured.block n = none := by
  rw [Knowledge.block, measured, List.getElem?_map]
  cases g.blocks[n]? <;> rfl

theorem unknown_measured_le : g.measured.unknown ≤ g.arcs.length + g.blocks.length := by
  have harcs := List.countP_le_length (p := Option.isNone) (l := g.measured.arcs)
  have hblocks := List.countP_le_length (p := Option.isNone) (l := g.measured.blocks)
  have hlarcs : g.measured.arcs.length = g.arcs.length := List.length_map _
  have hlblocks : g.measured.blocks.length = g.blocks.length := List.length_map _
  unfold Knowledge.unknown
  omega

theorem derives_derived (g : FlowGraph) : Knowledge.Derives g.blocks g.measured g.derived :=
  Knowledge.derives_settle _ _ _

/-- **What is derived in the end leaves no rule to apply.** -/
theorem settled_derived (g : FlowGraph) : Knowledge.Settled g.blocks g.derived :=
  Knowledge.settled_of_pass_eq (Knowledge.pass_settle unknown_measured_le)

theorem length_arcs_derived (g : FlowGraph) : g.derived.arcs.length = g.arcs.length :=
  g.derives_derived.length_arcs.trans (List.length_map _)

theorem length_blocks_derived (g : FlowGraph) : g.derived.blocks.length = g.blocks.length :=
  g.derives_derived.length_blocks.trans (List.length_map _)

/-- An arc with a counter keeps what it counted. -/
theorem arc_derived_of_counted {i : Nat} {a : Arc} (h : g.arcs[i]? = some a)
    (ha : a.onTree = false) : g.derived.arc i = some a.count := by
  refine g.derives_derived.mono_arc ?_
  rw [arc_measured h, ha]
  rfl

theorem getElem?_arcs_solve (g : FlowGraph) (i : Nat) : g.solve.arcs[i]? =
    (g.arcs[i]?).map fun a => { a with count := (g.derived.arc i).getD 0 } := by
  simp only [solve, withCounts, List.getElem?_map, List.getElem?_zipIdx, Option.map_map,
    Function.comp_def, Nat.zero_add]

theorem getElem?_blocks_solve (g : FlowGraph) (n : Nat) : g.solve.blocks[n]? =
    (g.blocks[n]?).map fun b => { b with count := (g.derived.block n).getD b.count } := by
  simp only [solve, withCounts, List.getElem?_map, List.getElem?_zipIdx, Option.map_map,
    Function.comp_def, Nat.zero_add]

end FlowGraph

end ArcCoverage

/-
# Branches in the summary and in the listings

The branches of a file are shown one by one, in the listings, and as totals, in its summary:

| total | branches that a listing shows |
| --- | --- |
| branches | all |
| executed | those that are not `notexec`, or `never executed` |
| taken | those that are `taken`, and `FileGroup.strays` |

The strays are what the two disagree about. A listing looks at a branch only if its block ran, but the
total of those taken looks at the branch alone. Solving does not make one follow from the other: counters
that no run has left can give a block nothing and the arcs out of it something. If blocks run as often as
they are left there are no strays (`FileGroup.strays_eq_nil`), and the totals are those of the listings
(`Summary.tallies_iff`).
-/
import ArcCoverage.Proofs.Report.BothFormats
import ArcCoverage.Proofs.Report.Totals

namespace ArcCoverage

/-! ## One block -/

namespace FlowGraph

variable {g : FlowGraph} {b : Nat}

/-- The branches of a block: its real arcs out, if there are two or more. -/
def branchArcs (g : FlowGraph) (b : Nat) : List Arc :=
  if (g.realOutArcs b).length < 2 then [] else g.realOutArcs b

/-- **Stray branches:** those that were taken although their block did not run. -/
def strays (g : FlowGraph) (b : Nat) : List Arc :=
  if (g.block b).count = 0 then (g.branchArcs b).filter fun a => a.count != 0 else []

/-- **A block that runs as often as it is left** has no stray branches. -/
theorem strays_eq_nil (h : (g.block b).count = Count.total ((g.outArcs b).map Arc.count)) :
    g.strays b = [] := by
  unfold strays
  split_ifs with hran
  · refine List.filter_eq_nil_iff.2 fun a ha => ?_
    have hreal : a ∈ g.realOutArcs b := by
      unfold branchArcs at ha
      split_ifs at ha
      · exact absurd ha List.not_mem_nil
      · exact ha
    have hout : a ∈ g.outArcs b := (List.mem_filter.1 hreal).1
    have hle := Count.le_total (List.mem_map_of_mem (f := Arc.count) hout)
    rw [← h, hran, UInt64.le_iff_toNat_le] at hle
    have hzero : a.count = 0 := UInt64.toNat_inj.1 (Nat.le_zero.1 hle)
    simp [hzero]
  · rfl

end FlowGraph

namespace Intermediate

variable {g : FlowGraph} {b : Nat}

theorem branchStates_eq (g : FlowGraph) (b : Nat) :
    branchStates g b = (g.branchArcs b).map fun a => .ofCounts (g.block b).count a.count := by
  unfold branchStates FlowGraph.branchArcs
  dsimp only
  split_ifs <;> rfl

theorem countP_executed_branchStates (g : FlowGraph) (b : Nat) :
    (branchStates g b).countP (· != .notExecuted) =
      if (g.block b).count = 0 then 0 else (g.branchArcs b).length := by
  rw [branchStates_eq, List.countP_map]
  split_ifs with hran
  · refine List.countP_eq_zero.2 fun a _ => ?_
    simp [BranchState.ofCounts, hran]
  · refine List.countP_eq_length.2 fun a _ => ?_
    by_cases ha : a.count = 0 <;> simp [BranchState.ofCounts, hran, ha]

theorem countP_taken_branchStates (g : FlowGraph) (b : Nat) :
    (branchStates g b).countP (· == .taken) + (g.strays b).length =
      (g.branchArcs b).countP fun a => a.count != 0 := by
  rw [branchStates_eq, List.countP_map, FlowGraph.strays]
  split_ifs with hran
  · have hnone : (g.branchArcs b).countP ((· == BranchState.taken) ∘ fun a =>
        BranchState.ofCounts (g.block b).count a.count) = 0 := by
      refine List.countP_eq_zero.2 fun a _ => ?_
      simp [BranchState.ofCounts, hran]
    rw [hnone, Nat.zero_add, ← List.countP_eq_length_filter]
  · refine List.countP_congr fun a _ => ?_
    by_cases ha : a.count = 0 <;> simp [BranchState.ofCounts, hran, ha]

end Intermediate

namespace Summary

open Intermediate (branchStates BranchState)

theorem branches_ofBlock (g : FlowGraph) (b : Nat) :
    (ofBlock g b).branches = (branchStates g b).length ∧
    (ofBlock g b).branchesExecuted = (branchStates g b).countP (· != .notExecuted) ∧
    (ofBlock g b).branchesTaken =
      (branchStates g b).countP (· == .taken) + (g.strays b).length := by
  have hcalls : (callsOfBlock g b).branches = 0 ∧ (callsOfBlock g b).branchesExecuted = 0 ∧
      (callsOfBlock g b).branchesTaken = 0 := by
    unfold callsOfBlock
    split_ifs <;> exact ⟨rfl, rfl, rfl⟩
  have hbranches : (branchesOfBlock g b).branches = (g.branchArcs b).length ∧
      (branchesOfBlock g b).branchesExecuted =
        (if (g.block b).count = 0 then 0 else (g.branchArcs b).length) ∧
      (branchesOfBlock g b).branchesTaken = (g.branchArcs b).countP fun a => a.count != 0 := by
    unfold branchesOfBlock FlowGraph.branchArcs
    dsimp only
    split_ifs <;> exact ⟨rfl, rfl, rfl⟩
  rw [Intermediate.countP_executed_branchStates, Intermediate.countP_taken_branchStates,
    Intermediate.branchStates_eq, List.length_map]
  obtain ⟨hall, hran, htaken⟩ := hcalls
  obtain ⟨hall', hran', htaken'⟩ := hbranches
  simp only [ofBlock, plus, hall, hran, htaken, hall', hran', htaken', Nat.zero_add, and_self]

end Summary

/-! ## One file -/

namespace FileGroup

variable {p : Profile} {options : Options} {group : FileGroup}

/-- The blocks whose branches are shown in a file. -/
def shown (p : Profile) (group : FileGroup) : List BlockId :=
  group.lines.flatMap (group.attributed p)

/-- The stray branches of a file. -/
def strays (p : Profile) (group : FileGroup) : List Arc :=
  (group.shown p).flatMap fun id => (p.flowOf id.routine).strays id.block

/-- **A file whose blocks run as often as they are left** has no stray branches. -/
theorem strays_eq_nil (h : ∀ id ∈ group.shown p, (p.blockOf id).count =
    Count.total (((p.flowOf id.routine).outArcs id.block).map Arc.count)) : group.strays p = [] :=
  List.flatMap_eq_nil_iff.2 fun id hid => FlowGraph.strays_eq_nil (h id hid)

/-- The states of the branches of a file, in the order in which they are listed. -/
def states (p : Profile) (group : FileGroup) : List Intermediate.BranchState :=
  (group.shown p).flatMap fun id => Intermediate.branchStates (p.flowOf id.routine) id.block

theorem states_eq (p : Profile) (group : FileGroup) :
    group.states p = group.lines.flatMap (group.statesAt p) :=
  List.flatMap_assoc

/-- The entries of the intermediate format have these states. -/
theorem map_branch?_entries (options : Options) (p : Profile) (group : FileGroup) :
    ((Intermediate.entries options p group).filterMap Intermediate.Entry.branch?).map Prod.snd =
      group.states p := by
  rw [Intermediate.filterMap_branch?_entries, List.map_flatMap, states_eq]
  simp only [List.map_map, Function.comp_def, List.map_id']

/-- And so have the branches of the annotated source. -/
theorem map_branch?_rows (h : p.Reachable) (hgroup : group ∈ p.fileGroups options)
    {options' : Options} (hshown : options'.branchProbabilities = true) (source : List String)
    (origin : Provenance) :
    ((Annotated.rows options' p group source origin).filterMap Row.branch?).map
      (fun (_, taken) => taken.word) = (group.states p).map Intermediate.BranchState.text := by
  rw [Annotated.filterMap_branch?_rows h hgroup, List.map_flatMap, states_eq, List.map_flatMap]
  refine List.flatMap_congr fun l _ => ?_
  rw [← map_state_branchesAt hshown, List.map_map, List.map_map]
  exact List.map_congr_left fun taken _ => taken.word_eq

end FileGroup

namespace Summary

variable {p : Profile} {options : Options} {group : FileGroup}

/-- A number to which lines add nothing is that of the blocks that are shown. -/
theorem value_ofFile {f : Summary → Nat} (hzero : f 0 = 0) (hadd : ∀ a b, f (a + b) = f a + f b)
    (hline : ∀ l, f (ofLine l) = 0) (p : Profile) (group : FileGroup) :
    f (ofFile p group) = ((group.shown p).map fun id => f (ofId p id)).sum := by
  have hlines : f (group.lines.map ofLine).sum = 0 := by
    refine value_sum_eq_zero hzero hadd fun part hpart => ?_
    obtain ⟨l, -, rfl⟩ := List.mem_map.1 hpart
    exact hline l
  rw [ofFile_eq, hadd, hlines, Nat.zero_add, value_sum hzero hadd, List.map_map]
  rfl

/-- **The totals of a file,** as a listing shows its branches. -/
theorem branches_ofFile (p : Profile) (group : FileGroup) :
    (ofFile p group).branches = (group.states p).length ∧
    (ofFile p group).branchesExecuted = (group.states p).countP (· != .notExecuted) ∧
    (ofFile p group).branchesTaken =
      (group.states p).countP (· == .taken) + (group.strays p).length := by
  have hblock (id : BlockId) := branches_ofBlock (p.flowOf id.routine) id.block
  have hvalue {f : Summary → Nat} (hzero : f 0 = 0) (hadd : ∀ a b, f (a + b) = f a + f b)
      (hline : ∀ l, f (ofLine l) = 0) := value_ofFile hzero hadd hline p group
  have hall := hvalue (f := Summary.branches) rfl (fun _ _ => rfl) fun _ => rfl
  have hran := hvalue (f := Summary.branchesExecuted) rfl (fun _ _ => rfl) fun _ => rfl
  have htaken := hvalue (f := Summary.branchesTaken) rfl (fun _ _ => rfl) fun _ => rfl
  simp only [ofId, (hblock _).1, (hblock _).2.1, (hblock _).2.2, List.sum_map_add] at hall hran htaken
  rw [hall, hran, htaken, FileGroup.states, FileGroup.strays, List.length_flatMap,
    List.length_flatMap, List.countP_flatMap, List.countP_flatMap]
  exact ⟨rfl, rfl, rfl⟩

/-- **Totals that are those of a listing,** which says of each branch what became of it. -/
structure Tallies (s : Summary) (words : List String) : Prop where
  branches : s.branches = words.length
  executed : s.branchesExecuted = words.countP (· != "notexec")
  taken : s.branchesTaken = words.countP (· == "taken")

/-- Of the branches of a listing, those that were taken were executed. -/
theorem Tallies.le {s : Summary} {words : List String} (h : s.Tallies words) :
    s.branchesTaken ≤ s.branchesExecuted ∧ s.branchesExecuted ≤ s.branches := by
  rw [h.branches, h.executed, h.taken]
  refine ⟨List.countP_mono_left fun word _ htaken => ?_, List.countP_le_length⟩
  rw [eq_of_beq htaken]
  decide

/-- **The totals of a file are those of its listings but for strays.** Branches and executed branches
are counted alike, and so are branches that were taken exactly if none was taken out of a block that did
not run; that holds if blocks run as often as they are left. -/
theorem tallies_iff (h : p.Reachable) (hgroup : group ∈ p.fileGroups options) (source : List String)
    (origin : Provenance) :
    let s := ofFile p group
    let listed := ((Intermediate.entries options p group).filterMap
      Intermediate.Entry.branch?).map fun (_, state) => state.text
    let annotated := ((Annotated.rows options.showingBranches p group source origin).filterMap
      Row.branch?).map fun (_, taken) => taken.word
    s.branches = listed.length ∧ s.branches = annotated.length ∧
      s.branchesExecuted = listed.countP (· != "notexec") ∧
      s.branchesExecuted = annotated.countP (· != "notexec") ∧
      s.branchesExecuted ≤ s.branches ∧
      s.branchesTaken = listed.countP (· == "taken") + (group.strays p).length ∧
      s.branchesTaken = annotated.countP (· == "taken") + (group.strays p).length ∧
      (s.Tallies listed ∧ s.Tallies annotated ∧ s.branchesTaken ≤ s.branchesExecuted ↔
        group.strays p = []) ∧
      ((∀ id ∈ group.shown p, (p.blockOf id).count =
        Count.total (((p.flowOf id.routine).outArcs id.block).map Arc.count)) →
          group.strays p = []) := by
  intro s listed annotated
  have hlisted : listed = (group.states p).map Intermediate.BranchState.text := by
    rw [← FileGroup.map_branch?_entries options p group, List.map_map]
    rfl
  have hannotated : annotated = listed :=
    (FileGroup.map_branch?_rows h hgroup rfl source origin).trans hlisted.symm
  have hexecuted : listed.countP (· != "notexec") = (group.states p).countP (· != .notExecuted) := by
    rw [hlisted, List.countP_map]
    refine List.countP_congr fun state _ => ?_
    cases state <;> decide
  have htaken : listed.countP (· == "taken") = (group.states p).countP (· == .taken) := by
    rw [hlisted, List.countP_map]
    refine List.countP_congr fun state _ => ?_
    cases state <;> decide
  have hlength : listed.length = (group.states p).length := by rw [hlisted, List.length_map]
  obtain ⟨hall, hran, hcounted⟩ := branches_ofFile p group
  rw [← hlength] at hall
  rw [← hexecuted] at hran
  rw [← htaken] at hcounted
  rw [hannotated]
  refine ⟨hall, hall, hran, hran, ?_, hcounted, hcounted, ?_, FileGroup.strays_eq_nil⟩
  · rw [hall, hran]
    exact List.countP_le_length
  · constructor
    · rintro ⟨htallies, -, -⟩
      have hsame := hcounted.symm.trans htallies.taken
      exact List.length_eq_zero_iff.1 (by omega)
    · intro hnone
      rw [hnone, List.length_nil, Nat.add_zero] at hcounted
      have htallies : s.Tallies listed := ⟨hall, hran, hcounted⟩
      exact ⟨htallies, htallies, htallies.le.1⟩

/-- **Of a run,** which takes one of two branches a thousand times. -/
theorem tallies_iff_ofBranching :
    let p := Profile.ofBranching [1000, 0, 1000]
    let group := p.fileGroup {} "a.c" 0
    let listed := ((Intermediate.entries {} p group).filterMap
      Intermediate.Entry.branch?).map fun (_, state) => state.text
    group ∈ p.fileGroups {} ∧ listed = ["nottaken", "taken"] ∧
      (ofFile p group).Tallies listed := by
  intro p group listed
  have hgroup : group ∈ p.fileGroups {} := by decide +kernel
  obtain ⟨-, -, -, -, -, -, -, hiff, hnone⟩ := tallies_iff
    (Profile.reachable_ofBranching [1000, 0, 1000]) hgroup [] ⟨"a.gcno", "a.gcda", 1, 1⟩
  exact ⟨hgroup, by decide +kernel, (hiff.2 (hnone (by decide +kernel))).1⟩

/-- **Of counters that no run leaves:** both branches are listed as not executed, and the summary has
both as taken. -/
theorem taken_without_executed :
    let p := Profile.ofBranching [0, 5, 7]
    let group := p.fileGroup {} "a.c" 0
    let s := ofFile p group
    let listed := ((Intermediate.entries {} p group).filterMap
      Intermediate.Entry.branch?).map fun (_, state) => state.text
    p.Reachable ∧ group ∈ p.fileGroups {} ∧ listed = ["notexec", "notexec"] ∧
      s.branchesTaken = 2 ∧ s.branchesExecuted = 0 ∧ ¬ s.Tallies listed ∧
      ¬ s.branchesTaken ≤ s.branchesExecuted := by
  intro p group s listed
  have hlisted : listed = ["notexec", "notexec"] := by decide +kernel
  have htaken : s.branchesTaken = 2 := by decide +kernel
  have hexecuted : s.branchesExecuted = 0 := by decide +kernel
  refine ⟨Profile.reachable_ofBranching [0, 5, 7], by decide +kernel, hlisted, htaken, hexecuted, ?_, ?_⟩
  · intro htallies
    have := htallies.taken
    rw [htaken, hlisted] at this
    exact absurd this (by decide)
  · omega

end Summary

end ArcCoverage

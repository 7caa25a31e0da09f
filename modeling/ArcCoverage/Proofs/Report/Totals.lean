/-
# Adding up summaries

Summaries are added number by number, so their order does not matter and totals can be regrouped. What a
file adds (`Summary.ofFile_eq`) is what its lines add and what the blocks shown at them add:

| part | adds |
| --- | --- |
| `Summary.ofLine` | lines |
| `Summary.ofBlock` | branches and calls |

The total of all files (`Summary.sum_files`) is that of the covered lines and of the blocks shown at them.
-/
import ArcCoverage.Proofs.Report.CoveredLines
import ArcCoverage.Report.Summary
import Mathlib.Algebra.BigOperators.Group.List.Basic
import Mathlib.Algebra.GroupWithZero.Nat

namespace ArcCoverage

namespace Summary

instance : Zero Summary := ⟨{}⟩

instance : Add Summary := ⟨plus⟩

/-- **Summaries add up,** in any order. -/
instance : AddCommMonoid Summary where
  add_assoc a b c := by
    change (a.plus b).plus c = a.plus (b.plus c)
    simp only [plus, Nat.add_assoc]
  zero_add a := by
    change plus {} a = a
    simp only [plus, Nat.zero_add]
  add_zero a := rfl
  add_comm a b := by
    change a.plus b = b.plus a
    simp only [plus, Nat.add_comm]
  nsmul := nsmulRec

theorem sum_eq (parts : List Summary) : Summary.sum parts = parts.sum := rfl

/-- **A number that is added up with summaries** is the sum of the parts' numbers. -/
theorem value_sum {f : Summary → Nat} (hzero : f 0 = 0) (hadd : ∀ a b, f (a + b) = f a + f b)
    (parts : List Summary) : f parts.sum = (parts.map f).sum := by
  induction parts with
  | nil => exact hzero
  | cons part parts ih => rw [List.sum_cons, hadd, ih, List.map_cons, List.sum_cons]

/-- A number that no part has, the sum does not have. -/
theorem value_sum_eq_zero {f : Summary → Nat} (hzero : f 0 = 0)
    (hadd : ∀ a b, f (a + b) = f a + f b) {parts : List Summary} (h : ∀ part ∈ parts, f part = 0) :
    f parts.sum = 0 := by
  rw [value_sum hzero hadd]
  refine List.sum_eq_zero fun n hn => ?_
  obtain ⟨part, hpart, rfl⟩ := List.mem_map.1 hn
  exact h part hpart

/-! ## Files -/

variable {p : Profile} {options : Options}

/-- What a block of the profile adds. -/
def ofId (p : Profile) (id : BlockId) : Summary := ofBlock (p.flowOf id.routine) id.block

/-- **What a file adds:** its lines, and the blocks that are shown at them. -/
theorem ofFile_eq (p : Profile) (group : FileGroup) :
    ofFile p group = (group.lines.map ofLine).sum +
      ((group.lines.flatMap (group.attributed p)).map (ofId p)).sum := by
  have hblocks : ((group.lines.flatMap (group.attributed p)).map (ofId p)).sum =
      (group.lines.map fun l => ((group.attributed p l).map (ofId p)).sum).sum := by
    rw [List.map_flatMap, List.flatMap_def, List.sum_flatten, List.map_map]
    rfl
  rw [hblocks, ← List.sum_map_add]
  rfl

/-- **What all files add:** the covered lines, and the blocks that are shown at them. -/
theorem sum_files (hall : options.relativeOnly = false) :
    Summary.sum ((p.fileGroups options).map (ofFile p)) =
      (p.coveredLines.map fun line => ofLine (p.lineGroup line)).sum +
        ((p.coveredLines.flatMap fun line =>
          (p.blocksOn line).filter (FileGroup.isAttributed p line)).map (ofId p)).sum := by
  have hlines := Profile.flatMap_fileGroups (p := p) hall fun _ l => [ofLine l]
  have hblocks := Profile.flatMap_fileGroups (p := p) hall fun file l =>
    l.blocks.filter (FileGroup.isAttributed p ⟨file, l.line⟩)
  have hsplit : Summary.sum ((p.fileGroups options).map (ofFile p)) =
      ((p.fileGroups options).flatMap fun group => group.lines.flatMap fun l => [ofLine l]).sum +
        (((p.fileGroups options).flatMap fun group => group.lines.flatMap fun l =>
          l.blocks.filter (FileGroup.isAttributed p ⟨group.file, l.line⟩)).map (ofId p)).sum := by
    rw [sum_eq]
    induction p.fileGroups options with
    | nil => rfl
    | cons group groups ih =>
      rw [List.map_cons, List.sum_cons, ih, List.flatMap_cons, List.flatMap_cons, List.sum_append,
        List.map_append, List.sum_append, ofFile_eq, ← List.map_eq_flatMap]
      exact add_add_add_comm _ _ _ _
  rw [hsplit, hlines, hblocks, ← List.map_eq_flatMap]
  rfl

end Summary

end ArcCoverage

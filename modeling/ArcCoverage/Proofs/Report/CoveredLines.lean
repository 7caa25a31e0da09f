/-
# Covered lines

`Profile.fileGroups` goes from files to lines to blocks. Here is what stands in its groups:

| of a group | is |
| --- | --- |
| its file | in the table (`Profile.exists_eq_fileGroup`) |
| its lines | in increasing order, none twice (`Profile.pairwise_lines`), and not empty |
| its functions | by increasing start line (`Profile.pairwise_starting`) |

Taken together the groups name every line that some block covers, each once: with no file left out,
`Profile.coveredLines` lists them (`mem_coveredLines`, `nodup_coveredLines`), and what is listed group by
group is listed line by line (`flatMap_fileGroups`).
-/
import ArcCoverage.Proofs.Report.CheckedGroups

namespace ArcCoverage

/-- Elements that add nothing may be left out. -/
theorem flatMap_filter_of_nil {α β : Type} {keep : α → Bool} {f : α → List β} {as : List α}
    (h : ∀ a ∈ as, keep a = false → f a = []) : (as.filter keep).flatMap f = as.flatMap f := by
  induction as with
  | nil => rfl
  | cons a as ih =>
    have hrest := ih fun b hb => h b (List.mem_cons_of_mem a hb)
    cases hkeep : keep a with
    | true => rw [List.filter_cons_of_pos hkeep, List.flatMap_cons, List.flatMap_cons, hrest]
    | false =>
      have hnil := h a List.mem_cons_self hkeep
      rw [List.filter_cons_of_neg (by simp [hkeep]), List.flatMap_cons, hnil, hrest, List.nil_append]

namespace Profile

variable {p : Profile} {options : Options} {group : FileGroup}

/-! ## One group -/

/-- **A group is what is known of a file of the table,** and has lines. -/
theorem exists_eq_fileGroup (h : group ∈ p.fileGroups options) :
    ∃ path file, p.files.names[file]? = some path ∧ group = p.fileGroup options path file ∧
      group.lines ≠ [] := by
  obtain ⟨hgroup, hkept⟩ := List.mem_filter.1 h
  obtain ⟨⟨path, file⟩, hname, rfl⟩ := List.mem_map.1 hgroup
  refine ⟨path, file, List.mem_zipIdx_iff_getElem?.1 hname, rfl, ?_⟩
  intro hnil
  simp [hnil] at hkept

/-- The lines of a file's group have its line numbers. -/
theorem map_line_lines (p : Profile) (options : Options) (path : String) (file : Nat) :
    (p.fileGroup options path file).lines.map LineGroup.line = p.lineNumbers file := by
  simp [fileGroup, lineGroup, Function.comp_def]

/-- **The lines of a group increase.** -/
theorem pairwise_lines (h : group ∈ p.fileGroups options) :
    (group.lines.map LineGroup.line).Pairwise (· < ·) := by
  obtain ⟨path, file, -, rfl, -⟩ := exists_eq_fileGroup h
  rw [map_line_lines]
  exact Order.pairwise_ascending _

/-- **A line is found by its number.** -/
theorem line?_of_mem (h : group ∈ p.fileGroups options) {l : LineGroup} (hl : l ∈ group.lines) :
    group.line? l.line = some l := by
  have hnodup : (group.lines.map LineGroup.line).Nodup := (pairwise_lines h).imp Nat.ne_of_lt
  cases hfound : group.line? l.line with
  | none => exact absurd (beq_self_eq_true l.line) (List.find?_eq_none.1 hfound l hl)
  | some l' =>
    have hl' : l' ∈ group.lines := List.mem_of_find?_eq_some hfound
    have hline : l'.line = l.line := by simpa using List.find?_some hfound
    rw [List.inj_on_of_nodup_map hnodup hl' hl hline]

theorem mem_lineNumbers {file n : Nat} : n ∈ p.lineNumbers file ↔ ⟨file, n⟩ ∈ p.sourceLines := by
  rw [lineNumbers, Order.mem_ascending, List.mem_map]
  constructor
  · rintro ⟨line, hline, rfl⟩
    obtain ⟨hmem, hfile⟩ := List.mem_filter.1 hline
    rw [← eq_of_beq hfile]
    exact hmem
  · intro hmem
    exact ⟨⟨file, n⟩, List.mem_filter.2 ⟨hmem, beq_self_eq_true file⟩, rfl⟩

theorem startLine_of_getElem? {i : Nat} {f : Routine} (h : p.routines[i]? = some f) :
    p.startLine i = f.startLine := by
  rw [startLine, h]
  rfl

/-- **The functions of a group begin one after the other.** -/
theorem pairwise_starting (h : group ∈ p.fileGroups options) :
    (group.starting p).Pairwise fun f f' => f.startLine ≤ f'.startLine := by
  obtain ⟨path, file, -, rfl, -⟩ := exists_eq_fileGroup h
  refine (Order.pairwise_sortBy p.startLine _).filterMap _ fun i j hij f hf f' hf' => ?_
  rw [startLine_of_getElem? hf, startLine_of_getElem? hf'] at hij
  exact hij

/-! ## All groups -/

/-- **The lines that some block covers,** by file and then by number. -/
def coveredLines (p : Profile) : List SourceLine :=
  (List.range p.files.size).flatMap fun file => (p.lineNumbers file).map fun n => ⟨file, n⟩

theorem mem_coveredLines (hserves : p.files.Serves p.routines) {line : SourceLine} :
    line ∈ p.coveredLines ↔ line ∈ p.sourceLines := by
  have hcovered : line ∈ p.coveredLines ↔ line.file < p.files.size ∧ line ∈ p.sourceLines := by
    simp only [coveredLines, List.mem_flatMap, List.mem_range, List.mem_map, mem_lineNumbers]
    constructor
    · rintro ⟨file, hfile, n, hn, rfl⟩
      exact ⟨hfile, hn⟩
    · rintro ⟨hfile, hline⟩
      exact ⟨line.file, hfile, line.line, hline, rfl⟩
  rw [hcovered, and_iff_right_of_imp]
  intro hline
  obtain ⟨f, hf, hflow⟩ := List.mem_flatMap.1 hline
  exact (hserves.routine f hf).line_file_lt line hflow

theorem nodup_coveredLines (p : Profile) : p.coveredLines.Nodup := by
  refine List.nodup_flatMap.2 ⟨fun file _ => ?_, ?_⟩
  · have hnumbers : (p.lineNumbers file).Nodup := (Order.pairwise_ascending _).imp Nat.ne_of_lt
    exact hnumbers.map fun n n' h => (SourceLine.mk.inj h).2
  · refine List.nodup_range.imp fun {file file'} hne line hline hline' => ?_
    obtain ⟨n, -, rfl⟩ := List.mem_map.1 hline
    obtain ⟨n', -, heq⟩ := List.mem_map.1 hline'
    exact hne (SourceLine.mk.inj heq).1.symm

/-- **Group by group is line by line,** if no file is left out. -/
theorem flatMap_fileGroups {α : Type} (hall : options.relativeOnly = false)
    (f : Nat → LineGroup → List α) :
    ((p.fileGroups options).flatMap fun group => group.lines.flatMap (f group.file)) =
      p.coveredLines.flatMap fun line => f line.file (p.lineGroup line) := by
  have hkept : (p.fileGroups options).flatMap (fun group => group.lines.flatMap (f group.file)) =
      (p.files.names.zipIdx.map fun v => p.fileGroup options v.1 v.2).flatMap
        fun group => group.lines.flatMap (f group.file) := by
    refine flatMap_filter_of_nil fun group _ hdropped => ?_
    have hlines : group.lines = [] := by simpa [hall] using hdropped
    rw [hlines, List.flatMap_nil]
  have hfile (v : String × Nat) :
      ((p.fileGroup options v.1 v.2).lines.flatMap (f (p.fileGroup options v.1 v.2).file)) =
        (p.lineNumbers v.2).flatMap fun n => f v.2 (p.lineGroup ⟨v.2, n⟩) := by
    rw [fileGroup, List.flatMap_map]
  have hnumbers : p.files.names.zipIdx.map Prod.snd = List.range p.files.size := by
    rw [List.zipIdx_map_snd, List.range_eq_range']
    rfl
  rw [hkept, List.flatMap_map, coveredLines, ← hnumbers]
  simp only [hfile, List.flatMap_map, List.flatMap_assoc]

end Profile

end ArcCoverage

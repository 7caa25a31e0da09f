/-
# Grouping is exact

What `Profile.fileGroups` lists is determined by which blocks cover which lines (`Profile.Covers`), where
the functions start, and the options:

| listed | which | in which order |
| --- | --- | --- |
| files | those with a covered line, unless left out by their shown path | of the file table |
| lines of a file | those that some block covers | increasing |
| blocks of a line | those that cover it | by function, then by block |
| functions of a file | those that start in it | by start line, then by number |

Nothing is listed twice, since every order here is strict (`FileGroup.Exact`). Lines and functions are
looked up by files of their own: a line by the file it is in, a function by the file it starts in.
-/
import ArcCoverage.Proofs.Report.FunctionSummary
import ArcCoverage.Proofs.Report.SourcePrefix

namespace ArcCoverage

/-- **A block stands before another:** in an earlier function, or earlier in the same one. -/
def BlockId.Precedes (id id' : BlockId) : Prop :=
  id.routine < id'.routine ∨ id.routine = id'.routine ∧ id.block < id'.block

/-- **A group is exact:** it lists what the profile says of its file, in order, and nothing else. -/
structure FileGroup.Exact (group : FileGroup) (p : Profile) (options : Options) : Prop where
  path : p.files.names[group.file]? = some group.path
  display : group.display = elide group.path options.sourcePrefix
  mem_lines : ∀ n, n ∈ group.lines.map LineGroup.line ↔ ∃ id, p.Covers id ⟨group.file, n⟩
  lines_increase : (group.lines.map LineGroup.line).Pairwise (· < ·)
  mem_blocks : ∀ l ∈ group.lines, ∀ id, id ∈ l.blocks ↔ p.Covers id ⟨group.file, l.line⟩
  blocks_in_order : ∀ l ∈ group.lines, l.blocks.Pairwise BlockId.Precedes
  mem_routines : ∀ i, i ∈ group.routines ↔ ∃ f, p.routines[i]? = some f ∧ f.file = group.file
  /-- By start line, and by number among those that start at the same. -/
  routines_in_order : group.routines.Pairwise (Order.ByKey p.startLine (· < ·))

namespace Profile

variable {p : Profile} {options : Options} {group : FileGroup} {file : Nat}

/-! ## Orders -/

/-- The numbers of a numbered list increase. -/
theorem pairwise_zipIdx {α : Type} (as : List α) : as.zipIdx.Pairwise fun v v' => v.2 < v'.2 := by
  refine List.pairwise_map.1 ?_
  rw [List.zipIdx_map_snd]
  exact List.pairwise_lt_range'

/-- **Blocks are listed in order.** -/
theorem pairwise_blockIds (p : Profile) : p.blockIds.Pairwise BlockId.Precedes := by
  refine List.pairwise_flatMap.2 ⟨?_, ?_⟩
  · rintro ⟨f, i⟩ -
    exact List.pairwise_map.2 (List.pairwise_lt_range.imp fun hlt => .inr ⟨rfl, hlt⟩)
  · refine (pairwise_zipIdx p.routines).imp fun {v v'} hlt id hid id' hid' => ?_
    obtain ⟨b, -, rfl⟩ := List.mem_map.1 hid
    obtain ⟨b', -, rfl⟩ := List.mem_map.1 hid'
    exact .inl hlt

/-- **Functions are listed by start line,** and by number where that is the same. -/
theorem pairwise_routinesIn (p : Profile) (file : Nat) :
    (p.routinesIn file).Pairwise (Order.ByKey p.startLine (· < ·)) :=
  Order.pairwise_sortBy_of_pairwise p.startLine
    (List.pairwise_map.2 ((pairwise_zipIdx p.routines).filter _))

/-! ## What is listed -/

theorem mem_routinesIn {i : Nat} :
    i ∈ p.routinesIn file ↔ ∃ f, p.routines[i]? = some f ∧ f.file = file := by
  rw [routinesIn, (Order.perm_sortBy p.startLine _).mem_iff, List.mem_map]
  constructor
  · rintro ⟨⟨f, j⟩, hf, rfl⟩
    obtain ⟨hmem, hfile⟩ := List.mem_filter.1 hf
    exact ⟨f, List.mem_zipIdx_iff_getElem?.1 hmem, eq_of_beq hfile⟩
  · rintro ⟨f, hf, hfile⟩
    exact ⟨(f, i), List.mem_filter.2 ⟨List.mem_zipIdx_iff_getElem?.2 hf, beq_iff_eq.2 hfile⟩, rfl⟩

/-- The numbers of a file's lines are those that some block covers. -/
theorem mem_lineNumbers_iff_covers {n : Nat} :
    n ∈ p.lineNumbers file ↔ ∃ id, p.Covers id ⟨file, n⟩ :=
  mem_lineNumbers.trans mem_sourceLines

/-- A covered line is in a file of the table. -/
theorem Covers.file_lt {id : BlockId} {line : SourceLine} (h : p.Covers id line)
    (hserves : p.files.Serves p.routines) : line.file < p.files.size := by
  obtain ⟨f, hf, hflow⟩ := List.mem_flatMap.1 (mem_sourceLines.2 ⟨id, h⟩)
  exact (hserves.routine f hf).line_file_lt line hflow

/-- **A group is exact.** -/
theorem exact_of_mem_fileGroups (hgroup : group ∈ p.fileGroups options) :
    group.Exact p options := by
  obtain ⟨path, file, hpath, rfl, -⟩ := exists_eq_fileGroup hgroup
  refine
    { path := hpath
      display := display_eq hgroup
      mem_lines := fun n => ?_
      lines_increase := pairwise_lines hgroup
      mem_blocks := fun l hl id => FileGroup.mem_blocks_iff hgroup hl
      blocks_in_order := fun l hl => ?_
      mem_routines := fun i => mem_routinesIn
      routines_in_order := pairwise_routinesIn p file }
  · rw [map_line_lines]
    exact mem_lineNumbers_iff_covers
  · obtain ⟨n, -, rfl⟩ := List.mem_map.1 hl
    exact (pairwise_blockIds p).filter _

/-- The functions of a group are those that start in its file. -/
theorem mem_starting {f : Routine} (hgroup : group ∈ p.fileGroups options) :
    f ∈ group.starting p ↔ f ∈ p.routines ∧ f.file = group.file := by
  have hroutines := (exact_of_mem_fileGroups hgroup).mem_routines
  rw [FileGroup.starting, List.mem_filterMap]
  constructor
  · rintro ⟨i, hi, hf⟩
    obtain ⟨f', hf', hfile⟩ := (hroutines i).1 hi
    obtain rfl := Option.some.inj (hf.symm.trans hf')
    exact ⟨List.mem_of_getElem? hf, hfile⟩
  · rintro ⟨hf, hfile⟩
    obtain ⟨i, hi⟩ := List.mem_iff_getElem?.1 hf
    exact ⟨i, (hroutines i).2 ⟨f, hi, hfile⟩, hi⟩

/-- The functions of a group exist. -/
theorem map_some_starting (hgroup : group ∈ p.fileGroups options) :
    (group.starting p).map some = group.routines.map (p.routines[·]?) := by
  have hsome : ∀ f? ∈ group.routines.map (p.routines[·]?), f?.isSome = true := by
    intro f? hf?
    obtain ⟨i, hi, rfl⟩ := List.mem_map.1 hf?
    obtain ⟨f, hf, -⟩ := ((exact_of_mem_fileGroups hgroup).mem_routines i).1 hi
    rw [hf]
    rfl
  rw [FileGroup.starting, List.map_filterMap_some_eq_filter_map_isSome, List.filter_eq_self.2 hsome]

/-- The groups are in the order of the file table. -/
theorem pairwise_file_fileGroups (p : Profile) (options : Options) :
    ((p.fileGroups options).map FileGroup.file).Pairwise (· < ·) := by
  have hall : (p.files.names.zipIdx.map fun v => p.fileGroup options v.1 v.2).Pairwise
      fun group group' => group.file < group'.file :=
    List.pairwise_map.2 (pairwise_zipIdx p.files.names)
  exact List.pairwise_map.2 (hall.filter _)

/-- **Which files have a group:** those of the table that have a covered line, if their shown path is
wanted. -/
theorem mem_map_file_fileGroups (hserves : p.files.Serves p.routines) :
    file ∈ (p.fileGroups options).map FileGroup.file ↔
      (∃ id n, p.Covers id ⟨file, n⟩) ∧ (options.relativeOnly = true →
        startsAtRoot (elide (p.files.name file) options.sourcePrefix) = false) := by
  have hname {path : String} (hpath : p.files.names[file]? = some path) : p.files.name file = path := by
    rw [FileTable.name, List.getD_eq_getElem?_getD, hpath]
    rfl
  rw [List.mem_map]
  constructor
  · rintro ⟨group, hgroup, rfl⟩
    have hexact := exact_of_mem_fileGroups hgroup
    obtain ⟨-, -, -, -, hnonempty⟩ := exists_eq_fileGroup hgroup
    obtain ⟨l, hl⟩ := List.exists_mem_of_ne_nil _ hnonempty
    obtain ⟨id, hid⟩ := (hexact.mem_lines l.line).1 (List.mem_map_of_mem hl)
    refine ⟨⟨id, l.line, hid⟩, fun hrelative => ?_⟩
    rw [hname hexact.path, ← hexact.display]
    exact startsAtRoot_display hgroup hrelative
  · rintro ⟨⟨id, n, hcovers⟩, hwanted⟩
    have hlt : file < p.files.size := hcovers.file_lt hserves
    have hpath : p.files.names[file]? = some (p.files.names[file]) := List.getElem?_eq_getElem hlt
    rw [hname hpath] at hwanted
    refine ⟨p.fileGroup options p.files.names[file] file, List.mem_filter.2 ⟨?_, ?_⟩, rfl⟩
    · exact List.mem_map.2 ⟨(_, file), List.mem_zipIdx_iff_getElem?.2 hpath, rfl⟩
    · have hlines : (p.fileGroup options p.files.names[file] file).lines ≠ [] := by
        refine fun hnil => List.ne_nil_of_mem (mem_lineNumbers_iff_covers.2 ⟨id, hcovers⟩) ?_
        rw [← map_line_lines p options p.files.names[file] file, hnil, List.map_nil]
      have hshown : (options.relativeOnly &&
          startsAtRoot (elide p.files.names[file] options.sourcePrefix)) = false := by
        cases hrelative : options.relativeOnly with
        | false => rfl
        | true => exact hwanted hrelative
      change (!List.isEmpty _ && !(options.relativeOnly && startsAtRoot (elide _ _))) = true
      rw [List.isEmpty_eq_false_iff.2 hlines, hshown]
      rfl

end Profile

end ArcCoverage

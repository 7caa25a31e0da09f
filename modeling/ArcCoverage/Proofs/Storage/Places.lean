/-
# Where paths lead

Reports are written to a disk while sources are read from it, so it matters which paths lead to the
same place. Two facts settle this:

| disks with | have in common | lemma |
| --- | --- | --- |
| the same directories | the place that a path leads to | `Disk.place?_congr` |
| the same files, whatever is in them | also which reads and writes fail | `Disk.read_congr`, `Disk.write_congr` |

Writing a file makes or removes no directory (`Disk.sameDirectories_write`), so it does not move the
places of other paths. This holds of disks on which everything stands in a directory (`Disk.IsTree`).
-/
import ArcCoverage.Storage.Disk
import Mathlib.Tactic.SplitIfs

namespace ArcCoverage

namespace Disk

/-- The place of what a path leads to. -/
def Target.place : Target → Place
  | .found place _ => place
  | .vacant place => place

/-- What is at the place of a target. -/
def Target.entry? : Target → Option Entry
  | .found _ entry => some entry
  | .vacant _ => none

/-- **The place that a path leads to,** if it leads anywhere. -/
def place? (d : Disk) (path : List Char) : Option Place :=
  match d.resolve path with
  | .ok target => some target.place
  | .error _ => none

/-- **A disk on which every directory stands in a directory.** -/
def IsTree (d : Disk) : Prop :=
  ∀ place, d.lookup place = some .directory → d.lookup place.dropLast = some .directory

/-- Disks with the same directories. -/
structure SameDirectories (d d' : Disk) : Prop where
  current : d.current = d'.current
  lookup_iff : ∀ place, d.lookup place = some .directory ↔ d'.lookup place = some .directory

theorem isTree_empty : ({} : Disk).IsTree := by
  intro place hplace
  cases place with
  | nil => rfl
  | cons name names => cases hplace

theorem SameDirectories.refl (d : Disk) : d.SameDirectories d := ⟨rfl, fun _ => Iff.rfl⟩

theorem SameDirectories.trans {d d' d'' : Disk} (h : d.SameDirectories d')
    (h' : d'.SameDirectories d'') : d.SameDirectories d'' where
  current := h.current.trans h'.current
  lookup_iff place := (h.lookup_iff place).trans (h'.lookup_iff place)

theorem SameDirectories.isTree {d d' : Disk} (h : d.SameDirectories d') (htree : d.IsTree) :
    d'.IsTree := fun place hplace =>
  (h.lookup_iff place.dropLast).1 (htree place ((h.lookup_iff place).2 hplace))

/-- Nothing, directories, or files with any contents. -/
inductive SameEntry : Option Entry → Option Entry → Prop
  | none : SameEntry none none
  | directory : SameEntry (some .directory) (some .directory)
  | file (content content' : List UInt8) : SameEntry (some (.file content)) (some (.file content'))

/-- **Disks with the same directories and files,** whatever is in the files. -/
structure SameTree (d d' : Disk) : Prop where
  current : d.current = d'.current
  lookup : ∀ place, SameEntry (d.lookup place) (d'.lookup place)

theorem SameTree.refl (d : Disk) : d.SameTree d where
  current := rfl
  lookup place := by
    cases d.lookup place with
    | none => exact .none
    | some entry =>
      cases entry with
      | file content => exact .file content content
      | directory => exact .directory

/-- The same error, or the same place with entries of one kind. -/
inductive SameTarget : Except SystemError Target → Except SystemError Target → Prop
  | error (e : SystemError) : SameTarget (.error e) (.error e)
  | vacant (place : Place) : SameTarget (.ok (.vacant place)) (.ok (.vacant place))
  | directory (place : Place) :
      SameTarget (.ok (.found place .directory)) (.ok (.found place .directory))
  | file (place : Place) (content content' : List UInt8) :
      SameTarget (.ok (.found place (.file content))) (.ok (.found place (.file content')))

variable {d d' : Disk} {place : Place} {path : List Char} {content content' : List UInt8}

/-! ## Walks -/

/-- **What a walk finds is on the disk,** and nothing is where it finds nothing. -/
theorem lookup_of_walk {names : List (List Char)} {target : Target}
    (h : d.walk place names = .ok target) : d.lookup target.place = target.entry? := by
  induction names generalizing place with
  | nil =>
    rw [walk] at h
    cases hhere : d.lookup place with
    | none =>
      rw [hhere] at h
      cases h
    | some here =>
      rw [hhere] at h
      obtain rfl := Except.ok.inj h
      exact hhere
  | cons name names ih =>
    rw [walk] at h
    cases hhere : d.lookup place with
    | none =>
      rw [hhere] at h
      cases h
    | some here =>
      simp only [hhere] at h
      split_ifs at h with _ _ _ _ hnext _
      · exact ih h
      · exact ih h
      · obtain rfl := Except.ok.inj h
        exact Option.isNone_iff_eq_none.1 hnext
      · exact ih h

/-! ## Disks with the same directories -/

theorem walk_of_directory (h : d.lookup place = some .directory) (name : List Char)
    (names : List (List Char)) :
    d.walk place (name :: names) =
      if name = ['.'] then d.walk place names
      else if name = ['.', '.'] then d.walk place.dropLast names
      else if nameLimit < (Utf8.encode (String.ofList name)).length then .error .nameTooLong
      else if (d.lookup (place ++ [name])).isNone then
        if names.isEmpty then .ok (.vacant (place ++ [name])) else .error .noEntry
      else d.walk (place ++ [name]) names := by
  rw [walk, h]
  rfl

/-- Nothing but a directory can be gone through. -/
theorem walk_of_not_directory (h : d.lookup place ≠ some .directory) (name : List Char)
    (names : List (List Char)) : ∃ e, d.walk place (name :: names) = .error e := by
  rw [walk]
  cases hhere : d.lookup place with
  | none => exact ⟨_, rfl⟩
  | some here =>
    have hne : (here != .directory) = true := by
      rw [bne_iff_ne]
      rintro rfl
      exact h hhere
    exact ⟨_, by simp only [hne, if_true]; rfl⟩

/-- The place that a walk ends at. -/
def walkPlace (d : Disk) (place : Place) (names : List (List Char)) : Option Place :=
  match d.walk place names with
  | .ok target => some target.place
  | .error _ => none

/-- The last step of a walk to a place that is no directory. -/
theorem walkPlace_of_not_directory {name : List Char} (h : d.lookup place = some .directory)
    (hdot : name ≠ ['.']) (hdots : name ≠ ['.', '.'])
    (hlength : ¬ nameLimit < (Utf8.encode (String.ofList name)).length)
    (hnext : d.lookup (place ++ [name]) ≠ some .directory) (names : List (List Char)) :
    d.walkPlace place (name :: names) = if names.isEmpty then some (place ++ [name]) else none := by
  rw [walkPlace, walk_of_directory h, if_neg hdot, if_neg hdots, if_neg hlength]
  cases hentry : d.lookup (place ++ [name]) with
  | none => cases names <;> rfl
  | some entry =>
    cases names with
    | nil =>
      rw [walk, hentry]
      rfl
    | cons next names =>
      obtain ⟨e, he⟩ := walk_of_not_directory hnext next names
      rw [Option.isNone_some, if_neg Bool.false_ne_true, he]
      rfl

theorem walkPlace_congr (h : d.SameDirectories d') (htree : d.IsTree)
    (hplace : d.lookup place = some .directory) (names : List (List Char)) :
    d.walkPlace place names = d'.walkPlace place names := by
  induction names generalizing place with
  | nil =>
    rw [walkPlace, walkPlace, walk, walk, hplace, (h.lookup_iff place).1 hplace]
  | cons name names ih =>
    have hplace' := (h.lookup_iff place).1 hplace
    by_cases hdot : name = ['.']
    · rw [walkPlace, walkPlace, walk_of_directory hplace, walk_of_directory hplace', if_pos hdot,
        if_pos hdot]
      exact ih hplace
    by_cases hdots : name = ['.', '.']
    · rw [walkPlace, walkPlace, walk_of_directory hplace, walk_of_directory hplace', if_neg hdot,
        if_pos hdots, if_neg hdot, if_pos hdots]
      exact ih (htree place hplace)
    by_cases hlength : nameLimit < (Utf8.encode (String.ofList name)).length
    · rw [walkPlace, walkPlace, walk_of_directory hplace, walk_of_directory hplace', if_neg hdot,
        if_neg hdots, if_pos hlength, if_neg hdot, if_neg hdots, if_pos hlength]
    by_cases hnext : d.lookup (place ++ [name]) = some .directory
    · have hnext' := (h.lookup_iff _).1 hnext
      rw [walkPlace, walkPlace, walk_of_directory hplace, walk_of_directory hplace', if_neg hdot,
        if_neg hdots, if_neg hlength, if_neg hdot, if_neg hdots, if_neg hlength, hnext, hnext']
      exact ih hnext
    · have hnext' : d'.lookup (place ++ [name]) ≠ some .directory := fun hd =>
        hnext ((h.lookup_iff _).2 hd)
      rw [walkPlace_of_not_directory hplace hdot hdots hlength hnext,
        walkPlace_of_not_directory hplace' hdot hdots hlength hnext']

/-- A relative path names something. -/
theorem names_ne_nil (hempty : path ≠ []) (habsolute : Path.isAbsolute path = false) :
    (Text.split '/' path).filter (· != []) ≠ [] := by
  cases path with
  | nil => exact absurd rfl hempty
  | cons c path =>
    have hslash : c ≠ '/' := by
      rintro rfl
      cases habsolute
    rw [Text.split, if_neg hslash]
    cases Text.split '/' path <;> simp

/-- **Paths lead to the same places** on disks with the same directories. -/
theorem place?_congr (h : d.SameDirectories d') (htree : d.IsTree) (path : List Char) :
    d.place? path = d'.place? path := by
  unfold place? resolve
  split_ifs with hzero hempty hlength habsolute
  · rfl
  · rfl
  · rfl
  · exact walkPlace_congr h htree rfl _
  · rw [h.current]
    have hnames := names_ne_nil (by simpa using hempty) (by simpa using habsolute)
    change d.walkPlace d'.current _ = d'.walkPlace d'.current _
    by_cases hcurrent : d.lookup d'.current = some .directory
    · exact walkPlace_congr h htree hcurrent _
    · have hcurrent' : d'.lookup d'.current ≠ some .directory := fun hd =>
        hcurrent ((h.lookup_iff _).2 hd)
      obtain ⟨name, names, heq⟩ := List.exists_cons_of_ne_nil hnames
      obtain ⟨e, he⟩ := walk_of_not_directory hcurrent name names
      obtain ⟨e', he'⟩ := walk_of_not_directory hcurrent' name names
      rw [heq, walkPlace, walkPlace, he, he']

/-! ## Disks with the same files -/

theorem walk_sameTree (h : d.SameTree d') (place : Place) (names : List (List Char)) :
    SameTarget (d.walk place names) (d'.walk place names) := by
  induction names generalizing place with
  | nil =>
    have hplace := h.lookup place
    rw [walk, walk]
    generalize d.lookup place = entry, d'.lookup place = entry' at hplace ⊢
    cases hplace with
    | none => exact .error _
    | directory => exact .directory place
    | file content content' => exact .file place content content'
  | cons name names ih =>
    have hplace := h.lookup place
    have hnext := h.lookup (place ++ [name])
    have hnone : (d.lookup (place ++ [name])).isNone = (d'.lookup (place ++ [name])).isNone := by
      generalize d.lookup (place ++ [name]) = entry, d'.lookup (place ++ [name]) = entry' at hnext ⊢
      cases hnext <;> rfl
    rw [walk, walk]
    simp only [hnone]
    generalize d.lookup place = entry, d'.lookup place = entry' at hplace ⊢
    cases hplace with
    | none => exact .error _
    | file content content' => exact .error _
    | directory =>
      simp only
      split_ifs
      · exact .error _
      · exact ih place
      · exact ih place.dropLast
      · exact .error _
      · exact .vacant _
      · exact .error _
      · exact ih (place ++ [name])

theorem resolve_sameTree (h : d.SameTree d') (path : List Char) :
    SameTarget (d.resolve path) (d'.resolve path) := by
  unfold resolve
  split_ifs
  · exact .error _
  · exact .error _
  · exact .error _
  · exact walk_sameTree h _ _
  · rw [h.current]
    exact walk_sameTree h _ _

theorem lookup_of_resolve {target : Target} (h : d.resolve path = .ok target) :
    d.lookup target.place = target.entry? := by
  unfold resolve at h
  split_ifs at h
  all_goals exact lookup_of_walk h

/-- **A file reads the same** if the place that its path leads to has the same content. -/
theorem read_congr (h : d.SameTree d')
    (hplace : ∀ q, d.place? path = some q → d.lookup q = d'.lookup q) :
    d.read path = d'.read path := by
  have htarget := resolve_sameTree h path
  unfold place? at hplace
  unfold read
  cases hd : d.resolve path <;> cases hd' : d'.resolve path <;> rw [hd, hd'] at htarget
  · cases htarget
    rfl
  · cases htarget
  · cases htarget
  · rw [hd] at hplace
    have hfound := lookup_of_resolve hd
    have hfound' := lookup_of_resolve hd'
    cases htarget with
    | vacant q => rfl
    | directory q => rfl
    | file q content content' =>
      have hsame := hfound.symm.trans ((hplace q rfl).trans hfound')
      obtain rfl := Entry.file.inj (Option.some.inj hsame)
      rfl

/-- **Writes fail alike, or put their contents at one place** that is no directory. -/
theorem write_congr (h : d.SameTree d') (path : List Char) (content content' : List UInt8) :
    (∃ e, d.write path content = .error e ∧ d'.write path content' = .error e) ∨
      ∃ q, d.place? path = some q ∧ q ≠ [] ∧ d.lookup q ≠ some .directory ∧
        d.write path content = .ok (d.put q (.file content)) ∧
        d'.write path content' = .ok (d'.put q (.file content')) := by
  have htarget := resolve_sameTree h path
  unfold place? write
  cases hd : d.resolve path <;> cases hd' : d'.resolve path <;> rw [hd, hd'] at htarget
  · cases htarget
    exact .inl ⟨_, rfl, rfl⟩
  · cases htarget
  · cases htarget
  · have hfound := lookup_of_resolve hd
    cases htarget with
    | directory q => exact .inl ⟨_, rfl, rfl⟩
    | vacant q =>
      cases hwants : wantsDirectory path with
      | true => exact .inl ⟨_, rfl, rfl⟩
      | false =>
        refine .inr ⟨q, rfl, ?_, ?_, rfl, rfl⟩
        · rintro rfl
          cases hfound
        · exact fun hdirectory => nomatch hfound.symm.trans hdirectory
    | file q before before' =>
      cases hwants : wantsDirectory path with
      | true => exact .inl ⟨_, rfl, rfl⟩
      | false =>
        refine .inr ⟨q, rfl, ?_, ?_, rfl, rfl⟩
        · rintro rfl
          cases hfound
        · exact fun hdirectory => nomatch hfound.symm.trans hdirectory

/-- **A file makes or removes no directory,** unless it is put in the place of one. -/
theorem sameDirectories_put (hroot : place ≠ []) (hplace : d.lookup place ≠ some .directory)
    (content : List UInt8) : d.SameDirectories (d.put place (.file content)) where
  current := rfl
  lookup_iff q := by
    rw [lookup_put hroot]
    split_ifs with hq
    · subst hq
      exact iff_of_false hplace fun hfile => nomatch hfile
    · rfl

/-! ## Writes that succeed -/

/-- A path that wants a directory is not written to. -/
theorem wantsDirectory_of_write (h : d.write path content = .ok d') : wantsDirectory path = false := by
  unfold write at h
  cases hresolve : d.resolve path with
  | error e =>
    rw [hresolve] at h
    cases h
  | ok target =>
    rw [hresolve] at h
    cases target with
    | vacant place =>
      dsimp only at h
      split_ifs at h with hwants
      exact Bool.eq_false_iff.2 hwants
    | found place entry =>
      cases entry with
      | directory => cases h
      | file before =>
        dsimp only at h
        split_ifs at h with hwants
        exact Bool.eq_false_iff.2 hwants

/-- **A write that succeeds** puts a file at the place of its path. -/
theorem write_eq_ok (h : d.write path content = .ok d') : ∃ place,
    d.place? path = some place ∧ place ≠ [] ∧ d.lookup place ≠ some .directory ∧
      wantsDirectory path = false ∧ d' = d.put place (.file content) := by
  rcases write_congr (SameTree.refl d) path content content with
    ⟨e, he, -⟩ | ⟨place, hpath, hroot, hdirectory, hwrite, -⟩
  · exact nomatch h.symm.trans he
  · exact ⟨place, hpath, hroot, hdirectory, wantsDirectory_of_write h,
      Except.ok.inj (h.symm.trans hwrite)⟩

theorem sameDirectories_write (h : d.write path content = .ok d') : d.SameDirectories d' := by
  obtain ⟨place, -, hroot, hdirectory, -, rfl⟩ := write_eq_ok h
  exact sameDirectories_put hroot hdirectory content

end Disk

end ArcCoverage

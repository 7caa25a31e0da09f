/-
# Entries of a directory

A name without slashes, put behind the path of a directory, leads to an entry of that directory
(`Disk.place?_join`): the walk along the names of the joined path is that along the directory's, and one
step more. Different names lead to different entries then.

Files that are saved while sources are read may be the sources. Where they are not, a source has the
same content as before (`Disk.toOption_read_congr`), though the reason why another cannot be read may
change: what was missing on the way to it may be a file now.
-/
import ArcCoverage.Proofs.Storage.Places
import ArcCoverage.Proofs.Text.Pieces

namespace ArcCoverage

namespace Path

/-- A name for an entry of a directory: no path of several names, and none to the directory itself or
to the one above it. -/
structure IsEntryName (name : List Char) : Prop where
  slash : '/' ∉ name
  nonempty : name ≠ []
  here : name ≠ ['.']
  up : name ≠ ['.', '.']

variable {name : List Char}

theorem IsEntryName.isAbsolute_eq (h : IsEntryName name) : isAbsolute name = false := by
  cases name with
  | nil => rfl
  | cons c name =>
    refine beq_eq_false_iff_ne.2 fun hslash => h.slash ?_
    obtain rfl := Option.some.inj hslash
    exact List.mem_cons_self

/-- What is put behind a path leaves the path in front. -/
theorem IsEntryName.join_eq (h : IsEntryName name) (directory : List Char) :
    ∃ rest, join directory name = directory ++ rest := by
  rw [join, h.isAbsolute_eq, if_neg Bool.false_ne_true]
  split_ifs
  · exact ⟨name, rfl⟩
  · exact ⟨'/' :: name, rfl⟩

end Path

namespace Disk

open ArcCoverage.Path (IsEntryName)

variable {d d' : Disk} {place : Place} {names : List (List Char)} {name path directory : List Char}
  {target : Target}

/-! ## Places of entries -/

theorem walk_nil (d : Disk) (place : Place) :
    d.walk place [] = match d.lookup place with
      | none => .error .noEntry
      | some here => .ok (.found place here) := by
  unfold walk
  cases d.lookup place <;> rfl

/-- Nowhere else is where a walk without names leads. -/
theorem place_of_walk_nil (h : d.walk place [] = .ok target) : target.place = place := by
  rw [walk_nil] at h
  cases hplace : d.lookup place with
  | none =>
    rw [hplace] at h
    cases h
  | some here =>
    rw [hplace] at h
    obtain rfl := Except.ok.inj h
    rfl

/-- **The last step of a walk** leads to an entry of what the others lead to. -/
theorem walk_snoc (h : d.walk place (names ++ [name]) = .ok target) (hhere : name ≠ ['.'])
    (hup : name ≠ ['.', '.']) :
    ∃ above, d.walk place names = .ok above ∧ target.place = above.place ++ [name] := by
  induction names generalizing place with
  | nil =>
    rw [List.nil_append, walk] at h
    rw [walk_nil]
    cases hplace : d.lookup place with
    | none =>
      rw [hplace] at h
      cases h
    | some entry =>
      simp only [hplace, if_neg hhere, if_neg hup] at h
      refine ⟨.found place entry, rfl, ?_⟩
      split_ifs at h
      · obtain rfl := Except.ok.inj h
        rfl
      · exact place_of_walk_nil h
  | cons first names ih =>
    rw [List.cons_append, walk] at h
    rw [walk]
    cases hplace : d.lookup place with
    | none =>
      rw [hplace] at h
      cases h
    | some entry =>
      simp only [hplace] at h ⊢
      split_ifs at h with hdirectory hdot hdots hlength hnext hlast
      · rw [if_neg hdirectory, if_pos hdot]
        exact ih h
      · rw [if_neg hdirectory, if_neg hdot, if_pos hdots]
        exact ih h
      · simp at hlast
      · rw [if_neg hdirectory, if_neg hdot, if_neg hdots, if_neg hlength, if_neg hnext]
        exact ih h

/-- **The place of a directory.** In front of a name, an empty path is the current directory. -/
def directoryPlace? (d : Disk) (directory : List Char) : Option Place :=
  if directory = [] then some d.current else d.place? directory

/-- The names that a path leads along. -/
def namesOf (path : List Char) : List (List Char) := (Text.split '/' path).filter (· != [])

theorem namesOf_of_isEntryName (h : IsEntryName name) : namesOf name = [name] := by
  rw [namesOf, Text.split_of_notMem h.slash]
  exact List.filter_eq_self.2 fun other hother => by
    rw [List.mem_singleton.1 hother]
    exact bne_iff_ne.2 h.nonempty

/-- A slash parts the names in front of it from those behind it. -/
theorem namesOf_append_cons (front rest : List Char) :
    namesOf (front ++ '/' :: rest) = namesOf front ++ namesOf rest := by
  rw [namesOf, Text.split_append_cons, List.filter_append]
  rfl

/-- **The names of a path and of an entry behind it.** -/
theorem namesOf_join (h : IsEntryName name) (directory : List Char) :
    namesOf (Path.join directory name) = namesOf directory ++ [name] := by
  have hlast := namesOf_of_isEntryName h
  rw [Path.join, h.isAbsolute_eq, if_neg Bool.false_ne_true]
  split_ifs with hends
  · rcases List.eq_nil_or_concat directory with rfl | ⟨front, c, rfl⟩
    · exact hlast
    · -- The slash at the end of the directory's path parts the two.
      obtain rfl : c = '/' := by simpa using hends
      rw [List.concat_eq_append, List.append_assoc, List.singleton_append, namesOf_append_cons,
        namesOf_append_cons, hlast]
      exact congrArg (· ++ [name]) (List.append_nil _).symm
  · rw [namesOf_append_cons, hlast]

/-- The place at which a path starts. -/
def startOf (d : Disk) (path : List Char) : Place := if Path.isAbsolute path then [] else d.current

/-- A path, as far as its length and its characters are concerned. -/
structure IsPath (path : List Char) : Prop where
  zero : '\x00' ∉ path
  nonempty : path ≠ []
  length : (Utf8.encode (String.ofList path)).length ≤ pathLimit

theorem resolve_eq_ok_iff : d.resolve path = .ok target ↔
    IsPath path ∧ d.walk (d.startOf path) (namesOf path) = .ok target := by
  unfold resolve
  constructor
  · intro h
    split_ifs at h with hzero hempty hlength habsolute <;>
      refine ⟨⟨by simpa using hzero, by simpa using hempty, by omega⟩, ?_⟩
    · rw [startOf, if_pos habsolute]
      exact h
    · rw [startOf, if_neg habsolute]
      exact h
  · rintro ⟨hpath, hwalk⟩
    rw [if_neg (by simpa using hpath.zero), if_neg (by simpa using hpath.nonempty),
      if_neg (by have := hpath.length; omega)]
    exact hwalk

theorem place?_eq_some_iff :
    d.place? path = some place ↔ ∃ target, d.resolve path = .ok target ∧ target.place = place := by
  unfold place?
  cases d.resolve path <;> simp

theorem IsPath.of_append {rest : List Char} (h : IsPath (directory ++ rest)) (hne : directory ≠ []) :
    IsPath directory where
  zero hmem := h.zero (List.mem_append_left _ hmem)
  nonempty := hne
  length := by
    have hlength := h.length
    rw [Utf8.encode, String.toList_ofList, List.flatMap_append, List.length_append] at hlength
    rw [Utf8.encode, String.toList_ofList]
    omega

/-- **A name behind the path of a directory** leads to an entry of this directory. -/
theorem place?_join (h : IsEntryName name) (hplace : d.place? (Path.join directory name) = some place) :
    ∃ above, d.directoryPlace? directory = some above ∧ place = above ++ [name] := by
  obtain ⟨target, hresolve, rfl⟩ := place?_eq_some_iff.1 hplace
  obtain ⟨hpath, hwalk⟩ := resolve_eq_ok_iff.1 hresolve
  obtain ⟨rest, hjoin⟩ := h.join_eq directory
  rw [namesOf_join h] at hwalk
  obtain ⟨above, habove, htarget⟩ := walk_snoc hwalk h.here h.up
  refine ⟨above.place, ?_, htarget⟩
  unfold directoryPlace?
  split_ifs with hempty
  · -- The walk along no names stays at the current directory.
    subst hempty
    have hself : Path.join [] name = name := by
      rw [Path.join, h.isAbsolute_eq, if_neg Bool.false_ne_true]
      rfl
    rw [hself, startOf, h.isAbsolute_eq, if_neg Bool.false_ne_true] at habove
    rw [place_of_walk_nil habove]
  · have hstart : d.startOf (Path.join directory name) = d.startOf directory := by
      obtain ⟨c, cs, rfl⟩ := List.exists_cons_of_ne_nil hempty
      rw [hjoin]
      rfl
    rw [hjoin] at hpath
    rw [hstart] at habove
    exact place?_eq_some_iff.2 ⟨above, resolve_eq_ok_iff.2 ⟨hpath.of_append hempty, habove⟩, rfl⟩

/-- **Different names lead to different entries** of a directory. -/
theorem place?_join_ne {name' : List Char} (h : IsEntryName name) (h' : IsEntryName name')
    (hne : name ≠ name') (hplace : d.place? (Path.join directory name) = some place) :
    d.place? (Path.join directory name') ≠ some place := by
  intro hplace'
  obtain ⟨above, -, rfl⟩ := place?_join h hplace
  obtain ⟨above', -, heq⟩ := place?_join h' hplace'
  exact hne (List.cons.inj (List.append_inj_right' heq rfl)).1

/-! ## Sources among files that are saved -/

/-- A target is determined by its place and by what is there. -/
theorem Target.ext {target target' : Target} (hplace : target.place = target'.place)
    (hentry : target.entry? = target'.entry?) : target = target' := by
  cases target <;> cases target' <;> cases hplace <;> cases hentry <;> rfl

/-- **A file has the same content** on disks with the same directories, if the place that its path
leads to has. -/
theorem toOption_read_congr (h : d.SameDirectories d') (htree : d.IsTree)
    (hplace : ∀ q, d.place? path = some q → d.lookup q = d'.lookup q) :
    (d.read path).toOption = (d'.read path).toOption := by
  have hsame := place?_congr h htree path
  cases hresolve : d.resolve path with
  | error e =>
    cases hresolve' : d'.resolve path with
    | error e' =>
      unfold read
      rw [hresolve, hresolve']
      rfl
    | ok target' =>
      have hplace' := place?_eq_some_iff.2 ⟨target', hresolve', rfl⟩
      rw [← hsame] at hplace'
      obtain ⟨target, htarget, -⟩ := place?_eq_some_iff.1 hplace'
      exact nomatch hresolve.symm.trans htarget
  | ok target =>
    have hfound := place?_eq_some_iff.2 ⟨target, hresolve, rfl⟩
    obtain ⟨target', hresolve', htarget⟩ := place?_eq_some_iff.1 (hsame.symm.trans hfound)
    have heq : target = target' := by
      refine Target.ext htarget.symm ?_
      rw [← lookup_of_resolve hresolve, ← lookup_of_resolve hresolve', htarget]
      exact hplace _ hfound
    unfold read
    rw [hresolve, hresolve', heq]

end Disk

end ArcCoverage

/-
# The source prefix

The source prefix is given as a directory, and `elide` cuts it off the front of a path, with the slashes
behind it. It compares characters, not components, so a directory that only begins with the same letters
is cut as well:

| source prefix | recorded path | shown path | in the directory |
| --- | --- | --- | --- |
| `/src` or `/src/` | `/src//a.c` | `a.c` | yes |
| `/src` | `/src` | nothing | yes |
| `/src/` | `/srcfoo/a.c` | `/srcfoo/a.c` | no |
| `/src` | `/srcfoo/a.c` | `foo/a.c` | no |

The last row is the only way for a path outside of the directory to be cut: the prefix ends within one of
its names (`Path.liesIn_iff`). A prefix with a slash at its end never does. What is left of a path that
was cut is relative (`startsAtRoot_elide`), so such a path also passes where only relative paths are
wanted (`FileGroup.source_prefix_of_sibling`).
-/
import ArcCoverage.Proofs.Report.CoveredLines
import ArcCoverage.Proofs.Report.DistinctNames
import Mathlib.Data.List.DropRight

namespace ArcCoverage

/-! ## Directories -/

namespace Path

variable {dir path : List Char}

/-- A directory without the slashes at its end. -/
def withoutSlashes (dir : List Char) : List Char := dir.rdropWhile (· == '/')

/-- **A path is a directory, or lies in it:** a slash stands behind the directory. -/
def LiesIn (dir path : List Char) : Prop :=
  path = withoutSlashes dir ∨ ∃ rest, path = withoutSlashes dir ++ '/' :: rest

/-- **A path begins like a directory,** but the last name of the directory goes on in it. -/
def CutsName (dir path : List Char) : Prop :=
  dir.getLast? ≠ some '/' ∧ ∃ c rest, c ≠ '/' ∧ path = dir ++ c :: rest

theorem withoutSlashes_eq_self (h : dir.getLast? ≠ some '/') : withoutSlashes dir = dir := by
  refine List.rdropWhile_eq_self_iff.2 fun hne hlast => h ?_
  rw [List.getLast?_eq_getLast_of_ne_nil hne, beq_iff_eq.1 hlast]

/-- A slash at the end of a directory is one that stands behind it. -/
theorem exists_eq_withoutSlashes (h : dir.getLast? = some '/') :
    ∃ rest, dir = withoutSlashes dir ++ '/' :: rest := by
  have hsplit : withoutSlashes dir ++ dir.rtakeWhile (· == '/') = dir :=
    List.rdropWhile_append_rtakeWhile
  cases hslashes : dir.rtakeWhile (· == '/') with
  | nil =>
    obtain ⟨hne, hlast⟩ := List.mem_getLast?_eq_getLast h
    exact absurd (beq_iff_eq.2 hlast.symm) (List.rtakeWhile_eq_nil_iff.1 hslashes hne)
  | cons c rest =>
    have hc : c ∈ dir.rtakeWhile (· == '/') := by
      rw [hslashes]
      exact List.mem_cons_self
    have hslash : (c == '/') = true := List.mem_rtakeWhile_imp (p := (· == '/')) hc
    obtain rfl : c = '/' := beq_iff_eq.1 hslash
    rw [hslashes] at hsplit
    exact ⟨rest, hsplit.symm⟩

/-- **A path that begins like a directory lies in it,** unless it goes on with a name. -/
theorem liesIn_iff (h : dir <+: path) : LiesIn dir path ↔ ¬ CutsName dir path := by
  obtain ⟨rest, rfl⟩ := h
  by_cases hlast : dir.getLast? = some '/'
  · obtain ⟨slashes, hdir⟩ := exists_eq_withoutSlashes hlast
    have hin : LiesIn dir (dir ++ rest) := by
      refine .inr ⟨slashes ++ rest, ?_⟩
      rw [← List.cons_append, ← List.append_assoc, ← hdir]
    exact iff_of_true hin fun hcuts => hcuts.1 hlast
  · rw [LiesIn, CutsName, withoutSlashes_eq_self hlast]
    cases rest with
    | nil => simp
    | cons c rest => simp [hlast]

end Path

/-! ## What is cut off -/

section Elide

variable {path leading : String}

theorem elide_eq_self (h : ¬ leading.toList <+: path.toList) : elide path leading = path := by
  have hnot : leading.toList.isPrefixOf path.toList = false :=
    Bool.eq_false_iff.2 fun hgiven => h (List.isPrefixOf_iff_prefix.1 hgiven)
  rw [elide, hnot, Bool.not_false, Bool.or_true, if_pos rfl]

/-- The rest of a path behind a prefix, without slashes at its front. -/
theorem toList_elide (hleading : leading ≠ "") {rest : List Char}
    (h : path.toList = leading.toList ++ rest) :
    (elide path leading).toList = rest.dropWhile (· == '/') := by
  have hcut : ¬ (leading.isEmpty || !leading.toList.isPrefixOf path.toList) = true := by
    simp [List.isPrefixOf_iff_prefix, hleading, h]
  rw [elide, if_neg hcut, String.toList_ofList, h, List.drop_left]

/-- **A path is cut exactly if it begins with the characters of the prefix.** -/
theorem elide_ne_iff (hleading : leading ≠ "") :
    elide path leading ≠ path ↔ leading.toList <+: path.toList := by
  refine ⟨fun h => by_contra fun hnot => h (elide_eq_self hnot), ?_⟩
  rintro ⟨rest, hpath⟩ heq
  have hlength := congrArg List.length hpath
  rw [← heq, toList_elide hleading hpath.symm, List.length_append] at hlength
  have hshorter := (List.dropWhile_suffix (l := rest) (· == '/')).length_le
  have hpos : 0 < leading.toList.length := List.length_pos_iff.2 (by simpa using hleading)
  omega

/-- **What is left of a path that was cut is relative.** -/
theorem startsAtRoot_elide (h : elide path leading ≠ path) :
    startsAtRoot (elide path leading) = false := by
  have hleading : leading ≠ "" := by
    rintro rfl
    exact h rfl
  obtain ⟨rest, hpath⟩ := (elide_ne_iff hleading).1 h
  rw [startsAtRoot, toList_elide hleading hpath.symm, ← List.find?_not_eq_head?_dropWhile,
    beq_eq_false_iff_ne]
  intro hfound
  exact absurd (List.find?_some hfound) (by decide)

end Elide

/-! ## Files of a report -/

/-- **Where only relative paths are wanted, no shown path is absolute.** -/
theorem Profile.startsAtRoot_display {p : Profile} {options : Options} {group : FileGroup}
    (hgroup : group ∈ p.fileGroups options) (hrelative : options.relativeOnly = true) :
    startsAtRoot group.display = false := by
  have hkept := (List.mem_filter.1 hgroup).2
  rw [hrelative, Bool.true_and, Bool.and_eq_true, Bool.not_eq_true', Bool.not_eq_true'] at hkept
  exact hkept.2

/-- The shown path of a file is what is left of the recorded one. -/
theorem Profile.display_eq {p : Profile} {options : Options} {group : FileGroup}
    (hgroup : group ∈ p.fileGroups options) :
    group.display = elide group.path options.sourcePrefix := by
  obtain ⟨_, _, -, rfl, -⟩ := exists_eq_fileGroup hgroup
  rfl

/-- **The source prefix is compared by characters.** If it is not empty,

* the shown path of a file differs from the recorded one exactly if that begins with its characters;
* such a path lies in the directory unless the prefix ends within one of its names;
* so an absolute path that is reported among relative ones lies in the directory, or has such a name. -/
theorem FileGroup.source_prefix_by_characters {p : Profile} {options : Options} {group : FileGroup}
    (hgroup : group ∈ p.fileGroups options) (hgiven : options.sourcePrefix ≠ "") :
    let dir := options.sourcePrefix.toList
    let path := group.path.toList
    (group.display ≠ group.path ↔ dir <+: path) ∧
      (group.display ≠ group.path → (Path.LiesIn dir path ↔ ¬ Path.CutsName dir path)) ∧
      (options.relativeOnly = true → Path.isAbsolute path = true →
        Path.LiesIn dir path ∨ Path.CutsName dir path) := by
  intro dir path
  have hcut : group.display ≠ group.path ↔ dir <+: path := by
    rw [Profile.display_eq hgroup]
    exact elide_ne_iff hgiven
  have hinside (h : group.display ≠ group.path) : Path.LiesIn dir path ↔ ¬ Path.CutsName dir path :=
    Path.liesIn_iff (hcut.1 h)
  refine ⟨hcut, hinside, fun hrelative habsolute => ?_⟩
  -- an absolute path is shown as a relative one, so it was cut
  have hne : group.display ≠ group.path := by
    intro heq
    have hshown := Profile.startsAtRoot_display hgroup hrelative
    rw [heq] at hshown
    exact absurd (hshown.symm.trans habsolute) Bool.false_ne_true
  exact or_iff_not_imp_right.2 (hinside hne).2

/-- **Of a file of the directory:** what is shown is the rest of its path. -/
theorem FileGroup.source_prefix_of_directory :
    let options : Options := { sourcePrefix := "/src", relativeOnly := true }
    let group := (Profile.covering ["/src//a.c"]).fileGroup options "/src//a.c" 0
    group ∈ (Profile.covering ["/src//a.c"]).fileGroups options ∧ group.display = "a.c" ∧
      Path.isAbsolute group.path.toList = true ∧ "/src".toList <+: group.path.toList ∧
      Path.LiesIn "/src".toList group.path.toList := by
  intro options group
  have hgroup : group ∈ (Profile.covering ["/src//a.c"]).fileGroups options := by decide +kernel
  obtain ⟨hcut, -, hinside⟩ := FileGroup.source_prefix_by_characters hgroup (by decide)
  have hname : ¬ Path.CutsName "/src".toList group.path.toList := by
    rintro ⟨-, c, rest, hc, hpath⟩
    have hsplit : group.path.toList = "/src".toList ++ '/' :: "/a.c".toList := by decide
    have hnext := List.append_cancel_left (hsplit.symm.trans hpath)
    exact hc (List.cons.inj hnext).1.symm
  exact ⟨hgroup, by decide, by decide, hcut.1 (by decide),
    (hinside rfl (by decide)).resolve_right hname⟩

/-- **A file beside the directory is cut as well,** and reported though its path is absolute. -/
theorem FileGroup.source_prefix_of_sibling :
    let options : Options := { sourcePrefix := "/src", relativeOnly := true }
    let p := Profile.covering ["/srcfoo/a.c"]
    let group := p.fileGroup options "/srcfoo/a.c" 0
    p.Reachable ∧ group ∈ p.fileGroups options ∧ group.display ≠ group.path ∧
      group.display = "foo/a.c" ∧ Path.isAbsolute group.path.toList = true ∧
      ¬ Path.LiesIn options.sourcePrefix.toList group.path.toList := by
  intro options p group
  have hreachable (files : List String) : (Profile.covering files).Reachable :=
    Render.reachable_covering files
  have hgroup : group ∈ p.fileGroups options := by decide +kernel
  have hcuts : Path.CutsName "/src".toList "/srcfoo/a.c".toList :=
    ⟨by decide, 'f', "oo/a.c".toList, by decide, by decide⟩
  have hbegins : "/src".toList <+: "/srcfoo/a.c".toList := by decide
  exact ⟨hreachable _, hgroup, by decide, by decide, by decide,
    fun hin => (Path.liesIn_iff hbegins).1 hin hcuts⟩

end ArcCoverage

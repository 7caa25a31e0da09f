/-
# Reports that do not replace each other

The files of a profile have different paths, and plain paths that are preserved have different names.
So every report of a render has a place of its own, and is still there at the end.

| names | are the same only if | lemma |
| --- | --- | --- |
| of files covered by one source | the files are | `OutputName.plain_inj_of_source` |
| long ones | the files and the sources are | `OutputName.plain_inj_of_long` |
| of one render | they belong to the same turn | `Render.nodup_reportNames` |
-/
import ArcCoverage.Proofs.Profile.Reachable
import ArcCoverage.Proofs.Report.Confinement
import ArcCoverage.Proofs.Report.PreservedPaths

namespace ArcCoverage

/-- **Reports are on files of different paths.** -/
theorem Profile.nodup_map_path {p : Profile} (h : p.files.names.Nodup) (options : Options) :
    ((p.fileGroups options).map FileGroup.path).Nodup := by
  refine h.sublist ?_
  unfold fileGroups
  refine (List.filter_sublist.map _).trans ?_
  rw [List.map_map]
  show (p.files.names.zipIdx.map Prod.fst).Sublist p.files.names
  rw [List.zipIdx_map_fst]

namespace OutputName

variable {options : Options}

/-- Names of preserved paths have no slash. -/
theorem not_escapes_of_preservePaths (hpreserve : options.preservePaths = true)
    (hhash : options.hashFilenames = false) (source file : List Char) :
    ¬ Escapes options source file := by
  unfold Escapes isHashed
  rw [hpreserve, hhash]
  rintro ⟨hnot, -⟩
  cases hnot

theorem slash_notMem_ofFile (hpreserve : options.preservePaths = true)
    (hhash : options.hashFilenames = false) (source file : String) :
    '/' ∉ (ofFile options source file).toList := fun hslash =>
  not_escapes_of_preservePaths hpreserve hhash _ _ ((slash_mem_ofFile_iff options source file).1 hslash)

/-- **Files covered by one source** have different names. -/
theorem ofFile_inj_of_source (hpreserve : options.preservePaths = true)
    (hhash : options.hashFilenames = false) {source file file' : String}
    (hfile : Path.IsPlain file.toList) (hfile' : Path.IsPlain file'.toList)
    (heq : ofFile options source file = ofFile options source file') : file = file' :=
  String.toList_inj.1
    (plain_inj_of_source hpreserve hfile hfile' (plain_eq_of_ofFile_eq hhash heq))

end OutputName

namespace Render

variable {options : Options} {subject : Subject}

/-- **The reports of a render** have different names, if plain paths are preserved. -/
theorem nodup_reportNames (hpreserve : options.preservePaths = true)
    (hhash : options.hashFilenames = false) (hnodup : subject.profile.files.names.Nodup)
    (hplain : ∀ group ∈ subject.profile.fileGroups options, Path.IsPlain group.path.toList) :
    (reportNames options subject).Nodup := by
  unfold reportNames
  split_ifs
  · exact List.nodup_nil
  · exact List.nodup_singleton _
  · have hpaths := List.pairwise_map.1 (subject.profile.nodup_map_path hnodup options)
    refine List.pairwise_map.2 (hpaths.imp_of_mem fun {group other} hgroup hother hne heq => ?_)
    exact hne (OutputName.ofFile_inj_of_source hpreserve hhash (hplain group hgroup)
      (hplain other hother) heq)

/-- **Preserved paths tell reports apart.** -/
theorem preserved_reports_distinct (hpreserve : options.preservePaths = true)
    (hhash : options.hashFilenames = false) :
    (∀ source file file' : String, Path.IsPlain file.toList → Path.IsPlain file'.toList →
      OutputName.ofFile options source file = OutputName.ofFile options source file' → file = file') ∧
    (options.longFileNames = true → ∀ source source' file file' : String,
      Path.IsPlain source.toList → Path.IsPlain source'.toList →
      Path.IsPlain file.toList → Path.IsPlain file'.toList →
      OutputName.ofFile options source file = OutputName.ofFile options source' file' →
        source = source' ∧ file = file') ∧
    ∀ (directory : String) (subject : Subject) (s : Session), subject.profile.Reachable →
      (∀ group ∈ subject.profile.fileGroups options, Path.IsPlain group.path.toList) →
      s.disk.IsTree →
      let l := (report (m := StateM Ledger) directory options subject ⟨s, []⟩).2
      (report (m := StateM Session) directory options subject s).2 = l.session ∧
        (reportNames options subject).Nodup ∧
        ∀ saving ∈ l.savings, saving.isDone →
          l.session.disk.read saving.path.toList = .ok (Utf8.encode saving.text) := by
  refine ⟨fun source file file' hfile hfile' => OutputName.ofFile_inj_of_source hpreserve hhash hfile
    hfile', ?_, ?_⟩
  · intro hlong source source' file file' hsource hsource' hfile hfile' heq
    have hplain := OutputName.plain_eq_of_ofFile_eq hhash heq
    obtain ⟨hs, hf⟩ :=
      OutputName.plain_inj_of_long hpreserve hlong hsource hsource' hfile hfile' hplain
    exact ⟨String.toList_inj.1 hs, String.toList_inj.1 hf⟩
  · intro directory subject s hreachable hplain htree l
    obtain ⟨a, t, told, savings, hruns, hpaths⟩ := runs_report_named options directory subject s
    have hl : l = ⟨t, savings⟩ := congrArg Prod.snd (hruns.entered [])
    have hnodup := nodup_reportNames hpreserve hhash hreachable.serves.nodup hplain
    have hslash : ∀ name ∈ reportNames options subject, '/' ∉ name.toList := by
      intro name hname
      obtain ⟨file, rfl⟩ := exists_ofFile_of_mem_reportNames hname
      exact OutputName.slash_notMem_ofFile hpreserve hhash _ _
    rw [hl]
    exact ⟨congrArg Prod.snd hruns.plain, hnodup,
      hruns.filed.read_of_apart htree (apart_of_nodup hnodup hslash hpaths)⟩

theorem reachable_covering (files : List String) : (Subject.covering files).profile.Reachable := by
  show (Profile.covering files).Reachable
  unfold Profile.covering
  exact .notes .start _

/-- Long names with preserved paths. -/
def longPreserved : Options := { longFileNames := true, preservePaths := true }

/-- A source that includes the same path from the current directory and from the root. -/
def sameTwice : Subject := .covering ["a.c", "inc/b.h", "/inc/b.h"]

/-- The reports on it, in the root directory. -/
def sameTwiceReports : Ledger := (report (m := StateM Ledger) "." longPreserved sameTwice ⟨{}, []⟩).2

/-- **The same path from two directories** has two reports, which are both there at the end; and under
another source it has another name. -/
theorem preserved_reports_distinct_sameTwice :
    OutputName.ofFile longPreserved "a.c" "inc/b.h" ≠ OutputName.ofFile longPreserved "a.c" "/inc/b.h" ∧
      OutputName.ofFile longPreserved "a.c" "inc/b.h" ≠ OutputName.ofFile longPreserved "b.c" "inc/b.h" ∧
      (sameTwiceReports.savings.filter Saving.isDone).map Saving.path =
        ["./a.c.gcov", "./a.c##inc#b.h.gcov", "./a.c###inc#b.h.gcov"] ∧
      ∀ saving ∈ sameTwiceReports.savings, saving.isDone →
        sameTwiceReports.session.disk.read saving.path.toList = .ok (Utf8.encode saving.text) := by
  obtain ⟨hsource, hlong, hkept⟩ := @preserved_reports_distinct longPreserved rfl rfl
  refine ⟨fun heq => ?_, fun heq => ?_, by decide +kernel, ?_⟩
  · exact absurd (hsource "a.c" "inc/b.h" "/inc/b.h" (by decide) (by decide) heq) (by decide)
  · have hsame := hlong rfl "a.c" "b.c" "inc/b.h" "inc/b.h" (by decide) (by decide) (by decide)
      (by decide) heq
    exact absurd hsame.1 (by decide)
  · have hplain : ∀ group ∈ sameTwice.profile.fileGroups longPreserved,
        Path.IsPlain group.path.toList := by decide +kernel
    have hdistinct := hkept "." sameTwice {} (reachable_covering _) hplain Disk.isTree_empty
    unfold sameTwiceReports
    exact hdistinct.2.2

end Render

end ArcCoverage

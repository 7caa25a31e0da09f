/-
# Reports and their directory

A report is saved under its name behind the output directory. So what changes on a disk is at the end of
the path of a report (`Render.runs_report_named`), which is an entry of the output directory if the name
has no slash:

| names | with a slash |
| --- | --- |
| hashed | those of nameless covered files |
| with paths preserved, not hashed | none |
| others | those with a nameless path in them, covered or put in front |

A nameless path is one like `../..`. It is its own base name, and its report is `../...gcov`, which is no
entry of the output directory (`Render.report_beside`).
-/
import ArcCoverage.Format.Draft
import ArcCoverage.Proofs.Report.FileNames
import ArcCoverage.Proofs.Report.Turns

namespace ArcCoverage

open ArcCoverage.Path (IsEntryName)

/-- A profile in which one function covers a line of each of some files. -/
def Profile.covering (files : List String) : Profile :=
  let notes := files.zipIdx.foldl (fun (d : Draft) (path, i) =>
    ((d.function (i + 1).toUInt32 5 6 "f" path 1).blocks 3).lines 1 path [2])
    (Draft.notes ⟨0x34, 0x30, 0x37, 0x2a⟩)
  (({} : Profile).readNotes notes.encode).profile

/-- A report on a source that covers some files. -/
def Subject.covering (files : List String) : Subject where
  source := "a.c"
  notesName := "a.gcno"
  dataName := "a.gcda"
  profile := .covering files

/-- **A report's name without slashes** is that of an entry: its extension makes it long enough. -/
theorem OutputName.isEntryName_ofFile {options : Options} {source file : String}
    (h : '/' ∉ (ofFile options source file).toList) : IsEntryName (ofFile options source file).toList := by
  have hlength : 5 ≤ (ofFile options source file).toList.length := by
    rw [ofFile, String.toList_ofList, List.length_append]
    exact Nat.le_add_left 5 _
  refine ⟨h, ?_, ?_, ?_⟩ <;> intro heq <;> rw [heq] at hlength <;> exact absurd hlength (by decide)

namespace Render

variable {options : Options} {subject : Subject} {name : String}

theorem exists_ofFile_of_mem_reportNames (h : name ∈ reportNames options subject) :
    ∃ file, name = OutputName.ofFile options subject.source file := by
  unfold reportNames at h
  split_ifs at h
  · exact absurd h List.not_mem_nil
  · exact ⟨_, List.mem_singleton.1 h⟩
  · obtain ⟨group, -, rfl⟩ := List.mem_map.1 h
    exact ⟨group.path, rfl⟩

/-- **Reports with names of their own** are saved to places of their own, if no name has a slash. -/
theorem apart_of_nodup {d : Disk} {directory : String} {savings : List Saving}
    (hnodup : (reportNames options subject).Nodup)
    (hslash : ∀ name ∈ reportNames options subject, '/' ∉ name.toList)
    (hpaths : savings.map Saving.path <+: (reportNames options subject).map (reportPath directory)) :
    d.Apart savings := by
  have hentry {name : String} (h : name ∈ reportNames options subject) : IsEntryName name.toList := by
    obtain ⟨file, rfl⟩ := exists_ofFile_of_mem_reportNames h
    exact OutputName.isEntryName_ofFile (hslash _ h)
  have hall : ((reportNames options subject).map (reportPath directory)).Pairwise fun path other =>
      ∀ place, d.place? path.toList = some place → d.place? other.toList ≠ some place := by
    refine List.pairwise_map.2 (List.Pairwise.imp_of_mem ?_ hnodup)
    intro name other hname hother hne place hplace
    rw [reportPath, String.toList_ofList] at hplace ⊢
    exact Disk.place?_join_ne (hentry hname) (hentry hother) (mt String.toList_inj.1 hne) hplace
  exact List.pairwise_map.1 (hall.sublist hpaths.sublist)

/-- **Reports stay in their directory,** unless a name has a slash. Which names have one is known for
all options and paths. What changes on the disk is at the end of the path of a report, and if this
report's name has no slash, it is the entry of that name in the output directory. -/
theorem report_confined (options : Options) (directory : String) (subject : Subject) :
    (∀ source file : String, '/' ∈ (OutputName.ofFile options source file).toList ↔
      OutputName.Escapes options source.toList file.toList) ∧
    ∀ s : Session, s.disk.IsTree →
      let t := (report (m := StateM Session) directory options subject s).2
      ∀ place, t.disk.lookup place ≠ s.disk.lookup place →
        ∃ name ∈ reportNames options subject,
          s.disk.place? (reportPath directory name).toList = some place ∧
          ('/' ∉ name.toList → ∃ above,
            s.disk.directoryPlace? directory.toList = some above ∧ place = above ++ [name.toList]) := by
  refine ⟨OutputName.slash_mem_ofFile_iff options, ?_⟩
  intro s htree t place hne
  obtain ⟨a, r, told, savings, hruns, hpaths⟩ := runs_report_named options directory subject s
  obtain rfl : r = t := (congrArg Prod.snd hruns.plain).symm
  obtain ⟨saving, hsaving, -, hplace⟩ := hruns.filed.lookup_ne htree hne
  obtain ⟨name, hname, hpath⟩ := List.mem_map.1 (hpaths.subset (List.mem_map_of_mem hsaving))
  rw [← hpath] at hplace
  refine ⟨name, hname, hplace, fun hslash => ?_⟩
  have hentry : IsEntryName name.toList := by
    obtain ⟨file, rfl⟩ := exists_ofFile_of_mem_reportNames hname
    exact OutputName.isEntryName_ofFile hslash
  rw [reportPath, String.toList_ofList] at hplace
  exact Disk.place?_join hentry hplace

/-- **The report on a file of another directory,** its path preserved, is in the output directory. -/
theorem report_confined_covering :
    let subject := Subject.covering ["../b.h"]
    let t := (report (m := StateM Session) "." { preservePaths := true } subject {}).2
    let place := ["^#b.h.gcov".toList]
    t.disk.lookup place ≠ none ∧ ∃ above, ({} : Disk).directoryPlace? ".".toList = some above ∧
      place = above ++ ["^#b.h.gcov".toList] := by
  intro subject t place
  have hsaved : t.disk.lookup place ≠ none := by decide +kernel
  obtain ⟨name, hname, -, hentry⟩ :=
    (report_confined { preservePaths := true } "." subject).2 {} Disk.isTree_empty place hsaved
  have hnames : reportNames { preservePaths := true } subject = ["^#b.h.gcov"] := by decide +kernel
  rw [hnames, List.mem_singleton] at hname
  subst hname
  exact ⟨hsaved, hentry (by decide)⟩

/-- A session in an empty directory. -/
def inOut : Session := { disk := .ofCurrent ["out".toList] }

/-- **A report beside its directory:** the path `../..` is its own base name. -/
theorem report_beside :
    '/' ∈ (OutputName.ofFile {} "a.c" "../..").toList ∧
      let t := (report (m := StateM Session) "." {} (.covering ["../.."]) inOut).2
      t.disk.lookup ["...gcov".toList] ≠ inOut.disk.lookup ["...gcov".toList] ∧
        inOut.disk.directoryPlace? ".".toList = some ["out".toList] := by
  decide +kernel

end Render

end ArcCoverage

/-
# Rejected data count as missing

A data file that is rejected leaves no trace in a report but its name. A run with such a file and one
whose data file does not exist therefore end alike and write the same, up to the name of the data in
the head of each report and one diagnostic in front (`ProfileReport.rejected_as_missing`). Both report
on what the notes brought, and show no line as executed.

The two runs are the same until the data are loaded (`SourceReport.run_eq_finish`) and stay abreast
from then on (`SourceReport.agree_finish`), if no source is a report on a file before it. If one is,
the line that names the data is read back and shown among the lines of a source
(`ProfileReport.quoted_report`).
-/
import ArcCoverage.Proofs.Report.DataName
import ArcCoverage.Proofs.Report.Saving
import ArcCoverage.Proofs.Report.Unexecuted
import ArcCoverage.Proofs.Session.Telling
import ArcCoverage.Proofs.Text.Lines
import ArcCoverage.Proofs.Text.Utf8

namespace ArcCoverage

open Session

namespace SourceReport

variable {s : Session} {settings : Settings} {options : Options} {directory source : String}
  {p : Profile} {name : String}

/-- **The profile of a source's notes,** or the stage that failed. -/
def notesTaken (settings : Settings) (source : String) : StateM Session (Except Stage Profile) := do
  let (notesName, _) ← resolve settings source
  takeNotes notesName

/-- **Notes that are accepted** are not told of, and are all that the profile comes from. -/
theorem told_notesTaken (hnotes : (notesTaken settings source s).1 = .ok p) :
    s.Told "" (notesTaken settings source s).2 ∧ ∃ bytes,
      (Profile.readNotes {} bytes).failure = none ∧ p = (Profile.readNotes {} bytes).profile := by
  obtain ⟨names, hnames⟩ := tells_resolve s settings source
  rcases tells_takeNotes (resolve (m := StateM Session) settings source s).2 names.1 with
    ⟨stage, text, htaken⟩ | ⟨bytes, haccepted, htaken⟩
  · have hrun : s.Tells (notesTaken settings source) (.error stage) text := .before hnames htaken
    rw [hrun.1] at hnotes
    cases hnotes
  · have hrun : s.Tells (notesTaken settings source) (.ok _) "" := .before hnames htaken
    rw [hrun.1] at hnotes
    exact ⟨hrun.2, bytes, haccepted, (Except.ok.inj hnotes).symm⟩

/-- Naming the data outright changes no other name. -/
theorem resolve_dataName (hname : name ≠ "") :
    resolve (m := StateM Session) { settings with dataName := some name } source s =
      (((resolve (m := StateM Session) settings source s).1.1, name),
        (resolve (m := StateM Session) settings source s).2) := by
  have hgiven (stem : String) : artifactName stem (some name) .data = name := by
    have hempty : ¬ name.isEmpty := fun h => hname (String.isEmpty_iff.1 h)
    rw [artifactName, if_neg hempty]
  simp only [resolve, hgiven]
  rfl

/-- **A run whose notes are accepted** is its report on what the data leave of them. -/
theorem run_eq_finish (directory : String) (options : Options)
    (hnotes : (notesTaken settings source s).1 = .ok p) (hname : name ≠ "") {text shown : String}
    (hdata : Tells (notesTaken settings source s).2 (takeData p name) (.ok (p, shown)) text) :
    ProfileReport.run (m := StateM Session) directory { settings with dataName := some name } options
        source s =
      finish (m := StateM Session) (ProfileReport.renderer directory) settings options source
        (resolve (m := StateM Session) settings source s).1.1 shown p
        (takeData (m := StateM Session) p name (notesTaken settings source s).2).2 := by
  have htaken : takeNotes (m := StateM Session) (resolve (m := StateM Session) settings source s).1.1
      (resolve (m := StateM Session) settings source s).2 =
        (.ok p, (notesTaken settings source s).2) := Prod.ext hnotes rfl
  have hloaded : takeData (m := StateM Session) p name (notesTaken settings source s).2 =
      (.ok (p, shown), (takeData (m := StateM Session) p name (notesTaken settings source s).2).2) :=
    Prod.ext hdata.1 rfl
  exact (bind_eq (resolve_dataName hname)).trans ((bind_eq htaken).trans (bind_eq hloaded))

/-- **Reports on one profile stay abreast** under two names of the data, and end alike. -/
theorem agree_finish {d : Disk} {front extra : String} (settings : Settings) (htree : d.IsTree)
    (hreads : options.intermediateFormat = false →
      Render.ReadsNoReport d options directory source (p.fileGroups options))
    (notesName name name' : String) :
    Agree (Render.NamedAbreast options name name' d front extra fun _ => False)
      (Render.NamedAbreast options name name' d front extra fun _ => True)
      (finish (ProfileReport.renderer directory) settings options source notesName name p)
      (finish (ProfileReport.renderer directory) settings options source notesName name' p) := by
  have hreport : Agree (Render.NamedAbreast options name name' d front extra fun _ => False)
      (Render.NamedAbreast options name name' d front extra fun _ => True)
      (ProfileReport.renderer directory options source notesName name p)
      (ProfileReport.renderer directory options source notesName name' p) := by
    refine .bind (Render.agree_report ⟨source, notesName, name, p⟩ htree hreads) fun reported => ?_
    cases reported <;> exact .pure (fun _ _ h => h) _
  unfold finish
  cases settings.dump
  case' true => refine .bind (agree_diagnose _) fun _ => ?_
  all_goals
    refine .bind (agree_note _) fun _ => .bind hreport fun reported => ?_
    cases reported with
    | ok => exact .pure (fun _ _ h => h) _
    | error reason => exact .bind (agree_diagnose _) fun _ => .pure (fun _ _ h => h) _

end SourceReport

namespace ProfileReport

open SourceReport (agree_finish finish leaves_finish notesTaken rejection resolve run_eq_finish
  told_notesTaken tells_takeData_missing tells_takeData_rejected)

/-- Whether a name is given outright, and not that of standard input. -/
def NamesFile (name : String) : Prop := name ≠ "" ∧ name ≠ Artifact.inputName

instance (name : String) : Decidable (NamesFile name) := inferInstanceAs (Decidable (_ ∧ _))

/-- Notes of a function with a line of its source, and one of another file. -/
def notesOn (file : String) : Draft :=
  ((((Draft.notes ⟨0x34, 0x30, 0x37, 0x2a⟩).function 1 5 6 "f" "a.c" 1).blocks 3).lines 1 "a.c"
    [1]).lines 1 file [3]

/-- A session with such notes, and with a data file. -/
def sessionOn (file : String) (data : List UInt8) : Session where
  disk := (({} : Disk).put ["a.gcno".toList] (.file (notesOn file).encode)).put ["a.gcda".toList]
    (.file data)

theorem isTree_sessionOn (file : String) (data : List UInt8) : (sessionOn file data).disk.IsTree := by
  have hnotes : (({} : Disk).put ["a.gcno".toList] (.file (notesOn file).encode)).IsTree :=
    (Disk.sameDirectories_put (by decide) (by decide) _).isTree Disk.isTree_empty
  refine (Disk.sameDirectories_put (by decide) ?_ data).isTree hnotes
  rw [Disk.lookup_put (by decide), if_neg (by decide)]
  decide

/-- A run there, with a name for the data. -/
def runOn (file : String) (data : List UInt8) (name : String) : Outcome × Session :=
  run (m := StateM Session) "." { dataName := some name } {} "a.c" (sessionOn file data)

/-- Data of another version than the notes. -/
def otherData : List UInt8 := (Draft.data ⟨0x34, 0x30, 0x38, 0x2a⟩).encode

/-- A profile whose second file is the report on the first. -/
def quotingProfile : Profile := (Profile.readNotes {} (notesOn "a.c.gcov").encode).profile

/-- What its reports are about. -/
def quotingSubject (dataName : String) : Subject := ⟨"a.c", "a.gcno", dataName, quotingProfile⟩

/-- The report on its first file, whose source does not exist. -/
def quotedLines (dataName : String) : List String :=
  ["        -:    0:Source:a.c", "        -:    0:Graph:a.gcno", "        -:    0:Data:" ++ dataName,
    "        -:    0:Runs:0", "        -:    0:Programs:0", "    #####:    1:/*EOF*/"]

/-- The report on its second file. -/
def quotingLines (dataName : String) : List String :=
  ["        -:    0:Source:a.c.gcov", "        -:    0:Graph:a.gcno",
    "        -:    0:Data:" ++ dataName, "        -:    0:Runs:0", "        -:    0:Programs:0",
    "        -:    1:        -:    0:Source:a.c", "        -:    2:        -:    0:Graph:a.gcno",
    "    #####:    3:        -:    0:Data:" ++ dataName, "        -:    4:        -:    0:Runs:0",
    "        -:    5:        -:    0:Programs:0", "        -:    6:    #####:    1:/*EOF*/"]

/-- **The reports have these lines,** and the first is read as it was written. -/
structure Quotes (dataName : String) : Prop where
  quoted : (Annotated.rows {} (quotingSubject dataName).profile
    (quotingProfile.fileGroup {} "a.c" 0) [] (quotingSubject dataName).provenance).map Row.text =
      quotedLines dataName
  isLine : ∀ text ∈ quotedLines dataName, Text.IsLine text
  quoting : (Annotated.rows {} (quotingSubject dataName).profile
    (quotingProfile.fileGroup {} "a.c.gcov" 1) (quotedLines dataName)
    (quotingSubject dataName).provenance).map Row.text = quotingLines dataName

/-- The disk without reports. -/
def quotingDisk₀ : Disk := (sessionOn "a.c.gcov" []).disk

/-- The same with a report on the first file. -/
def quotingDisk₁ (quoted : List UInt8) : Disk := quotingDisk₀.put ["a.c.gcov".toList] (.file quoted)

/-- The same with a report on the second file. -/
def quotingDisk₂ (quoted quoting : List UInt8) : Disk :=
  (quotingDisk₁ quoted).put ["a.c.gcov.gcov".toList] (.file quoting)

theorem write_quoted (quoted : List UInt8) :
    quotingDisk₀.write "./a.c.gcov".toList quoted = .ok (quotingDisk₁ quoted) := rfl

theorem read_quoted (quoted : List UInt8) :
    (quotingDisk₁ quoted).read "a.c.gcov".toList = .ok quoted := rfl

theorem write_quoting (quoted quoting : List UInt8) :
    (quotingDisk₁ quoted).write "./a.c.gcov.gcov".toList quoting =
      .ok (quotingDisk₂ quoted quoting) := rfl

theorem read_quoting (quoted quoting : List UInt8) :
    (quotingDisk₂ quoted quoting).read "a.c.gcov.gcov".toList = .ok quoting := rfl

/-- The report on the first file is a source of the second. -/
theorem leaves_quoting {s : Session} (h : s.disk = quotingDisk₀) {dataName : String}
    (hquotes : Quotes dataName) :
    s.Leaves (finish (renderer ".") {} {} "a.c" "a.gcno" dataName quotingProfile) .done
      (quotingDisk₂ (Utf8.encode (Text.unlines (quotedLines dataName)))
        (Utf8.encode (Text.unlines (quotingLines dataName)))) := by
  have hgroups : quotingProfile.fileGroups {} =
      [quotingProfile.fileGroup {} "a.c" 0, quotingProfile.fileGroup {} "a.c.gcov" 1] := by
    decide +kernel
  have habsent : quotingDisk₀.read "a.c".toList = .error .noEntry := by decide +kernel
  have hpath : Render.reportPath "." (OutputName.ofFile {} "a.c" "a.c") = "./a.c.gcov" := by decide
  have hpath' : Render.reportPath "." (OutputName.ofFile {} "a.c" "a.c.gcov") = "./a.c.gcov.gcov" := by
    decide
  have hfirst : Render.saved {} "." (quotingSubject dataName) quotingDisk₀
      (quotingProfile.fileGroup {} "a.c" 0) = .ok (quotingDisk₁ _) :=
    Eq.trans (Render.saved_eq hpath (congrArg Render.linesRead habsent) hquotes.quoted)
      (write_quoted _)
  have hsecond (quoted : List UInt8) (hread : Text.lines (Utf8.decode quoted) = quotedLines dataName) :
      Render.saved {} "." (quotingSubject dataName) (quotingDisk₁ quoted)
        (quotingProfile.fileGroup {} "a.c.gcov" 1) = .ok (quotingDisk₂ quoted _) :=
    Eq.trans (Render.saved_eq hpath' ((congrArg Render.linesRead (read_quoted quoted)).trans hread)
      hquotes.quoting) (write_quoting quoted _)
  refine leaves_finish rfl rfl rfl ?_
  rw [h, hgroups]
  refine Except.bind_eq_ok.2 ⟨_, hfirst, Except.bind_eq_ok.2 ⟨_, hsecond _ ?_, rfl⟩⟩
  rw [Utf8.decode_encode, Text.lines_unlines hquotes.isLine]

/-- A run whose data leave nothing of theirs but a name. -/
theorem runOn_quoting (name dataName : String) {text : String} (hname : name ≠ "")
    (hdata : ∀ t : Session, t.disk = quotingDisk₀ →
      t.Tells (SourceReport.takeData quotingProfile name) (.ok (quotingProfile, dataName)) text)
    (hquotes : Quotes dataName) :
    (runOn "a.c.gcov" [] name).2.disk =
      quotingDisk₂ (Utf8.encode (Text.unlines (quotedLines dataName)))
        (Utf8.encode (Text.unlines (quotingLines dataName))) := by
  have hnotes : (notesTaken {} "a.c" (sessionOn "a.c.gcov" [])).1 = .ok quotingProfile := by
    decide +kernel
  have hnotesName :
      (resolve (m := StateM Session) {} "a.c" (sessionOn "a.c.gcov" [])).1.1 = "a.gcno" := by
    decide +kernel
  have hdisk := (told_notesTaken hnotes).1.disk
  have htaken := hdata _ hdisk
  have hrun := run_eq_finish "." {} hnotes hname htaken
  rw [hnotesName] at hrun
  rw [runOn, hrun]
  exact (leaves_quoting (htaken.2.disk.trans hdisk) hquotes).2

end ProfileReport

end ArcCoverage

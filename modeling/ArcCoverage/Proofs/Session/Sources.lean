/-
# Sources are reported on independently

With no report files and no artifact on standard input, all that a report on a source does is to write
(`Session.Appends`). So it neither changes what the report on the next source meets nor depends on the
one before it, however that one ended:

| part | only writes if | lemma |
| --- | --- | --- |
| an artifact | its name is not `-` | `Artifact.appends_load` |
| the names of a source's artifacts | always; they are not `-` unless given so | `SourceReport.appends_resolve` |
| a report | it goes to standard output, or nowhere | `Render.appends_report` |

`CommandLine.process_append` puts runs over lists of sources together from those over their parts.
-/
import ArcCoverage.CommandLine.Run
import ArcCoverage.Format.Draft
import ArcCoverage.Proofs.Session.Appending
import Mathlib.Tactic.Choose

namespace ArcCoverage

open Session

/-- **A name that is not given as `-`** is not the name of standard input: it ends in an extension. -/
theorem artifactName_ne_inputName (stem : String) {given : Option String}
    (h : given ≠ some Artifact.inputName) (kind : FileKind) :
    artifactName stem given kind ≠ Artifact.inputName := by
  have hderived : stem ++ kind.extension ≠ Artifact.inputName := by
    intro heq
    have hlength := congrArg String.length heq
    have hextension : kind.extension.length = 5 := by cases kind <;> rfl
    have hinput : Artifact.inputName.length = 1 := rfl
    rw [String.length_append] at hlength
    omega
  cases given with
  | none => exact hderived
  | some name =>
    show (if name.isEmpty then stem ++ kind.extension else name) ≠ _
    split_ifs
    · exact hderived
    · rintro rfl
      exact h rfl

namespace Artifact

/-- **A file that is loaded** leaves standard input alone. -/
theorem appends_load {name : String} (hname : name ≠ inputName) : Appends Whatever (load name) := by
  unfold load
  rw [if_neg hname]
  refine (Session.appends_load name).bind fun loaded _ => ?_
  cases loaded with
  | error e => exact appends_pure trivial
  | ok bytes => exact (appends_note _).bind fun _ _ => appends_pure trivial

end Artifact

namespace SourceReport

variable {G : Type} [CoverageStore G] {name : String}

theorem appends_announce (stage : Stage) (name : String) : Appends Whatever (announce stage name) :=
  appends_note _

theorem appends_noteAll (entries : List LogEntry) : Appends Whatever (noteAll entries) := by
  induction entries with
  | nil => exact appends_pure trivial
  | cons entry entries ih => exact (appends_note entry).bind fun _ _ => ih

theorem appends_reject (kind : FileKind) (name reason : String) :
    Appends Whatever (reject kind name reason) := by
  cases kind <;> exact (appends_note _).bind fun _ _ => appends_diagnose _

/-- **The names of a source's artifacts** are not that of standard input, unless they are given so. -/
theorem appends_resolve {settings : Settings} (hnotes : settings.notesName ≠ some Artifact.inputName)
    (hdata : settings.dataName ≠ some Artifact.inputName) (source : String) :
    Appends (fun names => names.1 ≠ Artifact.inputName ∧ names.2 ≠ Artifact.inputName)
      (resolve settings source) := by
  have hclassify : Appends Whatever (ObjectPlace.classify settings.objectPath) := by
    unfold ObjectPlace.classify
    split_ifs
    · exact appends_pure trivial
    · refine (appends_isDirectory _).bind fun found _ => ?_
      cases found <;> exact appends_pure trivial
  exact (appends_note _).bind fun _ _ => hclassify.bind fun place _ =>
    appends_pure ⟨artifactName_ne_inputName _ hnotes _, artifactName_ne_inputName _ hdata _⟩

theorem appends_takeNotes (hname : name ≠ Artifact.inputName) :
    Appends Whatever (takeNotes (G := G) name) := by
  refine (appends_announce _ _).bind fun _ _ => (Artifact.appends_load hname).bind fun loaded _ => ?_
  cases loaded with
  | error e => exact (appends_diagnose _).bind fun _ _ => appends_pure trivial
  | ok bytes =>
    refine (appends_noteAll _).bind fun _ _ => ?_
    cases (CoverageStore.readNotes (CoverageStore.empty : G) bytes).failure with
    | none => exact appends_pure trivial
    | some reason => exact (appends_reject _ _ _).bind fun _ _ => appends_pure trivial

theorem appends_validateData (store : G) (name : String) (bytes : List UInt8) :
    Appends Whatever (validateData store name bytes) := by
  refine (appends_announce _ _).bind fun _ _ => ?_
  cases CoverageStore.looksLikeData G bytes with
  | false => exact (appends_diagnose _).bind fun _ _ => appends_pure trivial
  | true =>
    refine (appends_noteAll _).bind fun _ _ => ?_
    cases (CoverageStore.readData store bytes).failure with
    | none => exact appends_pure trivial
    | some reason => exact (appends_reject _ _ _).bind fun _ _ => appends_pure trivial

theorem appends_takeData (store : G) (hname : name ≠ Artifact.inputName) :
    Appends Whatever (takeData store name) := by
  refine (appends_announce _ _).bind fun _ _ => (Artifact.appends_load hname).bind fun loaded _ => ?_
  cases loaded with
  | ok bytes => exact (appends_validateData _ _ _).bind fun _ _ => appends_pure trivial
  | error e =>
    dsimp only
    split_ifs
    · exact (appends_note _).bind fun _ _ => appends_pure trivial
    · exact (appends_diagnose _).bind fun _ _ => appends_pure trivial

/-- **A report on a source only writes** if its renderer does, whatever its store. -/
theorem appends_run {render : Renderer (StateM Session) G} {settings : Settings} {options : Options}
    (hrender : ∀ source notesName dataName store,
      Appends Whatever (render options source notesName dataName store))
    (hnotes : settings.notesName ≠ some Artifact.inputName)
    (hdata : settings.dataName ≠ some Artifact.inputName) (source : String) :
    Appends Whatever (run render settings options source) := by
  have hfinish (notesName dataName : String) (store : G) :
      Appends Whatever (finish render settings options source notesName dataName store) := by
    unfold finish
    cases settings.dump
    case' true => refine (appends_diagnose _).bind fun _ _ => ?_
    all_goals
      refine (appends_announce _ _).bind fun _ _ => (hrender _ _ _ _).bind fun rendered _ => ?_
      cases rendered with
      | ok => exact appends_pure trivial
      | error reason => exact (appends_diagnose _).bind fun _ _ => appends_pure trivial
  refine (appends_resolve hnotes hdata source).bind fun names hnames =>
    (appends_takeNotes hnames.1).bind fun taken _ => ?_
  cases taken with
  | error stage => exact appends_pure trivial
  | ok store =>
    refine (appends_takeData store hnames.2).bind fun taken _ => ?_
    cases taken with
    | error stage => exact appends_pure trivial
    | ok taken => exact hfinish _ _ _

end SourceReport

namespace Render

variable {options : Options}

theorem appends_readSource (path : String) : Appends Whatever (readSource path) := by
  refine (Session.appends_load path).bind fun loaded _ => ?_
  cases loaded with
  | ok bytes => exact appends_pure trivial
  | error e => exact (appends_diagnose _).bind fun _ _ => appends_pure trivial

theorem appends_emitReport (text : String) : Appends Whatever (emitReport text) := by
  refine (appends_emit text).bind fun emitted _ => ?_
  cases emitted <;> exact appends_pure trivial

theorem appends_tell (text : String) : Appends Whatever (tell text) :=
  (appends_emit text).bind fun _ _ => appends_pure trivial

theorem appends_reportFile (hoptions : options.noOutput = true ∨ options.useStdout = true)
    (directory : String) (subject : Subject) (group : FileGroup) :
    Appends Whatever (reportFile options directory subject group) := by
  unfold reportFile
  split_ifs with houtput
  · exact appends_pure trivial
  · refine (appends_readSource _).bind fun source _ => ?_
    rw [deliver, if_pos (hoptions.resolve_left houtput)]
    exact appends_emitReport _

theorem appends_renderFile (hoptions : options.noOutput = true ∨ options.useStdout = true)
    (directory : String) (subject : Subject) (group : FileGroup) :
    Appends Whatever (renderFile options directory subject group) := by
  refine (appends_reportFile hoptions directory subject group).bind fun reported _ => ?_
  cases reported with
  | error e => exact appends_pure trivial
  | ok =>
    cases options.useStdout with
    | true => exact appends_pure trivial
    | false => exact (appends_tell _).bind fun _ _ => appends_pure trivial

theorem appends_renderFiles (hoptions : options.noOutput = true ∨ options.useStdout = true)
    (directory : String) (subject : Subject) (groups : List FileGroup) :
    Appends Whatever (renderFiles options directory subject groups) := by
  induction groups with
  | nil => exact appends_pure trivial
  | cons group groups ih =>
    refine (appends_renderFile hoptions directory subject group).bind fun rendered _ => ?_
    cases rendered with
    | error e => exact appends_pure trivial
    | ok => exact ih

theorem appends_tellSummaries (options : Options) (p : Profile) (groups : List FileGroup) :
    Appends Whatever (tellSummaries options p groups) := by
  induction groups with
  | nil => exact appends_pure trivial
  | cons group groups ih => exact (appends_tell _).bind fun _ _ => ih

theorem appends_renderIntermediate (hoptions : options.noOutput = true ∨ options.useStdout = true)
    (directory : String) (subject : Subject) (groups : List FileGroup) :
    Appends Whatever (renderIntermediate options directory subject groups) := by
  have hlisting : options.noOutput = false → Appends Whatever
      (deliver options directory (OutputName.ofFile options subject.source subject.source)
        (Intermediate.text options subject.profile groups)) := by
    intro houtput
    rw [deliver, if_pos (hoptions.resolve_left (by simp [houtput]))]
    exact appends_emitReport _
  unfold renderIntermediate
  cases hstdout : options.useStdout <;> cases houtput : options.noOutput
  · simp [hstdout, houtput] at hoptions
  · exact (appends_tellSummaries _ _ _).bind fun _ _ => appends_pure trivial
  · refine (hlisting houtput).bind fun delivered _ => ?_
    cases delivered <;> exact appends_pure trivial
  · exact appends_pure trivial

/-- **A report that goes to standard output,** or nowhere, changes no file. -/
theorem appends_report (hoptions : options.noOutput = true ∨ options.useStdout = true)
    (directory : String) (subject : Subject) :
    Appends Whatever (report directory options subject) := by
  refine (appends_note _).bind fun _ _ => ?_
  cases options.intermediateFormat with
  | true => exact appends_renderIntermediate hoptions directory subject _
  | false => exact appends_renderFiles hoptions directory subject _

end Render

namespace CommandLine

variable {invocation : Invocation}

theorem appends_processSource
    (hoptions : invocation.options.noOutput = true ∨ invocation.options.useStdout = true)
    (hnotes : invocation.settings.notesName ≠ some Artifact.inputName)
    (hdata : invocation.settings.dataName ≠ some Artifact.inputName) (source : String) :
    Appends Whatever (processSource invocation source) := by
  have hrender (source notesName dataName : String) (p : Profile) :
      Appends Whatever (ProfileReport.renderer outputDirectory invocation.options source notesName
        dataName p) := by
    refine (Render.appends_report hoptions outputDirectory _).bind fun rendered _ => ?_
    cases rendered <;> exact appends_pure trivial
  refine (SourceReport.appends_run hrender hnotes hdata source).bind fun outcome _ => ?_
  cases outcome <;> exact appends_note _

/-- What is written of sources in turn, if that of each is known. -/
theorem yields_processAll {d : Disk} {fault : Option SystemError} {text : String → String}
    {items : String → List JournalItem}
    (h : ∀ source, Yields d fault (processSource invocation source) () (text source) (items source))
    (listed sources : List String) :
    Yields d fault (processAll { invocation with sources := listed } sources) ()
      (String.join (sources.map text)) (sources.flatMap items) := by
  induction sources with
  | nil => exact yields_pure d fault ()
  | cons source sources ih =>
    rw [List.map_cons, String.join_cons, List.flatMap_cons]
    exact (h source).bind ih

/-- **A run over some sources,** from a session in which nothing was written yet. -/
def ranOver (invocation : Invocation) (s : Session) (sources : List String) : Session :=
  (process (m := StateM Session) { invocation with sources } s.fresh).2

/-- A disk with the notes of one source, and with something else in the place of those of another. -/
def brokenNotes : Disk :=
  let notes := (((Draft.notes ⟨0x34, 0x30, 0x37, 0x2a⟩).function 1 5 6 "f" "a.c" 1).blocks 3).lines 1
    "a.c" [2]
  (({} : Disk).put ["a.gcno".toList] (.file notes.encode)).put ["b.gcno".toList] (.file [1, 2, 3])

/-- Reports to standard output. -/
def toOutput : Invocation := { options := { useStdout := true } }

/-- The report on the first source, which itself is missing. -/
def reportOnFirst : String :=
  Text.unlines ["        -:    0:Source:a.c", "        -:    0:Graph:a.gcno",
    "        -:    0:Data:-", "        -:    0:Runs:0", "        -:    0:Programs:0",
    "        -:    1:/*EOF*/", "    #####:    2:/*EOF*/"]

end CommandLine

end ArcCoverage

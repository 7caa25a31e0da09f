/-
# Reports in turns

Reports that go to files are saved in turns. In its turn a report is put together, from its source if it
shows one, and saved; then some lines are told. The first report that cannot be saved ends the render.
Both formats are of this kind:

| options | told before | turns |
| --- | --- | --- |
| none | nothing | one for every file, with its summary |
| intermediate format | all summaries | one, with the announcement |
| no output | all summaries | none |

`Turn.Taken` has one case for each way a turn can go, and `Render.runs_report` says that a report in any
of these formats takes its turns (`Render.turns`). What a turn saves depends on the disk of that moment,
as the source may be an earlier report. Where it is not (`Turn.ReadsNoReport`), all texts are those of
the disk before the first turn (`Turn.Taken.texts`).
-/
import ArcCoverage.Proofs.Report.DataName
import ArcCoverage.Proofs.Report.Saving
import ArcCoverage.Proofs.Session.Ledger

namespace ArcCoverage

open Ledger

theorem Text.unlines_append (texts texts' : List String) :
    unlines (texts ++ texts') = unlines texts ++ unlines texts' := by
  rw [unlines, List.map_append, String.join_append]
  rfl

/-- **A report that is to be saved in its turn.** -/
structure Turn where
  name : String
  /-- The path of the source that it shows, if it shows one. -/
  source : Option String
  /-- Its text, given the lines of the source. -/
  text : List String → String
  /-- The lines that are told when it is saved. -/
  told : List String

namespace Turn

/-- The path of the report. -/
def path (directory : String) (turn : Turn) : String := Render.reportPath directory turn.name

/-- The lines of the source, as it is on a disk. -/
def linesOn (d : Disk) (turn : Turn) : List String :=
  match turn.source with
  | none => []
  | some path => Render.linesRead (d.read path.toList)

/-- **The text of the report,** with its source as it is on a disk. -/
def textOn (d : Disk) (turn : Turn) : String := turn.text (turn.linesOn d)

/-- **Turns taken on a disk,** with the result, the lines that are told and the savings. -/
inductive Taken (directory : String) :
    Disk → List Turn → Except RenderError Unit → List String → List Saving → Prop
  | none (d : Disk) : Taken directory d [] (.ok ()) [] []
  | saved {d d' : Disk} {turn : Turn} {turns : List Turn} {a : Except RenderError Unit}
      {lines : List String} {savings : List Saving}
      (write : d.write (turn.path directory).toList (Utf8.encode (turn.textOn d)) = .ok d')
      (rest : Taken directory d' turns a lines savings) :
      Taken directory d (turn :: turns) a (turn.told ++ lines)
        (.done (turn.path directory) (turn.textOn d) :: savings)
  | failed {d : Disk} {turn : Turn} {turns : List Turn} {e : SystemError}
      (write : d.write (turn.path directory).toList (Utf8.encode (turn.textOn d)) = .error e) :
      Taken directory d (turn :: turns)
        (.error { cause := e, context := s!"unable to write '{turn.path directory}'" }) []
        [.failed (turn.path directory) (turn.textOn d) e]

variable {directory : String} {d d' : Disk} {turn : Turn} {turns : List Turn}
  {a : Except RenderError Unit} {lines : List String} {savings : List Saving}

namespace Taken

/-- **Reports are saved in their order,** none left out in between. -/
theorem paths_prefix (h : Taken directory d turns a lines savings) :
    savings.map Saving.path <+: turns.map (path directory) := by
  induction h with
  | none => exact List.prefix_refl _
  | saved _ _ ih => exact (List.prefix_cons_inj _).2 ih
  | failed => exact (List.prefix_cons_inj _).2 List.nil_prefix

/-- **If all goes well** every report was saved. -/
theorem paths_eq (h : Taken directory d turns (.ok ()) lines savings) :
    savings.map Saving.path = turns.map (path directory) := by
  generalize hresult : (Except.ok () : Except RenderError Unit) = a at h
  induction h with
  | none => rfl
  | saved _ _ ih => exact congrArg (_ :: ·) (ih hresult)
  | failed => cases hresult

theorem isDone_of_ok (h : Taken directory d turns (.ok ()) lines savings) :
    ∀ saving ∈ savings, saving.isDone := by
  generalize hresult : (Except.ok () : Except RenderError Unit) = a at h
  induction h with
  | none => exact fun _ hsaving => nomatch hsaving
  | saved _ _ ih =>
    intro saving hsaving
    rcases List.mem_cons.1 hsaving with rfl | hsaving
    · rfl
    · exact ih hresult saving hsaving
  | failed => cases hresult

/-- **A render that fails** has failed to save the last of its reports. -/
theorem exists_failed (h : Taken directory d turns a lines savings) {error : RenderError}
    (hresult : a = .error error) : ∃ before failed, savings = before ++ [failed] ∧
      failed.result = .error error.cause ∧ ∀ saving ∈ before, saving.isDone := by
  induction h with
  | none => cases hresult
  | @saved d d' turn turns a lines savings _ _ ih =>
    obtain ⟨before, failed, rfl, hfailed, hdone⟩ := ih hresult
    refine ⟨_ :: before, failed, rfl, hfailed, fun saving hsaving => ?_⟩
    rcases List.mem_cons.1 hsaving with rfl | hsaving
    · rfl
    · exact hdone saving hsaving
  | failed =>
    obtain rfl := Except.error.inj hresult
    exact ⟨[], _, rfl, rfl, fun _ hsaving => nomatch hsaving⟩

/-- **A turn before others** leaves its disk to them. -/
theorem before {lines' : List String} {savings' : List Saving}
    (h : Taken directory d [turn] (.ok ()) lines savings) (hfiled : d.Filed savings d')
    (hrest : Taken directory d' turns a lines' savings') :
    Taken directory d (turn :: turns) a (lines ++ lines') (savings ++ savings') := by
  cases h with
  | saved write rest =>
    cases rest
    rw [List.append_nil, ← hfiled.eq_of_done write] at *
    exact .saved write hrest

/-- A turn that fails is the last. -/
theorem last {error : RenderError} (h : Taken directory d [turn] (.error error) lines savings) :
    Taken directory d (turn :: turns) (.error error) lines savings := by
  cases h with
  | saved _ rest => cases rest
  | failed write => exact .failed write

end Taken

/-! ## Sources that are no reports -/

/-- No source is a report that is saved before its turn. -/
def ReadsNoReport (d : Disk) (directory : String) (turns : List Turn) : Prop :=
  turns.Pairwise fun turn later => ∀ source place, later.source = some source →
    d.place? (turn.path directory).toList = some place → d.place? source.toList ≠ some place

theorem linesRead_eq_of_toOption {loaded loaded' : Except SystemError (List UInt8)}
    (h : loaded.toOption = loaded'.toOption) : Render.linesRead loaded = Render.linesRead loaded' := by
  cases loaded <;> cases loaded' <;> cases h <;> rfl

/-- A report is the same on disks that have the same at the place of its source. -/
theorem textOn_congr (h : d.SameDirectories d') (htree : d.IsTree)
    (hplace : ∀ source place, turn.source = some source → d.place? source.toList = some place →
      d.lookup place = d'.lookup place) : turn.textOn d = turn.textOn d' := by
  have hlines : turn.linesOn d = turn.linesOn d' := by
    unfold linesOn
    cases hsource : turn.source with
    | none => rfl
    | some source =>
      exact linesRead_eq_of_toOption
        (Disk.toOption_read_congr h htree fun place => hplace source place hsource)
  rw [textOn, textOn, hlines]

/-- **Every report shows the sources as they were** before the first was saved. -/
theorem Taken.texts (h : Taken directory d turns a lines savings) (htree : d.IsTree)
    (hreads : ReadsNoReport d directory turns) :
    savings.map Saving.text <+: turns.map (textOn d) := by
  induction h with
  | none => exact List.prefix_refl _
  | failed => exact (List.prefix_cons_inj _).2 List.nil_prefix
  | @saved d d' turn turns a lines savings write _ ih =>
    have hsame := Disk.sameDirectories_write write
    rw [ReadsNoReport, List.pairwise_cons] at hreads
    have hlater : ReadsNoReport d' directory turns := hreads.2.imp fun hne source place hsource => by
      rw [← Disk.place?_congr hsame htree, ← Disk.place?_congr hsame htree]
      exact hne source place hsource
    -- The first report is saved to a place that no later source is read from.
    have hunchanged : turns.map (textOn d) = turns.map (textOn d') := by
      refine List.map_congr_left fun later hmem => textOn_congr hsame htree fun source q hsource hq => ?_
      obtain ⟨place, hplace, hroot, -, -, rfl⟩ := Disk.write_eq_ok write
      have hne : q ≠ place := by
        rintro rfl
        exact hreads.1 later hmem source q hsource hplace hq
      rw [Disk.lookup_put hroot, if_neg hne]
    rw [List.map_cons, List.map_cons, hunchanged]
    exact (List.prefix_cons_inj _).2 (ih (hsame.isTree htree) hlater)

/-- **If all goes well,** these are all the texts. -/
theorem Taken.texts_eq (h : Taken directory d turns (.ok ()) lines savings) (htree : d.IsTree)
    (hreads : ReadsNoReport d directory turns) : savings.map Saving.text = turns.map (textOn d) := by
  refine (h.texts htree hreads).eq_of_length ?_
  have hlength := congrArg List.length h.paths_eq
  simpa only [List.length_map] using hlength

end Turn

namespace Render

/-! ## The turns of a report -/

/-- The lines of the summary of a file. -/
def summaryLines (options : Options) (p : Profile) (group : FileGroup) (created : Option String) :
    List String :=
  (if options.functionSummaries then functionSummaries options p group else []) ++
    s!"File '{group.display}'" :: (Summary.ofFile p group).toLines options ++
    (created.map fun name => s!"Creating '{name}'").toList ++ [""]

/-- The lines of the summaries of all files, announcing none. -/
def allSummaries (options : Options) (p : Profile) (groups : List FileGroup) : List String :=
  groups.flatMap fun group => summaryLines options p group none

/-- The turn of a covered file. -/
def fileTurn (options : Options) (subject : Subject) (group : FileGroup) : Turn where
  name := OutputName.ofFile options subject.source group.path
  source := some group.path
  text source := Annotated.text options subject.profile group source subject.provenance
  told := summaryLines options subject.profile group
    (some (OutputName.ofFile options subject.source group.path))

/-- The turn of a report in the intermediate format. -/
def listingTurn (options : Options) (subject : Subject) (groups : List FileGroup) : Turn where
  name := OutputName.ofFile options subject.source subject.source
  source := none
  text _ := Intermediate.text options subject.profile groups
  told := [s!"Creating '{OutputName.ofFile options subject.source subject.source}'", ""]

/-- **The turns of a report** that goes to files. -/
def turns (options : Options) (subject : Subject) : List Turn :=
  let groups := subject.profile.fileGroups options
  if options.noOutput then []
  else if options.intermediateFormat then [listingTurn options subject groups]
  else groups.map (fileTurn options subject)

/-- **What is told before the first turn.** -/
def foreword (options : Options) (subject : Subject) : List String :=
  if options.noOutput || options.intermediateFormat then
    allSummaries options subject.profile (subject.profile.fileGroups options)
  else []

/-- **The names of the report files,** in the order in which they are saved. -/
def reportNames (options : Options) (subject : Subject) : List String :=
  if options.noOutput || options.useStdout then []
  else if options.intermediateFormat then [OutputName.ofFile options subject.source subject.source]
  else (subject.profile.fileGroups options).map fun group =>
    OutputName.ofFile options subject.source group.path

theorem map_name_turns {options : Options} (hstdout : options.useStdout = false) (subject : Subject) :
    (turns options subject).map Turn.name = reportNames options subject := by
  unfold turns reportNames
  cases options.noOutput with
  | true => rfl
  | false =>
    rw [hstdout]
    cases options.intermediateFormat with
    | true => rfl
    | false => exact List.map_map

theorem map_path_turns {options : Options} (hstdout : options.useStdout = false) (subject : Subject)
    (directory : String) : (turns options subject).map (Turn.path directory) =
      (reportNames options subject).map (reportPath directory) := by
  rw [← map_name_turns hstdout, List.map_map]
  rfl

/-! ## How they are taken -/

variable {options : Options} {directory : String} {subject : Subject} {group : FileGroup}
  {groups : List FileGroup} {s : Session}

theorem runs_tell (s : Session) (text : String) : ∃ t, Runs s (tell text) (tell text) () t text [] := by
  obtain ⟨emitted, t, hemit⟩ := runs_emit s text
  exact ⟨t, hemit.after (runs_pure t ())⟩

/-- **A source is read** from the disk of the moment. -/
theorem runs_readSource (s : Session) (path : String) : ∃ t,
    Runs s (readSource path) (readSource path) (linesRead (s.disk.read path.toList)) t "" [] := by
  have hload := runs_load s path
  cases hread : s.disk.read path.toList with
  | ok bytes =>
    rw [hread] at hload
    exact ⟨s, hload.before (runs_pure s _)⟩
  | error e =>
    rw [hread] at hload
    obtain ⟨t, hdiagnose⟩ := runs_diagnose s (Text.line s!"{path}: {e.text}")
    exact ⟨t, hload.before (hdiagnose.before (runs_pure t _))⟩

/-- **A report is saved,** or the attempt fails. -/
theorem runs_saveReport (s : Session) (directory name text : String) :
    let path := reportPath directory name
    (∃ d t, s.disk.write path.toList (Utf8.encode text) = .ok d ∧ t.disk = d ∧
      Runs s (saveReport directory name text) (saveReport directory name text) (.ok ()) t ""
        [.done path text]) ∨
    ∃ e t, s.disk.write path.toList (Utf8.encode text) = .error e ∧
      Runs s (saveReport directory name text) (saveReport directory name text)
        (.error { cause := e, context := s!"unable to write '{path}'" }) t "" [.failed path text e] := by
  intro path
  obtain ⟨t, hnote⟩ := runs_note s ⟨.debug, .report, s!"Writing '{path}'"⟩
  have hdisk := hnote.disk_eq
  cases hwrite : t.disk.write path.toList (Utf8.encode text) with
  | ok d =>
    rw [← hdisk]
    exact .inl ⟨d, _, hwrite, rfl, hnote.before ((runs_save hwrite).after (runs_pure _ _))⟩
  | error e =>
    rw [← hdisk]
    exact .inr ⟨e, _, hwrite, hnote.before ((runs_save_failed hwrite).after (runs_pure _ _))⟩

/-- A file's report is that of its turn, wherever it goes. -/
theorem runs_reportFile (houtput : options.noOutput = false) {r t : Session}
    {a : Except RenderError Unit} {told : String} {savings : List Saving}
    (hsource : Runs s (readSource group.path) (readSource group.path)
      (linesRead (s.disk.read group.path.toList)) r "" [])
    (hdeliver : let turn := fileTurn options subject group
      Runs r (deliver options directory turn.name (turn.textOn s.disk))
        (deliver options directory turn.name (turn.textOn s.disk)) a t told savings) :
    Runs s (reportFile options directory subject group) (reportFile options directory subject group) a t
      told savings := by
  unfold reportFile
  simp only [houtput, Bool.false_eq_true, if_false]
  exact hsource.before hdeliver

/-- **The turn of one file.** -/
theorem runs_renderFile (houtput : options.noOutput = false) (hstdout : options.useStdout = false)
    (directory : String) (subject : Subject) (group : FileGroup) (s : Session) :
    ∃ a t lines savings, Runs s (renderFile options directory subject group)
        (renderFile options directory subject group) a t (Text.unlines lines) savings ∧
      Turn.Taken directory s.disk [fileTurn options subject group] a lines savings := by
  let turn := fileTurn options subject group
  obtain ⟨r, hsource⟩ := runs_readSource s group.path
  have hreport {a : Except RenderError Unit} {t : Session} {savings : List Saving}
      (hsave : Runs r (saveReport directory turn.name (turn.textOn s.disk))
        (saveReport directory turn.name (turn.textOn s.disk)) a t "" savings) :
      Runs s (reportFile options directory subject group)
        (reportFile options directory subject group) a t "" savings := by
    refine runs_reportFile houtput hsource ?_
    unfold deliver
    simp only [hstdout, Bool.false_eq_true, if_false]
    exact hsave
  unfold renderFile
  simp only [houtput, hstdout, Bool.false_eq_true, if_false]
  rcases runs_saveReport r directory turn.name (turn.textOn s.disk) with
    ⟨d, t, hwrite, -, hsave⟩ | ⟨e, t, hwrite, hsave⟩
  · rw [hsource.disk_eq] at hwrite
    obtain ⟨u, htell⟩ := runs_tell t (Text.unlines turn.told)
    refine ⟨_, u, _, _, ?_, .saved hwrite (.none d)⟩
    rw [List.append_nil]
    exact (hreport hsave).thenTold (htell.after (runs_pure u _))
  · rw [hsource.disk_eq] at hwrite
    refine ⟨_, t, [], _, ?_, .failed hwrite⟩
    exact (hreport hsave).after (runs_pure t _)

/-- **All files in turn.** -/
theorem runs_renderFiles (houtput : options.noOutput = false) (hstdout : options.useStdout = false)
    (directory : String) (subject : Subject) (groups : List FileGroup) (s : Session) :
    ∃ a t lines savings, Runs s (renderFiles options directory subject groups)
        (renderFiles options directory subject groups) a t (Text.unlines lines) savings ∧
      Turn.Taken directory s.disk (groups.map (fileTurn options subject)) a lines savings := by
  induction groups generalizing s with
  | nil => exact ⟨_, s, [], [], runs_pure s _, .none s.disk⟩
  | cons group groups ih =>
    obtain ⟨a, t, lines, savings, hfirst, htaken⟩ :=
      runs_renderFile houtput hstdout directory subject group s
    cases a with
    | error e => exact ⟨_, t, lines, savings, hfirst.after (runs_pure t _), htaken.last⟩
    | ok =>
      obtain ⟨b, u, lines', savings', hrest, htaken'⟩ := ih t
      refine ⟨b, u, lines ++ lines', savings ++ savings', ?_, htaken.before hfirst.filed htaken'⟩
      rw [Text.unlines_append]
      exact hfirst.bind hrest

/-- The summaries of some files, one behind the other. -/
theorem runs_tellSummaries (options : Options) (p : Profile) (groups : List FileGroup) (s : Session) :
    ∃ t, Runs s (tellSummaries options p groups) (tellSummaries options p groups) () t
      (Text.unlines (allSummaries options p groups)) [] := by
  induction groups generalizing s with
  | nil => exact ⟨s, runs_pure s ()⟩
  | cons group groups ih =>
    obtain ⟨t, htell⟩ := runs_tell s (summaryText options p group none)
    obtain ⟨u, hrest⟩ := ih t
    refine ⟨u, ?_⟩
    rw [allSummaries, List.flatMap_cons, Text.unlines_append]
    exact htell.bind hrest

/-- **Without output** a file has a summary only. -/
theorem runs_renderFiles_noOutput (houtput : options.noOutput = true)
    (hstdout : options.useStdout = false) (directory : String) (subject : Subject)
    (groups : List FileGroup) (s : Session) :
    ∃ t, Runs s (renderFiles options directory subject groups)
      (renderFiles options directory subject groups) (.ok ()) t
      (Text.unlines (allSummaries options subject.profile groups)) [] := by
  induction groups generalizing s with
  | nil => exact ⟨s, runs_pure s _⟩
  | cons group groups ih =>
    obtain ⟨t, htell⟩ := runs_tell s (summaryText options subject.profile group none)
    obtain ⟨u, hrest⟩ := ih t
    have hfirst : Runs s (renderFile options directory subject group)
        (renderFile options directory subject group) (.ok ()) t
        (summaryText options subject.profile group none) [] := by
      unfold renderFile reportFile
      simp only [houtput, hstdout, Bool.false_eq_true, if_false, if_true]
      exact (runs_pure s _).before (htell.after (runs_pure t _))
    refine ⟨u, ?_⟩
    rw [allSummaries, List.flatMap_cons, Text.unlines_append]
    exact hfirst.bind hrest

/-- **The turn of a listing,** behind all summaries. -/
theorem runs_renderIntermediate (houtput : options.noOutput = false)
    (hstdout : options.useStdout = false) (directory : String) (subject : Subject)
    (groups : List FileGroup) (s : Session) :
    ∃ a t lines savings, Runs s (renderIntermediate options directory subject groups)
        (renderIntermediate options directory subject groups) a t
        (Text.unlines (allSummaries options subject.profile groups ++ lines)) savings ∧
      Turn.Taken directory s.disk [listingTurn options subject groups] a lines savings := by
  let turn := listingTurn options subject groups
  obtain ⟨r, hsummaries⟩ := runs_tellSummaries options subject.profile groups s
  unfold renderIntermediate deliver
  simp only [houtput, hstdout, Bool.not_false, Bool.false_eq_true, if_true, if_false]
  rcases runs_saveReport r directory turn.name (turn.textOn s.disk) with
    ⟨d, t, hwrite, -, hsave⟩ | ⟨e, t, hwrite, hsave⟩
  · rw [hsummaries.disk_eq] at hwrite
    obtain ⟨u, htell⟩ := runs_tell t (Text.unlines turn.told)
    refine ⟨_, u, _, _, ?_, .saved hwrite (.none d)⟩
    rw [List.append_nil, Text.unlines_append]
    exact hsummaries.bind (hsave.thenTold (htell.after (runs_pure u _)))
  · rw [hsummaries.disk_eq] at hwrite
    refine ⟨_, t, [], _, ?_, .failed hwrite⟩
    rw [List.append_nil]
    exact hsummaries.thenSaved (hsave.after (runs_pure t _))

/-- **A report that does not go to standard output** takes its turns. -/
theorem runs_report (hstdout : options.useStdout = false) (directory : String) (subject : Subject)
    (s : Session) :
    ∃ a t lines savings, Runs s (report directory options subject) (report directory options subject)
        a t (Text.unlines (foreword options subject ++ lines)) savings ∧
      Turn.Taken directory s.disk (turns options subject) a lines savings := by
  let groups := subject.profile.fileGroups options
  obtain ⟨r, hnote⟩ := runs_note s
    ⟨.debug, .report, s!"Rendering {groups.length} file(s) covered by '{subject.source}'"⟩
  unfold report turns foreword
  cases houtput : options.noOutput with
  | true =>
    have hsummaries : ∃ t, Runs r
        (if options.intermediateFormat then renderIntermediate options directory subject groups
          else renderFiles options directory subject groups)
        (if options.intermediateFormat then renderIntermediate options directory subject groups
          else renderFiles options directory subject groups)
        (.ok ()) t (Text.unlines (allSummaries options subject.profile groups)) [] := by
      split_ifs
      · obtain ⟨t, htell⟩ := runs_tellSummaries options subject.profile groups r
        refine ⟨t, ?_⟩
        unfold renderIntermediate
        simp only [houtput, hstdout, Bool.not_false, if_true]
        exact htell.after (runs_pure t _)
      · exact runs_renderFiles_noOutput houtput hstdout directory subject groups r
    obtain ⟨t, hrender⟩ := hsummaries
    refine ⟨_, t, [], [], ?_, .none s.disk⟩
    rw [List.append_nil]
    exact hnote.before hrender
  | false =>
    rw [← hnote.disk_eq]
    cases options.intermediateFormat with
    | true =>
      obtain ⟨a, t, lines, savings, hrender, htaken⟩ :=
        runs_renderIntermediate houtput hstdout directory subject groups r
      exact ⟨a, t, lines, savings, hnote.before hrender, htaken⟩
    | false =>
      obtain ⟨a, t, lines, savings, hrender, htaken⟩ :=
        runs_renderFiles houtput hstdout directory subject groups r
      exact ⟨a, t, lines, savings, hnote.before hrender, htaken⟩

/-! ## Standard output instead -/

/-- **A report on standard output,** which is written if that is possible. -/
theorem runs_emitReport (s : Session) (text : String) :
    ∃ a t, Runs s (emitReport text) (emitReport text) a t text [] ∧
      (s.outputFault = none → a = .ok ()) := by
  cases hfault : s.outputFault with
  | none =>
    obtain ⟨t, hemit⟩ := runs_emit_ok hfault text
    exact ⟨_, t, hemit.after (runs_pure t _), fun _ => rfl⟩
  | some e =>
    obtain ⟨emitted, t, hemit⟩ := runs_emit s text
    cases emitted with
    | ok => exact ⟨_, t, hemit.after (runs_pure t _), fun _ => rfl⟩
    | error e => exact ⟨_, t, hemit.after (runs_pure t _), fun hnone => nomatch hnone⟩

theorem runs_renderFiles_useStdout (houtput : options.noOutput = false)
    (hstdout : options.useStdout = true) (directory : String) (subject : Subject)
    (groups : List FileGroup) (s : Session) :
    ∃ a t told, Runs s (renderFiles options directory subject groups)
        (renderFiles options directory subject groups) a t told [] ∧
      (s.outputFault = none → a = .ok () ∧ told =
        String.join ((groups.map (fileTurn options subject)).map (Turn.textOn s.disk))) := by
  induction groups generalizing s with
  | nil => exact ⟨_, s, "", runs_pure s _, fun _ => ⟨rfl, rfl⟩⟩
  | cons group groups ih =>
    let text := (fileTurn options subject group).textOn s.disk
    obtain ⟨r, hsource⟩ := runs_readSource s group.path
    obtain ⟨a, t, hemit, hok⟩ := runs_emitReport r text
    have hreport : Runs s (reportFile options directory subject group)
        (reportFile options directory subject group) a t text [] := by
      refine runs_reportFile houtput hsource ?_
      unfold deliver
      simp only [hstdout, if_true]
      exact hemit
    have hfirst : Runs s (renderFile options directory subject group)
        (renderFile options directory subject group) a t text [] := by
      unfold renderFile
      simp only [hstdout, if_true]
      cases a <;> exact hreport.after (runs_pure t _)
    cases a with
    | error e =>
      refine ⟨_, t, text, hfirst.after (runs_pure t _), fun hnone => ?_⟩
      exact nomatch hok (hsource.fault.trans hnone)
    | ok =>
      obtain ⟨b, u, told, hrest, htexts⟩ := ih t
      refine ⟨b, u, text ++ told, hfirst.bind hrest, fun hnone => ?_⟩
      obtain ⟨rfl, rfl⟩ := htexts (hfirst.fault.trans hnone)
      rw [hfirst.disk_eq, List.map_cons, List.map_cons, String.join_cons]
      exact ⟨rfl, rfl⟩

/-- Neither output nor summaries. -/
theorem runs_renderFiles_nothing (houtput : options.noOutput = true) (hstdout : options.useStdout = true)
    (directory : String) (subject : Subject) (groups : List FileGroup) (s : Session) :
    Runs s (renderFiles options directory subject groups) (renderFiles options directory subject groups)
      (.ok ()) s "" [] := by
  induction groups with
  | nil => exact runs_pure s _
  | cons group groups ih =>
    have hfirst : Runs s (renderFile options directory subject group)
        (renderFile options directory subject group) (.ok ()) s "" [] := by
      unfold renderFile reportFile
      simp only [houtput, hstdout, if_true]
      exact (runs_pure s _).before (runs_pure s _)
    exact hfirst.before ih

theorem runs_renderIntermediate_useStdout (hstdout : options.useStdout = true) (directory : String)
    (subject : Subject) (groups : List FileGroup) (s : Session) :
    ∃ a t told, Runs s (renderIntermediate options directory subject groups)
        (renderIntermediate options directory subject groups) a t told [] ∧
      (s.outputFault = none → a = .ok () ∧ told =
        if options.noOutput then "" else Intermediate.text options subject.profile groups) := by
  let text := Intermediate.text options subject.profile groups
  unfold renderIntermediate deliver
  cases options.noOutput with
  | true =>
    refine ⟨_, s, "", ?_, fun _ => ⟨rfl, rfl⟩⟩
    simp only [hstdout, Bool.not_true, Bool.false_eq_true, if_false, if_true]
    exact (runs_pure s _).before (runs_pure s _)
  | false =>
    obtain ⟨a, t, hemit, hok⟩ := runs_emitReport s text
    refine ⟨a, t, text, ?_, fun hnone => ⟨hok hnone, rfl⟩⟩
    simp only [hstdout, Bool.not_true, Bool.false_eq_true, if_false, if_true]
    cases a <;> exact hemit.after (runs_pure t _)

/-- **A report that goes to standard output** saves nothing. What it writes are the texts of its turns,
on the disk as it is. -/
theorem runs_report_useStdout (hstdout : options.useStdout = true) (directory : String)
    (subject : Subject) (s : Session) :
    ∃ a t told, Runs s (report directory options subject) (report directory options subject) a t told
        [] ∧
      (s.outputFault = none → a = .ok () ∧
        told = String.join ((turns options subject).map (Turn.textOn s.disk))) := by
  let groups := subject.profile.fileGroups options
  obtain ⟨r, hnote⟩ := runs_note s
    ⟨.debug, .report, s!"Rendering {groups.length} file(s) covered by '{subject.source}'"⟩
  have hrender : ∃ a t told, Runs r
      (if options.intermediateFormat then renderIntermediate options directory subject groups
        else renderFiles options directory subject groups)
      (if options.intermediateFormat then renderIntermediate options directory subject groups
        else renderFiles options directory subject groups) a t told [] ∧
      (r.outputFault = none → a = .ok () ∧
        told = String.join ((turns options subject).map (Turn.textOn r.disk))) := by
    unfold turns
    cases options.intermediateFormat with
    | true =>
      obtain ⟨a, t, told, hrender, htold⟩ :=
        runs_renderIntermediate_useStdout hstdout directory subject groups r
      refine ⟨a, t, told, hrender, fun hnone => ?_⟩
      rw [(htold hnone).2]
      refine ⟨(htold hnone).1, ?_⟩
      cases options.noOutput with
      | true => rfl
      | false => exact (String.join_cons.trans String.append_empty).symm
    | false =>
      cases houtput : options.noOutput with
      | true =>
        have hrender := runs_renderFiles_nothing houtput hstdout directory subject groups r
        exact ⟨_, r, "", hrender, fun _ => ⟨rfl, rfl⟩⟩
      | false => exact runs_renderFiles_useStdout houtput hstdout directory subject groups r
  obtain ⟨a, t, told, hruns, htexts⟩ := hrender
  rw [← hnote.disk_eq]
  exact ⟨a, t, told, hnote.before hruns, fun hnone => htexts (hnote.fault.trans hnone)⟩

/-- **Reports are saved under their names,** in their order. -/
theorem runs_report_named (options : Options) (directory : String) (subject : Subject) (s : Session) :
    ∃ a t told savings, Runs s (report directory options subject) (report directory options subject) a t
        told savings ∧
      savings.map Saving.path <+: (reportNames options subject).map (reportPath directory) := by
  cases hstdout : options.useStdout with
  | true =>
    obtain ⟨a, t, told, hruns, -⟩ := runs_report_useStdout hstdout directory subject s
    exact ⟨a, t, told, [], hruns, List.nil_prefix⟩
  | false =>
    obtain ⟨a, t, lines, savings, hruns, htaken⟩ := runs_report hstdout directory subject s
    rw [← map_path_turns hstdout]
    exact ⟨a, t, _, savings, hruns, htaken.paths_prefix⟩

end Render

end ArcCoverage

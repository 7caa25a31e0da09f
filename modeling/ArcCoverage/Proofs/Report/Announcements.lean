/-
# Announced reports

A line `Creating 'name'` announces a report. No other line of a summary starts so:

| lines | start with | announce |
| --- | --- | --- |
| of a function, of a file | `Function '`, `File '` | nothing |
| of a summary's shares | `Lines executed`, `No branches`, … | nothing |
| behind a report that was saved | `Creating '` | its name |

So the names that a render announces are those of the reports that it has saved, in their order
(`Turn.Taken.announced`), and a render to standard output has the same reports, as nothing of them depends
on where they go (`Render.map_textOn_toOutput`).

The lines are told one behind the other, and are read back from the output if no name in them has a line
break (`Render.isLine_of_unbroken`).
-/
import ArcCoverage.Proofs.Report.Confinement
import ArcCoverage.Proofs.Text.Lines

namespace ArcCoverage

open Ledger

/-! ## Lines that announce -/

/-- The start of a line that announces a report. -/
def announcing : List Char := "Creating '".toList

/-- **The name that a line announces,** without its quotes. -/
def announced? (line : String) : Option String :=
  if announcing <+: line.toList then
    some (String.ofList (line.toList.drop announcing.length).dropLast)
  else none

/-- The names that some lines announce. -/
def announced (lines : List String) : List String := lines.filterMap announced?

theorem announced_append (lines lines' : List String) :
    announced (lines ++ lines') = announced lines ++ announced lines' := List.filterMap_append

theorem announced?_creating (name : String) : announced? s!"Creating '{name}'" = some name := by
  have hline : (s!"Creating '{name}'").toList = announcing ++ (name.toList ++ ['\'']) := by
    rw [String.toList_append, String.toList_append, List.append_assoc]
    rfl
  unfold announced?
  rw [hline, if_pos (List.prefix_append _ _), List.drop_left, List.dropLast_concat,
    String.ofList_toList]

/-- **Lines that start otherwise** announce nothing. -/
theorem announced?_append {front : String} (hfront : ¬ front.toList <+: announcing)
    (hlonger : ¬ announcing <+: front.toList) (rest : String) : announced? (front ++ rest) = none := by
  refine if_neg fun hstart => ?_
  rw [String.toList_append] at hstart
  rcases List.prefix_or_prefix_of_prefix hstart (List.prefix_append _ _) with h | h
  · exact hlonger h
  · exact hfront h

namespace Summary

/-- The lines of a summary that do not depend on it. -/
def constants : List String := ["No executable lines", "No branches", "No calls"]

/-- What the other lines of a summary start with. -/
def labels : List String :=
  ["Lines executed", "Branches executed", "Taken at least once", "Calls executed"]

/-- **The lines of a summary.** -/
theorem mem_toLines {s : Summary} {options : Options} {line : String}
    (h : line ∈ s.toLines options) :
    line ∈ constants ∨ ∃ label ∈ labels, ∃ part whole, line = share label part whole := by
  have hline : s.lineLine ∈ constants ∨
      ∃ label ∈ labels, ∃ part whole, s.lineLine = share label part whole := by
    unfold lineLine
    split_ifs
    · exact .inl (by decide)
    · exact .inr ⟨_, by decide, _, _, rfl⟩
  have hcall : s.callLine ∈ constants ∨
      ∃ label ∈ labels, ∃ part whole, s.callLine = share label part whole := by
    unfold callLine
    split_ifs
    · exact .inl (by decide)
    · exact .inr ⟨_, by decide, _, _, rfl⟩
  have hbranches (h : line ∈ s.branchLines) : line ∈ constants ∨
      ∃ label ∈ labels, ∃ part whole, line = share label part whole := by
    unfold branchLines at h
    split_ifs at h
    · rw [List.mem_singleton.1 h]
      exact .inl (by decide)
    · rcases List.mem_cons.1 h with rfl | h
      · exact .inr ⟨_, by decide, _, _, rfl⟩
      · rw [List.mem_singleton.1 h]
        exact .inr ⟨_, by decide, _, _, rfl⟩
  rw [toLines, List.mem_cons] at h
  rcases h with rfl | h
  · exact hline
  split_ifs at h
  · rcases List.mem_append.1 h with h | h
    · exact hbranches h
    · rw [List.mem_singleton.1 h]
      exact hcall
  · exact absurd h List.not_mem_nil

theorem announced?_of_mem_toLines {s : Summary} {options : Options} {line : String}
    (h : line ∈ s.toLines options) : announced? line = none := by
  rcases mem_toLines h with hconstant | ⟨label, hlabel, part, whole, rfl⟩
  · have hnone : ∀ line ∈ constants, announced? line = none := by decide
    exact hnone line hconstant
  · have hstarts : ∀ label ∈ labels,
        ¬ label.toList <+: announcing ∧ ¬ announcing <+: label.toList := by decide
    obtain ⟨hfront, hlonger⟩ := hstarts label hlabel
    simp only [share, String.append_assoc]
    exact announced?_append hfront hlonger _

theorem isPrintable_of_mem_toLines {s : Summary} {options : Options} {line : String}
    (h : line ∈ s.toLines options) : Text.IsPrintable line := by
  rcases mem_toLines h with hconstant | ⟨label, hlabel, part, whole, rfl⟩
  · have hprintable : ∀ line ∈ constants, Text.IsPrintable line := by decide
    exact hprintable line hconstant
  · have hprintable : ∀ label ∈ labels, Text.IsPrintable label := by decide
    have hpercent : Text.IsPrintable (Percent.twoPlaces part whole) := by
      unfold Percent.twoPlaces
      split_ifs
      · decide
      · dsimp only
        split_ifs
        · decide
        · decide
        · exact (((Text.isPrintable_toString _).append (by decide)).append
            (Text.isPrintable_toString _)).append (Text.isPrintable_toString _)
    exact ((((hprintable label hlabel).append (by decide)).append hpercent).append (by decide)).append
      (Text.isPrintable_toString whole)

end Summary

namespace Render

variable {options : Options} {p : Profile} {group : FileGroup} {subject : Subject} {directory : String}

/-! ## Summaries -/

theorem announced_eq_nil {lines : List String} (h : ∀ line ∈ lines, announced? line = none) :
    announced lines = [] := List.filterMap_eq_nil_iff.2 h

theorem announced?_of_mem_functionSummaries {line : String}
    (h : line ∈ functionSummaries options p group) : announced? line = none := by
  obtain ⟨f, -, hline⟩ := List.mem_flatMap.1 h
  rw [List.mem_append, List.mem_cons, List.mem_singleton] at hline
  rcases hline with (rfl | hline) | rfl
  · show announced? ("Function '" ++ Symbol.shown options f.name ++ "'") = none
    rw [String.append_assoc]
    exact announced?_append (by decide) (by decide) _
  · exact Summary.announced?_of_mem_toLines hline
  · decide

/-- **A summary announces** the report that it is told to, and nothing else. -/
theorem announced_summaryLines (options : Options) (p : Profile) (group : FileGroup)
    (created : Option String) :
    announced (summaryLines options p group created) = created.toList := by
  have hfunctions : announced (if options.functionSummaries then functionSummaries options p group
      else []) = [] := by
    refine announced_eq_nil fun line hline => ?_
    split_ifs at hline
    · exact announced?_of_mem_functionSummaries hline
    · exact absurd hline List.not_mem_nil
  have hshares : announced (s!"File '{group.display}'" :: (Summary.ofFile p group).toLines options) =
      [] := by
    refine announced_eq_nil fun line hline => ?_
    rcases List.mem_cons.1 hline with rfl | hline
    · show announced? ("File '" ++ group.display ++ "'") = none
      rw [String.append_assoc]
      exact announced?_append (by decide) (by decide) _
    · exact Summary.announced?_of_mem_toLines hline
  have hcreated : announced (created.map fun name => s!"Creating '{name}'").toList =
      created.toList := by
    cases created with
    | none => rfl
    | some name => exact List.filterMap_cons_some (announced?_creating name)
  rw [summaryLines, announced_append, announced_append, announced_append, hfunctions, hshares, hcreated]
  exact List.append_nil _

theorem announced_allSummaries (options : Options) (p : Profile) (groups : List FileGroup) :
    announced (allSummaries options p groups) = [] := by
  induction groups with
  | nil => rfl
  | cons group groups ih =>
    rw [allSummaries, List.flatMap_cons, announced_append, announced_summaryLines]
    exact ih

theorem announced_foreword (options : Options) (subject : Subject) :
    announced (foreword options subject) = [] := by
  unfold foreword
  split_ifs
  · exact announced_allSummaries _ _ _
  · rfl

/-- **A turn announces its report.** -/
theorem announced_told {turn : Turn} (h : turn ∈ turns options subject) :
    announced turn.told = [turn.name] := by
  unfold turns at h
  dsimp only at h
  split_ifs at h
  · exact absurd h List.not_mem_nil
  · rw [List.mem_singleton.1 h]
    exact List.filterMap_cons_some (announced?_creating _)
  · obtain ⟨group, -, rfl⟩ := List.mem_map.1 h
    exact announced_summaryLines _ _ _ _

end Render

/-! ## Turns -/

/-- **What is announced is what was saved:** the names are the first of those that are due, and the
paths those of the files that were saved. All are announced if nothing fails; and nothing is saved behind
a file that could not be. -/
structure Announces (directory : String) (names : List String) (result : Except RenderError Unit)
    (lines : List String) (savings : List Saving) : Prop where
  due : announced lines <+: names
  saved : (savings.filter Saving.isDone).map Saving.path =
    (announced lines).map (Render.reportPath directory)
  all : result = .ok () → announced lines = names
  last : ∀ error, result = .error error → ∃ before failed, savings = before ++ [failed] ∧
    failed.result = .error error.cause ∧ ∀ saving ∈ before, saving.isDone

/-- Lines in front that announce nothing. -/
theorem Announces.behind {directory : String} {names : List String} {result : Except RenderError Unit}
    {front lines : List String} {savings : List Saving}
    (h : Announces directory names result lines savings) (hfront : announced front = []) :
    Announces directory names result (front ++ lines) savings := by
  have hlines : announced (front ++ lines) = announced lines := by
    rw [announced_append, hfront, List.nil_append]
  refine ⟨?_, ?_, ?_, h.last⟩ <;> rw [hlines]
  · exact h.due
  · exact h.saved
  · exact h.all

namespace Turn.Taken

variable {directory : String} {d : Disk} {turns : List Turn} {a : Except RenderError Unit}
  {lines : List String} {savings : List Saving}

/-- **Turns announce what they save,** if each announces its report. -/
theorem announced_saved (h : Taken directory d turns a lines savings)
    (htold : ∀ turn ∈ turns, announced turn.told = [turn.name]) :
    announced lines <+: turns.map Turn.name ∧
      (savings.filter Saving.isDone).map Saving.path =
        (announced lines).map (Render.reportPath directory) ∧
      (a = .ok () → announced lines = turns.map Turn.name) := by
  induction h with
  | none => exact ⟨List.prefix_refl _, rfl, fun _ => rfl⟩
  | failed => exact ⟨List.nil_prefix, rfl, fun hresult => nomatch hresult⟩
  | @saved d d' turn turns a lines savings _ _ ih =>
    obtain ⟨hdue, hsaved, hall⟩ := ih fun later hlater => htold later (List.mem_cons_of_mem _ hlater)
    have hlines : announced (turn.told ++ lines) = turn.name :: announced lines := by
      rw [announced_append, htold turn List.mem_cons_self]
      rfl
    rw [hlines, List.map_cons]
    refine ⟨(List.prefix_cons_inj _).2 hdue, ?_, fun hresult => congrArg _ (hall hresult)⟩
    rw [List.filter_cons_of_pos rfl, List.map_cons, hsaved]
    rfl

theorem announces (h : Taken directory d turns a lines savings)
    (htold : ∀ turn ∈ turns, announced turn.told = [turn.name]) :
    Announces directory (turns.map Turn.name) a lines savings := by
  obtain ⟨hdue, hsaved, hall⟩ := h.announced_saved htold
  exact ⟨hdue, hsaved, hall, fun error hresult => h.exists_failed hresult⟩

/-- Only what turns tell is told. -/
theorem mem_told (h : Taken directory d turns a lines savings) {line : String} (hline : line ∈ lines) :
    ∃ turn ∈ turns, line ∈ turn.told := by
  induction h with
  | none => cases hline
  | failed => cases hline
  | saved _ _ ih =>
    rcases List.mem_append.1 hline with hline | hline
    · exact ⟨_, List.mem_cons_self, hline⟩
    · obtain ⟨turn, hturn, htold⟩ := ih hline
      exact ⟨turn, List.mem_cons_of_mem _ hturn, htold⟩

end Turn.Taken

namespace Render

variable {options : Options} {p : Profile} {group : FileGroup} {subject : Subject} {directory : String}

/-! ## Lines that are read back -/

/-- **No name has a line break,** of those that the lines of a render show. -/
structure Unbroken (options : Options) (subject : Subject) : Prop where
  displays : ∀ group ∈ subject.profile.fileGroups options, '\n' ∉ group.display.toList
  functions : ∀ f ∈ subject.profile.routines, '\n' ∉ (Symbol.shown options f.name).toList
  reports : ∀ turn ∈ turns options subject, '\n' ∉ turn.name.toList

theorem isLine_of_mem_functionSummaries
    (hfunctions : ∀ f ∈ p.routines, '\n' ∉ (Symbol.shown options f.name).toList) {line : String}
    (h : line ∈ functionSummaries options p group) : Text.IsLine line := by
  obtain ⟨f, hf, hline⟩ := List.mem_flatMap.1 h
  obtain ⟨i, -, hi⟩ := List.mem_filterMap.1 hf
  rw [List.mem_append, List.mem_cons, List.mem_singleton] at hline
  rcases hline with (rfl | hline) | rfl
  · exact Text.isLine_quoted (by decide) (hfunctions f (List.mem_of_getElem? hi))
  · exact (Summary.isPrintable_of_mem_toLines hline).isLine
  · decide

theorem isLine_of_mem_summaryLines {created : Option String}
    (hfunctions : ∀ f ∈ p.routines, '\n' ∉ (Symbol.shown options f.name).toList)
    (hdisplay : '\n' ∉ group.display.toList) (hcreated : ∀ name ∈ created, '\n' ∉ name.toList)
    {line : String} (h : line ∈ summaryLines options p group created) : Text.IsLine line := by
  rw [summaryLines, List.mem_append, List.mem_append, List.mem_append, List.mem_cons,
    List.mem_singleton] at h
  rcases h with ((h | rfl | h) | h) | rfl
  · split_ifs at h
    · exact isLine_of_mem_functionSummaries hfunctions h
    · exact absurd h List.not_mem_nil
  · exact Text.isLine_quoted (by decide) hdisplay
  · exact (Summary.isPrintable_of_mem_toLines h).isLine
  · obtain ⟨name, hname, rfl⟩ := Option.map_eq_some_iff.1 (Option.mem_toList.1 h)
    exact Text.isLine_quoted (by decide) (hcreated name hname)
  · decide

/-- **All lines of a render are read back.** -/
theorem isLine_of_unbroken {d : Disk} {a : Except RenderError Unit} {lines : List String}
    {savings : List Saving} (h : Unbroken options subject)
    (htaken : Turn.Taken directory d (turns options subject) a lines savings) :
    ∀ line ∈ foreword options subject ++ lines, Text.IsLine line := by
  intro line hline
  rcases List.mem_append.1 hline with hline | hline
  · unfold foreword at hline
    split_ifs at hline
    · obtain ⟨group, hgroup, hline⟩ := List.mem_flatMap.1 hline
      exact isLine_of_mem_summaryLines h.functions (h.displays group hgroup) (by simp) hline
    · exact absurd hline List.not_mem_nil
  · obtain ⟨turn, hturn, htold⟩ := htaken.mem_told hline
    have hname := h.reports turn hturn
    unfold turns at hturn
    dsimp only at hturn
    split_ifs at hturn
    · exact absurd hturn List.not_mem_nil
    · obtain rfl := List.mem_singleton.1 hturn
      rcases List.mem_cons.1 htold with rfl | htold
      · exact Text.isLine_quoted (by decide) hname
      · rw [List.mem_singleton.1 htold]
        decide
    · obtain ⟨group, hgroup, rfl⟩ := List.mem_map.1 hturn
      exact isLine_of_mem_summaryLines h.functions (h.displays group hgroup)
        (fun name hmem => Option.mem_some_iff.1 hmem ▸ hname) htold

/-! ## The same reports on standard output -/

end Render

/-- The same options, but reports go to standard output. -/
def Options.toOutput (options : Options) : Options := { options with useStdout := true }

theorem Annotated.body_toOutput (options : Options) (p : Profile) (group : FileGroup)
    (source : List String) (lines : List Nat) (functions : List Routine) :
    body options.toOutput p group source lines functions =
      body options p group source lines functions := by
  induction lines generalizing functions with
  | nil => rfl
  | cons line lines ih =>
    rw [body, body, ih]
    rfl

theorem Annotated.text_toOutput (options : Options) (p : Profile) (group : FileGroup)
    (source : List String) (origin : Provenance) :
    text options.toOutput p group source origin = text options p group source origin := by
  rw [text, rows, body_toOutput]
  rfl

theorem Intermediate.text_toOutput (options : Options) (p : Profile) (groups : List FileGroup) :
    text options.toOutput p groups = text options p groups := rfl

namespace Render

variable {options : Options} {subject : Subject} {directory : String}

theorem textOn_fileTurn (options : Options) (subject : Subject) (d : Disk) (group : FileGroup) :
    (fileTurn options subject group).textOn d =
      Annotated.text options subject.profile group (linesRead (d.read group.path.toList))
        subject.provenance := rfl

theorem textOn_listingTurn (options : Options) (subject : Subject) (d : Disk)
    (groups : List FileGroup) : (listingTurn options subject groups).textOn d =
      Intermediate.text options subject.profile groups := rfl

/-- **No report depends on where it goes.** -/
theorem map_textOn_toOutput (options : Options) (subject : Subject) (d : Disk) :
    (turns options.toOutput subject).map (Turn.textOn d) =
      (turns options subject).map (Turn.textOn d) := by
  have hgroups : subject.profile.fileGroups options.toOutput = subject.profile.fileGroups options := rfl
  have houtput : options.toOutput.noOutput = options.noOutput := rfl
  have hformat : options.toOutput.intermediateFormat = options.intermediateFormat := rfl
  unfold turns
  dsimp only
  rw [hgroups, houtput, hformat]
  split_ifs
  · rfl
  · rw [List.map_singleton, List.map_singleton, textOn_listingTurn, textOn_listingTurn,
      Intermediate.text_toOutput]
  · rw [List.map_map, List.map_map]
    refine List.map_congr_left fun group _ => ?_
    rw [Function.comp_apply, Function.comp_apply, textOn_fileTurn, textOn_fileTurn]
    exact Annotated.text_toOutput _ _ _ _ _

theorem readsNoReport_turns {d : Disk} (houtput : options.noOutput = false)
    (hstdout : options.useStdout = false)
    (hreads : options.intermediateFormat = false →
      ReadsNoReport d options directory subject.source (subject.profile.fileGroups options)) :
    Turn.ReadsNoReport d directory (turns options subject) := by
  unfold turns
  rw [houtput]
  cases hformat : options.intermediateFormat with
  | true => exact List.pairwise_singleton _ _
  | false =>
    refine List.pairwise_map.2 ((hreads hformat).imp fun {group later} hne => ?_)
    rintro source place hsource hplace
    obtain rfl := Option.some.inj hsource
    exact hne place ⟨hstdout, houtput, hplace⟩

/-- **The reports of a render are as announced, and the same wherever they go.**

* Without output, or to standard output, no file is saved or changed.
* Otherwise, if standard output can be written, the names that are announced there are those of the
  files that were saved, in their order, whether the render ends well or not. Where no name has a line
  break, the lines are those of the text that was written.
* If it ends well, and no source is an earlier report, the texts that were saved are what the same render
  writes to standard output, one behind the other; and if the names are different and have no slash, they
  are in the files at the end. -/
theorem reports_as_announced (options : Options) (directory : String) (subject : Subject)
    (s : Session) :
    let names := reportNames options subject
    let ran := report (m := StateM Ledger) directory options subject ⟨s, []⟩
    report (m := StateM Session) directory options subject s = (ran.1, ran.2.session) ∧
    (options.noOutput = true ∨ options.useStdout = true →
      ran.2.savings = [] ∧ ran.2.session.disk = s.disk) ∧
    (options.useStdout = false → s.outputFault = none → ∃ lines,
      ran.2.session.output = s.output ++ Text.unlines lines ∧
      Announces directory names ran.1 lines ran.2.savings ∧
      (Unbroken options subject → Text.lines (Text.unlines lines) = lines)) ∧
    (options.noOutput = false → options.useStdout = false → ran.1 = .ok () → s.disk.IsTree →
      (options.intermediateFormat = false →
        ReadsNoReport s.disk options directory subject.source (subject.profile.fileGroups options)) →
      ran.2.savings.map Saving.path = names.map (reportPath directory) ∧
      (∀ r : Session, r.disk = s.disk → r.outputFault = none →
        let shown := report (m := StateM Session) directory options.toOutput subject r
        shown.1 = .ok () ∧
          shown.2.output = r.output ++ String.join (ran.2.savings.map Saving.text)) ∧
      (names.Nodup → (∀ name ∈ names, '/' ∉ name.toList) → ∀ saving ∈ ran.2.savings,
        ran.2.session.disk.read saving.path.toList = .ok (Utf8.encode saving.text))) := by
  intro names ran
  obtain ⟨a, t, told, savings, hruns, hpaths⟩ := runs_report_named options directory subject s
  have hran : ran = (a, ⟨t, savings⟩) := hruns.result
  refine ⟨by rw [hran]; exact hruns.plain, fun hnone => ?_, fun hstdout hfault => ?_, ?_⟩
  · have hnames : reportNames options subject = [] := by
      unfold reportNames
      exact if_pos (Bool.or_eq_true_iff.2 hnone)
    rw [hnames, List.map_nil, List.prefix_nil, List.map_eq_nil_iff] at hpaths
    subst hpaths
    rw [hran]
    exact ⟨rfl, hruns.disk_eq⟩
  · obtain ⟨b, u, lines, savings', hturns, htaken⟩ := runs_report hstdout directory subject s
    have hran' : ran = (b, ⟨u, savings'⟩) := hturns.result
    rw [hran']
    refine ⟨foreword options subject ++ lines, hturns.output hfault, ?_, fun hunbroken => ?_⟩
    · have hannounces := htaken.announces fun turn hturn => announced_told hturn
      rw [map_name_turns hstdout] at hannounces
      exact hannounces.behind (announced_foreword options subject)
    · exact Text.lines_unlines (isLine_of_unbroken hunbroken htaken)
  · intro houtput hstdout hok htree hreads
    obtain ⟨b, u, lines, savings', hturns, htaken⟩ := runs_report hstdout directory subject s
    have hran' : ran = (b, ⟨u, savings'⟩) := hturns.result
    rw [hran'] at hok ⊢
    obtain rfl : b = .ok () := hok
    have hall := htaken.paths_eq
    rw [map_path_turns hstdout] at hall
    refine ⟨hall, fun r hdisk hfault => ?_, fun hnodup hslash saving hsaving => ?_⟩
    · have htoOutput : options.toOutput.useStdout = true := rfl
      obtain ⟨c, v, written, hshown, htexts⟩ := runs_report_useStdout htoOutput directory subject r
      obtain ⟨rfl, rfl⟩ := htexts hfault
      have htext := htaken.texts_eq htree (readsNoReport_turns houtput hstdout hreads)
      rw [hshown.plain]
      refine ⟨rfl, ?_⟩
      rw [htext, hshown.output hfault, map_textOn_toOutput, hdisk]
    · have hapart : s.disk.Apart savings' := apart_of_nodup hnodup hslash ⟨[], (List.append_nil _).trans hall⟩
      exact hturns.filed.read_of_apart htree hapart saving hsaving (htaken.isDone_of_ok saving hsaving)

/-- A session with a source in the root directory. -/
def besideSource : Session where
  disk := ({} : Disk).put ["a.c".toList] (.file (Utf8.encode (Text.unlines ["int x;", "int y;"])))

/-- A source and a file that it includes, which is missing. -/
def withHeader : Subject := .covering ["a.c", "b.h"]

/-- The reports on both. -/
def bothReports : Except RenderError Unit × Ledger :=
  report (m := StateM Ledger) "." {} withHeader ⟨besideSource, []⟩

theorem isTree_besideSource : besideSource.disk.IsTree :=
  (Disk.sameDirectories_put (by decide) (by decide) _).isTree Disk.isTree_empty

/-- **Two reports are announced and saved,** and standard output would show them one behind the other.
Without output nothing changes. -/
theorem reports_as_announced_withHeader :
    bothReports.1 = .ok () ∧
      (∃ lines, bothReports.2.session.output = "" ++ Text.unlines lines ∧
        announced lines = ["a.c.gcov", "b.h.gcov"] ∧ Text.lines (Text.unlines lines) = lines) ∧
      (report (m := StateM Session) "." (Options.toOutput {}) withHeader besideSource).2.output =
        "" ++ String.join (bothReports.2.savings.map Saving.text) ∧
      (∀ saving ∈ bothReports.2.savings,
        bothReports.2.session.disk.read saving.path.toList = .ok (Utf8.encode saving.text)) ∧
      (report (m := StateM Ledger) "." { noOutput := true } withHeader
        ⟨besideSource, []⟩).2.session.disk = besideSource.disk := by
  have hok : bothReports.1 = .ok () := by decide +kernel
  have hnames : reportNames {} withHeader = ["a.c.gcov", "b.h.gcov"] := by decide +kernel
  have hunbroken : Unbroken {} withHeader := ⟨by decide +kernel, by decide +kernel, by decide +kernel⟩
  have hreads : ReadsNoReport besideSource.disk {} "." withHeader.source
      (withHeader.profile.fileGroups {}) := readsNoReport_of_ne (by decide +kernel)
  unfold bothReports at hok ⊢
  obtain ⟨-, -, hannounced, hsame⟩ := reports_as_announced {} "." withHeader besideSource
  obtain ⟨lines, houtput, hannounces, hlines⟩ := hannounced rfl rfl
  obtain ⟨-, hshown, hread⟩ := hsame rfl rfl hok isTree_besideSource fun _ => hreads
  rw [hnames] at hannounces hread
  refine ⟨hok, ⟨lines, houtput, hannounces.all hok, hlines hunbroken⟩,
    (hshown besideSource rfl rfl).2, hread (by decide) (by decide), ?_⟩
  exact ((reports_as_announced { noOutput := true } "." withHeader besideSource).2.1 (.inl rfl)).2

end Render

end ArcCoverage

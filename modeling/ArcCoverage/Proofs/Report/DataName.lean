/-
# What the name of the data changes

A report shows the name of the data in one line of its head (`Annotated.namesData_text`), and nowhere
else. Rendering the same profile under two names therefore keeps two sessions abreast, with one
exception: a source that is read may be a report that was written before, and then the line stands in
it too. `Render.ReadsNoReport` rules this out.

| rendering | lemma |
| --- | --- |
| one file | `Render.agree_renderFile` |
| all files | `Render.agree_renderFiles` |
| the intermediate format | `Render.agree_renderIntermediate` |
| in either format | `Render.agree_report` |

The intermediate format shows no names, so that its two reports are the same.
-/
import ArcCoverage.Proofs.Session.Abreast
import ArcCoverage.Report.Render

namespace ArcCoverage

/-- **Two versions of a report** that name the data differently, in the third line. -/
def NamesData (name name' text text' : String) : Prop :=
  ∃ source graph rest,
    text = Text.unlines (source :: graph :: (Row.header "Data" name).text :: rest) ∧
      text' = Text.unlines (source :: graph :: (Row.header "Data" name').text :: rest)

theorem Text.isEmpty_unlines_cons (line : String) (lines : List String) :
    (Text.unlines (line :: lines)).isEmpty = false := by
  rw [← Bool.not_eq_true, String.isEmpty_iff, Text.unlines, List.map_cons, String.join_cons,
    String.append_eq_empty_iff, Text.line, String.append_eq_empty_iff]
  rintro ⟨⟨-, hbreak⟩, -⟩
  exact absurd hbreak (by decide)

theorem Text.length_unlines_cons (line : String) (lines : List String) :
    (Text.unlines (line :: lines)).length = line.length + 1 + (Text.unlines lines).length := by
  rw [Text.unlines, List.map_cons, String.join_cons, String.length_append, Text.line,
    String.length_append]
  rfl

theorem NamesData.isEmpty_eq {name name' text text' : String} (h : NamesData name name' text text') :
    text.isEmpty = text'.isEmpty := by
  obtain ⟨source, graph, rest, rfl, rfl⟩ := h
  rw [Text.isEmpty_unlines_cons, Text.isEmpty_unlines_cons]

theorem NamesData.length_add {name name' text text' : String} (h : NamesData name name' text text') :
    text.length + name'.length = text'.length + name.length := by
  obtain ⟨source, graph, rest, rfl, rfl⟩ := h
  have hheader (name : String) : (Row.header "Data" name).text.length =
      (Row.gutter "-" 0 ++ "Data" ++ ":").length + name.length := String.length_append _ _
  simp only [Text.length_unlines_cons, hheader]
  omega

/-- Two versions of what the options send to standard output or else to a file: only reports in the
text format have any. -/
def ReportVersions (options : Options) (toOutput : Bool) (name name' text text' : String) : Prop :=
  options.intermediateFormat = false ∧ options.useStdout = toOutput ∧ NamesData name name' text text'

/-- **The name of the data stands in one line** of an annotated source. -/
theorem Annotated.namesData_text (options : Options) (p : Profile) (group : FileGroup)
    (source : List String) (origin : Provenance) (name name' : String) :
    NamesData name name' (text options p group source { origin with dataName := name })
      (text options p group source { origin with dataName := name' }) :=
  ⟨_, _, _, rfl, rfl⟩

namespace Render

open Session

/-- A place that the report on a file is written to. -/
def Writes (d : Disk) (options : Options) (directory source : String) (group : FileGroup)
    (place : Place) : Prop :=
  options.useStdout = false ∧ options.noOutput = false ∧
    d.place? (reportPath directory (OutputName.ofFile options source group.path)).toList = some place

/-- **No source is a report** on a file before it. -/
def ReadsNoReport (d : Disk) (options : Options) (directory source : String)
    (groups : List FileGroup) : Prop :=
  groups.Pairwise fun group later =>
    ∀ place, Writes d options directory source group place → d.place? later.path.toList ≠ some place

theorem readsNoReport_of_ne {d : Disk} {options : Options} {directory source : String}
    {groups : List FileGroup}
    (h : groups.Pairwise fun group later =>
      d.place? (reportPath directory (OutputName.ofFile options source group.path)).toList ≠
        d.place? later.path.toList) : ReadsNoReport d options directory source groups :=
  h.imp fun hne _ hwrites hreads => hne (hwrites.2.2.trans hreads.symm)

/-- **The same reports,** up to the name of the data in those of the text format. -/
structure SameReports (options : Options) (name name' : String) (s t : Session) : Prop where
  output : Spliced (ReportVersions options true name name') s.output t.output
  files : ∀ place,
    SameOrHolds (ReportVersions options false name name') (s.disk.lookup place) (t.disk.lookup place)
  output_eq : options.intermediateFormat = true ∨ options.useStdout = false → s.output = t.output
  files_eq : options.intermediateFormat = true ∨ options.useStdout = true →
    ∀ place, s.disk.lookup place = t.disk.lookup place

/-- Two runs abreast whose reports name the data differently. -/
abbrev NamedAbreast (options : Options) (name name' : String) (d : Disk) (front extra : String)
    (stained : Place → Prop) : Session → Session → Prop :=
  Abreast (ReportVersions options true name name') (ReportVersions options false name name') d front
    extra stained

variable {options : Options} {name name' : String} {d : Disk} {front extra : String}
  {stained stained' : Place → Prop} {directory : String} {subject : Subject} {group : FileGroup}

theorem sameReports {s t : Session} (h : NamedAbreast options name name' d front extra stained s t) :
    SameReports options name name' s t where
  output := h.output
  files := h.entries
  output_eq hoptions := h.output.eq fun _ _ ⟨hformat, hstdout, _⟩ => by simp_all
  files_eq hoptions place := (h.entries place).eq fun _ _ ⟨hformat, hstdout, _⟩ => by simp_all

theorem agree_readSource (htree : d.IsTree) {path : String}
    (hclean : ∀ place, d.place? path.toList = some place → ¬ stained place) :
    Agree (NamedAbreast options name name' d front extra stained)
      (NamedAbreast options name name' d front extra stained) (readSource path) (readSource path) := by
  refine .bind (agree_load htree hclean) fun loaded => ?_
  cases loaded with
  | ok bytes => exact .pure (fun _ _ h => h) _
  | error e => exact .bind (agree_diagnose _) fun _ => .pure (fun _ _ h => h) _

theorem agree_saveReport (htree : d.IsTree) {file text text' : String}
    (hversions : SameOrVersions (ReportVersions options false name name') text text')
    (hgrown : ∀ place,
      stained place ∨ d.place? (reportPath directory file).toList = some place → stained' place) :
    Agree (NamedAbreast options name name' d front extra stained)
      (NamedAbreast options name name' d front extra stained')
      (saveReport directory file text) (saveReport directory file text') := by
  refine .bind (agree_note _) fun _ => .bind (agree_save htree hversions hgrown) fun saved => ?_
  cases saved <;> exact .pure (fun _ _ h => h) _

theorem agree_emitReport {text text' : String}
    (hversions : SameOrVersions (ReportVersions options true name name') text text')
    (hempty : text.isEmpty = text'.isEmpty) :
    Agree (NamedAbreast options name name' d front extra stained)
      (NamedAbreast options name name' d front extra stained) (emitReport text) (emitReport text') := by
  refine .bind (agree_emit hversions hempty) fun emitted => ?_
  cases emitted <;> exact .pure (fun _ _ h => h) _

theorem agree_tell (text : String) :
    Agree (NamedAbreast options name name' d front extra stained)
      (NamedAbreast options name name' d front extra stained) (tell text) (tell text) :=
  .bind (agree_emit (.inl rfl) rfl) fun _ => .pure (fun _ _ h => h) _

theorem agree_deliver (htree : d.IsTree) {file text text' : String}
    (hversions : ∀ toOutput, options.useStdout = toOutput →
      SameOrVersions (ReportVersions options toOutput name name') text text')
    (hempty : text.isEmpty = text'.isEmpty)
    (hgrown : ∀ place, stained place ∨
      (options.useStdout = false ∧ d.place? (reportPath directory file).toList = some place) →
        stained' place) :
    Agree (NamedAbreast options name name' d front extra stained)
      (NamedAbreast options name name' d front extra stained')
      (deliver options directory file text) (deliver options directory file text') := by
  unfold deliver
  cases hstdout : options.useStdout with
  | true =>
    rw [if_pos rfl, if_pos rfl]
    exact (agree_emitReport (hversions true hstdout) hempty).mono fun _ _ h =>
      h.mono fun place hplace => hgrown place (.inl hplace)
  | false =>
    rw [if_neg Bool.false_ne_true, if_neg Bool.false_ne_true]
    exact agree_saveReport htree (hversions false hstdout) fun place hplace =>
      hgrown place (hplace.imp_right fun hplace => ⟨hstdout, hplace⟩)

/-- The report on one file, under two names of the data. -/
theorem agree_reportFile (htree : d.IsTree) (hformat : options.intermediateFormat = false)
    (hclean : ∀ place, d.place? group.path.toList = some place → ¬ stained place)
    (hgrown : ∀ place, stained place ∨ Writes d options directory subject.source group place →
      stained' place) :
    Agree (NamedAbreast options name name' d front extra stained)
      (NamedAbreast options name name' d front extra stained')
      (reportFile options directory { subject with dataName := name } group)
      (reportFile options directory { subject with dataName := name' } group) := by
  unfold reportFile
  cases houtput : options.noOutput with
  | true => exact .pure (fun _ _ h => h.mono fun place hplace => hgrown place (.inl hplace)) _
  | false =>
    refine .bind (agree_readSource htree hclean) fun source => ?_
    have hnames := Annotated.namesData_text options subject.profile group source subject.provenance
      name name'
    exact agree_deliver htree (fun _ hstdout => .inr ⟨hformat, hstdout, hnames⟩) hnames.isEmpty_eq
      fun place hplace => hgrown place (hplace.imp_right fun hplace => ⟨hplace.1, houtput, hplace.2⟩)

/-- **The report and summary of one file,** under two names of the data. -/
theorem agree_renderFile (htree : d.IsTree) (hformat : options.intermediateFormat = false)
    (hclean : ∀ place, d.place? group.path.toList = some place → ¬ stained place)
    (hgrown : ∀ place, stained place ∨ Writes d options directory subject.source group place →
      stained' place) :
    Agree (NamedAbreast options name name' d front extra stained)
      (NamedAbreast options name name' d front extra stained')
      (renderFile options directory { subject with dataName := name } group)
      (renderFile options directory { subject with dataName := name' } group) := by
  refine .bind (agree_reportFile htree hformat hclean hgrown) fun reported => ?_
  cases reported with
  | error e => exact .pure (fun _ _ h => h) _
  | ok =>
    cases options.useStdout with
    | true => exact .pure (fun _ _ h => h) _
    | false => exact .bind (agree_tell _) fun _ => .pure (fun _ _ h => h) _

/-- **All files, under two names of the data,** if no source is a report on a file before it. -/
theorem agree_renderFiles (htree : d.IsTree) (hformat : options.intermediateFormat = false)
    {groups : List FileGroup} (hreads : ReadsNoReport d options directory subject.source groups)
    (hclean : ∀ group ∈ groups, ∀ place,
      d.place? group.path.toList = some place → ¬ stained place) :
    Agree (NamedAbreast options name name' d front extra stained)
      (NamedAbreast options name name' d front extra fun _ => True)
      (renderFiles options directory { subject with dataName := name } groups)
      (renderFiles options directory { subject with dataName := name' } groups) := by
  induction groups generalizing stained with
  | nil => exact .pure (fun _ _ h => h.mono fun _ _ => trivial) _
  | cons group groups ih =>
    rw [ReadsNoReport, List.pairwise_cons] at hreads
    refine .bind (agree_renderFile htree hformat (hclean group List.mem_cons_self)
      fun _ hplace => hplace) fun rendered => ?_
    cases rendered with
    | error e => exact .pure (fun _ _ h => h.mono fun _ _ => trivial) _
    | ok =>
      -- The places stained now are those of before and that of this report.
      refine ih hreads.2 fun later hlater place hplace hstained => ?_
      rcases hstained with hstained | hwrites
      · exact hclean later (List.mem_cons_of_mem _ hlater) place hplace hstained
      · exact hreads.1 later hlater place hwrites hplace

theorem agree_tellSummaries (p : Profile) (groups : List FileGroup) :
    Agree (NamedAbreast options name name' d front extra stained)
      (NamedAbreast options name name' d front extra stained)
      (tellSummaries options p groups) (tellSummaries options p groups) := by
  induction groups with
  | nil => exact .pure (fun _ _ h => h) _
  | cons group groups ih => exact .bind (agree_tell _) fun _ => ih

/-- **The intermediate format shows no name** of the data. -/
theorem agree_renderIntermediate (htree : d.IsTree) (groups : List FileGroup) :
    Agree (NamedAbreast options name name' d front extra stained)
      (NamedAbreast options name name' d front extra fun _ => True)
      (renderIntermediate options directory { subject with dataName := name } groups)
      (renderIntermediate options directory { subject with dataName := name' } groups) := by
  have hlisting (text : String) : Agree (NamedAbreast options name name' d front extra stained)
      (NamedAbreast options name name' d front extra fun _ => True)
      (deliver options directory (OutputName.ofFile options subject.source subject.source) text)
      (deliver options directory (OutputName.ofFile options subject.source subject.source) text) :=
    agree_deliver htree (fun _ _ => .inl rfl) rfl fun _ _ => trivial
  unfold renderIntermediate
  cases options.useStdout <;> cases options.noOutput
  · refine .bind (agree_tellSummaries _ _) fun _ => .bind (hlisting _) fun delivered => ?_
    cases delivered with
    | error e => exact .pure (fun _ _ h => h) _
    | ok => exact .bind (agree_tell _) fun _ => .pure (fun _ _ h => h) _
  · exact .bind (agree_tellSummaries _ _) fun _ => .pure (fun _ _ h => h.mono fun _ _ => trivial) _
  · refine .bind (hlisting _) fun delivered => ?_
    cases delivered <;> exact .pure (fun _ _ h => h) _
  · exact .pure (fun _ _ h => h.mono fun _ _ => trivial) _

/-- **The report on one main source,** under two names of the data. -/
theorem agree_report (subject : Subject) (htree : d.IsTree)
    (hreads : options.intermediateFormat = false →
      ReadsNoReport d options directory subject.source (subject.profile.fileGroups options)) :
    Agree (NamedAbreast options name name' d front extra fun _ => False)
      (NamedAbreast options name name' d front extra fun _ => True)
      (report directory options { subject with dataName := name })
      (report directory options { subject with dataName := name' }) := by
  refine .bind (agree_note _) fun _ => ?_
  cases hformat : options.intermediateFormat with
  | true => exact agree_renderIntermediate htree _
  | false => exact agree_renderFiles htree hformat (hreads hformat) fun _ _ _ _ hstained => hstained

end Render

end ArcCoverage

/-
# The protocol of one source

A run on one source opens its notes and then its data, has them read, and has a report rendered.
`Course` says what a run was seen to do, and `Course.Keeps` that it kept to the protocol:

| of a run | holds |
| --- | --- |
| the data | are opened exactly if the notes were accepted |
| the report | is rendered at most once, exactly if then the data were loaded or not found |
| the store of the report | has read the notes, and the data exactly if they look like data |
| the name of the data | is `-` exactly if they were not found or are named so |
| the outcome | is `done` exactly if the report was rendered and did not fail |
| diagnostics | with no listing asked for, there are none but the report's own exactly if it is `done` and the data were accepted or not found |

Each stage has a relation with one case for each way it can go (`NotesTaken`, `DataTaken`) and a lemma
that it goes one of them. The run (`SourceReport.keeps_protocol`) is put together from them; store and
renderer are arbitrary throughout.
-/
import ArcCoverage.Proofs.Session.Watching

namespace ArcCoverage

/-- A line is not empty, whatever is on it. -/
theorem Text.line_ne_empty (text : String) : Text.line text ≠ "" := by
  intro h
  have hlast := congrArg (fun line => line.toList.getLast?) h
  simp [Text.line] at hlast

/-! ## What a run did -/

/-- What an empty store makes of notes. -/
abbrev noted (G : Type) [CoverageStore G] (bytes : List UInt8) : Intake G :=
  CoverageStore.readNotes CoverageStore.empty bytes

/-- **What a run was seen to do.** -/
structure Course (G : Type) where
  notesName : String
  dataName : String
  /-- What opening the notes gave. -/
  notes : Except SystemError (List UInt8)
  /-- What opening the data gave, if they were opened. -/
  data : Option (Except SystemError (List UInt8)) := none
  /-- The report, if it was rendered. -/
  rendering : Option (Rendering G) := none

namespace Course

variable {G : Type}

/-- The calls of a run, in their order. -/
def calls (c : Course G) : List (Call G) :=
  .opened c.notesName c.notes :: ((c.data.map (.opened c.dataName)).toList ++
    (c.rendering.map .rendered).toList)

/-- The data were reported not found. -/
def DataMissing (c : Course G) : Prop := ∃ e, c.data = some (.error e) ∧ e.isNotFound = true

/-- The data were loaded. -/
def DataLoaded (c : Course G) : Prop := ∃ bytes, c.data = some (.ok bytes)

/-- No diagnostic was written but by the report itself. -/
def Untold (c : Course G) (s t : Session) : Prop :=
  match c.rendering with
  | none => t.errorText none = s.errorText none
  | some r => r.before.errorText none = s.errorText none ∧
      t.errorText none = r.after.errorText none

variable [CoverageStore G]

/-- The notes were loaded and accepted. -/
def NotesAccepted (c : Course G) : Prop :=
  ∃ bytes, c.notes = .ok bytes ∧ (noted G bytes).failure = none

/-- The data were loaded, look like data and were accepted by the store that the notes filled. -/
def DataAccepted (c : Course G) : Prop :=
  ∃ notes bytes, c.notes = .ok notes ∧ c.data = some (.ok bytes) ∧
    CoverageStore.looksLikeData G bytes = true ∧
    (CoverageStore.readData (noted G notes).store bytes).failure = none

/-- **The run kept to the protocol.** -/
structure Keeps (c : Course G) (render : Renderer (StateM Session) G) (settings : Settings)
    (options : Options) (source : String) (s t : Session) (outcome : Outcome) : Prop where
  names : (c.notesName, c.dataName) =
    (SourceReport.resolve (m := StateM Session) settings source s).1
  /-- The data are opened behind notes that were accepted. -/
  opens : c.data.isSome = true ↔ c.NotesAccepted
  /-- A report follows data that were loaded or do not exist. -/
  renders : c.rendering.isSome = true ↔ c.NotesAccepted ∧ (c.DataLoaded ∨ c.DataMissing)
  /-- It is asked for with what the run was given, and the renderer does what it does. -/
  asked : ∀ r ∈ c.rendering, r.options = options ∧ r.source = source ∧ r.notesName = c.notesName ∧
    render options source c.notesName r.dataName r.store r.before = (r.result, r.after)
  /-- Its store has read the notes, and then at most the data. -/
  reads : ∀ r ∈ c.rendering, ∃ notes, c.notes = .ok notes ∧
    ((∃ bytes, c.data = some (.ok bytes) ∧ CoverageStore.looksLikeData G bytes = true ∧
      r.reads = [(.notes, notes), (.data, bytes)] ∧
      r.store = (CoverageStore.readData (noted G notes).store bytes).store) ∨
    (∀ bytes, c.data = some (.ok bytes) → CoverageStore.looksLikeData G bytes = false) ∧
      r.reads = [(.notes, notes)] ∧ r.store = (noted G notes).store)
  /-- It shows the name of the data, or that there are none. -/
  dataName : ∀ r ∈ c.rendering,
    (r.dataName = Artifact.inputName ↔ c.DataMissing ∨ c.dataName = Artifact.inputName) ∧
      (¬ c.DataMissing → r.dataName = c.dataName)
  done : outcome = .done ↔ ∃ r ∈ c.rendering, r.result = .ok ()
  /-- Every problem is told, and nothing else. -/
  errors : settings.dump = false →
    (c.Untold s t ↔ outcome = .done ∧ (c.DataMissing ∨ c.DataAccepted))

end Course

/-! ## Stages -/

namespace SourceReport

open Watch

variable {G : Type} [CoverageStore G] {s : Session} {name : String}

/-- **What becomes of notes,** and what is told of it. -/
inductive NotesTaken (G : Type) [CoverageStore G] :
    Except SystemError (List UInt8) → Except Stage (Recorded G) → String → Prop
  | unread (e : SystemError) {text : String} (htold : text ≠ "") :
      NotesTaken G (.error e) (.error .loadingNotes) text
  | refused (bytes : List UInt8) {text : String} (htold : text ≠ "")
      (hfailure : (noted G bytes).failure ≠ none) :
      NotesTaken G (.ok bytes) (.error .validatingNotes) text
  | accepted (bytes : List UInt8) (hfailure : (noted G bytes).failure = none) :
      NotesTaken G (.ok bytes) (.ok ⟨(noted G bytes).store, [(.notes, bytes)]⟩) ""

/-- **Notes are opened and taken.** -/
theorem steps_takeNotes (s : Session) (name : String) : ∃ loaded taken text,
    NotesTaken G loaded taken text ∧
      Steps (G := G) s (takeNotes (G := Recorded G) name) (takeNotes (G := G) name) taken
        (taken.map Recorded.store) text [.opened name loaded] := by
  have hannounced := steps_announce (G := G) s .loadingNotes name
  obtain ⟨loaded, hloaded⟩ := steps_load (G := G) _ name
  unfold takeNotes
  cases loaded with
  | error e =>
    refine ⟨.error e, .error .loadingNotes, Text.line s!"{name}: {e.text}",
      .unread e (Text.line_ne_empty _), ?_⟩
    exact .before hannounced (.before hloaded (.after (steps_diagnose _ _) (steps_pure _ _ _)))
  | ok bytes =>
    have hnoted (t : Session) := steps_noteAll (G := G) t (noted G bytes).log
    cases hfailure : (noted G bytes).failure with
    | some reason =>
      obtain ⟨text, htold, hreject⟩ := steps_reject (G := G) _ .notes name reason
      refine ⟨.ok bytes, .error .validatingNotes, text, .refused bytes htold (by simp [hfailure]), ?_⟩
      refine .before hannounced (.before hloaded (.before (hnoted _) ?_))
      dsimp only [CoverageStore.readNotes, CoverageStore.empty, Recorded.after]
      rw [hfailure]
      exact .after hreject (steps_pure _ _ _)
    | none =>
      refine ⟨.ok bytes, .ok ⟨_, [(.notes, bytes)]⟩, "", .accepted bytes hfailure, ?_⟩
      refine .before hannounced (.before hloaded (.before (hnoted _) ?_))
      dsimp only [CoverageStore.readNotes, CoverageStore.empty, Recorded.after]
      rw [hfailure]
      exact steps_pure _ _ _

/-- **What becomes of data that were loaded,** and what is told of it. -/
inductive DataRead (r : Recorded G) (bytes : List UInt8) : Recorded G → String → Prop
  | unlike {text : String} (htold : text ≠ "")
      (hlooks : CoverageStore.looksLikeData G bytes = false) : DataRead r bytes r text
  | refused {text : String} (htold : text ≠ "")
      (hlooks : CoverageStore.looksLikeData G bytes = true)
      (hfailure : (CoverageStore.readData r.store bytes).failure ≠ none) :
      DataRead r bytes
        ⟨(CoverageStore.readData r.store bytes).store, r.reads ++ [(.data, bytes)]⟩ text
  | accepted (hlooks : CoverageStore.looksLikeData G bytes = true)
      (hfailure : (CoverageStore.readData r.store bytes).failure = none) :
      DataRead r bytes
        ⟨(CoverageStore.readData r.store bytes).store, r.reads ++ [(.data, bytes)]⟩ ""

/-- **What becomes of data,** and what is told of it. -/
inductive DataTaken (r : Recorded G) (name : String) :
    Except SystemError (List UInt8) → Except Stage (Recorded G × String) → String → Prop
  | missing (e : SystemError) (hmissing : e.isNotFound = true) :
      DataTaken r name (.error e) (.ok (r, Artifact.inputName)) ""
  | unread (e : SystemError) {text : String} (htold : text ≠ "") (hmissing : e.isNotFound = false) :
      DataTaken r name (.error e) (.error .loadingData) text
  | loaded (bytes : List UInt8) {r' : Recorded G} {text : String} (hread : DataRead r bytes r' text) :
      DataTaken r name (.ok bytes) (.ok (r', name)) text

theorem steps_validateData (s : Session) (r : Recorded G) (name : String) (bytes : List UInt8) :
    ∃ r' text, DataRead r bytes r' text ∧
      Steps (G := G) s (validateData r name bytes) (validateData r.store name bytes) r' r'.store
        text [] := by
  have hannounced := steps_announce (G := G) s .validatingData name
  have hnoted (t : Session) := steps_noteAll (G := G) t (CoverageStore.readData r.store bytes).log
  unfold validateData
  cases hlooks : CoverageStore.looksLikeData G bytes with
  | false =>
    refine ⟨r, Text.line s!"{name}:not a gcov data file", .unlike (Text.line_ne_empty _) hlooks, ?_⟩
    exact .before hannounced (.after (steps_diagnose _ _) (steps_pure _ _ _))
  | true =>
    cases hfailure : (CoverageStore.readData r.store bytes).failure with
    | some reason =>
      obtain ⟨text, htold, hreject⟩ := steps_reject (G := G) _ .data name reason
      refine ⟨_, text, .refused htold hlooks (by simp [hfailure]), ?_⟩
      refine .before hannounced (.before (hnoted _) ?_)
      dsimp only [CoverageStore.readData, Recorded.after]
      rw [hfailure]
      exact .after hreject (steps_pure _ _ _)
    | none =>
      refine ⟨_, "", .accepted hlooks hfailure, ?_⟩
      refine .before hannounced (.before (hnoted _) ?_)
      dsimp only [CoverageStore.readData, Recorded.after]
      rw [hfailure]
      exact .before (steps_pure _ _ _) (steps_pure _ _ _)

/-- **Data are opened and taken.** -/
theorem steps_takeData (s : Session) (r : Recorded G) (name : String) : ∃ loaded taken text,
    DataTaken r name loaded taken text ∧
      Steps (G := G) s (takeData r name) (takeData r.store name) taken
        (taken.map (Prod.map Recorded.store id)) text [.opened name loaded] := by
  have hannounced := steps_announce (G := G) s .loadingData name
  obtain ⟨loaded, hloaded⟩ := steps_load (G := G) _ name
  unfold takeData
  cases loaded with
  | ok bytes =>
    obtain ⟨r', text, hread, hvalidated⟩ := steps_validateData _ r name bytes
    refine ⟨.ok bytes, .ok (r', name), text, .loaded bytes hread, ?_⟩
    exact .before hannounced (.before hloaded (.after hvalidated (steps_pure _ _ _)))
  | error e =>
    cases hmissing : e.isNotFound with
    | true =>
      refine ⟨.error e, .ok (r, Artifact.inputName), "", .missing e hmissing, ?_⟩
      refine .before hannounced (.before hloaded ?_)
      dsimp only
      rw [if_pos hmissing, if_pos hmissing]
      exact .before (steps_note _ _) (steps_pure _ _ _)
    | false =>
      refine ⟨.error e, .error .loadingData, Text.line s!"{name}: {e.text}",
        .unread e (Text.line_ne_empty _) hmissing, ?_⟩
      refine .before hannounced (.before hloaded ?_)
      dsimp only
      rw [if_neg (by simp [hmissing]), if_neg (by simp [hmissing])]
      exact .after (steps_diagnose _ _) (steps_pure _ _ _)

/-- **How a run ends that renders a report.** -/
structure Finished (render : Renderer (StateM Session) G) (settings : Settings) (options : Options)
    (source notesName dataName : String) (r : Recorded G) (s : Session) (rendering : Rendering G)
    (outcome : Outcome) (t : Session) : Prop where
  options_eq : rendering.options = options
  source_eq : rendering.source = source
  notesName_eq : rendering.notesName = notesName
  dataName_eq : rendering.dataName = dataName
  store_eq : rendering.store = r.store
  reads_eq : rendering.reads = r.reads
  render_eq : render options source notesName dataName r.store rendering.before =
    (rendering.result, rendering.after)
  done : outcome = .done ↔ rendering.result = .ok ()
  before : settings.dump = false → rendering.before.errorText none = s.errorText none
  after : t.errorText none = rendering.after.errorText none ↔ outcome = .done

section Finish

variable (render : Renderer (StateM Session) G) (settings : Settings) (options : Options)
  (source notesName dataName : String) (r : Recorded G) (s : Session)

/-- **A report is rendered once,** and only its failure is told. -/
theorem runs_finish_silent (hdump : settings.dump = false) :
    ∃ rendering outcome t,
      Finished render settings options source notesName dataName r s rendering outcome t ∧
      Runs s (finish (watched render) settings options source notesName dataName r)
        (finish render settings options source notesName dataName r.store) outcome outcome t
        [.rendered rendering] := by
  let u := (announce (m := StateM Session) .reporting source s).2
  have hannounced := steps_announce (G := G) s .reporting source
  let rendered := render options source notesName dataName r.store u
  let rendering : Rendering G :=
    { r with
      options, source, notesName, dataName, before := u, result := rendered.1, after := rendered.2 }
  have hrendered : Runs u (watched render options source notesName dataName r)
      (render options source notesName dataName r.store) rendered.1 rendered.1 rendered.2
      [.rendered rendering] := ⟨fun _ => rfl, rfl⟩
  have hsilent : u.errorText none = s.errorText none := hannounced.told.errorText_eq_iff.2 rfl
  unfold finish
  simp only [hdump, Bool.false_eq_true, if_false]
  cases hresult : rendered.1 with
  | ok v =>
    rw [hresult] at hrendered
    refine ⟨rendering, .done, rendered.2, ?_, hannounced.runs.bind (hrendered.bind (runs_pure _ _ _))⟩
    exact ⟨rfl, rfl, rfl, rfl, rfl, rfl, rfl, iff_of_true rfl hresult, fun _ => hsilent,
      iff_of_true rfl rfl⟩
  | error reason =>
    rw [hresult] at hrendered
    have htold := steps_diagnose (G := G) rendered.2 (Text.line s!"{source}: {reason}")
    have hloud := mt htold.told.errorText_eq_iff.1 (Text.line_ne_empty _)
    refine ⟨rendering, .failed .reporting, _, ?_,
      hannounced.runs.bind (hrendered.bind (htold.runs.bind (runs_pure _ _ _)))⟩
    have hfailed : rendering.result ≠ .ok () := by
      rw [show rendering.result = .error reason from hresult]
      exact nofun
    exact ⟨rfl, rfl, rfl, rfl, rfl, rfl, rfl, iff_of_false nofun hfailed, fun _ => hsilent,
      iff_of_false hloud nofun⟩

/-- **A report is rendered once,** behind a listing if one was asked for. -/
theorem runs_finish : ∃ rendering outcome t,
    Finished render settings options source notesName dataName r s rendering outcome t ∧
    Runs s (finish (watched render) settings options source notesName dataName r)
      (finish render settings options source notesName dataName r.store) outcome outcome t
      [.rendered rendering] := by
  cases hdump : settings.dump with
  | false => exact runs_finish_silent _ _ _ _ _ _ _ s hdump
  | true =>
    -- With the listing written, what is left is a run that lists nothing.
    have hlisted := steps_diagnose (G := G) s (CoverageStore.listing r.store)
    obtain ⟨rendering, outcome, t, hfinished, hruns⟩ := runs_finish_silent render
      { settings with dump := false } options source notesName dataName r _ rfl
    refine ⟨rendering, outcome, t, { hfinished with before := ?_ }, ?_⟩
    · simp [hdump]
    · unfold finish at hruns ⊢
      simp only [hdump, if_true]
      exact hlisted.runs.bind hruns

end Finish

/-! ## What the cases have in common -/

section Cases

variable {r r' : Recorded G} {name name' text : String} {loaded : Except SystemError (List UInt8)}
  {taken : Except Stage (Recorded G × String)}

/-- Notes that fail are told of, and were not accepted. -/
theorem NotesTaken.of_error {stage : Stage} (h : NotesTaken G loaded (.error stage) text) :
    text ≠ "" ∧ ∀ bytes, loaded = .ok bytes → (noted G bytes).failure ≠ none := by
  cases h with
  | unread e htold => exact ⟨htold, nofun⟩
  | refused bytes htold hfailure =>
    refine ⟨htold, ?_⟩
    rintro _ ⟨⟩
    exact hfailure

/-- A report follows exactly on data that were loaded or not found. -/
theorem DataTaken.isOk_iff (h : DataTaken r name loaded taken text) :
    (∃ v, taken = .ok v) ↔
      (∃ bytes, loaded = .ok bytes) ∨ ∃ e, loaded = .error e ∧ e.isNotFound = true := by
  cases h with
  | missing e hmissing => simp [hmissing]
  | unread e _ hmissing => simp [hmissing]
  | loaded bytes => simp

/-- Data that fail are told of. -/
theorem DataTaken.ne_of_error {stage : Stage} (h : DataTaken r name loaded (.error stage) text) :
    text ≠ "" := by
  cases h with
  | unread e htold => exact htold

/-- **The store reads the data** exactly if they look like data. -/
theorem DataTaken.reads (h : DataTaken r name loaded (.ok (r', name')) text) :
    (∃ bytes, loaded = .ok bytes ∧ CoverageStore.looksLikeData G bytes = true ∧
      r'.reads = r.reads ++ [(.data, bytes)] ∧
      r'.store = (CoverageStore.readData r.store bytes).store) ∨
    (∀ bytes, loaded = .ok bytes → CoverageStore.looksLikeData G bytes = false) ∧ r' = r := by
  cases h with
  | missing e => exact .inr ⟨nofun, rfl⟩
  | loaded bytes hread =>
    cases hread with
    | unlike _ hlooks =>
      refine .inr ⟨?_, rfl⟩
      rintro _ ⟨⟩
      exact hlooks
    | refused _ hlooks => exact .inl ⟨bytes, rfl, hlooks, rfl, rfl⟩
    | accepted hlooks => exact .inl ⟨bytes, rfl, hlooks, rfl, rfl⟩

/-- **The name of the data** is `-` if they were not found, and else stays. -/
theorem DataTaken.name_eq (h : DataTaken r name loaded (.ok (r', name')) text) :
    (∃ e, loaded = .error e ∧ e.isNotFound = true) ∧ name' = Artifact.inputName ∨
      (¬ ∃ e, loaded = .error e ∧ e.isNotFound = true) ∧ name' = name := by
  cases h with
  | missing e hmissing => exact .inl ⟨⟨e, rfl, hmissing⟩, rfl⟩
  | loaded bytes => exact .inr ⟨nofun, rfl⟩

/-- **Nothing is told** exactly of data that were not found or accepted. -/
theorem DataTaken.silent_iff (h : DataTaken r name loaded (.ok (r', name')) text) :
    text = "" ↔ (∃ e, loaded = .error e ∧ e.isNotFound = true) ∨
      ∃ bytes, loaded = .ok bytes ∧ CoverageStore.looksLikeData G bytes = true ∧
        (CoverageStore.readData r.store bytes).failure = none := by
  cases h with
  | missing e hmissing => exact iff_of_true rfl (.inl ⟨e, rfl, hmissing⟩)
  | loaded bytes hread =>
    cases hread with
    | unlike htold hlooks => simp [htold, hlooks]
    | refused htold _ hfailure => simp [htold, hfailure]
    | accepted hlooks hfailure => exact iff_of_true rfl (.inr ⟨bytes, rfl, hlooks, hfailure⟩)

end Cases

/-! ## The run -/

variable {render : Renderer (StateM Session) G} {settings : Settings} {options : Options}
  {source : String} {c : Course G} {t : Session} {outcome : Outcome}

/-- A run that gives up before its report, and says why. -/
theorem keeps_of_no_report (hnames : (c.notesName, c.dataName) =
      (resolve (m := StateM Session) settings source s).1)
    (hopens : c.data.isSome = true ↔ c.NotesAccepted) (hnone : c.rendering = none)
    (hgiven : ¬ (c.NotesAccepted ∧ (c.DataLoaded ∨ c.DataMissing))) {stage : Stage} {text : String}
    (htold : s.Told text t) (hloud : text ≠ "") :
    c.Keeps render settings options source s t (.failed stage) := by
  have hrendered : ∀ r, r ∉ c.rendering := by simp [hnone]
  have hloud' : ¬ c.Untold s t := by
    rw [Course.Untold, hnone]
    exact mt htold.errorText_eq_iff.1 hloud
  exact {
    names := hnames
    opens := hopens
    renders := iff_of_false (by simp [hnone]) hgiven
    asked := fun r hr => absurd hr (hrendered r)
    reads := fun r hr => absurd hr (hrendered r)
    dataName := fun r hr => absurd hr (hrendered r)
    done := iff_of_false nofun fun ⟨r, hr, _⟩ => hrendered r hr
    errors := fun _ => iff_of_false hloud' fun h => nomatch h.1 }

/-- A run that renders a report. -/
theorem keeps_of_report {notes : List UInt8} {loaded : Except SystemError (List UInt8)}
    {rendering : Rendering G} {r : Recorded G} {dataName text : String} {u : Session}
    (hnames : (c.notesName, c.dataName) = (resolve (m := StateM Session) settings source s).1)
    (hnotes : c.notes = .ok notes) (haccepted : (noted G notes).failure = none)
    (hdata : c.data = some loaded) (hrendering : c.rendering = some rendering)
    (htaken : DataTaken ⟨(noted G notes).store, [(.notes, notes)]⟩ c.dataName loaded
      (.ok (r, dataName)) text)
    (htold : s.Told text u)
    (hfinished : Finished render settings options source c.notesName dataName r u rendering outcome t) :
    c.Keeps render settings options source s t outcome := by
  have hmissing : c.DataMissing ↔ ∃ e, loaded = .error e ∧ e.isNotFound = true := by
    simp [Course.DataMissing, hdata]
  have hloaded : c.DataLoaded ↔ ∃ bytes, loaded = .ok bytes := by
    simp [Course.DataLoaded, hdata]
  have hdataAccepted : c.DataAccepted ↔ ∃ bytes, loaded = .ok bytes ∧
      CoverageStore.looksLikeData G bytes = true ∧
      (CoverageStore.readData (noted G notes).store bytes).failure = none := by
    simp [Course.DataAccepted, hnotes, hdata]
  have hnotesAccepted : c.NotesAccepted := ⟨notes, hnotes, haccepted⟩
  have honly : ∀ r', r' ∈ c.rendering ↔ r' = rendering := by simp [hrendering, eq_comm]
  refine
    { names := hnames
      opens := iff_of_true (by simp [hdata]) hnotesAccepted
      renders := ?_, asked := ?_, reads := ?_, dataName := ?_, done := ?_, errors := ?_ }
  · refine iff_of_true (by simp [hrendering]) ⟨hnotesAccepted, ?_⟩
    rw [hloaded, hmissing]
    exact htaken.isOk_iff.1 ⟨_, rfl⟩
  · intro r' hr'
    obtain rfl := (honly r').1 hr'
    refine ⟨hfinished.options_eq, hfinished.source_eq, hfinished.notesName_eq, ?_⟩
    rw [hfinished.dataName_eq, hfinished.store_eq]
    exact hfinished.render_eq
  · intro r' hr'
    obtain rfl := (honly r').1 hr'
    refine ⟨notes, hnotes, ?_⟩
    rw [hfinished.reads_eq, hfinished.store_eq, hdata]
    rcases htaken.reads with ⟨bytes, rfl, hlooks, hreads, hstore⟩ | ⟨hlooks, rfl⟩
    · exact .inl ⟨bytes, rfl, hlooks, hreads, hstore⟩
    · exact .inr ⟨fun bytes hbytes => hlooks bytes (Option.some.inj hbytes), rfl, rfl⟩
  · intro r' hr'
    obtain rfl := (honly r').1 hr'
    rw [hfinished.dataName_eq, hmissing]
    rcases htaken.name_eq with ⟨hnone, hname⟩ | ⟨hfound, hname⟩
    · exact ⟨iff_of_true hname (.inl hnone), fun h => absurd hnone h⟩
    · rw [hname]
      exact ⟨(or_iff_right hfound).symm, fun _ => rfl⟩
  · rw [hfinished.done]
    simp [honly]
  · intro hdump
    have huntold : c.Untold s t ↔ rendering.before.errorText none = s.errorText none ∧
        t.errorText none = rendering.after.errorText none := by
      rw [Course.Untold, hrendering]
    rw [huntold, hfinished.after, hfinished.before hdump, htold.errorText_eq_iff, htaken.silent_iff,
      hmissing, hdataAccepted, and_comm]

/-- **A run keeps to the protocol,** whatever the store and the renderer do: it does so if it is
watched, and it goes as it does without being watched. -/
theorem keeps_protocol (render : Renderer (StateM Session) G) (settings : Settings)
    (options : Options) (source : String) (s : Session) :
    ∃ (c : Course G) (outcome : Outcome) (t : Session),
      run (watched render) settings options source ⟨s, []⟩ = (outcome, ⟨t, c.calls⟩) ∧
        run render settings options source s = (outcome, t) ∧
        c.Keeps render settings options source s t outcome := by
  suffices h : ∃ (c : Course G) (outcome : Outcome) (t : Session),
      Runs s (run (watched render) settings options source) (run render settings options source)
        outcome outcome t c.calls ∧ c.Keeps render settings options source s t outcome by
    obtain ⟨c, outcome, t, hruns, hkeeps⟩ := h
    exact ⟨c, outcome, t, hruns.watched [], hruns.plain, hkeeps⟩
  obtain ⟨⟨notesName, dataName⟩, hresolved⟩ := steps_resolve (G := G) s settings source
  have hnames : (notesName, dataName) = (resolve (m := StateM Session) settings source s).1 :=
    (congrArg Prod.fst hresolved.runs.plain).symm
  obtain ⟨notes, taken, text, hnotes, htook⟩ := steps_takeNotes (G := G) _ notesName
  unfold run
  -- Notes that fail end the run before the data are opened.
  cases taken with
  | error stage =>
    let c : Course G := { notesName, dataName, notes }
    obtain ⟨hloud, hfailure⟩ := hnotes.of_error
    have hrefused : ¬ c.NotesAccepted := fun ⟨bytes, hbytes, hnone⟩ => hfailure bytes hbytes hnone
    have hopens := iff_of_false (a := c.data.isSome = true) nofun hrefused
    refine ⟨c, _, _, hresolved.runs.bind (htook.runs.bind (runs_pure _ _ _)), ?_⟩
    exact keeps_of_no_report hnames hopens rfl (fun h => hrefused h.1)
      (hresolved.told.behind htook.told) hloud
  | ok r =>
    cases hnotes with
    | accepted bytes hfailure =>
      obtain ⟨loaded, taken, text, hdata, hopened⟩ := steps_takeData (G := G) _
        ⟨(noted G bytes).store, [(.notes, bytes)]⟩ dataName
      have hsilent := (hresolved.told.behind htook.told).behind hopened.told
      -- Data that fail end it before the report, unless there are none.
      cases taken with
      | error stage =>
        let c : Course G := { notesName, dataName, notes := .ok bytes, data := some loaded }
        have haccepted : c.NotesAccepted := ⟨bytes, rfl, hfailure⟩
        have hgiven : ¬ (c.NotesAccepted ∧ (c.DataLoaded ∨ c.DataMissing)) := by
          have hnone := mt hdata.isOk_iff.2 nofun
          rintro ⟨-, ⟨bytes', hloaded⟩ | ⟨e, hmissing, he⟩⟩
          · exact hnone (.inl ⟨bytes', Option.some.inj hloaded⟩)
          · exact hnone (.inr ⟨e, Option.some.inj hmissing, he⟩)
        refine ⟨c, _, _, hresolved.runs.bind (htook.runs.bind (hopened.runs.bind (runs_pure _ _ _))), ?_⟩
        exact keeps_of_no_report hnames (iff_of_true rfl haccepted) rfl hgiven hsilent hdata.ne_of_error
      | ok v =>
        obtain ⟨r, shownName⟩ := v
        obtain ⟨rendering, outcome, t, hfinished, hfinish⟩ := runs_finish render settings options
          source notesName shownName r _
        let c : Course G :=
          { notesName, dataName, notes := .ok bytes, data := some loaded, rendering := some rendering }
        refine ⟨c, outcome, t, hresolved.runs.bind (htook.runs.bind (hopened.runs.bind hfinish)), ?_⟩
        exact keeps_of_report hnames rfl hfailure rfl rfl hdata hsilent hfinished

end SourceReport

end ArcCoverage

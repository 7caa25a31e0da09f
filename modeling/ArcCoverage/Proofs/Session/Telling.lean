/-
# What a stage tells

Up to its report, a run on a source writes nothing but diagnostics and log entries.
`Session.Tells s x a text` says that from `s` the computation `x` ends with `a`, has told `text` in
diagnostics and changed nothing else that later stages see. Log entries do not count.

| stage | tells | lemma |
| --- | --- | --- |
| resolving the names | nothing | `SourceReport.tells_resolve` |
| loading an artifact | nothing | `Artifact.tells_load` |
| notes that are accepted | nothing | `SourceReport.tells_takeNotes` |
| data that do not exist | nothing | `SourceReport.tells_takeData_missing` |
| data that are rejected | one line | `SourceReport.tells_takeData_rejected` |
-/
import ArcCoverage.ProfileReport
import ArcCoverage.Proofs.Profile.Staging
import ArcCoverage.Proofs.Session.Abreast

namespace ArcCoverage

namespace Session

/-- **Nothing but `text` was told.** Standard input may have been read. -/
structure Told (s : Session) (text : String) (t : Session) : Prop where
  disk : t.disk = s.disk
  output : t.output = s.output
  fault : t.outputFault = s.outputFault
  errors : t.errorText none = s.errorText none ++ text

theorem Told.refl (s : Session) : s.Told "" s := ⟨rfl, rfl, rfl, String.append_empty.symm⟩

theorem Told.trans {s t u : Session} {text text' : String} (h : s.Told text t)
    (h' : t.Told text' u) : s.Told (text ++ text') u where
  disk := h'.disk.trans h.disk
  output := h'.output.trans h.output
  fault := h'.fault.trans h.fault
  errors := by rw [h'.errors, h.errors, String.append_assoc]

/-- First nothing is told. -/
theorem Told.behind {s t u : Session} {text : String} (h : s.Told "" t) (h' : t.Told text u) :
    s.Told text u := by
  have htrans := h.trans h'
  rwa [String.empty_append] at htrans

/-- What standard error shows stays as it is only if nothing is told. -/
theorem Told.errorText_eq_iff {s t : Session} {text : String} (h : s.Told text t) :
    t.errorText none = s.errorText none ↔ text = "" := by
  rw [h.errors]
  constructor
  · intro heq
    have hlength := congrArg String.length heq
    rw [String.length_append] at hlength
    exact String.length_eq_zero_iff.1 (by omega)
  · rintro rfl
    exact String.append_empty

/-- **Runs that have told nothing and `extra`** are abreast. -/
theorem Told.abreast {shown saved : String → String → Prop} {s t t' : Session} {extra : String}
    (h : s.Told "" t) (h' : s.Told extra t') :
    Abreast shown saved s.disk (s.errorText none) extra (fun _ => False) t t' where
  directories := ⟨by rw [h.disk], fun place => by rw [h.disk]⟩
  current := by rw [h.disk, h'.disk]
  entries place := .inl (by rw [h.disk, h'.disk])
  clean place _ := by rw [h.disk, h'.disk]
  output := by
    rw [h.output, h'.output]
    exact .same s.output
  fault := h.fault.trans h'.fault.symm
  errors := ⟨"", h.errors, by rw [h'.errors, String.append_empty]⟩

/-- A computation whose first part is known. -/
theorem bind_eq {α β : Type} {s t : Session} {x : StateM Session α} {f : α → StateM Session β} {a : α}
    (h : x s = (a, t)) : (x >>= f) s = f a t := by
  change f (x s).1 (x s).2 = f a t
  rw [h]

/-- **A computation that tells `text`** and ends with `a`. -/
def Tells {α : Type} (s : Session) (x : StateM Session α) (a : α) (text : String) : Prop :=
  (x s).1 = a ∧ s.Told text (x s).2

section Tells

variable {α β : Type} {s : Session} {x : StateM Session α} {f : α → StateM Session β} {a : α} {b : β}
  {text : String}

theorem tells_pure (s : Session) (a : α) : s.Tells (pure a) a "" := ⟨rfl, .refl s⟩

theorem Tells.bind {text' : String} (h : s.Tells x a text) (hf : (x s).2.Tells (f a) b text') :
    s.Tells (x >>= f) b (text ++ text') := by
  rw [← h.1] at hf
  exact ⟨hf.1, h.2.trans hf.2⟩

/-- First nothing is told. -/
theorem Tells.before (h : s.Tells x a "") (hf : (x s).2.Tells (f a) b text) :
    s.Tells (x >>= f) b text := by
  rw [← h.1] at hf
  exact ⟨hf.1, h.2.behind hf.2⟩

/-- Then nothing is told. -/
theorem Tells.after (h : s.Tells x a text) (hf : (x s).2.Tells (f a) b "") :
    s.Tells (x >>= f) b text := by
  have hbind := h.bind hf
  rwa [String.append_empty] at hbind

end Tells

theorem tells_note (s : Session) (entry : LogEntry) : s.Tells (Environment.note entry) () "" :=
  ⟨rfl, rfl, rfl, rfl, errorText_record s none (.logged entry)⟩

theorem tells_diagnose (s : Session) (text : String) :
    s.Tells (Environment.diagnose text) () text :=
  ⟨rfl, rfl, rfl, rfl, errorText_record s none (.diagnostic text)⟩

theorem tells_takeInput (s : Session) :
    ∃ loaded, s.Tells (Environment.takeInput : StateM Session _) loaded "" := by
  refine ⟨_, rfl, ?_⟩
  change s.Told "" s.takeInput.2
  unfold takeInput
  cases s.input with
  | ok bytes => exact ⟨rfl, rfl, rfl, String.append_empty.symm⟩
  | error e => exact .refl s

end Session

open Session

variable {s : Session} {name : String}

namespace Artifact

/-- **An artifact that is a file** is what the disk holds. -/
theorem tells_load_file (hname : name ≠ inputName) {loaded : Except SystemError (List UInt8)}
    (hread : s.disk.read name.toList = loaded) : s.Tells (load name) loaded "" := by
  have hloaded : s.Tells (Environment.load name) loaded "" := ⟨hread, .refl s⟩
  unfold load
  rw [if_neg hname]
  refine .before hloaded ?_
  cases loaded with
  | error e => exact tells_pure _ _
  | ok bytes => exact .before (tells_note _ _) (tells_pure _ _)

theorem tells_load (s : Session) (name : String) : ∃ loaded, s.Tells (load name) loaded "" := by
  by_cases hname : name = inputName
  · obtain ⟨taken, htaken⟩ := tells_takeInput s
    refine ⟨taken, ?_⟩
    unfold load
    rw [if_pos hname]
    refine .before htaken ?_
    cases taken with
    | error e => exact tells_pure _ _
    | ok bytes => exact .before (tells_note _ _) (tells_pure _ _)
  · exact ⟨_, tells_load_file hname rfl⟩

end Artifact

namespace SourceReport

theorem tells_announce (s : Session) (stage : Stage) (name : String) :
    s.Tells (announce stage name) () "" :=
  tells_note s _

theorem tells_resolve (s : Session) (settings : Settings) (source : String) :
    ∃ names, s.Tells (resolve settings source) names "" := by
  have hclassified (t : Session) :
      ∃ place, t.Tells (ObjectPlace.classify settings.objectPath) place "" := by
    unfold ObjectPlace.classify
    split_ifs
    · exact ⟨_, tells_pure t _⟩
    · cases hdirectory : t.disk.isDirectory settings.objectPath.toList
      all_goals
        have hasked : t.Tells (Environment.isDirectory settings.objectPath) _ "" :=
          ⟨hdirectory, .refl t⟩
        exact ⟨_, .before hasked (tells_pure t _)⟩
  obtain ⟨place, hplace⟩ := hclassified (s.record (.logged ⟨.debug, .source, _⟩))
  exact ⟨_, .before (tells_note s _) (.before hplace (tells_pure _ _))⟩

theorem tells_noteAll (s : Session) (entries : List LogEntry) : s.Tells (noteAll entries) () "" := by
  induction entries generalizing s with
  | nil => exact tells_pure s ()
  | cons entry entries ih => exact .before (tells_note s entry) (ih _)

theorem tells_reject (s : Session) (kind : FileKind) (name reason : String) :
    s.Tells (reject kind name reason) ()
      (Text.line (match kind with
        | .notes => "Invalid .gcno File!"
        | .data => "Invalid .gcda File!")) := by
  cases kind <;> exact .before (tells_note s _) (tells_diagnose _ _)

/-- **What becomes of notes:** they are told of only if they are refused. -/
theorem tells_takeNotes (s : Session) (name : String) :
    (∃ stage text, s.Tells (takeNotes (G := Profile) name) (.error stage) text) ∨
      ∃ bytes, (Profile.readNotes {} bytes).failure = none ∧
        s.Tells (takeNotes name) (.ok (Profile.readNotes {} bytes).profile) "" := by
  have hannounced := tells_announce s .loadingNotes name
  obtain ⟨loaded, hloaded⟩ := Artifact.tells_load _ name
  unfold takeNotes
  cases loaded with
  | error e =>
    exact .inl ⟨_, _, .before hannounced
      (.before hloaded (.after (tells_diagnose _ _) (tells_pure _ _)))⟩
  | ok bytes =>
    cases hfailure : (Profile.readNotes {} bytes).failure with
    | some e =>
      refine .inl ⟨.validatingNotes, Text.line "Invalid .gcno File!",
        .before hannounced (.before hloaded (.before (tells_noteAll _ _) ?_))⟩
      dsimp only [CoverageStore.readNotes, CoverageStore.empty, Loading.ofNotes]
      rw [hfailure]
      exact .after (tells_reject _ .notes name _) (tells_pure _ _)
    | none =>
      refine .inr ⟨bytes, hfailure,
        .before hannounced (.before hloaded (.before (tells_noteAll _ _) ?_))⟩
      dsimp only [CoverageStore.readNotes, CoverageStore.empty, Loading.ofNotes]
      rw [hfailure]
      exact tells_pure _ _

variable {p : Profile} {bytes : List UInt8}

/-- **Data that do not exist** count as no execution. -/
theorem tells_takeData_missing (p : Profile) (hname : name ≠ Artifact.inputName) {e : SystemError}
    (hread : s.disk.read name.toList = .error e) (he : e.isNotFound = true) :
    s.Tells (takeData p name) (.ok (p, Artifact.inputName)) "" := by
  have hannounced := tells_announce s .loadingData name
  have hdisk := hannounced.2.disk
  unfold takeData
  refine .before hannounced (.before (Artifact.tells_load_file hname (by rw [hdisk, hread])) ?_)
  dsimp only
  rw [if_pos he]
  exact .before (tells_note _ _) (tells_pure _ _)

/-- The diagnostic on data that are rejected. -/
def rejection (name : String) (bytes : List UInt8) : String :=
  if hasDataMagic bytes then "Invalid .gcda File!" else s!"{name}:not a gcov data file"

/-- **Data that are rejected** leave the profile as it is. -/
theorem tells_validateData (s : Session)
    (hrejected : hasDataMagic bytes = false ∨ (p.readData bytes).failure ≠ none) :
    s.Tells (validateData p name bytes) p (Text.line (rejection name bytes)) := by
  unfold validateData rejection
  refine .before (tells_announce s _ _) ?_
  change Tells _ (if !hasDataMagic bytes then _ else _) _ _
  cases hmagic : hasDataMagic bytes with
  | false => exact .after (tells_diagnose _ _) (tells_pure _ p)
  | true =>
    rcases p.readData_cases bytes with ⟨e, skipped, hread⟩ | ⟨_, _, _, _, _, _, _, hread⟩
    · dsimp only [CoverageStore.readData]
      rw [hread]
      exact .before (tells_noteAll _ _) (.after (tells_reject _ .data name _) (tells_pure _ p))
    · rw [hmagic, hread] at hrejected
      simp at hrejected

/-- Their name is shown. -/
theorem tells_takeData_rejected (hname : name ≠ Artifact.inputName)
    (hread : s.disk.read name.toList = .ok bytes)
    (hrejected : hasDataMagic bytes = false ∨ (p.readData bytes).failure ≠ none) :
    s.Tells (takeData p name) (.ok (p, name)) (Text.line (rejection name bytes)) := by
  have hannounced := tells_announce s .loadingData name
  have hdisk := hannounced.2.disk
  unfold takeData
  refine .before hannounced (.before (Artifact.tells_load_file hname (by rw [hdisk, hread])) ?_)
  exact .after (tells_validateData _ hrejected) (tells_pure _ _)

end SourceReport

end ArcCoverage

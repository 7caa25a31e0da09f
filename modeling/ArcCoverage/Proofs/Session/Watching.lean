/-
# Watched runs

A run on a source asks others for three things: it opens artifacts, has a store read them, and has a
report rendered. All three can be watched without changing the run, since it is written for every monad
and for every store:

| asked | watched by | kept as |
| --- | --- | --- |
| `Environment.load`, `Environment.takeInput` | `Watch` | `Call.opened` |
| a renderer | `watched` | `Call.rendered` |
| `CoverageStore.readNotes`, `CoverageStore.readData` | `Recorded` | `Recorded.reads` |

`Watch.Runs` says of a watched run and of the same run on a plain session that they go alike, and what
the first was seen to ask for. `Watch.Steps` says besides that nothing but a text was told, as
`Session.Tells` does; it holds of every stage before the report.
-/
import ArcCoverage.Proofs.Session.Telling

namespace ArcCoverage

/-- **A store that lists what it was given to read.** -/
structure Recorded (G : Type) where
  store : G
  reads : List (FileKind × List UInt8) := []

namespace Recorded

variable {G : Type} [CoverageStore G]

/-- A store after one more reading. -/
def after (r : Recorded G) (kind : FileKind) (bytes : List UInt8) (intake : Intake G) :
    Intake (Recorded G) where
  store := { store := intake.store, reads := r.reads ++ [(kind, bytes)] }
  failure := intake.failure
  log := intake.log

instance : CoverageStore (Recorded G) where
  empty := { store := CoverageStore.empty }
  readNotes r bytes := r.after .notes bytes (CoverageStore.readNotes r.store bytes)
  readData r bytes := r.after .data bytes (CoverageStore.readData r.store bytes)
  looksLikeData := CoverageStore.looksLikeData G
  listing r := CoverageStore.listing r.store

end Recorded

/-- **A report that was asked for:** with what, in which session, and what came of it. -/
structure Rendering (G : Type) where
  options : Options
  source : String
  notesName : String
  dataName : String
  store : G
  /-- What the store had been given to read. -/
  reads : List (FileKind × List UInt8)
  before : Session
  result : Except String Unit
  after : Session

/-- What a run asks for. -/
inductive Call (G : Type) where
  | opened (name : String) (loaded : Except SystemError (List UInt8))
  | rendered (rendering : Rendering G)

/-- **A session that is watched,** and the calls so far. -/
structure Watch (G : Type) where
  session : Session
  calls : List (Call G) := []

namespace Watch

variable {G α β γ δ : Type}

/-- An effect that is not entered. -/
def quietly (y : StateM Session α) : StateM (Watch G) α := fun w =>
  ((y w.session).1, { w with session := (y w.session).2 })

/-- An effect that is entered, with its result and the sessions before and after it. -/
def entering (call : α → Session → Session → Call G) (y : StateM Session α) : StateM (Watch G) α :=
  fun w =>
    ((y w.session).1,
      { session := (y w.session).2
        calls := w.calls ++ [call (y w.session).1 w.session (y w.session).2] })

instance : Environment (StateM (Watch G)) where
  load path := entering (fun loaded _ _ => .opened path loaded) (Environment.load path)
  isDirectory path := quietly (Environment.isDirectory path)
  save path text := quietly (Environment.save path text)
  takeInput := entering (fun loaded _ _ => .opened Artifact.inputName loaded) Environment.takeInput
  emit text := quietly (Environment.emit text)
  diagnose text := quietly (Environment.diagnose text)
  note entry := quietly (Environment.note entry)

end Watch

/-- **A renderer that is watched.** It sees the store without its list. -/
def watched {G : Type} (render : Renderer (StateM Session) G) :
    Renderer (StateM (Watch G)) (Recorded G) :=
  fun options source notesName dataName r =>
    Watch.entering (fun result before after =>
      .rendered { r with options, source, notesName, dataName, before, result, after })
      (render options source notesName dataName r.store)

namespace Watch

variable {G α β γ δ : Type} {s t u : Session} {x : StateM (Watch G) α} {y : StateM Session β}
  {f : α → StateM (Watch G) γ} {g : β → StateM Session δ} {a : α} {b : β} {c : γ} {d : δ}
  {text text' : String} {calls calls' : List (Call G)}

/-- **A watched run and a plain one go alike,** and the first is seen to make `calls`. Their results may
differ in what a store lists. -/
structure Runs (s : Session) (x : StateM (Watch G) α) (y : StateM Session β) (a : α) (b : β)
    (t : Session) (calls : List (Call G)) : Prop where
  watched : ∀ before, x ⟨s, before⟩ = (a, ⟨t, before ++ calls⟩)
  plain : y s = (b, t)

theorem Runs.bind (h : Runs s x y a b t calls) (hf : Runs t (f a) (g b) c d u calls') :
    Runs s (x >>= f) (y >>= g) c d u (calls ++ calls') where
  watched before := by
    change f (x ⟨s, before⟩).1 (x ⟨s, before⟩).2 = _
    rw [h.watched, hf.watched, List.append_assoc]
  plain := (Session.bind_eq h.plain).trans hf.plain

theorem runs_pure (s : Session) (a : α) (b : β) :
    Runs (G := G) s (pure a) (pure b) a b s [] where
  watched before := by
    rw [List.append_nil]
    rfl
  plain := rfl

/-- **A watched run and a plain one go alike,** and tell `text`. -/
structure Steps (s : Session) (x : StateM (Watch G) α) (y : StateM Session β) (a : α) (b : β)
    (text : String) (calls : List (Call G)) : Prop where
  runs : Runs s x y a b (y s).2 calls
  told : s.Told text (y s).2

/-- First nothing is told. -/
theorem Steps.before (h : Steps s x y a b "" calls)
    (hf : Steps (y s).2 (f a) (g b) c d text calls') :
    Steps s (x >>= f) (y >>= g) c d text (calls ++ calls') := by
  have hruns := h.runs.bind hf.runs
  have hafter : ((y >>= g) s).2 = (g b (y s).2).2 := congrArg Prod.snd (Session.bind_eq h.runs.plain)
  rw [← hafter] at hruns
  refine ⟨hruns, ?_⟩
  rw [hafter]
  exact h.told.behind hf.told

/-- Then nothing is told or asked for. -/
theorem Steps.after (h : Steps s x y a b text calls) (hf : Steps (y s).2 (f a) (g b) c d "" []) :
    Steps s (x >>= f) (y >>= g) c d text calls := by
  have hruns := h.runs.bind hf.runs
  have hafter : ((y >>= g) s).2 = (g b (y s).2).2 := congrArg Prod.snd (Session.bind_eq h.runs.plain)
  rw [← hafter, List.append_nil] at hruns
  refine ⟨hruns, ?_⟩
  have htold := h.told.trans hf.told
  rw [String.append_empty] at htold
  rw [hafter]
  exact htold

theorem steps_pure (s : Session) (a : α) (b : β) : Steps (G := G) s (pure a) (pure b) a b "" [] :=
  ⟨runs_pure s a b, .refl s⟩

/-- **What is not entered** goes as it does without being watched. -/
theorem steps_quietly (h : s.Tells y b text) : Steps (G := G) s (quietly y) y b b text [] where
  runs := {
    watched := fun before => by
      rw [List.append_nil, ← h.1]
      rfl
    plain := Prod.ext h.1 rfl }
  told := h.2

/-- **What is entered** goes as it does without being watched. -/
theorem steps_entering (h : s.Tells y b text) (call : β → Session → Session → Call G) :
    Steps s (entering call y) y b b text [call b s (y s).2] where
  runs := {
    watched := fun before => by
      rw [← h.1]
      rfl
    plain := Prod.ext h.1 rfl }
  told := h.2

/-! ## Parts of a stage -/

theorem quietly_pure (a : α) : quietly (G := G) (pure a) = pure a := rfl

theorem quietly_bind (y : StateM Session α) (g : α → StateM Session β) :
    quietly (G := G) (y >>= g) = quietly y >>= fun a => quietly (g a) := rfl

theorem quietly_ite (p : Prop) [Decidable p] (y y' : StateM Session α) :
    quietly (G := G) (if p then y else y') = if p then quietly y else quietly y' := by
  split_ifs <;> rfl

theorem steps_note (s : Session) (entry : LogEntry) :
    Steps (G := G) s (Environment.note entry) (Environment.note entry) () () "" [] :=
  steps_quietly (Session.tells_note s entry)

theorem steps_diagnose (s : Session) (text : String) :
    Steps (G := G) s (Environment.diagnose text) (Environment.diagnose text) () () text [] :=
  steps_quietly (Session.tells_diagnose s text)

/-- **Loading an artifact opens it,** be it a file or standard input. -/
theorem steps_load (s : Session) (name : String) : ∃ loaded,
    Steps (G := G) s (Artifact.load name) (Artifact.load name) loaded loaded ""
      [.opened name loaded] := by
  unfold Artifact.load
  by_cases hname : name = Artifact.inputName
  · obtain ⟨taken, htaken⟩ := Session.tells_takeInput s
    subst hname
    refine ⟨taken, .after (steps_entering htaken _) ?_⟩
    cases taken with
    | error e => exact steps_pure _ _ _
    | ok bytes => exact .before (steps_note _ _) (steps_pure _ _ _)
  · have hread : s.Tells (Environment.load name) (s.disk.read name.toList) "" := ⟨rfl, .refl s⟩
    rw [if_neg hname, if_neg hname]
    refine ⟨s.disk.read name.toList, .after (steps_entering hread _) ?_⟩
    cases s.disk.read name.toList with
    | error e => exact steps_pure _ _ _
    | ok bytes => exact .before (steps_note _ _) (steps_pure _ _ _)

end Watch

namespace SourceReport

open Watch

variable {G : Type} {name : String}

/-! Some parts of a run enter nothing, being put together from effects that do not. -/

theorem quietly_noteAll (entries : List LogEntry) :
    quietly (G := G) (noteAll entries) = noteAll entries := by
  induction entries with
  | nil => rfl
  | cons entry entries ih =>
    rw [noteAll, quietly_bind, ih]
    rfl

theorem quietly_reject (kind : FileKind) (name reason : String) :
    quietly (G := G) (reject kind name reason) = reject kind name reason := by
  cases kind <;> rfl

theorem quietly_resolve (settings : Settings) (source : String) :
    quietly (G := G) (resolve settings source) = resolve settings source := by
  unfold resolve ObjectPlace.classify
  simp only [quietly_bind, quietly_ite, quietly_pure]
  rfl

theorem steps_announce (s : Session) (stage : Stage) (name : String) :
    Steps (G := G) s (announce stage name) (announce stage name) () () "" [] :=
  steps_note s _

theorem steps_noteAll (s : Session) (entries : List LogEntry) :
    Steps (G := G) s (noteAll entries) (noteAll entries) () () "" [] := by
  rw [← quietly_noteAll]
  exact steps_quietly (tells_noteAll s entries)

/-- **A refusal is told.** -/
theorem steps_reject (s : Session) (kind : FileKind) (name reason : String) :
    ∃ text ≠ "", Steps (G := G) s (reject kind name reason) (reject kind name reason) () () text [] := by
  refine ⟨_, ?_, quietly_reject kind name reason ▸ steps_quietly (tells_reject s kind name reason)⟩
  cases kind <;> decide

/-- **Resolving the names** opens nothing. -/
theorem steps_resolve (s : Session) (settings : Settings) (source : String) : ∃ names,
    Steps (G := G) s (resolve settings source) (resolve settings source) names names "" [] := by
  obtain ⟨names, hresolved⟩ := tells_resolve s settings source
  exact ⟨names, quietly_resolve settings source ▸ steps_quietly hresolved⟩

end SourceReport

end ArcCoverage
